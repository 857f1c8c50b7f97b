import AgentWitness.BrokerTaskProofs

/-! # Vault readiness is not a dispatch gate

    A phone may be connected with its vault locked.  The broker records the
    difference and acts on it NOWHERE: after dimming, which turns a ready agent
    into a locked one, readiness events are timer ticks, and `apply` does to the
    dimmed state what it does to the state.  Two runs that differ in readiness
    events only are therefore one run of dimmed states. -/

namespace BrokerGate

open Packet KeyedMap BrokerModel BrokerInvariant BrokerTask

/-- The agent with its vault taken for locked. -/
def dimAgent : RemoteAgentState → RemoteAgentState
  | .ready session_id capacity => .locked session_id capacity
  | agent => agent

/-- The state up to readiness. -/
def dim (s : BrokerState) : BrokerState := { s with agent := dimAgent s.agent }

/-- The event up to readiness. -/
def dimEvent : Event → Event
  | .ready _ => .tick
  | .locked _ => .tick
  | event => event

@[simp] theorem dimAgent_session (agent : RemoteAgentState) :
    (dimAgent agent).session = agent.session := by
  cases agent <;> rfl

theorem dimAgent_disconnected {agent : RemoteAgentState} :
    dimAgent agent = .disconnected ↔ agent = .disconnected := by
  cases agent <;> simp [dimAgent]

theorem dim_connected (s : BrokerState) : (dim s).connected_remote = s.connected_remote := by
  simp only [BrokerState.connected_remote, dim]
  cases s.agent <;> rfl

/-- A connected agent is locked once dimmed. -/
theorem dimAgent_connected {s : BrokerState} {session_id : SessionId} {capacity : Nat}
    (h : s.connected_remote = some (session_id, capacity)) :
    dimAgent s.agent = .locked session_id capacity := by
  unfold BrokerState.connected_remote at h
  cases ha : s.agent with
  | disconnected => rw [ha] at h; cases h
  | locked active n => rw [ha] at h; cases h; rfl
  | ready active n => rw [ha] at h; cases h; rfl

/-- Dim the state in a result. -/
def dimResult (r : BrokerState × List Effect) : BrokerState × List Effect := (dim r.1, r.2)

theorem dispatchQueued_dim (s : BrokerState) :
    (dim s).dispatchQueued = dimResult s.dispatchQueued := by
  cases hc : s.connected_remote with
  | none =>
      rw [dispatchQueued_none hc, dispatchQueued_none ((dim_connected s).trans hc)]
      rfl
  | some r =>
      rw [dispatchQueued_some hc, dispatchQueued_some ((dim_connected s).trans hc)]
      rfl

theorem announceWake_dim (s : BrokerState) : (dim s).announceWake = dimResult s.announceWake := by
  unfold BrokerState.announceWake
  rw [show (dim s).agent.session = s.agent.session from dimAgent_session s.agent]
  show (if s.queue.isEmpty || s.agent.session.isSome then _ else
    if !s.wake_announced then _ else _) = _
  split
  · rfl
  · split
    · rfl
    · rfl

/-- Reconciliation does not look at readiness. -/
theorem reconcile_dim (s : BrokerState) : (dim s).reconcile = dimResult s.reconcile := by
  unfold BrokerState.reconcile
  rw [dispatchQueued_dim]
  show ((dim s.dispatchQueued.1).announceWake.1, _ ++ (dim s.dispatchQueued.1).announceWake.2) = _
  rw [announceWake_dim]
  rfl

/-- Readiness events change readiness and nothing else. -/
theorem handle_readiness {s : BrokerState} {event : Event} {session_id : SessionId}
    (he : event = .ready session_id ∨ event = .locked session_id) :
    ∃ t, s.handle event = .ok (t, []) ∧ dim t = dim s := by
  have hset : ∀ {agent capacity}, s.connected_remote = some (session_id, capacity) →
      dimAgent agent = .locked session_id capacity → dim { s with agent := agent } = dim s := by
    intro agent capacity hc hagent
    show ({ s with agent := dimAgent agent } : BrokerState) = { s with agent := dimAgent s.agent }
    rw [hagent, dimAgent_connected hc]
  cases hh : s.handle event with
  | error e =>
      obtain ⟨active, capacity, rfl, _⟩ := handle_error hh
      rcases he with he | he
      · cases he
      · cases he
  | ok r =>
      obtain ⟨t, own⟩ := r
      rcases he with rfl | rfl
      · cases handle_cases hh with
        | ready hc => exact ⟨_, rfl, hset hc rfl⟩
        | ignored _ => exact ⟨_, rfl, rfl⟩
      · cases handle_cases hh with
        | locked hc => exact ⟨_, rfl, hset hc rfl⟩
        | ignored _ => exact ⟨_, rfl, rfl⟩

/-- **Every arm treats the dimmed state alike.** -/
theorem handle_dim (s : BrokerState) (event : Event) :
    (dim s).handle (dimEvent event) = (s.handle event).map dimResult := by
  have hready : ∀ {session_id}, event = .ready session_id ∨ event = .locked session_id →
      (dim s).handle .tick = (s.handle event).map dimResult := by
    intro session_id he
    obtain ⟨t, ht, hdim⟩ := handle_readiness (s := s) he
    rw [ht]
    show Except.ok (dim s, []) = .ok (dim t, [])
    rw [hdim]
  cases event with
  | ready session_id => exact hready (Or.inl rfl)
  | locked session_id => exact hready (Or.inr rfl)
  | submit request_id packet context deadline requested_at deadline_timestamp =>
      show (dim s).handle (.submit ..) = _
      simp only [BrokerState.handle]
      show (if s.pending.len ≥ s.max_pending_requests then _ else _) = _
      split
      · rfl
      · rfl
  | connected session_id capacity =>
      show (dim s).handle (.connected ..) = _
      simp only [BrokerState.handle]
      by_cases hd : s.agent = .disconnected
      · have hd' : (dim s).agent = .disconnected := dimAgent_disconnected.mpr hd
        rw [if_neg (not_not.mpr hd), if_neg (not_not.mpr hd')]
        rfl
      · have hd' : (dim s).agent ≠ .disconnected := fun h => hd (dimAgent_disconnected.mp h)
        rw [if_pos hd, if_pos hd']
        rfl
  | disconnected session_id =>
      show (dim s).handle (.disconnected ..) = _
      simp only [BrokerState.handle]
      rw [show (dim s).agent.session = s.agent.session from dimAgent_session s.agent]
      split
      · rfl
      · rfl
  | response session_id request_id attempt packet =>
      show (dim s).handle (.response ..) = _
      simp only [BrokerState.handle]
      rw [show (dim s).pending = s.pending from rfl]
      cases s.pending.get? request_id with
      | none => rfl
      | some p =>
          dsimp only
          split
          · rfl
          · rfl
  | cancelled request_id =>
      show (dim s).handle (.cancelled ..) = _
      simp only [BrokerState.handle]
      rw [show (dim s).pending = s.pending from rfl]
      cases s.pending.get? request_id with
      | none => rfl
      | some p => rfl
  | tick => rfl

/-- **A call on the dimmed state** is the dimmed call. -/
theorem apply_dim (s : BrokerState) (event : Event) (now : Instant) :
    (dim s).apply (dimEvent event) now
      = (dim (s.apply event now).1, (s.apply event now).2) := by
  have hh := handle_dim (s.expire now).1 event
  cases he : (s.expire now).1.handle event with
  | error e =>
      rw [he] at hh
      have hdim : ((dim s).expire now).1.handle (dimEvent event) = .error e := hh
      simp only [BrokerState.apply, he, hdim]
      rfl
  | ok r =>
      obtain ⟨t, own⟩ := r
      rw [he] at hh
      have hdim : ((dim s).expire now).1.handle (dimEvent event) = .ok (dim t, own) := hh
      rw [apply_of_handle he, apply_of_handle hdim, reconcile_dim]
      rfl

/-- One timed event may replace another: the same event at the same time, or a
    tick in place of a readiness event. -/
def Replaced (e e' : Event × Instant) : Prop :=
  e'.2 = e.2 ∧ (e'.1 = e.1 ∨
    (∃ session_id, e.1 = .ready session_id ∨ e.1 = .locked session_id) ∧ e'.1 = .tick)

theorem Replaced.dim_eq {e e' : Event × Instant} (h : Replaced e e') :
    dimEvent e'.1 = dimEvent e.1 := by
  rcases h.2 with heq | ⟨⟨session_id, he⟩, htick⟩
  · rw [heq]
  · rw [htick]
    rcases he with he | he
    · rw [he]; rfl
    · rw [he]; rfl

/-- One call on states that are alike. -/
theorem apply_alike {s s' : BrokerState} (hs : dim s = dim s') {e e' : Event × Instant}
    (he : Replaced e e') :
    dim (s.apply e.1 e.2).1 = dim (s'.apply e'.1 e'.2).1 ∧
      (s.apply e.1 e.2).2 = (s'.apply e'.1 e'.2).2 := by
  have h := apply_dim s e.1 e.2
  have h' := apply_dim s' e'.1 e'.2
  rw [he.dim_eq, he.1, ← hs, h] at h'
  rw [he.1]
  exact Prod.mk.inj h'

/-- **Vault readiness is not a dispatch gate.**  Two runs from one state, with the
    same times and the same events except that readiness events of the first may be
    ticks in the second, have the same result at every call and end in states that
    are equal up to readiness. -/
theorem readiness_is_no_gate (s : BrokerState) {events events' : List (Event × Instant)}
    (h : List.Forall₂ Replaced events events') :
    (record s events).map Call.result = (record s events').map Call.result ∧
      dim (replay s events) = dim (replay s events') := by
  have hdim : ∀ {s s' : BrokerState}, dim s = dim s' →
      (record s events).map Call.result = (record s' events').map Call.result ∧
        dim (replay s events) = dim (replay s' events') := by
    induction h with
    | nil => exact fun hs => ⟨rfl, hs⟩
    | @cons e e' rest rest' he _ ih =>
        intro s s' hs
        obtain ⟨hstate, hresult⟩ := apply_alike hs he
        obtain ⟨hresults, hend⟩ := ih hstate
        refine ⟨?_, hend⟩
        show (s.apply e.1 e.2).2 :: (record (s.apply e.1 e.2).1 rest).map Call.result
          = (s'.apply e'.1 e'.2).2 :: (record (s'.apply e'.1 e'.2).1 rest').map Call.result
        rw [hresult, hresults]
  exact hdim rfl

/-- A session connects with a locked vault, unlocks and locks again. -/
def unlockingEvents : List (Event × Instant) :=
  [(.submit ⟨1⟩ [11] none 30 0 30, 0), (.connected ⟨7⟩ 1, 1), (.ready ⟨7⟩, 2), (.locked ⟨7⟩, 3)]

/-- The same with the vault never unlocking. -/
def silentEvents : List (Event × Instant) :=
  [(.submit ⟨1⟩ [11] none 30 0 30, 0), (.connected ⟨7⟩ 1, 1), (.tick, 2), (.locked ⟨7⟩, 3)]

theorem readiness_is_no_gate_unlocking :
    List.Forall₂ Replaced unlockingEvents silentEvents ∧
      (record (.new 4) unlockingEvents).map Call.result
        = (record (.new 4) silentEvents).map Call.result := by
  have h : List.Forall₂ Replaced unlockingEvents silentEvents :=
    .cons ⟨rfl, Or.inl rfl⟩ (.cons ⟨rfl, Or.inl rfl⟩
      (.cons ⟨rfl, Or.inr ⟨⟨⟨7⟩, Or.inl rfl⟩, rfl⟩⟩ (.cons ⟨rfl, Or.inl rfl⟩ .nil)))
  exact ⟨h, (readiness_is_no_gate (.new 4) h).1⟩

end BrokerGate
