import AgentWitness.BrokerChannelProofs

/-! # The broker under transport failure

    A dispatch whose send fails is fed back into the model in the middle of an effect
    list that may hold further dispatches to the same dead session.  A dispatch on the
    worklist is therefore in one of two situations: its session is connected and the
    request in flight to it, or NO session is connected and the request is queued
    again.  The first failure takes every dispatch that is left from the one to the
    other, and nothing takes it back, because a disconnected model dispatches nothing.

    The failure is handled at the time of the turn.  Only a request that is overdue
    the moment it is admitted would expire there instead of being queued, so the
    request timeout must not be zero. -/

namespace BrokerTransport

open Packet KeyedMap BrokerModel BrokerInvariant BrokerCompletion BrokerCorrelation BrokerTask
open BrokerLedger BrokerWaiters BrokerTrace BrokerChannel Transition

/-! ## The model -/

/-- Nothing pending is overdue. -/
def Timely (now : Instant) (s : BrokerState) : Prop :=
  ∀ id p, s.pending.get? id = some p → now < p.deadline

/-- The deadline an event submits. -/
def submittedDeadline : Event → Option Instant
  | .submit _ _ _ deadline _ _ => some deadline
  | _ => none

theorem handle_timely {s t : BrokerState} {event : Event} {own : List Effect} {now : Instant}
    (h : Timely now s) (hh : s.handle event = .ok (t, own))
    (hnew : ∀ deadline, submittedDeadline event = some deadline → now < deadline) :
    Timely now t := by
  intro id q hq
  rcases handle_pending hh hq with ⟨p, hp, hsame, _⟩ | ⟨rfl, _⟩
  · rw [hsame.deadline]
    exact h id p hp
  · exact hnew q.deadline rfl

theorem reconcile_timely {s : BrokerState} (hcons : Consistent s) {now : Instant}
    (h : Timely now s) : Timely now s.reconcile.1 := by
  intro id q hq
  obtain ⟨p, hp, hsame, _⟩ := reconcile_pending_same hcons hq
  rw [hsame.deadline]
  exact h id p hp

/-- After a call nothing is overdue, unless it was submitted so. -/
theorem apply_timely {s s' : BrokerState} {event : Event} {now : Instant} {effects : List Effect}
    (h : Consistent s) (hfresh : ∀ id, submittedId event = some id → s.pending.get? id = none)
    (ha : s.apply event now = (s', .ok effects))
    (hnew : ∀ deadline, submittedDeadline event = some deadline → now < deadline) :
    Timely now s' := by
  obtain ⟨t, own, hh, hcons, _, rfl, _⟩ := apply_stages h hfresh ha
  refine reconcile_timely hcons (handle_timely ?_ hh hnew)
  intro id p hp
  exact (expire_get?_some.mp hp).2

/-- What a call dispatches is in flight after it. -/
theorem apply_dispatches {s s' : BrokerState} {event : Event} {now : Instant}
    {effects : List Effect} (h : Consistent s)
    (hfresh : ∀ id, submittedId event = some id → s.pending.get? id = none)
    (ha : s.apply event now = (s', .ok effects)) {session_id : SessionId} {id : RequestId}
    {attempt : UInt32} {requested_at deadline : UInt64} {packet : Bytes}
    {context : Option RequestContext}
    (he : .dispatch session_id id attempt requested_at deadline packet context ∈ effects) :
    InFlight s' id session_id attempt := by
  obtain ⟨t, own, hh, hcons, _, rfl, rfl⟩ := apply_stages h hfresh ha
  have hreconciled : .dispatch session_id id attempt requested_at deadline packet context
      ∈ t.reconcile.2 := by
    rcases List.mem_append.mp he with he | he
    · cases stages_no_dispatch hh he
    · exact he
  have htag : (id, attempt) ∈ dispatchedTags session_id t.reconcile.2 :=
    List.mem_filterMap.mpr ⟨_, hreconciled, if_pos rfl⟩
  exact (reconcile_dispatchedTags hcons htag).2

/-- **Losing the session.**  Its work is queued again, the rest stays queued, and
    nothing expires. -/
theorem disconnect_queues {s s' : BrokerState} {session_id : SessionId} {now : Instant}
    {effects : List Effect} (h : Consistent s) (htimely : Timely now s)
    (ha : s.apply (.disconnected session_id) now = (s', .ok effects))
    (hlost : s'.agent.session = none) {id : RequestId}
    (hid : Queued s id ∨ ∃ attempt, InFlight s id session_id attempt) : Queued s' id := by
  obtain ⟨t, own, hh, hcons, _, rfl, _⟩ :=
    apply_stages h (fun _ he => absurd he.symm (Option.some_ne_none _)) ha
  rw [reconcile_agent] at hlost
  -- nothing is dispatched from a disconnected state
  have hsame : t.reconcile.1.pending.get? id = t.pending.get? id := by
    rw [reconcile_get? hcons, if_neg]
    intro hd
    obtain ⟨active, hactive⟩ := session_of_dispatchable hd
    cases hlost.symm.trans hactive
  rw [expire_of_none_overdue htimely] at hh
  have hqueued : Queued t id := by
    cases handle_cases hh with
    | disconnected hsession =>
        have hpending : ∃ p, s.pending.get? id = some p := by
          rcases hid with ⟨p, hp, _⟩ | ⟨_, p, hp, _⟩
          · exact ⟨p, hp⟩
          · exact ⟨p, hp⟩
        obtain ⟨p, hp⟩ := hpending
        refine ⟨p.requeued session_id, ?_, requeued_state h hsession hp⟩
        show (s.requeue_session session_id).pending.get? id = _
        rw [requeue_get?, hp]
        rfl
    | ignored hign =>
        rcases hid with hq | ⟨attempt, p, hp, hs⟩
        · exact hq
        · exact absurd (h.current id p session_id attempt hp hs).1 hign
  obtain ⟨p, hp, hs⟩ := hqueued
  exact ⟨p, hsame.trans hp, hs⟩

/-! ## The worklist -/

/-- A dispatch that still waits on the worklist. -/
def Waiting (s : BrokerState) : Effect → Prop
  | .dispatch session_id id attempt _ _ _ _ =>
      s.agent.session = some session_id ∧ InFlight s id session_id attempt
  | _ => True

/-- A dispatch that was given up: its request is queued and no session connected. -/
def GivenUp (s : BrokerState) : Effect → Prop
  | .dispatch _ id _ _ _ _ _ => s.agent.session = none ∧ Queued s id
  | _ => True

/-- A dispatch that went out on the channel of its session. -/
def SentOn (remote : Option (SessionId × ChannelId)) (outputs : List Output) (e : Effect) : Prop :=
  ∃ session_id outbound command, remote = some (session_id, outbound) ∧
    outgoing e = some (session_id, command) ∧ .sent outbound command ∈ outputs

/-- The loop invariant: what became of the dispatches of the turn's call, with the
    channel `R` of the turn and the calls before it. -/
structure Transports (now : Instant) (R : Option (SessionId × ChannelId)) (before : List Call)
    (initial : List Effect) (x : Exec) (work : List Effect) : Prop where
  executing : Executing x.actor work
  timely : Timely now x.actor.state
  remote : x.actor.remote = R ∨ x.actor.remote = none
  calls : ∃ more, x.actor.calls = before ++ more ∧
    ∀ e ∈ emitted more, dispatchSession e ≠ none → e ∈ initial
  settled : ∀ e ∈ initial, dispatchSession e ≠ none →
    SentOn R x.outputs e ∨ GivenUp x.actor.state e ∨ (e ∈ work ∧ Waiting x.actor.state e)

/-- A send reports whether it put the command on the session's channel. -/
theorem send_result (x : Exec) (session_id : SessionId) (command : RemoteCommand) :
    ((x.send session_id command).2 = true ∧
      ∃ outbound, x.actor.remote = some (session_id, outbound) ∧
        (x.send session_id command).1.outputs = x.outputs ++ [.sent outbound command]) ∨
    ((x.send session_id command).2 = false ∧
      (x.send session_id command).1.outputs = x.outputs) := by
  rw [Exec.send]
  cases hr : x.actor.remote with
  | none => exact Or.inr ⟨rfl, rfl⟩
  | some r =>
      obtain ⟨active, outbound⟩ := r
      dsimp only
      by_cases ha : active = session_id
      · subst ha
        rw [if_pos rfl]
        split
        · exact Or.inl ⟨rfl, outbound, rfl, rfl⟩
        · exact Or.inr ⟨rfl, rfl⟩
        · exact Or.inl ⟨rfl, outbound, rfl, rfl⟩
      · rw [if_neg ha]
        exact Or.inr ⟨rfl, rfl⟩

/-- The two ways of a dispatch: out on its channel, or back into the model. -/
theorem dispatch_cases (now : Instant) (x : Exec) {e : Effect} {session_id : SessionId}
    (he : dispatchSession e = some session_id) :
    (SentOn x.actor.remote (x.executeEffect now e).1.outputs e ∧
      (x.executeEffect now e).1.actor = x.actor ∧ (x.executeEffect now e).2 = []) ∨
    ∃ s' pushed, x.actor.state.apply (.disconnected session_id) now = (s', .ok pushed) ∧
      (x.executeEffect now e).1.actor = { x.actor with
        state := s', remote := none
        calls := x.actor.calls ++ [⟨.disconnected session_id, now, .ok pushed⟩] } ∧
      (x.executeEffect now e).2 = pushed := by
  cases e with
  | cancel | wakeRequired | complete => cases he
  | dispatch active id attempt requested_at deadline packet context =>
      obtain rfl := Option.some.inj he
      rcases send_result x active (.request id attempt requested_at deadline packet context) with
        ⟨hsent, outbound, hremote, hout⟩ | ⟨hfailed, hout⟩
      · refine Or.inl ⟨⟨active, outbound, _, hremote, rfl, ?_⟩, ?_, ?_⟩
        · simp only [Exec.executeEffect, hsent, if_true, hout]
          exact List.mem_append_right _ (List.mem_singleton.mpr rfl)
        · simp only [Exec.executeEffect, hsent, if_true, send_actor]
        · simp only [Exec.executeEffect, hsent, if_true]
      · obtain ⟨s', pushed, hap⟩ := apply_disconnected_ok x.actor.state active now
        refine Or.inr ⟨s', pushed, hap, ?_, ?_⟩
        · simp only [Exec.executeEffect, hfailed, BrokerActor.call, send_actor, hap]
          rfl
        · simp only [Exec.executeEffect, hfailed, BrokerActor.call, send_actor, hap]
          rfl

theorem SentOn.mono {remote : Option (SessionId × ChannelId)} {o o' : List Output} {e : Effect}
    (h : SentOn remote o e) (ho : o ⊆ o') : SentOn remote o' e := by
  obtain ⟨session_id, outbound, command, hr, he, hmem⟩ := h
  exact ⟨session_id, outbound, command, hr, he, ho hmem⟩

/-- Executing an effect takes nothing back that was output. -/
theorem outputs_grow (now : Instant) (x : Exec) (e : Effect) :
    x.outputs ⊆ (x.executeEffect now e).1.outputs := by
  obtain ⟨o, hout, _⟩ := executeEffect_outputs now x e
  rw [hout]
  exact List.subset_append_left ..

/-- An effect that is not a dispatch touches neither the model nor the channel. -/
theorem executed_aside {now : Instant} {a a' : BrokerActor} {e : Effect} {pushed : List Effect}
    (h : Executed now a e a' pushed) (he : dispatchSession e = none) :
    a'.state = a.state ∧ a'.remote = a.remote ∧ a'.calls = a.calls := by
  cases h with
  | sent | lost _ => cases he
  | stopped | woke | answered _ | unknown _ => exact ⟨rfl, rfl, rfl⟩

/-- **Step lemma of the worklist.** -/
theorem transports_step {now : Instant} {R : Option (SessionId × ChannelId)} {before : List Call}
    {initial : List Effect} {x : Exec} {e : Effect} {rest : List Effect}
    (h : Transports now R before initial x (e :: rest)) :
    Transports now R before initial (x.executeEffect now e).1
      (rest ++ (x.executeEffect now e).2) := by
  have hexec := executeEffect_cases now x e
  have hexecuting := executed_executing hexec h.executing
  have hgrow := outputs_grow now x e
  cases hsession : dispatchSession e with
  | none =>
      obtain ⟨hstate, hremote, hcalls⟩ := executed_aside hexec hsession
      refine ⟨hexecuting, hstate ▸ h.timely, hremote ▸ h.remote, hcalls ▸ h.calls, ?_⟩
      intro d hd hds
      rw [hstate]
      rcases h.settled d hd hds with hsent | hgiven | ⟨hwork, hwaiting⟩
      · exact Or.inl (hsent.mono hgrow)
      · exact Or.inr (Or.inl hgiven)
      · refine Or.inr (Or.inr ⟨?_, hwaiting⟩)
        rcases List.mem_cons.mp hwork with rfl | hrest
        · exact absurd hsession hds
        · exact List.mem_append_left _ hrest
  | some session_id =>
      rcases dispatch_cases now x hsession with
        ⟨hsent, hactor, hpushed⟩ | ⟨s', pushed, hap, hactor, hpushed⟩
      · refine ⟨hexecuting, hactor ▸ h.timely, hactor ▸ h.remote, hactor ▸ h.calls, ?_⟩
        intro d hd hds
        rw [hactor, hpushed, List.append_nil]
        rcases h.settled d hd hds with hbefore | hgiven | ⟨hwork, hwaiting⟩
        · exact Or.inl (hbefore.mono hgrow)
        · exact Or.inr (Or.inl hgiven)
        · rcases List.mem_cons.mp hwork with rfl | hrest
          · left
            rcases h.remote with hR | hnone
            · exact hR ▸ hsent
            · obtain ⟨_, _, _, hsome, _⟩ := hsent
              cases hnone.symm.trans hsome
          · exact Or.inr (Or.inr ⟨hrest, hwaiting⟩)
      · obtain ⟨hcons, _⟩ := run_consistent h.executing.run h.executing.fresh
        have hlost : s'.agent.session = none := by
          have hlinked := hexecuting.linked
          rw [hactor] at hlinked
          exact hlinked.symm
        have hquiet := executed_no_dispatch hexec h.executing.current
        rw [hpushed] at hquiet
        have htimely : Timely now s' :=
          apply_timely hcons (fun _ he => absurd he.symm (Option.some_ne_none _)) hap
            (fun _ he => absurd he.symm (Option.some_ne_none _))
        refine ⟨hexecuting, hactor ▸ htimely, Or.inr (hactor ▸ rfl), ?_, ?_⟩
        · obtain ⟨more, hmore, hinitial⟩ := h.calls
          refine ⟨more ++ [⟨.disconnected session_id, now, .ok pushed⟩], ?_, ?_⟩
          · rw [hactor]
            show x.actor.calls ++ _ = _
            rw [hmore, List.append_assoc]
          · intro d hd hds
            rw [emitted_snoc] at hd
            rcases List.mem_append.mp hd with hd | hd
            · exact hinitial d hd hds
            · exact absurd (hquiet d hd) hds
        · intro d hd hds
          have hqueues : ∀ {id}, (Queued x.actor.state id ∨
              ∃ attempt, InFlight x.actor.state id session_id attempt) → Queued s' id :=
            disconnect_queues hcons h.timely hap hlost
          rw [hactor]
          rcases h.settled d hd hds with hbefore | hgiven | ⟨_, hwaiting⟩
          · exact Or.inl (hbefore.mono hgrow)
          · refine Or.inr (Or.inl ?_)
            cases d with
            | dispatch active id attempt requested_at deadline packet context =>
                exact ⟨hlost, hqueues (Or.inl hgiven.2)⟩
            | cancel | wakeRequired | complete => trivial
          · refine Or.inr (Or.inl ?_)
            cases d with
            | dispatch active id attempt requested_at deadline packet context =>
                -- it was for the session that the failed one was for
                have hsame : active = session_id := by
                  rcases h.executing.current e (List.mem_cons_self ..) session_id hsession with
                    hnone | hsome
                  · cases hnone.symm.trans hwaiting.1
                  · exact Option.some.inj (hwaiting.1.symm.trans hsome)
                subst hsame
                exact ⟨hlost, hqueues (Or.inr ⟨attempt, hwaiting.2⟩)⟩
            | cancel | wakeRequired | complete => trivial

/-! ## Turns -/

/-- The channel a turn's effects are executed with, if its event is accepted. -/
def channelFor (b : Broker) : Input → Option (SessionId × ChannelId)
  | .command (.connect _ outbound _) session_id => some (session_id, outbound)
  | .command (.disconnected session_id) _ =>
      if b.actor.remote.any (fun remote => remote.1 = session_id) then none else b.actor.remote
  | _ => b.actor.remote

/-- The waiters a turn's effects are executed with. -/
def waitersFor (b : Broker) : Input → Map RequestId ResponseId
  | .localRequest request request_id _ => b.actor.waiters.insert request_id request.response
  | _ => b.actor.waiters

/-- What a turn outputs before its effects. -/
def greetingFor : Input → List Output
  | .command (.connect _ _ response) session_id => [.registered response (.ok session_id)]
  | _ => []

/-- The actor as a turn hands its effects to `execute`. -/
def launched (b : Broker) (t : Turn) (event : Event) (s' : BrokerState) (effects : List Effect) :
    Exec :=
  ⟨{ b.actor with
      state := s', remote := channelFor b t.input, waiters := waitersFor b t.input
      calls := b.actor.calls ++ [⟨event, t.now, .ok effects⟩] }, t.sends, greetingFor t.input⟩

/-- **Inversion of a turn** whose event is accepted. -/
theorem step_launched {b b' : Broker} {t : Turn} {outputs : List Output}
    (hb : b.step t = some (b', outputs)) {event : Event} (he : eventFor b t = some event)
    {s' : BrokerState} {effects : List Effect}
    (hap : b.actor.state.apply event t.now = (s', .ok effects)) :
    b'.actor = ((launched b t event s' effects).execute effects t.now).actor ∧
      outputs = ((launched b t event s' effects).execute effects t.now).outputs := by
  rw [Broker.step] at hb
  split at hb
  · cases hb
  · rw [launched]
    cases hin : t.input with
    | localRequest request request_id requested_at =>
        rw [eventFor, hin] at he
        obtain rfl := Option.some.inj he
        simp only [hin] at hb
        split at hb
        · obtain ⟨rfl, rfl⟩ := Prod.mk.inj (Option.some.inj hb)
          simp only [Exec.handle_local, Exec.apply, Broker.exec, BrokerActor.call, hap]
          exact ⟨rfl, rfl⟩
        · cases hb
    | localClosed | commandsClosed =>
        rw [eventFor, hin] at he
        cases he
    | cancelled request_id =>
        rw [eventFor, hin] at he
        obtain rfl := Option.some.inj he
        simp only [hin] at hb
        obtain ⟨rfl, rfl⟩ := Prod.mk.inj (Option.some.inj hb)
        simp only [Exec.apply, Broker.exec, BrokerActor.call, hap]
        exact ⟨rfl, rfl⟩
    | deadline =>
        rw [eventFor, hin] at he
        obtain rfl := Option.some.inj he
        simp only [hin] at hb
        split at hb
        · obtain ⟨rfl, rfl⟩ := Prod.mk.inj (Option.some.inj hb)
          simp only [Exec.apply, Broker.exec, BrokerActor.call, hap]
          exact ⟨rfl, rfl⟩
        · cases hb
    | command command session_id =>
        rw [eventFor, hin] at he
        simp only [hin] at hb
        obtain ⟨rfl, rfl⟩ := Prod.mk.inj (Option.some.inj hb)
        cases command with
        | connect | ready | locked | disconnected | response =>
            obtain rfl := Option.some.inj he
            simp only [Exec.handle, Exec.apply, Broker.exec, BrokerActor.call, hap]
            exact ⟨rfl, rfl⟩
        | shutdown response => cases he

/-- A turn without an event makes no call. -/
theorem step_idle {b b' : Broker} {t : Turn} {outputs : List Output}
    (hb : b.step t = some (b', outputs)) (he : eventFor b t = none) :
    b'.actor.calls = b.actor.calls ∧ b'.actor.config = b.actor.config := by
  rw [Broker.step] at hb
  rw [eventFor.eq_def] at he
  split at hb
  · cases hb
  · cases hin : t.input with
    | localClosed =>
        simp only [hin] at hb
        split at hb
        · obtain ⟨rfl, _⟩ := Prod.mk.inj (Option.some.inj hb)
          exact ⟨rfl, rfl⟩
        · cases hb
    | commandsClosed =>
        simp only [hin] at hb
        obtain ⟨rfl, _⟩ := Prod.mk.inj (Option.some.inj hb)
        exact ⟨rfl, rfl⟩
    | command command session_id =>
        simp only [hin] at hb he
        obtain ⟨rfl, _⟩ := Prod.mk.inj (Option.some.inj hb)
        cases command with
        | shutdown response => exact ⟨rfl, rfl⟩
        | connect | ready | locked | disconnected | response => cases he
    | localRequest | cancelled | deadline =>
        simp only [hin] at he
        cases he

/-- What is submitted is due one timeout later. -/
theorem eventFor_deadline {b : Broker} {t : Turn} {event : Event} (he : eventFor b t = some event)
    {deadline : Instant} (hd : submittedDeadline event = some deadline) :
    deadline = t.now + b.actor.config.request_timeout := by
  rw [eventFor] at he
  cases hin : t.input with
  | localRequest request request_id requested_at =>
      simp only [hin] at he
      obtain rfl := Option.some.inj he
      exact (Option.some.inj hd).symm
  | cancelled | deadline =>
      simp only [hin] at he
      obtain rfl := Option.some.inj he
      cases hd
  | localClosed | commandsClosed =>
      simp only [hin] at he
      cases he
  | command command session_id =>
      cases command with
      | connect | ready | locked | disconnected | response =>
          simp only [hin] at he
          obtain rfl := Option.some.inj he
          cases hd
      | shutdown =>
          simp only [hin] at he
          cases he

/-- A connect comes from the mailbox. -/
theorem eventFor_connected {b : Broker} {t : Turn} {session_id : SessionId} {capacity : Nat}
    (he : eventFor b t = some (.connected session_id capacity)) :
    ∃ outbound response, t.input = .command (.connect capacity outbound response) session_id := by
  rw [eventFor] at he
  cases hin : t.input with
  | localRequest | cancelled | deadline =>
      simp only [hin] at he
      cases Option.some.inj he
  | localClosed | commandsClosed =>
      simp only [hin] at he
      cases he
  | command command drawn =>
      cases command with
      | connect capacity outbound response =>
          simp only [hin] at he
          obtain ⟨rfl, rfl⟩ := Event.connected.inj (Option.some.inj he)
          exact ⟨outbound, response, rfl⟩
      | ready | locked | disconnected | response =>
          simp only [hin] at he
          cases Option.some.inj he
      | shutdown =>
          simp only [hin] at he
          cases he

/-- What a turn hands to `execute` balances. -/
theorem launched_executing {b : Broker} {t : Turn} (h : Settled b.actor)
    (hnew : ∀ id, requestId t.input = some id → id ∉ submittedIds b.actor.calls) {event : Event}
    (he : eventFor b t = some event) {s' : BrokerState} {effects : List Effect}
    (hap : b.actor.state.apply event t.now = (s', .ok effects)) :
    Executing (launched b t event s' effects).actor effects := by
  have hids : (submittedIds (b.actor.calls ++ [⟨event, t.now, .ok effects⟩])).Nodup := by
    rw [submittedIds_snoc]
    cases hs : submittedId event with
    | none => simpa using h.fresh
    | some id =>
        have hid : requestId t.input = some id := by
          rw [← eventFor_submits b t, he]
          exact hs
        refine List.Nodup.append h.fresh (List.nodup_singleton id) ?_
        intro j hj hmem
        obtain rfl := List.mem_singleton.mp hmem
        exact hnew j hid hj
  have hlink : (channelFor b t.input).map Prod.fst
      = sessionAfter b.actor.state.agent.session event := by
    rw [eventFor] at he
    cases hin : t.input with
    | localRequest | cancelled | deadline =>
        simp only [hin] at he
        obtain rfl := Option.some.inj he
        exact h.linked
    | localClosed | commandsClosed =>
        simp only [hin] at he
        cases he
    | command command drawn =>
        cases command with
        | connect capacity outbound response =>
            simp only [hin] at he
            obtain rfl := Option.some.inj he
            rfl
        | disconnected active =>
            simp only [hin] at he
            obtain rfl := Option.some.inj he
            exact linked_disconnect h.linked active
        | ready | locked | response =>
            simp only [hin] at he
            obtain rfl := Option.some.inj he
            exact h.linked
        | shutdown =>
            simp only [hin] at he
            cases he
  have hbal : ∀ id, pendingOnce b.actor.state id + submittedOnce event id
      = waiterOnce { b.actor with waiters := waitersFor b t.input } id := by
    intro id
    have hsub : submittedId event = requestId t.input := by
      rw [← eventFor_submits b t, he]
      rfl
    rw [submittedOnce, hsub]
    cases hin : t.input with
    | localRequest request request_id requested_at =>
        have hnone : pendingOnce b.actor.state request_id = 0 := by
          have hsubmitted := (run_consistent h.run h.fresh).2 request_id
          cases hp : b.actor.state.pending.get? request_id with
          | none => simp [pendingOnce, hp]
          | some p =>
              exact absurd (hsubmitted (by simp [hp])) (hnew request_id (by rw [hin]; rfl))
        rw [waitersFor, waiterOnce_insert, requestId]
        by_cases hid : request_id = id
        · subst hid
          rw [if_pos rfl, if_pos rfl, hnone]
        · rw [if_neg (fun heq => hid (Option.some.inj heq)), if_neg hid, Nat.add_zero]
          exact h.balanced_nil id
    | localClosed | cancelled | command | commandsClosed | deadline => exact h.balanced_nil id
  exact called_executing (a := { b.actor with waiters := waitersFor b t.input })
    (channelFor b t.input) h.run hids hbal hap hlink

/-- While nothing is refused, the model accepts a turn's event. -/
theorem step_accepted {b b' : Broker} {t : Turn} {outputs : List Output}
    (hb : b.step t = some (b', outputs)) (hok : AllOk b'.actor.calls) {event : Event}
    (he : eventFor b t = some event) :
    ∃ s' effects, b.actor.state.apply event t.now = (s', .ok effects) := by
  cases hres : (b.actor.state.apply event t.now).2 with
  | ok effects => exact ⟨_, effects, Prod.ext rfl hres⟩
  | error e =>
      obtain ⟨_, hh⟩ := apply_error (Prod.ext rfl hres)
      obtain ⟨session_id, capacity, rfl, hagent⟩ := handle_error hh
      obtain ⟨outbound, response, hin⟩ := eventFor_connected he
      exact absurd (connect_accepted hb hok hin) hagent

theorem execute_config (x : Exec) (effects : List Effect) (now : Instant) :
    (x.execute effects now).actor.config = x.actor.config := by
  have hstep : ∀ {a e a' pushed}, Executed now a e a' pushed →
      a.config = x.actor.config → a'.config = x.actor.config := by
    intro a e a' pushed hexec ha
    cases hexec with
    | sent | lost _ | stopped | woke | answered _ | unknown _ => exact ha
  exact execute_invariant now hstep rfl effects

/-- No turn changes the limits, whether or not the model refuses its event. -/
theorem step_config {b b' : Broker} {t : Turn} {outputs : List Output}
    (hb : b.step t = some (b', outputs)) : b'.actor.config = b.actor.config := by
  cases he : eventFor b t with
  | none => exact (step_idle hb he).2
  | some event =>
      cases hres : (b.actor.state.apply event t.now).2 with
      | ok effects =>
          rw [(step_launched hb he (Prod.ext rfl hres)).1, execute_config]
          rfl
      | error e =>
          obtain ⟨_, hh⟩ := apply_error (Prod.ext rfl hres)
          obtain ⟨session_id, capacity, rfl, _⟩ := handle_error hh
          obtain ⟨outbound, response, hin⟩ := eventFor_connected he
          cases e
          rw [Broker.step, if_neg (Bool.eq_false_iff.mp (step_running hb)), hin] at hb
          simp only [Exec.handle, BrokerActor.call, Broker.exec, hres] at hb
          obtain ⟨rfl, _⟩ := Prod.mk.inj (Option.some.inj hb)
          rfl

/-- **Step lemma of the turns.**  Whatever a turn dispatches goes out on the channel of
    its session or is given up. -/
theorem step_transports {b b' : Broker} {t : Turn} {outputs : List Output} (h : Settled b.actor)
    (hb : b.step t = some (b', outputs)) (hok : AllOk b'.actor.calls)
    (htimeout : 0 < b.actor.config.request_timeout)
    (hnew : ∀ id, requestId t.input = some id → id ∉ submittedIds b.actor.calls) {more : List Call}
    (hmore : b'.actor.calls = b.actor.calls ++ more) {e : Effect} (he : e ∈ emitted more)
    (hd : dispatchSession e ≠ none) :
    SentOn (channelFor b t.input) outputs e ∨ GivenUp b'.actor.state e := by
  cases hevent : eventFor b t with
  | none =>
      have hnil : more = [] := by
        have hsame := (step_idle hb hevent).1
        rw [hmore] at hsame
        exact List.append_right_eq_self.mp hsame
      rw [hnil] at he
      cases he
  | some event =>
      obtain ⟨s', effects, hap⟩ := step_accepted hb hok hevent
      obtain ⟨hactor, houtputs⟩ := step_launched hb hevent hap
      have hexecuting := launched_executing h hnew hevent hap
      obtain ⟨hcons, hsubmitted⟩ := run_consistent h.run h.fresh
      have hfresh : ∀ id, submittedId event = some id → b.actor.state.pending.get? id = none := by
        intro id hid
        have hreq : requestId t.input = some id := by
          rw [← eventFor_submits b t, hevent]
          exact hid
        by_contra hne
        exact hnew id hreq (hsubmitted id hne)
      have htimely : Timely t.now s' := by
        refine apply_timely hcons hfresh hap ?_
        intro deadline hdue
        rw [eventFor_deadline hevent hdue]
        exact Nat.lt_add_of_pos_right htimeout
      have hstart : Transports t.now (channelFor b t.input) b.actor.calls effects
          (launched b t event s' effects) effects := by
        refine ⟨hexecuting, htimely, Or.inl rfl, ⟨[⟨event, t.now, .ok effects⟩], rfl, ?_⟩, ?_⟩
        · intro d hd _
          rw [← List.nil_append [_], emitted_snoc] at hd
          exact hd
        · intro d hd hds
          refine Or.inr (Or.inr ⟨hd, ?_⟩)
          cases d with
          | dispatch session_id id attempt requested_at deadline packet context =>
              exact ⟨apply_dispatchSession hap hd rfl, apply_dispatches hcons hfresh hap hd⟩
          | cancel | wakeRequired | complete => trivial
      have hend := rounds_invariant (Exec.executeEffect t.now)
        (Transports t.now (channelFor b t.input) b.actor.calls effects)
        (fun x e rest hx => transports_step hx) 3 _ effects hstart
      rw [rounds_drained] at hend
      obtain ⟨more', hmore', hinitial⟩ := hend.calls
      have hsame : more' = more := by
        have hboth : b.actor.calls ++ more' = b.actor.calls ++ more := by
          rw [← hmore, hactor]
          exact hmore'.symm
        exact List.append_cancel_left hboth
      rw [hactor, houtputs]
      rcases hend.settled e (hinitial e (hsame ▸ he) hd) hd with hsent | hgiven | ⟨hmem, _⟩
      · exact Or.inl hsent
      · exact Or.inr hgiven
      · cases hmem

/-! ## Runs -/

/-- Any turn. -/
abbrev AnyTurn (_ : Broker) (_ : Turn) : Prop := True

/-- Runs of the broker, whatever the transport does. -/
abbrev TransportRun (config : BrokerConfig) : List (Turn × List Output) → Broker → Prop :=
  Run (Fires Broker.step AnyTurn) (Broker.new config)

/-- One more turn of a run in which nothing was refused. -/
theorem step_agreed {b b' : Broker} {t : Turn} {outputs : List Output} {ids : List RequestId}
    (hb : b.step t = some (b', outputs)) (hok : AllOk b'.actor.calls)
    (hf : (ids ++ (requestId t.input).toList).Nodup) (h : Sound ids b) :
    Sound (ids ++ (requestId t.input).toList) b' := by
  refine step_sound hb ?_ ?_ h
  · intro event hevent hrefusal
    obtain ⟨_, hagent, _⟩ := hrefusal
    cases hin : t.input with
    | command command session_id =>
        cases command with
        | connect capacity outbound response =>
            exact hagent (connect_accepted hb hok hin)
        | ready | locked | disconnected | response | shutdown =>
            rw [hin] at hevent
            cases hevent
    | localRequest | localClosed | cancelled | commandsClosed | deadline =>
        rw [hin] at hevent
        cases hevent
  · intro id hid hmem
    rw [hid] at hf
    exact List.disjoint_of_nodup_append hf hmem (List.mem_singleton.mpr rfl)

/-- **Run lemma.** -/
theorem run_agreed {config : BrokerConfig} {h : List (Turn × List Output)} {b : Broker}
    (hr : TransportRun config h b) (hf : (requestIds h).Nodup) (hok : AllOk b.actor.calls) :
    Sound (requestIds h) b ∧ b.actor.config = config := by
  induction hr with
  | nil => exact ⟨⟨rfl, fun _ => settled_new config, fun hs => (by cases hs)⟩, rfl⟩
  | @snoc h b b' l _ hs ih =>
      rw [requestIds_snoc] at hf ⊢
      have hbefore : AllOk b.actor.calls :=
        fun c hc => hok c ((step_causes hs.2).continues.mem hc)
      obtain ⟨hsound, hconfig⟩ := ih (List.nodup_append.mp hf).1 hbefore
      exact ⟨step_agreed hs.2 hok hf hsound, (step_config hs.2).trans hconfig⟩

/-- **Actor and model agree under transport failure.**  With a positive request
    timeout and fresh request ids, after every turn of a run in which the model has
    refused nothing: until the broker stops, the channel belongs to the connected
    session and the callers wait for exactly the pending requests; whatever the turn
    dispatched was sent on the channel of its session, or its request is queued and no
    session connected; and the worklist of `execute` always drains. -/
theorem actor_agrees_with_model {config : BrokerConfig} (htimeout : 0 < config.request_timeout)
    {h : List (Turn × List Output)} {b : Broker} (hr : TransportRun config h b) {t : Turn}
    {b' : Broker} {outputs : List Output} (hstep : b.step t = some (b', outputs))
    (hf : (requestIds (h ++ [(t, outputs)])).Nodup) (hok : AllOk b'.actor.calls) :
    (b'.stopped = false → b'.actor.remote.map Prod.fst = b'.actor.state.agent.session ∧
      b'.actor.waiters.keySet = b'.actor.state.pending.keySet) ∧
    (∀ more, b'.actor.calls = b.actor.calls ++ more →
      ∀ session_id id attempt requested_at deadline packet context,
        .dispatch session_id id attempt requested_at deadline packet context ∈ emitted more →
        (∃ outbound, channelFor b t.input = some (session_id, outbound) ∧
          .sent outbound (.request id attempt requested_at deadline packet context) ∈ outputs) ∨
        (b'.actor.state.agent.session = none ∧ Queued b'.actor.state id)) ∧
    ∀ x effects now, ∃ fuel,
      drain (Exec.executeEffect now) fuel x effects = some (Exec.execute x effects now) := by
  have hbefore : AllOk b.actor.calls := fun c hc => hok c ((step_causes hstep).continues.mem hc)
  rw [requestIds_snoc] at hf
  obtain ⟨hsound, hconfig⟩ := run_agreed hr (List.nodup_append.mp hf).1 hbefore
  have hafter := step_agreed hstep hok hf hsound
  refine ⟨?_, ?_, fun x effects now => execute_terminates now x effects⟩
  · intro hrunning
    have hset := hafter.2.1 hrunning
    refine ⟨hset.linked, ?_⟩
    ext id
    rw [mem_keySet, mem_keySet, ← Option.ne_none_iff_exists', ← Option.ne_none_iff_exists']
    exact hset.waiting_iff id
  · intro more hmore session_id id attempt requested_at deadline packet context he
    have hset := hsound.2.1 (step_running hstep)
    have hnew : ∀ id, requestId t.input = some id → id ∉ submittedIds b.actor.calls := by
      intro id hid hmem
      rw [hsound.1] at hmem
      rw [hid] at hf
      exact List.disjoint_of_nodup_append hf hmem (List.mem_singleton.mpr rfl)
    rcases step_transports hset hstep hok (hconfig ▸ htimeout) hnew hmore he
        (Option.some_ne_none _) with ⟨active, outbound, command, hremote, hout, hsent⟩ | hgiven
    · obtain ⟨rfl, rfl⟩ := Prod.mk.inj (Option.some.inj hout)
      exact Or.inl ⟨outbound, hremote, hsent⟩
    · exact Or.inr hgiven

/-- Two callers wait. -/
def twoCallers : List Turn :=
  [⟨.localRequest ⟨[1], none, 0⟩ ⟨1⟩ 0, 0, none⟩, ⟨.localRequest ⟨[2], none, 1⟩ ⟨2⟩ 0, 0, none⟩]

/-- A session with room for both connects on channel 3, whose receiver is dropped
    after one send. -/
def connects : Turn := ⟨.command (.connect 4 3 9) ⟨7⟩, 1, some 1⟩

/-- What turns lead to. -/
def brokerOutcome (request_timeout : Nat) (turns : List Turn) : List (Turn × List Output) × Broker :=
  outcome Broker.step AnyTurn (.new ⟨request_timeout, 8⟩) turns

/-- What one more turn leads to. -/
def turnOutcome (b : Broker) (t : Turn) : Broker × List Output := (b.step t).getD (b, [])

theorem turnOutcome_step {b : Broker} {t : Turn} (h : (b.step t).isSome = true) :
    b.step t = some ((turnOutcome b t).1, (turnOutcome b t).2) := by
  obtain ⟨r, hr⟩ := Option.isSome_iff_exists.mp h
  rw [turnOutcome, hr]
  rfl

/-- One request went out and both are queued; the callers still wait. -/
theorem actor_agrees_dropped_receiver :
    (turnOutcome (brokerOutcome 5 twoCallers).2 connects).2.countP
        (fun o => o = .sent 3 (.request ⟨1⟩ 1 0 0 [1] none)) = 1 ∧
      (turnOutcome (brokerOutcome 5 twoCallers).2 connects).1.actor.state.queue = [⟨1⟩, ⟨2⟩] ∧
      (turnOutcome (brokerOutcome 5 twoCallers).2 connects).1.actor.waiters.keySet
        = (turnOutcome (brokerOutcome 5 twoCallers).2 connects).1.actor.state.pending.keySet := by
  have hrun : TransportRun ⟨5, 8⟩ (brokerOutcome 5 twoCallers).1 (brokerOutcome 5 twoCallers).2 :=
    run_outcome Broker.step AnyTurn twoCallers (by decide)
  refine ⟨by decide, by decide, ?_⟩
  exact ((actor_agrees_with_model (by decide) hrun (turnOutcome_step (by decide))
    (by rw [requestIds_snoc]; decide) (by decide)).1 (by decide)).2

/-- A session with nobody waiting connects, then a caller asks whose request times out
    at once, on a channel whose receiver is gone. -/
def askOverdue : Turn := ⟨.localRequest ⟨[1], none, 0⟩ ⟨1⟩ 0, 1, some 0⟩

/-- **The overdue request.**  With a timeout of zero the request of a dispatch whose
    send fails expires instead of being queued again. -/
theorem zero_timeout_expires_dispatch :
    Effect.dispatch ⟨7⟩ ⟨1⟩ 1 0 0 [1] none
        ∈ emitted (turnOutcome (brokerOutcome 0 [connects]).2 askOverdue).1.actor.calls ∧
      (turnOutcome (brokerOutcome 0 [connects]).2 askOverdue).2
        = [.answered 0 (.error .timedOut)] ∧
      (turnOutcome (brokerOutcome 0 [connects]).2 askOverdue).1.actor.state.pending.get? ⟨1⟩
        = none := by
  decide

end BrokerTransport
