import AgentWitness.BrokerModelProofs
import AgentWitness.TransitionProofs

/-! # The broker's representation invariant

    The broker keeps two redundant structures: `pending`, the authoritative map
    with a state per entry, and `queue`, the FIFO of ids still to dispatch.
    `Consistent` says that they agree, that in-flight work belongs to the
    connected session under its current attempt number, and that both the
    session's capacity and the configured limit hold.

    Every operation of the model keeps it, so it holds after any sequence of
    `apply` calls, refused ones included; and reconciliation never leaves work
    in the queue while the session has room. -/

namespace BrokerInvariant

open Packet KeyedMap BrokerModel Transition

/-- The representation invariant of the broker state. -/
structure Consistent (s : BrokerState) : Prop where
  queue_nodup : s.queue.Nodup
  mem_queue : ∀ id, id ∈ s.queue ↔ ∃ p, s.pending.get? id = some p ∧ p.state = .queued
  current : ∀ id p session_id attempt, s.pending.get? id = some p →
    p.state = .inFlight session_id attempt →
    s.agent.session = some session_id ∧ attempt = p.attempt
  in_capacity : ∀ session_id capacity, s.connected_remote = some (session_id, capacity) →
    s.in_flight_for session_id ≤ capacity
  bounded : s.pending.len ≤ s.max_pending_requests

/-- The invariant reads the agent only through its connection, and not the
    sequence counter or the wake flag. -/
theorem Consistent.congr {s t : BrokerState} (h : Consistent s)
    (hp : t.pending = s.pending) (hq : t.queue = s.queue)
    (hm : t.max_pending_requests = s.max_pending_requests)
    (hc : t.connected_remote = s.connected_remote) : Consistent t where
  queue_nodup := hq ▸ h.queue_nodup
  mem_queue := by
    intro id
    rw [hq, hp]
    exact h.mem_queue id
  current := by
    intro id p session_id attempt hg hs
    rw [session_eq_connected, hc, ← session_eq_connected]
    exact h.current id p session_id attempt (hp ▸ hg) hs
  in_capacity := by
    intro session_id capacity hconn
    have hle := h.in_capacity session_id capacity (hc ▸ hconn)
    simpa only [BrokerState.in_flight_for, hp] using hle
  bounded := by
    rw [hp, hm]
    exact h.bounded

theorem consistent_new (max_pending_requests : Nat) :
    Consistent (BrokerState.new max_pending_requests) where
  queue_nodup := List.nodup_nil
  mem_queue := by
    intro id
    simp [BrokerState.new]
  current := by
    intro id p session_id attempt hg _
    simp [BrokerState.new] at hg
  in_capacity := by
    intro session_id capacity h
    cases h
  bounded := Nat.zero_le _

/-- A request in flight to a session is in the `inFlight` state of it. -/
theorem inFlightFor_iff {p : PendingRequest} {session_id : SessionId} :
    p.inFlightFor session_id = true ↔ ∃ attempt, p.state = .inFlight session_id attempt := by
  unfold PendingRequest.inFlightFor
  cases hs : p.state with
  | queued => simp
  | inFlight active attempt => simp

theorem inFlightFor_of_queued {p : PendingRequest} (h : p.state = .queued)
    (session_id : SessionId) : p.inFlightFor session_id = false := by
  simp [PendingRequest.inFlightFor, h]

/-- Without an entry in flight the count is zero. -/
theorem in_flight_for_eq_zero {s : BrokerState} {session_id : SessionId}
    (h : ∀ id p, s.pending.get? id = some p → p.inFlightFor session_id = false) :
    s.in_flight_for session_id = 0 := by
  refine List.countP_eq_zero.mpr ?_
  rintro ⟨id, p⟩ he
  rw [h id p ((mem_entries_iff _ _ _).mp he)]
  exact Bool.false_ne_true

/-- Nothing is in flight while no remote is connected. -/
theorem Consistent.queued_of_disconnected {s : BrokerState} (h : Consistent s)
    (hd : s.agent.session = none) {id : RequestId} {p : PendingRequest}
    (hp : s.pending.get? id = some p) : p.state = .queued := by
  cases hs : p.state with
  | queued => rfl
  | inFlight session_id attempt =>
      have := (h.current id p session_id attempt hp hs).1
      rw [hd] at this
      cases this

/-! ## Expiry -/

theorem consistent_expire {s : BrokerState} (h : Consistent s) (now : Instant) :
    Consistent (s.expire now).1 where
  queue_nodup := List.Nodup.sublist List.filter_sublist h.queue_nodup
  mem_queue := by
    intro id
    rw [mem_expire_queue]
    constructor
    · rintro ⟨hq, hlt⟩
      obtain ⟨p, hp, hs⟩ := (h.mem_queue id).mp hq
      exact ⟨p, expire_get?_some.mpr ⟨hp, hlt p hp⟩, hs⟩
    · rintro ⟨p, hp, hs⟩
      obtain ⟨hp', hlt⟩ := expire_get?_some.mp hp
      refine ⟨(h.mem_queue id).mpr ⟨p, hp', hs⟩, ?_⟩
      intro q hq
      obtain rfl := Option.some.inj (hp'.symm.trans hq)
      exact hlt
  current := by
    intro id p session_id attempt hp hs
    exact h.current id p session_id attempt (expire_get?_some.mp hp).1 hs
  in_capacity := by
    intro session_id capacity hc
    exact Nat.le_trans (removeExpired_count_le _ s.pending _) (h.in_capacity _ _ hc)
  bounded := Nat.le_trans (removeExpired_len_le _ s.pending) h.bounded

/-! ## The event's own change -/

/-- Admitting a request under an unused id. -/
theorem consistent_admit {s : BrokerState} (h : Consistent s) {id : RequestId}
    {p : PendingRequest} (hfresh : s.pending.get? id = none) (hp : p.state = .queued)
    (hroom : s.pending.len < s.max_pending_requests) (n : UInt64) :
    Consistent { s with next_sequence := n, pending := s.pending.insert id p,
                        queue := s.queue ++ [id], wake_announced := false } where
  queue_nodup := by
    have hnot : id ∉ s.queue := by
      intro hq
      obtain ⟨q, hq', _⟩ := (h.mem_queue id).mp hq
      rw [hfresh] at hq'
      cases hq'
    exact List.Nodup.append h.queue_nodup (List.nodup_singleton id) (by simpa using hnot)
  mem_queue := by
    intro j
    show j ∈ s.queue ++ [id] ↔ ∃ q, (s.pending.insert id p).get? j = some q ∧ _
    rw [List.mem_append, List.mem_singleton, h.mem_queue, get?_insert]
    by_cases hj : j = id
    · subst hj
      simp [hp]
    · simp [hj]
  current := by
    intro j q session_id attempt hq hs
    rcases get?_of_insert hq with ⟨_, rfl⟩ | ⟨_, hold⟩
    · rw [hp] at hs
      cases hs
    · exact h.current j q session_id attempt hold hs
  in_capacity := by
    intro session_id capacity hc
    have hle := h.in_capacity session_id capacity hc
    have hcount := count_insert_fresh s.pending (v := p)
      (fun e => e.2.inFlightFor session_id) hfresh
    simp only [inFlightFor_of_queued hp, Bool.false_eq_true, if_false, Nat.add_zero] at hcount
    show (s.pending.insert id p).count _ ≤ capacity
    rw [hcount]
    exact hle
  bounded := by
    show (s.pending.insert id p).len ≤ s.max_pending_requests
    rw [len_insert_fresh s.pending hfresh]
    exact hroom

/-- Forgetting a request, together with its place in the queue. -/
theorem consistent_remove {s : BrokerState} (h : Consistent s) (id : RequestId) :
    Consistent { s with pending := s.pending.erase id,
                        queue := s.queue.filter (fun queued => queued ≠ id) } where
  queue_nodup := List.Nodup.sublist List.filter_sublist h.queue_nodup
  mem_queue := by
    intro j
    show j ∈ s.queue.filter _ ↔ ∃ q, (s.pending.erase id).get? j = some q ∧ _
    rw [List.mem_filter, decide_eq_true_eq, h.mem_queue, get?_erase]
    by_cases hj : j = id
    · simp [hj]
    · simp [hj]
  current := by
    intro j q session_id attempt hq hs
    exact h.current j q session_id attempt (get?_of_erase hq).2 hs
  in_capacity := by
    intro session_id capacity hc
    exact Nat.le_trans (count_filter_le s.pending _ _) (h.in_capacity _ _ hc)
  bounded := Nat.le_trans (len_filter_le s.pending _) h.bounded

/-- A request in flight is not in the queue, so forgetting it leaves the queue
    as it is. -/
theorem Consistent.queue_filter {s : BrokerState} (h : Consistent s) {id : RequestId}
    {p : PendingRequest} {session_id : SessionId} {attempt : UInt32}
    (hp : s.pending.get? id = some p) (hs : p.state = .inFlight session_id attempt) :
    s.queue.filter (fun queued => queued ≠ id) = s.queue := by
  apply List.filter_eq_self.mpr
  intro j hj
  have hne : j ≠ id := by
    rintro rfl
    obtain ⟨q, hq, hqs⟩ := (h.mem_queue j).mp hj
    obtain rfl := Option.some.inj (hp.symm.trans hq)
    rw [hs] at hqs
    cases hqs
  simpa using hne

/-- Binding a session to a disconnected broker. -/
theorem consistent_connect {s : BrokerState} (h : Consistent s)
    (hd : s.agent = .disconnected) (session_id : SessionId) (capacity : Nat) :
    Consistent { s with agent := .locked session_id capacity, wake_announced := false } where
  queue_nodup := h.queue_nodup
  mem_queue := h.mem_queue
  current := by
    intro id p active attempt hp hs
    have hq := h.queued_of_disconnected (by rw [hd]; rfl) hp
    rw [hs] at hq
    cases hq
  in_capacity := by
    intro active cap _
    have hzero : s.in_flight_for active = 0 := in_flight_for_eq_zero (fun id p hp =>
      inFlightFor_of_queued (h.queued_of_disconnected (by rw [hd]; rfl) hp) active)
    exact hzero ▸ Nat.zero_le _
  bounded := h.bounded

theorem requeued_state {s : BrokerState} (h : Consistent s) {session_id : SessionId}
    (hc : s.agent.session = some session_id) {id : RequestId} {p : PendingRequest}
    (hp : s.pending.get? id = some p) : (p.requeued session_id).state = .queued := by
  unfold PendingRequest.requeued
  cases hs : p.state with
  | queued => rw [if_neg (by simp [inFlightFor_of_queued hs])]; exact hs
  | inFlight active attempt =>
      have hact := (h.current id p active attempt hp hs).1
      rw [hc] at hact
      obtain rfl := Option.some.inj hact
      rw [if_pos (inFlightFor_iff.mpr ⟨attempt, hs⟩)]

/-- Losing the connected session: all its work is queued again. -/
theorem consistent_disconnect {s : BrokerState} (h : Consistent s) {session_id : SessionId}
    (hc : s.agent.session = some session_id) :
    Consistent { s.requeue_session session_id with
      agent := .disconnected, wake_announced := false } where
  queue_nodup := by
    refine List.Nodup.append
      (sorted_ids_nodup s.pending (fun p => p.inFlightFor session_id)) h.queue_nodup ?_
    intro id hin hq
    obtain ⟨p, hp, hf⟩ := (mem_sorted_ids s.pending
      (fun p => p.inFlightFor session_id) id).mp hin
    obtain ⟨q, hq', hqs⟩ := (h.mem_queue id).mp hq
    obtain rfl := Option.some.inj (hp.symm.trans hq')
    rw [inFlightFor_of_queued hqs] at hf
    cases hf
  mem_queue := by
    intro id
    show id ∈ (s.requeue_session session_id).queue
      ↔ ∃ p, (s.requeue_session session_id).pending.get? id = some p ∧ p.state = .queued
    rw [mem_requeue_queue, requeue_get?]
    constructor
    · rintro (⟨p, hp, _⟩ | hq)
      · exact ⟨p.requeued session_id, by rw [hp]; rfl, requeued_state h hc hp⟩
      · obtain ⟨p, hp, _⟩ := (h.mem_queue id).mp hq
        exact ⟨p.requeued session_id, by rw [hp]; rfl, requeued_state h hc hp⟩
    · rintro ⟨q, hq, _⟩
      obtain ⟨p, hp, rfl⟩ := Option.map_eq_some_iff.mp hq
      cases hs : p.state with
      | queued => exact Or.inr ((h.mem_queue id).mpr ⟨p, hp, hs⟩)
      | inFlight active attempt =>
          have hact := (h.current id p active attempt hp hs).1
          rw [hc] at hact
          obtain rfl := Option.some.inj hact
          exact Or.inl ⟨p, hp, inFlightFor_iff.mpr ⟨attempt, hs⟩⟩
  current := by
    intro id p active attempt hp hs
    have hp' : (s.requeue_session session_id).pending.get? id = some p := hp
    rw [requeue_get?] at hp'
    obtain ⟨q, hq, rfl⟩ := Option.map_eq_some_iff.mp hp'
    rw [requeued_state h hc hq] at hs
    cases hs
  in_capacity := by
    intro active capacity hconn
    cases hconn
  bounded := by
    show (s.pending.mapValues _).len ≤ s.max_pending_requests
    have hlen : (s.pending.mapValues (fun _ p => p.requeued session_id)).len
        = s.pending.len := List.length_map ..
    rw [hlen]
    exact h.bounded

/-- The id an event submits, if it is a submission. -/
def submittedId : Event → Option RequestId
  | .submit request_id _ _ _ _ _ => some request_id
  | _ => none

/-- **Every arm of `apply` keeps the invariant**, a submission provided that its
    id is not pending. -/
theorem consistent_handle {s t : BrokerState} {event : Event} {effects : List Effect}
    (h : Consistent s)
    (hfresh : ∀ id, submittedId event = some id → s.pending.get? id = none)
    (ht : s.handle event = .ok (t, effects)) : Consistent t := by
  cases handle_cases ht with
  | full _ => exact h
  | admitted hroom => exact consistent_admit h (hfresh _ rfl) rfl hroom _
  | connected hd => exact consistent_connect h hd _ _
  | ready hc => exact h.congr rfl rfl rfl hc.symm
  | locked hc => exact h.congr rfl rfl rfl hc.symm
  | disconnected hs => exact consistent_disconnect h hs
  | @answered _ request_id _ _ _ hp hs =>
      have hr := consistent_remove h request_id
      rw [h.queue_filter hp hs] at hr
      exact hr
  | cancelled _ => exact consistent_remove h _
  | ignored _ => exact h

/-! ## Reconciliation -/

theorem Consistent.queue_present {s : BrokerState} (h : Consistent s) :
    ∀ id ∈ s.queue, ∃ p, s.pending.get? id = some p := by
  intro id hid
  obtain ⟨p, hp, _⟩ := (h.mem_queue id).mp hid
  exact ⟨p, hp⟩

/-- What a lookup sees after reconciliation: the dispatchable requests are in
    flight with the next attempt number, all others are untouched. -/
theorem reconcile_get? {s : BrokerState} (h : Consistent s) (id : RequestId) :
    s.reconcile.1.pending.get? id
      = if id ∈ s.dispatchable
        then (s.pending.get? id).bind (fun p =>
          s.agent.session.map (fun session_id => p.dispatched session_id))
        else s.pending.get? id := by
  rw [reconcile_pending, BrokerState.dispatchable, session_eq_connected]
  cases hc : s.connected_remote with
  | none => simp [dispatchQueued_none hc]
  | some r =>
      obtain ⟨session_id, capacity⟩ := r
      rw [dispatchQueued_some hc]
      show (dispatchLoop session_id capacity s.queue s.pending _).1.get? id = _
      rw [dispatchLoop_get? h.queue_nodup h.queue_present]
      simp only [Option.map_eq_bind]
      rfl

/-- Reconciliation takes the dispatchable requests off the front of the queue. -/
theorem dispatchable_append_queue {s : BrokerState} (h : Consistent s) :
    s.dispatchable ++ s.reconcile.1.queue = s.queue := by
  rw [reconcile_queue, BrokerState.dispatchable]
  cases hc : s.connected_remote with
  | none => simp [dispatchQueued_none hc]
  | some r =>
      obtain ⟨session_id, capacity⟩ := r
      rw [dispatchQueued_some hc]
      show s.queue.take _ ++ (dispatchLoop session_id capacity s.queue s.pending _).2.1 = _
      rw [dispatchLoop_queue h.queue_present, List.take_append_drop]

theorem mem_dispatchable_queued {s : BrokerState} (h : Consistent s) {id : RequestId}
    (hid : id ∈ s.dispatchable) : ∃ p, s.pending.get? id = some p ∧ p.state = .queued := by
  refine (h.mem_queue id).mp ?_
  rw [← dispatchable_append_queue h]
  exact List.mem_append_left _ hid

/-- A dispatchable request needs a connected session. -/
theorem session_of_dispatchable {s : BrokerState} {id : RequestId}
    (hid : id ∈ s.dispatchable) : ∃ session_id, s.agent.session = some session_id := by
  unfold BrokerState.dispatchable at hid
  rw [session_eq_connected]
  cases hc : s.connected_remote with
  | none => rw [hc] at hid; cases hid
  | some r => exact ⟨r.1, rfl⟩

/-- Reconciliation emits dispatches of the dispatchable requests, in queue
    order, and possibly one wake request. -/
theorem reconcile_effects {s : BrokerState} (h : Consistent s) :
    s.reconcile.2
      = s.dispatchable.filterMap (fun id => (s.pending.get? id).bind (fun p =>
          s.agent.session.map (fun session_id =>
            (p.dispatched session_id).dispatchEffect session_id id)))
        ++ s.dispatchQueued.1.announceWake.2 := by
  show s.dispatchQueued.2 ++ _ = _
  congr 1
  rw [BrokerState.dispatchable, session_eq_connected]
  cases hc : s.connected_remote with
  | none => simp [dispatchQueued_none hc]
  | some r =>
      obtain ⟨session_id, capacity⟩ := r
      rw [dispatchQueued_some hc]
      show (dispatchLoop session_id capacity s.queue s.pending _).2.2 = _
      rw [dispatchLoop_effects h.queue_nodup h.queue_present]
      simp only [Option.map_eq_bind]
      rfl

/-- An effect of reconciliation is a dispatch of a queued request to the
    connected session, or a wake request. -/
theorem mem_reconcile_effects {s : BrokerState} (h : Consistent s) {e : Effect}
    (he : e ∈ s.reconcile.2) :
    (∃ id p session_id, id ∈ s.dispatchable ∧ s.pending.get? id = some p ∧
      s.agent.session = some session_id ∧
      e = (p.dispatched session_id).dispatchEffect session_id id)
    ∨ ∃ w, e = .wakeRequired w := by
  rw [reconcile_effects h, List.mem_append] at he
  rcases he with hd | hw
  · refine Or.inl ?_
    obtain ⟨id, hid, heq⟩ := List.mem_filterMap.mp hd
    obtain ⟨p, hp, heq⟩ := Option.bind_eq_some_iff.mp heq
    obtain ⟨session_id, hs, rfl⟩ := Option.map_eq_some_iff.mp heq
    exact ⟨id, p, session_id, hid, hp, hs, rfl⟩
  · refine Or.inr ?_
    rcases announceWake_effects s.dispatchQueued.1 with hnil | ⟨w, hone⟩
    · rw [hnil] at hw
      cases hw
    · rw [hone] at hw
      exact ⟨w, List.mem_singleton.mp hw⟩

theorem reconcile_in_flight {s : BrokerState} (h : Consistent s) {session_id : SessionId}
    {capacity : Nat} (hc : s.connected_remote = some (session_id, capacity)) :
    s.reconcile.1.in_flight_for session_id
      = s.in_flight_for session_id
        + (s.queue.take (capacity - s.in_flight_for session_id)).length := by
  rw [BrokerState.in_flight_for, reconcile_pending, dispatchQueued_some hc]
  exact dispatchLoop_count h.queue_nodup (fun id hid => (h.mem_queue id).mp hid)

@[simp] theorem reconcile_connected (s : BrokerState) :
    s.reconcile.1.connected_remote = s.connected_remote := by
  simp [BrokerState.connected_remote]

theorem consistent_reconcile {s : BrokerState} (h : Consistent s) :
    Consistent s.reconcile.1 where
  queue_nodup := by
    have hn := h.queue_nodup
    rw [← dispatchable_append_queue h] at hn
    exact (List.nodup_append.mp hn).2.1
  mem_queue := by
    intro id
    have hn := h.queue_nodup
    rw [← dispatchable_append_queue h] at hn
    rw [reconcile_get? h]
    by_cases hd : id ∈ s.dispatchable
    · -- dispatched: in flight now, and gone from the queue
      obtain ⟨p, hp, _⟩ := mem_dispatchable_queued h hd
      obtain ⟨session_id, hsess⟩ := session_of_dispatchable hd
      rw [if_pos hd, hp, hsess]
      constructor
      · intro hq
        exact absurd hq (List.disjoint_of_nodup_append hn hd)
      · rintro ⟨q, hq, hqs⟩
        obtain rfl := Option.some.inj hq
        cases hqs
    · rw [if_neg hd, ← h.mem_queue, ← dispatchable_append_queue h, List.mem_append]
      simp [hd]
  current := by
    intro id p session_id attempt hp hs
    rw [reconcile_agent]
    rw [reconcile_get? h] at hp
    by_cases hd : id ∈ s.dispatchable
    · obtain ⟨q, hq, _⟩ := mem_dispatchable_queued h hd
      obtain ⟨active, hsess⟩ := session_of_dispatchable hd
      rw [if_pos hd, hq, hsess] at hp
      obtain rfl := Option.some.inj hp
      obtain ⟨rfl, rfl⟩ := PendingState.inFlight.inj hs
      exact ⟨hsess, rfl⟩
    · rw [if_neg hd] at hp
      exact h.current id p session_id attempt hp hs
  in_capacity := by
    intro session_id capacity hc
    rw [reconcile_connected] at hc
    have hle := h.in_capacity session_id capacity hc
    rw [reconcile_in_flight h hc, List.length_take]
    omega
  bounded := by
    rw [reconcile_pending, reconcile_max]
    cases hc : s.connected_remote with
    | none => rw [dispatchQueued_none hc]; exact h.bounded
    | some r =>
        obtain ⟨session_id, capacity⟩ := r
        rw [dispatchQueued_some hc]
        show (dispatchLoop session_id capacity s.queue s.pending _).1.len ≤ _
        rw [dispatchLoop_len h.queue_present]
        exact h.bounded

/-- **Work conservation of one reconciliation**: it stops at an empty queue or at
    full capacity. -/
theorem reconcile_saturates {s : BrokerState} (h : Consistent s) {session_id : SessionId}
    {capacity : Nat} (hc : s.connected_remote = some (session_id, capacity)) :
    s.reconcile.1.queue = [] ∨ s.reconcile.1.in_flight_for session_id = capacity := by
  have hle := h.in_capacity session_id capacity hc
  have hq : s.reconcile.1.queue = s.queue.drop (capacity - s.in_flight_for session_id) := by
    rw [reconcile_queue, dispatchQueued_some hc]
    exact dispatchLoop_queue h.queue_present
  rw [hq, reconcile_in_flight h hc, List.length_take]
  by_cases hlen : s.queue.length ≤ capacity - s.in_flight_for session_id
  · exact Or.inl (List.drop_eq_nil_of_le hlen)
  · refine Or.inr ?_
    omega

/-! ## Whole calls and whole runs -/

/-- The three stages of a call that succeeds. -/
theorem apply_of_handle {s t : BrokerState} {event : Event} {now : Instant}
    {own : List Effect} (h : (s.expire now).1.handle event = .ok (t, own)) :
    s.apply event now
      = (t.reconcile.1, .ok ((s.expire now).2 ++ own ++ t.reconcile.2)) := by
  simp only [BrokerState.apply, h]

theorem apply_ok {s s' : BrokerState} {event : Event} {now : Instant}
    {effects : List Effect} (h : s.apply event now = (s', .ok effects)) :
    ∃ t own, (s.expire now).1.handle event = .ok (t, own) ∧ s' = t.reconcile.1 ∧
      effects = (s.expire now).2 ++ own ++ t.reconcile.2 := by
  unfold BrokerState.apply at h
  cases hh : (s.expire now).1.handle event with
  | error e => simp only [hh] at h; cases congrArg Prod.snd h
  | ok r =>
      obtain ⟨t, own⟩ := r
      simp only [hh] at h
      obtain ⟨h1, h2⟩ := Prod.mk.inj h
      exact ⟨t, own, rfl, h1.symm, (Except.ok.inj h2).symm⟩

/-- A refused call keeps the expiry and nothing else. -/
theorem apply_error {s s' : BrokerState} {event : Event} {now : Instant} {e : ModelError}
    (h : s.apply event now = (s', .error e)) :
    s' = (s.expire now).1 ∧ (s.expire now).1.handle event = .error e := by
  unfold BrokerState.apply at h
  cases hh : (s.expire now).1.handle event with
  | error e' =>
      simp only [hh] at h
      obtain ⟨h1, h2⟩ := Prod.mk.inj h
      obtain rfl := Except.error.inj h2
      exact ⟨h1.symm, rfl⟩
  | ok r => simp only [hh] at h; cases congrArg Prod.snd h

theorem consistent_apply {s s' : BrokerState} {event : Event} {now : Instant}
    {result : Except ModelError (List Effect)} (h : Consistent s)
    (hfresh : ∀ id, submittedId event = some id → s.pending.get? id = none)
    (ha : s.apply event now = (s', result)) : Consistent s' := by
  have hx := consistent_expire h now
  cases result with
  | error e =>
      rw [(apply_error ha).1]
      exact hx
  | ok effects =>
      obtain ⟨t, own, hh, rfl, _⟩ := apply_ok ha
      refine consistent_reconcile (consistent_handle hx ?_ hh)
      intro id hid
      rw [expire_get?, hfresh id hid]
      rfl

/-- One call of `apply` as an observer records it. -/
structure Call where
  event : Event
  now : Instant
  result : Except ModelError (List Effect)

/-- A call takes the state to the one `apply` leaves behind. -/
def Applied (s : BrokerState) (c : Call) (s' : BrokerState) : Prop :=
  s.apply c.event c.now = (s', c.result)

/-- A run of the broker from its initial state: any calls, any results. -/
abbrev BrokerRun (max_pending_requests : Nat) : List Call → BrokerState → Prop :=
  Run Applied (BrokerState.new max_pending_requests)

/-- The ids submitted so far, oldest first. -/
def submittedIds (h : List Call) : List RequestId :=
  h.filterMap (fun c => submittedId c.event)

theorem submittedIds_snoc (h : List Call) (c : Call) :
    submittedIds (h ++ [c]) = submittedIds h ++ (submittedId c.event).toList := by
  cases hs : submittedId c.event <;> simp [submittedIds, List.filterMap_append, hs]

/-- Fresh ids stay fresh when the newest call is forgotten. -/
theorem fresh_of_snoc {h : List Call} {c : Call}
    (hf : (submittedIds (h ++ [c])).Nodup) : (submittedIds h).Nodup := by
  rw [submittedIds_snoc] at hf
  exact (List.nodup_append.mp hf).1

theorem fresh_newest {h : List Call} {c : Call} {id : RequestId}
    (hf : (submittedIds (h ++ [c])).Nodup) (hs : submittedId c.event = some id) :
    id ∉ submittedIds h := by
  rw [submittedIds_snoc, hs] at hf
  intro hmem
  exact List.disjoint_of_nodup_append hf hmem (by simp)

/-- An event leaves behind only requests that were pending or that it submits. -/
theorem handle_present {s t : BrokerState} {event : Event} {own : List Effect}
    (ht : s.handle event = .ok (t, own)) {id : RequestId} (hnone : s.pending.get? id = none)
    (hsub : submittedId event ≠ some id) : t.pending.get? id = none := by
  cases handle_cases ht with
  | full _ => exact hnone
  | @admitted request_id _ _ _ _ _ _ =>
      show (s.pending.insert request_id _).get? id = none
      rw [get?_insert_of_ne _ _ (fun he => hsub (congrArg some he.symm))]
      exact hnone
  | connected _ => exact hnone
  | ready _ => exact hnone
  | locked _ => exact hnone
  | @disconnected session_id _ =>
      show (s.requeue_session session_id).pending.get? id = none
      rw [requeue_get?, hnone]
      rfl
  | @answered _ request_id _ _ _ _ _ =>
      show (s.pending.erase request_id).get? id = none
      rw [get?_erase, hnone, ite_self]
  | @cancelled request_id _ _ =>
      show (s.pending.erase request_id).get? id = none
      rw [get?_erase, hnone, ite_self]
  | ignored _ => exact hnone

/-- A call leaves behind only requests that were pending or that it submits. -/
theorem apply_present {s s' : BrokerState} {event : Event} {now : Instant}
    {result : Except ModelError (List Effect)} (h : Consistent s)
    (hfresh : ∀ id, submittedId event = some id → s.pending.get? id = none)
    (ha : s.apply event now = (s', result)) {id : RequestId}
    (hnone : s.pending.get? id = none) (hsub : submittedId event ≠ some id) :
    s'.pending.get? id = none := by
  have hx : (s.expire now).1.pending.get? id = none := by
    rw [expire_get?, hnone]
    rfl
  cases result with
  | error e =>
      rw [(apply_error ha).1]
      exact hx
  | ok effects =>
      obtain ⟨t, own, hh, rfl, _⟩ := apply_ok ha
      have ht := handle_present hh hx hsub
      have hcons : Consistent t := by
        refine consistent_handle (consistent_expire h now) ?_ hh
        intro j hj
        rw [expire_get?, hfresh j hj]
        rfl
      rw [reconcile_get? hcons, ht]
      simp

/-- What every run with fresh ids maintains: the representation invariant, and
    that only submitted requests are pending. -/
theorem run_consistent {max_pending_requests : Nat} {h : List Call} {s : BrokerState}
    (hr : BrokerRun max_pending_requests h s) (hf : (submittedIds h).Nodup) :
    Consistent s ∧ ∀ id, s.pending.get? id ≠ none → id ∈ submittedIds h := by
  refine hr.invariant_of_history (fun h => (submittedIds h).Nodup)
    (fun h s => Consistent s ∧ ∀ id, s.pending.get? id ≠ none → id ∈ submittedIds h)
    (fun h c => fresh_of_snoc) ?_ ?_ hf
  · exact ⟨consistent_new _, fun id hid => absurd rfl hid⟩
  · rintro h s c s' hf ⟨hcons, hsub⟩ hstep
    have hfresh : ∀ id, submittedId c.event = some id → s.pending.get? id = none := by
      intro id hid
      by_contra hne
      exact fresh_newest hf hid (hsub id hne)
    refine ⟨consistent_apply hcons hfresh hstep, ?_⟩
    intro id hid
    rw [submittedIds_snoc, List.mem_append]
    by_cases hnew : submittedId c.event = some id
    · exact Or.inr (by simp [hnew])
    · refine Or.inl (hsub id ?_)
      intro hnone
      exact hid (apply_present hcons hfresh hstep hnone hnew)

/-- A fresh submission is not pending. -/
theorem fresh_not_pending {max_pending_requests : Nat} {h : List Call} {s : BrokerState}
    {c : Call} (hr : BrokerRun max_pending_requests h s) (hf : (submittedIds (h ++ [c])).Nodup) :
    ∀ id, submittedId c.event = some id → s.pending.get? id = none := by
  intro id hid
  by_contra hne
  exact fresh_newest hf hid ((run_consistent hr (fresh_of_snoc hf)).2 id hne)

/-! ## The invariant read off whole runs -/

/-- The number of requests in flight, to whichever session. -/
def inFlightCount (s : BrokerState) : Nat :=
  s.pending.count (fun e => e.2.state ≠ .queued)

/-- All in-flight work belongs to the connected session, so counting it over
    all sessions counts it for that one. -/
theorem inFlightCount_connected {s : BrokerState} (h : Consistent s)
    {session_id : SessionId} (hc : s.agent.session = some session_id) :
    inFlightCount s = s.in_flight_for session_id := by
  refine List.countP_congr ?_
  rintro ⟨id, p⟩ he
  have hp := (mem_entries_iff _ _ _).mp he
  rw [decide_eq_true_eq, inFlightFor_iff]
  constructor
  · intro hne
    cases hs : p.state with
    | queued => exact absurd hs hne
    | inFlight active attempt =>
        have hact := (h.current id p active attempt hp hs).1
        rw [hc] at hact
        obtain rfl := Option.some.inj hact
        exact ⟨attempt, rfl⟩
  · rintro ⟨attempt, hs⟩
    rw [hs]
    exact PendingState.noConfusion

theorem inFlightCount_disconnected {s : BrokerState} (h : Consistent s)
    (hc : s.agent.session = none) : inFlightCount s = 0 := by
  refine List.countP_eq_zero.mpr ?_
  rintro ⟨id, p⟩ he
  rw [decide_eq_true_eq, not_not]
  exact h.queued_of_disconnected hc ((mem_entries_iff _ _ _).mp he)

/-- The limit is configuration: no call changes it. -/
theorem apply_max {s s' : BrokerState} {event : Event} {now : Instant}
    {result : Except ModelError (List Effect)} (ha : s.apply event now = (s', result)) :
    s'.max_pending_requests = s.max_pending_requests := by
  cases result with
  | error e => rw [(apply_error ha).1, expire_max]
  | ok effects =>
      obtain ⟨t, own, hh, rfl, _⟩ := apply_ok ha
      rw [reconcile_max]
      cases handle_cases hh <;> rfl

theorem run_max {max_pending_requests : Nat} {h : List Call} {s : BrokerState}
    (hr : BrokerRun max_pending_requests h s) :
    s.max_pending_requests = max_pending_requests :=
  hr.invariant (fun s => s.max_pending_requests = max_pending_requests) rfl
    (fun _ _ _ hm hs => (apply_max hs).trans hm)

/-- Record the calls that feed a list of timed events to a broker. -/
def record (s : BrokerState) : List (Event × Instant) → List Call
  | [] => []
  | (event, now) :: rest =>
      ⟨event, now, (s.apply event now).2⟩ :: record (s.apply event now).1 rest

/-- The state those calls end in. -/
def replay (s : BrokerState) : List (Event × Instant) → BrokerState
  | [] => s
  | (event, now) :: rest => replay (s.apply event now).1 rest

/-- Feeding events one by one is a run. -/
theorem run_record {s₀ s : BrokerState} {h : List Call} (hr : Run Applied s₀ h s)
    (events : List (Event × Instant)) :
    Run Applied s₀ (h ++ record s events) (replay s events) := by
  induction events generalizing s h with
  | nil => simpa [record, replay] using hr
  | cons hd tl ih =>
      obtain ⟨event, now⟩ := hd
      have hnext : Run Applied s₀ (h ++ [⟨event, now, (s.apply event now).2⟩])
          (s.apply event now).1 := .snoc hr rfl
      simpa [record, replay] using ih hnext

/-- **Representation invariant and work conservation.**  After any calls with
    fresh ids, refused ones included: the queue has no duplicates and lists
    exactly the queued requests, in-flight work belongs to the connected session
    under its current attempt number, at most its capacity is in flight (nothing
    while disconnected) and the configured limit holds; and after every call that
    succeeds with a remote connected, the queue is empty or the capacity is
    used up. -/
theorem broker_consistent_and_work_conserving {max_pending_requests : Nat} {h : List Call}
    {s : BrokerState} (hr : BrokerRun max_pending_requests h s)
    (hf : (submittedIds h).Nodup) :
    s.queue.Nodup ∧
    (∀ id, id ∈ s.queue ↔ ∃ p, s.pending.get? id = some p ∧ p.state = .queued) ∧
    (∀ id p session_id attempt, s.pending.get? id = some p →
      p.state = .inFlight session_id attempt →
      s.agent.session = some session_id ∧ attempt = p.attempt) ∧
    (∀ session_id capacity, s.connected_remote = some (session_id, capacity) →
      inFlightCount s ≤ capacity) ∧
    (s.connected_remote = none → inFlightCount s = 0) ∧
    s.pending.len ≤ max_pending_requests ∧
    (∀ event now s' effects,
      (∀ id, submittedId event = some id → id ∉ submittedIds h) →
      s.apply event now = (s', .ok effects) →
      ∀ session_id capacity, s'.connected_remote = some (session_id, capacity) →
      s'.queue = [] ∨ inFlightCount s' = capacity) := by
  obtain ⟨hcons, hsub⟩ := run_consistent hr hf
  have session_of {t : BrokerState} {session_id : SessionId} {capacity : Nat}
      (hc : t.connected_remote = some (session_id, capacity)) :
      t.agent.session = some session_id := by
    rw [session_eq_connected, hc]
    rfl
  refine ⟨hcons.queue_nodup, hcons.mem_queue, hcons.current, ?_, ?_, ?_, ?_⟩
  · intro session_id capacity hc
    rw [inFlightCount_connected hcons (session_of hc)]
    exact hcons.in_capacity session_id capacity hc
  · intro hc
    refine inFlightCount_disconnected hcons ?_
    rw [session_eq_connected, hc]
    rfl
  · rw [← run_max hr]
    exact hcons.bounded
  · intro event now s' effects hnew ha session_id capacity hc
    have hfresh : ∀ id, submittedId event = some id → s.pending.get? id = none := by
      intro id hid
      by_contra hne
      exact hnew id hid (hsub id hne)
    have hcons' := consistent_apply hcons hfresh ha
    rw [inFlightCount_connected hcons' (session_of hc)]
    obtain ⟨t, own, hh, rfl, _⟩ := apply_ok ha
    refine reconcile_saturates (consistent_handle (consistent_expire hcons now) ?_ hh) ?_
    · intro id hid
      rw [expire_get?, hfresh id hid]
      rfl
    · rw [← reconcile_connected]
      exact hc

/-- Two requests, a session with room for one, and a second session that is
    refused. -/
def contendedEvents : List (Event × Instant) :=
  [(.submit ⟨1⟩ [11] none 30 0 30, 0), (.submit ⟨2⟩ [12] none 30 0 30, 1),
   (.connected ⟨7⟩ 1, 2), (.connected ⟨8⟩ 1, 3)]

theorem broker_consistent_contended :
    (submittedIds (record (.new 2) contendedEvents)).Nodup ∧
      (replay (.new 2) contendedEvents).queue = [⟨2⟩] ∧
      inFlightCount (replay (.new 2) contendedEvents) ≤ 1 :=
  ⟨by decide, by decide,
   (broker_consistent_and_work_conserving (run_record .nil contendedEvents)
     (by decide)).2.2.2.1 ⟨7⟩ 1 (by decide)⟩

end BrokerInvariant
