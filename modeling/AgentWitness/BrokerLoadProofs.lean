import AgentWitness.BrokerLedgerProofs

/-! # What the broker carries

    The bounds on the broker's load do not rest on fresh ids.  A submission under an id
    that is pending takes the place of the earlier one, and its id may stand in the queue
    twice or outlive its entry there.  None of this ADDS to what is in flight: an entry
    counts once, and each turn of the dispatch loop uses up one place of the session. -/

namespace BrokerLoad

open Packet KeyedMap BrokerModel BrokerInvariant BrokerCompletion BrokerLedger Transition

/-- What is in flight is with the connected session and within its capacity, and what is
    pending is within the limit. -/
structure Loaded (s : BrokerState) : Prop where
  current : ∀ id p session_id, s.pending.get? id = some p → p.inFlightFor session_id = true →
    s.agent.session = some session_id
  in_capacity : ∀ session_id capacity, s.connected_remote = some (session_id, capacity) →
    s.in_flight_for session_id ≤ capacity
  bounded : s.pending.len ≤ s.max_pending_requests

theorem loaded_new (max_pending_requests : Nat) :
    Loaded (BrokerState.new max_pending_requests) where
  current := by
    intro id p session_id hp _
    cases hp
  in_capacity := by
    intro session_id capacity hc
    cases hc
  bounded := Nat.zero_le _

section Load

variable {s t : BrokerState}

/-- Only the connected session has requests in flight. -/
theorem Loaded.idle (h : Loaded s) {session_id : SessionId}
    (hne : s.agent.session ≠ some session_id) : s.in_flight_for session_id = 0 := by
  refine in_flight_for_eq_zero ?_
  intro id p hp
  by_contra hin
  exact hne (h.current id p session_id hp (Bool.eq_true_of_not_eq_false hin))

/-- Forgetting entries. -/
theorem Loaded.of_le (h : Loaded s) (hm : t.max_pending_requests = s.max_pending_requests)
    (hc : t.connected_remote = s.connected_remote)
    (hp : ∀ id p, t.pending.get? id = some p → s.pending.get? id = some p)
    (hcount : ∀ session_id, t.in_flight_for session_id ≤ s.in_flight_for session_id)
    (hlen : t.pending.len ≤ s.pending.len) : Loaded t where
  current := by
    intro id p session_id hget hin
    rw [session_eq_connected, hc, ← session_eq_connected]
    exact h.current id p session_id (hp id p hget) hin
  in_capacity := by
    intro session_id capacity hconn
    exact (hcount session_id).trans (h.in_capacity session_id capacity (hc ▸ hconn))
  bounded := by
    rw [hm]
    exact hlen.trans h.bounded

theorem loaded_expire (h : Loaded s) (now : Instant) : Loaded (s.expire now).1 :=
  h.of_le rfl rfl (fun _ _ hp => (expire_get?_some.mp hp).1)
    (fun _ => removeExpired_count_le _ s.pending _) (removeExpired_len_le _ s.pending)

theorem loaded_erase (h : Loaded s) (id : RequestId) (queue : List RequestId) :
    Loaded { s with pending := s.pending.erase id, queue := queue } :=
  h.of_le rfl rfl (fun _ _ hp => (get?_of_erase hp).2) (fun _ => count_filter_le s.pending _ _)
    (len_filter_le s.pending _)

/-- A queued entry takes a place among the pending ones at most. -/
theorem loaded_admit (h : Loaded s) {id : RequestId} {p : PendingRequest} (hp : p.state = .queued)
    (hroom : s.pending.len < s.max_pending_requests) (n : UInt64) :
    Loaded { s with next_sequence := n, pending := s.pending.insert id p,
                    queue := s.queue ++ [id], wake_announced := false } where
  current := by
    intro j q session_id hq hin
    rcases get?_of_insert hq with ⟨_, rfl⟩ | ⟨_, hold⟩
    · rw [inFlightFor_of_queued hp] at hin
      cases hin
    · exact h.current j q session_id hold hin
  in_capacity := by
    intro session_id capacity hc
    exact (count_insert_le s.pending (inFlightFor_of_queued hp session_id)).trans
      (h.in_capacity session_id capacity hc)
  bounded := (len_insert_le s.pending id p).trans hroom

theorem requeued_idle (p : PendingRequest) (session_id : SessionId) :
    (p.requeued session_id).inFlightFor session_id = false := by
  rw [PendingRequest.requeued]
  split
  · rfl
  · exact Bool.eq_false_of_not_eq_true ‹_›

/-- Losing the session leaves nothing in flight. -/
theorem loaded_disconnect (h : Loaded s) {session_id : SessionId}
    (hs : s.agent.session = some session_id) :
    Loaded { s.requeue_session session_id with agent := .disconnected, wake_announced := false } where
  current := by
    intro id q active hq hin
    change (s.requeue_session session_id).pending.get? id = some q at hq
    rw [requeue_get?] at hq
    obtain ⟨p, hp, rfl⟩ := Option.map_eq_some_iff.mp hq
    have hbefore : p.inFlightFor active = true := by
      rw [PendingRequest.requeued] at hin
      split at hin
      · cases hin
      · exact hin
    obtain rfl := Option.some.inj (hs.symm.trans (h.current id p active hp hbefore))
    rw [requeued_idle] at hin
    cases hin
  in_capacity := by
    intro active capacity hc
    cases hc
  bounded := by
    show (s.pending.mapValues _).len ≤ s.max_pending_requests
    have hlen : (s.pending.mapValues (fun _ p => p.requeued session_id)).len
        = s.pending.len := List.length_map ..
    rw [hlen]
    exact h.bounded

/-- **Every arm of `apply`**, whatever id it submits. -/
theorem loaded_handle {event : Event} {own : List Effect} (h : Loaded s)
    (ht : s.handle event = .ok (t, own)) : Loaded t := by
  cases handle_cases ht with
  | full _ | ignored _ => exact h
  | admitted hroom => exact loaded_admit h rfl hroom _
  | @connected session_id capacity hd =>
      have hnone : s.agent.session = none := by
        rw [hd]
        rfl
      refine ⟨?_, ?_, h.bounded⟩
      · intro id p active hp hin
        have hcurrent := h.current id p active hp hin
        rw [hnone] at hcurrent
        cases hcurrent
      · intro active granted _
        have hne : s.agent.session ≠ some active := by
          rw [hnone]
          exact (Option.some_ne_none _).symm
        exact (h.idle hne).le.trans (Nat.zero_le _)
  | ready hc => exact h.of_le rfl hc.symm (fun _ _ hp => hp) (fun _ => Nat.le_refl _) (Nat.le_refl _)
  | locked hc => exact h.of_le rfl hc.symm (fun _ _ hp => hp) (fun _ => Nat.le_refl _) (Nat.le_refl _)
  | disconnected hs => exact loaded_disconnect h hs
  | answered _ _ => exact loaded_erase h _ _
  | cancelled _ => exact loaded_erase h _ _

/-- What the dispatch loop keeps when it counts `n` places of the session as used. -/
structure Carried (session_id : SessionId) (capacity max_pending_requests : Nat)
    (m : Map RequestId PendingRequest) (n : Nat) : Prop where
  current : ∀ id p active, m.get? id = some p → p.inFlightFor active = true → active = session_id
  counted : m.count (fun e => e.2.inFlightFor session_id) ≤ n
  room : n ≤ capacity
  bounded : m.len ≤ max_pending_requests

theorem carried_dispatch {session_id : SessionId} {capacity max_pending_requests : Nat}
    (m : Map RequestId PendingRequest) (n : Nat) (id : RequestId) (p : PendingRequest)
    (h : Carried session_id capacity max_pending_requests m n) (hn : n < capacity)
    (hp : m.get? id = some p) :
    Carried session_id capacity max_pending_requests
      (m.insert id (p.dispatched session_id)) (n + 1) where
  current := by
    intro j q active hq hin
    rcases get?_of_insert hq with ⟨_, rfl⟩ | ⟨_, hold⟩
    · obtain ⟨attempt, hstate⟩ := inFlightFor_iff.mp hin
      exact (PendingState.inFlight.inj hstate).1.symm
    · exact h.current j q active hold hin
  counted := by
    have hcount := count_insert_present m (v := p.dispatched session_id)
      (fun e => e.2.inFlightFor session_id) hp
    have hle := h.counted
    rw [if_pos (inFlightFor_dispatched p session_id)] at hcount
    omega
  room := hn
  bounded := by
    rw [len_insert_present m hp]
    exact h.bounded

theorem loaded_reconcile (h : Loaded s) : Loaded s.reconcile.1 := by
  cases hc : s.connected_remote with
  | none =>
      have hpending : s.reconcile.1.pending = s.pending := by
        rw [reconcile_pending, dispatchQueued_none hc]
      refine h.of_le (reconcile_max s) (reconcile_connected s) ?_ ?_ ?_
      · intro id p hp
        rwa [hpending] at hp
      · intro session_id
        rw [BrokerState.in_flight_for, hpending]
        exact Nat.le_refl _
      · rw [hpending]
  | some remote =>
      obtain ⟨session_id, capacity⟩ := remote
      have hsession : s.agent.session = some session_id := by
        rw [session_eq_connected, hc]
        rfl
      have hcarried : Carried session_id capacity s.max_pending_requests s.pending
          (s.in_flight_for session_id) := by
        refine ⟨?_, Nat.le_refl _, h.in_capacity session_id capacity hc, h.bounded⟩
        intro id p active hp hin
        exact Option.some.inj ((h.current id p active hp hin).symm.trans hsession)
      obtain ⟨⟨n, hend⟩, _⟩ := dispatchLoop_invariant carried_dispatch (q := s.queue) hcarried
      have hpending : s.reconcile.1.pending = (dispatchLoop session_id capacity s.queue s.pending
          (s.in_flight_for session_id)).1 := by
        rw [reconcile_pending, dispatchQueued_some hc]
      rw [← hpending] at hend
      refine ⟨?_, ?_, ?_⟩
      · intro id p active hp hin
        rw [reconcile_agent, hend.current id p active hp hin]
        exact hsession
      · intro active granted hconn
        rw [reconcile_connected, hc] at hconn
        obtain ⟨rfl, rfl⟩ := Prod.mk.inj (Option.some.inj hconn)
        exact hend.counted.trans hend.room
      · rw [reconcile_max]
        exact hend.bounded

/-- **Step lemma.** -/
theorem loaded_apply {event : Event} {now : Instant} {result : Except ModelError (List Effect)}
    (h : Loaded s) (ha : s.apply event now = (t, result)) : Loaded t := by
  have hx := loaded_expire h now
  cases result with
  | error e =>
      rw [(apply_error ha).1]
      exact hx
  | ok effects =>
      obtain ⟨u, own, hh, rfl, _⟩ := apply_ok ha
      exact loaded_reconcile (loaded_handle hx hh)

/-- **Run lemma.** -/
theorem run_loaded {max_pending_requests : Nat} {h : List Call}
    (hr : BrokerRun max_pending_requests h s) : Loaded s :=
  hr.invariant Loaded (loaded_new max_pending_requests) (fun _ _ _ hl hs => loaded_apply hl hs)

/-- **The load of a session**: at most its capacity is in flight, and at most what may be
    pending. -/
theorem Loaded.in_flight_le (h : Loaded s) {capacity : Nat}
    (hc : ∀ session_id granted, s.connected_remote = some (session_id, granted) →
      granted = capacity) (session_id : SessionId) :
    s.in_flight_for session_id ≤ min capacity s.max_pending_requests := by
  refine Nat.le_min.mpr ⟨?_, (List.countP_le_length).trans h.bounded⟩
  by_cases hconn : s.agent.session = some session_id
  · rw [session_eq_connected] at hconn
    obtain ⟨remote, hremote, rfl⟩ := Option.map_eq_some_iff.mp hconn
    have hle := h.in_capacity remote.1 remote.2 hremote
    rwa [hc remote.1 remote.2 hremote] at hle
  · rw [h.idle hconn]
    exact Nat.zero_le _

end Load

end BrokerLoad
