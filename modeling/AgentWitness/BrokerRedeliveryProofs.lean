import AgentWitness.BrokerLedgerProofs
import Mathlib.Algebra.Order.Ring.Nat

/-! # Redelivery — the same request under the next number

    A request that loses its session is handed to the next one.  The entry that
    holds it survives, so every dispatch carries what was submitted, and its
    counter COUNTS: the attempts emitted for an id are the numbers from one on,
    and the counter of a pending entry is how many there are.  A pair of request
    and attempt is therefore never used twice, which is what makes a late answer
    recognisable.

    Between two dispatches of a request its session was disconnected: while the
    session lasts, a dispatched request is not in the queue. -/

namespace BrokerRedelivery

open Packet KeyedMap BrokerModel BrokerInvariant BrokerCompletion BrokerCorrelation BrokerTask
open BrokerLedger Transition

/-- The attempt number under which an effect dispatches the request. -/
def attemptOf (id : RequestId) : Effect → Option UInt32
  | .dispatch _ request_id attempt _ _ _ _ => if request_id = id then some attempt else none
  | _ => none

/-- The attempt numbers under which a request is dispatched, oldest first. -/
def attemptsOf (id : RequestId) (effects : List Effect) : List UInt32 :=
  effects.filterMap (attemptOf id)

theorem attemptsOf_append (id : RequestId) (a b : List Effect) :
    attemptsOf id (a ++ b) = attemptsOf id a ++ attemptsOf id b :=
  List.filterMap_append

theorem attemptsOf_eq_nil {id : RequestId} {effects : List Effect}
    (h : id ∉ dispatchedIds effects) : attemptsOf id effects = [] := by
  refine List.filterMap_eq_nil_iff.mpr ?_
  intro e he
  cases e with
  | dispatch session_id request_id attempt requested_at deadline packet context =>
      refine if_neg ?_
      rintro rfl
      exact h (mem_dispatchedIds.mpr ⟨_, _, _, _, _, _, he⟩)
  | cancel | wakeRequired | complete => rfl

/-- A list that dispatches each request at most once holds one attempt of one
    that it dispatches. -/
theorem attemptsOf_once {id : RequestId} {effects : List Effect}
    (hn : (dispatchedIds effects).Nodup) {session_id : SessionId} {attempt : UInt32}
    {requested_at deadline : UInt64} {packet : Bytes} {context : Option RequestContext}
    (he : .dispatch session_id id attempt requested_at deadline packet context ∈ effects) :
    attemptsOf id effects = [attempt] := by
  obtain ⟨before, after, rfl⟩ := List.append_of_mem he
  have hids : dispatchedIds (before ++ .dispatch session_id id attempt requested_at deadline packet
      context :: after) = dispatchedIds before ++ id :: dispatchedIds after :=
    dispatchedIds_append _ _
  rw [hids] at hn
  have hnot := (List.nodup_cons.mp (List.nodup_middle.mp hn)).1
  rw [List.mem_append, not_or] at hnot
  have hself : attemptOf id (.dispatch session_id id attempt requested_at deadline packet context)
      = some attempt := if_pos rfl
  rw [attemptsOf_append, attemptsOf_eq_nil hnot.1, List.nil_append, attemptsOf,
    List.filterMap_cons_some hself]
  exact congrArg (List.cons attempt) (attemptsOf_eq_nil hnot.2)

/-- The attempt of one call: the next number after that of the entry before its
    dispatches. -/
theorem staged_attempts {s t s' : BrokerState} {c : Call} (hst : Staged s c t s')
    {id : RequestId} {p : PendingRequest} (hp : t.pending.get? id = some p)
    (hid : id ∈ dispatchedIds (Call.emitted c)) :
    attemptsOf id (Call.emitted c) = [p.attempt + 1] := by
  have hn := hst.consistent.queue_nodup
  rw [← hst.queue] at hn
  obtain ⟨session_id, attempt, requested_at, deadline, packet, context, he⟩ := mem_dispatchedIds.mp hid
  obtain ⟨_, q, hq, rfl, _⟩ := hst.dispatch _ _ _ _ _ _ _ he
  obtain rfl := Option.some.inj (hp.symm.trans hq)
  exact attemptsOf_once (List.nodup_append.mp hn).1 he

/-- The first `n` attempt numbers. -/
def countUp (n : Nat) : List UInt32 := (List.range n).map (fun i => UInt32.ofNat (i + 1))

theorem countUp_succ (n : Nat) : countUp (n + 1) = countUp n ++ [UInt32.ofNat n + 1] := by
  simp [countUp, List.range_succ, UInt32.ofNat_add]

/-- The attempts so far are counted, and a pending entry knows the count. -/
def Counted (h : List Call) (s : BrokerState) (id : RequestId) : Prop :=
  ∃ n, attemptsOf id (emitted h) = countUp n ∧
    ∀ p, s.pending.get? id = some p → p.attempt = UInt32.ofNat n

/-- **Counting**: along every run with fresh ids. -/
theorem run_counted {max_pending_requests : Nat} {h : List Call} {s : BrokerState}
    (hr : BrokerRun max_pending_requests h s) (hf : (submittedIds h).Nodup) (id : RequestId) :
    Counted h s id := by
  induction hr with
  | nil => exact ⟨0, rfl, fun p hp => (by cases hp)⟩
  | @snoc h s s' c hr hstep ih =>
      obtain ⟨t, hst⟩ := run_staged hr hf hstep
      obtain ⟨n, hattempts, hcount⟩ := ih (fresh_of_snoc hf)
      have hmiddle : ∀ p, t.pending.get? id = some p → p.attempt = UInt32.ofNat n := by
        intro p hp
        rcases hst.origin hp with ⟨q, hq, _, heq⟩ | ⟨hadmitted, _, _, hzero⟩
        · rw [heq, hcount q hq]
        · -- admitted just now, so no attempt was made before
          have hnew : id ∉ dispatchedIds (emitted h) := fun hd =>
            admitted_fresh hf id hadmitted (run_dispatched_admitted hr (fresh_of_snoc hf) id hd)
          have hn : n = 0 := by
            have hnone := attemptsOf_eq_nil hnew
            rw [hattempts] at hnone
            simpa [countUp] using hnone
          rw [hzero, hn]
          rfl
      rw [Counted, emitted_snoc, attemptsOf_append, hattempts]
      by_cases hd : id ∈ dispatchedIds (Call.emitted c)
      · obtain ⟨p, hp⟩ := hst.consistent.queue_present id (hst.mem_queue hd)
        refine ⟨n + 1, ?_, ?_⟩
        · rw [staged_attempts hst hp hd, hmiddle p hp, countUp_succ]
        · intro q hq
          obtain ⟨p', hp', _, hattempt⟩ := hst.entry id q hq
          rw [hattempt, if_pos hd, hmiddle p' hp', UInt32.ofNat_add]
          rfl
      · refine ⟨n, ?_, ?_⟩
        · rw [attemptsOf_eq_nil hd, List.append_nil]
        · intro q hq
          obtain ⟨p', hp', _, hattempt⟩ := hst.entry id q hq
          rw [hattempt, if_neg hd, hmiddle p' hp']

/-- While its session lasts, a dispatched request is not dispatched again. -/
theorem run_not_again {max_pending_requests : Nat} {h : List Call} {s : BrokerState}
    (hr : BrokerRun max_pending_requests h s) (hf : (submittedIds h).Nodup) :
    Throughout (InSessionOrder (fun r q => r ≠ q)) (history h) := by
  refine (run_held (fun r q => r ≠ q) hr hf ?_ ?_).2
  · intro g c rest s t s' _ _ hst
    exact hst.consistent.queue_nodup
  · rintro g c rest x r hsplit hx hmem rfl
    rw [hsplit, List.append_cons g c rest] at hf
    exact admitted_fresh (fresh_of_append hf) r hx hmem

/-- **Redelivery preserves the request.**  Along every run with fresh ids and
    fewer than 2^32 dispatches of each request: the dispatches of a request carry
    the attempt numbers 1, 2, 3 and so on; between any two of them the session of
    the earlier one was disconnected; and each carries the packet, context and
    timestamps of the submission. -/
theorem redelivery_preserves_request {max_pending_requests : Nat} {h : List Call}
    {s : BrokerState} (hr : BrokerRun max_pending_requests h s) (hf : (submittedIds h).Nodup)
    (hbound : ∀ id, (attemptsOf id (emitted h)).length < 2 ^ 32) :
    (∀ id, (attemptsOf id (emitted h)).map UInt32.toNat
      = List.range' 1 (attemptsOf id (emitted h)).length) ∧
    (∀ before a between b after id session_id later,
      history h = before ++ a :: (between ++ b :: after) →
      DispatchedTo id session_id a → DispatchedTo id later b →
      .received (.disconnected session_id) ∈ between) ∧
    (∀ session_id id attempt requested_at stamp packet context,
      .dispatch session_id id attempt requested_at stamp packet context ∈ emitted h →
      ∃ c ∈ h, ∃ deadline, c.event = .submit id packet context deadline requested_at stamp) := by
  refine ⟨?_, ?_, ?_⟩
  · intro id
    obtain ⟨n, hattempts, _⟩ := run_counted hr hf id
    have hlen : n < 2 ^ 32 := by
      have := hbound id
      rwa [hattempts, countUp, List.length_map, List.length_range] at this
    rw [hattempts, countUp, List.map_map, List.length_map, List.length_range, List.range'_eq_map_range]
    refine List.map_congr_left ?_
    intro i hi
    have hi := List.mem_range.mp hi
    show (UInt32.ofNat (i + 1)).toNat = 1 + i
    rw [UInt32.toNat_ofNat_of_lt' (show i + 1 < 2 ^ 32 by omega), Nat.add_comm]
  · intro before a between b after id session_id later heq ha hb
    by_contra hlasts
    have hsplit : history h = (before ++ a :: between) ++ b :: after := by
      rw [heq, List.append_assoc, List.cons_append]
    exact run_not_again hr hf _ b after hsplit id later hb id session_id
      ⟨before, a, between, rfl, ha, fun x hx he => hlasts (he ▸ hx)⟩ rfl
  · intro session_id id attempt requested_at stamp packet context he
    obtain ⟨deadline, c, hc, hevent⟩ := run_dispatch_submitted hr he
    exact ⟨c, hc, deadline, hevent⟩

theorem redelivery_preserves_redispatched :
    attemptsOf ⟨1⟩ (emitted (record (.new 8) redispatchedEvents)) = [1, 2] ∧
      (attemptsOf ⟨1⟩ (emitted (record (.new 8) redispatchedEvents))).map UInt32.toNat
        = List.range' 1 2 := by
  have hr : BrokerRun 8 (record (.new 8) redispatchedEvents) _ :=
    run_record .nil redispatchedEvents
  have hshort : ∀ id, (attemptsOf id (emitted (record (.new 8) redispatchedEvents))).length
      < 2 ^ 32 := by
    intro id
    refine Nat.lt_of_le_of_lt (List.length_filterMap_le _ _) ?_
    decide
  exact ⟨by decide, (redelivery_preserves_request hr (by decide) hshort).1 ⟨1⟩⟩

end BrokerRedelivery
