import AgentWitness.BrokerTransportProofs
import Mathlib.Algebra.Order.Ring.Nat

/-! # Deadlines — expiry decides before anything else

    `apply` removes what is overdue FIRST, so the event's arm and the dispatches
    of a call only see requests whose deadline lies in the future, and a timeout
    is never answered early.  Nothing here needs the clock to be monotone: each
    call compares the submitted deadlines with its own time.

    The expired requests are answered before the event has any effect, in the
    order of their sequence numbers.  That is admission order until the 64-bit
    counter wraps; the request admitted after the wrap is then answered first. -/

namespace BrokerDeadline

open Packet KeyedMap BrokerModel BrokerInvariant BrokerCompletion BrokerCorrelation BrokerTask
open BrokerLedger BrokerTrace BrokerTransport Transition

/-- The request an effect answers with a timeout. -/
def timedOutId : Effect → Option RequestId
  | .complete request_id (.error .timedOut) => some request_id
  | _ => none

/-- The requests answered with a timeout, in order. -/
def timedOutIds (effects : List Effect) : List RequestId := effects.filterMap timedOutId

/-! ## The least deadline -/

theorem mem_deadlines {s : BrokerState} {d : Instant} :
    d ∈ s.pending.values.map PendingRequest.deadline
      ↔ ∃ id p, s.pending.get? id = some p ∧ p.deadline = d := by
  constructor
  · intro hd
    obtain ⟨p, hp, rfl⟩ := List.mem_map.mp hd
    obtain ⟨⟨id, q⟩, he, rfl⟩ := List.mem_map.mp hp
    exact ⟨id, q, (mem_entries_iff _ _ _).mp he, rfl⟩
  · rintro ⟨id, p, hp, rfl⟩
    exact List.mem_map_of_mem (List.mem_map_of_mem ((mem_entries_iff _ _ _).mpr hp))

/-- `next_deadline` is the least deadline of a pending request. -/
theorem next_deadline_iff {s : BrokerState} {d : Instant} :
    s.next_deadline = some d
      ↔ (∃ id p, s.pending.get? id = some p ∧ p.deadline = d) ∧
        ∀ id p, s.pending.get? id = some p → d ≤ p.deadline := by
  rw [BrokerState.next_deadline, List.min?_eq_some_iff, mem_deadlines]
  refine and_congr_right (fun _ => ?_)
  constructor
  · intro hmin id p hp
    exact hmin _ (mem_deadlines.mpr ⟨id, p, hp, rfl⟩)
  · intro hmin b hb
    obtain ⟨id, p, hp, rfl⟩ := mem_deadlines.mp hb
    exact hmin id p hp

/-! ## Timeouts -/

theorem timedOutIds_drop (id : RequestId) (p : PendingRequest) :
    timedOutIds (dropEffects id p .timedOut) = [id] := by
  unfold dropEffects
  cases p.state with
  | queued => rfl
  | inFlight session_id attempt => rfl

/-- Expiry answers exactly the overdue requests, in sequence order. -/
theorem expire_timedOutIds (s : BrokerState) (now : Instant) :
    timedOutIds (s.expire now).2 = (s.overdue now).map Prod.fst := by
  have hlist : ∀ ids : List RequestId, (∀ id ∈ ids, ∃ p, s.pending.get? id = some p) →
      timedOutIds (dropAll s.pending ids) = ids := by
    intro ids hids
    induction ids with
    | nil => rfl
    | cons id rest ih =>
        obtain ⟨p, hp⟩ := hids id List.mem_cons_self
        rw [dropAll_cons_some hp, timedOutIds, List.filterMap_append]
        show timedOutIds _ ++ timedOutIds _ = _
        rw [timedOutIds_drop, ih (fun j hj => hids j (List.mem_cons_of_mem _ hj))]
        rfl
  rw [expire_effects]
  refine hlist _ ?_
  intro id hid
  obtain ⟨p, hp, _⟩ := (mem_overdue s now id).mp hid
  exact ⟨p, hp⟩

/-- Nothing but expiry answers with a timeout. -/
theorem timedOut_expired {s t : BrokerState} {event : Event} {now : Instant} {own : List Effect}
    (hh : (s.expire now).1.handle event = .ok (t, own)) {id : RequestId}
    (he : .complete id (.error .timedOut) ∈ (s.expire now).2 ++ own ++ t.reconcile.2) :
    ∃ p, s.pending.get? id = some p ∧ p.deadline ≤ now := by
  rcases List.mem_append.mp he with hfirst | hreconcile
  · rcases List.mem_append.mp hfirst with hexpire | hown
    · refine (mem_overdue s now id).mp ?_
      rw [← expire_timedOutIds]
      exact List.mem_filterMap.mpr ⟨_, hexpire, rfl⟩
    · exfalso
      cases handle_cases hh with
      | full _ => cases Except.error.inj (Effect.complete.inj (List.mem_singleton.mp hown)).2
      | answered _ _ => cases (Effect.complete.inj (List.mem_singleton.mp hown)).2
      | cancelled _ =>
          rcases mem_dropEffects hown with heq | ⟨_, _, _, heq⟩
          · cases Except.error.inj (Effect.complete.inj heq).2
          · cases heq
      | admitted _ | connected _ | ready _ | locked _ | disconnected _ | ignored _ => cases hown
  · rcases reconcile_kind hreconcile with hd | ⟨w, heq⟩
    · exact absurd rfl hd
    · cases heq

/-! ## One call -/

/-- After expiry nothing is overdue. -/
theorem expire_timely (s : BrokerState) (now : Instant) : Timely now (s.expire now).1 :=
  fun _ _ hp => (expire_get?_some.mp hp).2

/-- In the middle of a call nothing is overdue, refused or not. -/
theorem staged_timely {s t s' : BrokerState} {c : Call} (hst : Staged s c t s')
    (hnew : ∀ deadline, submittedDeadline c.event = some deadline → c.now < deadline) :
    Timely c.now t := by
  rcases hst.arm with ⟨own, hh⟩ | ⟨rfl, _⟩
  · exact handle_timely (expire_timely s c.now) hh hnew
  · exact expire_timely s c.now

theorem staged_timely_end {s t s' : BrokerState} {c : Call} (hst : Staged s c t s')
    (ht : Timely c.now t) : Timely c.now s' := by
  intro id q hq
  obtain ⟨p, hp, hsame, _⟩ := hst.entry id q hq
  rw [hsame.deadline]
  exact ht id p hp

/-- The rest of a successful call is the call on the state without the expired
    requests. -/
theorem apply_after_expiry {s s' : BrokerState} {event : Event} {now : Instant}
    {effects : List Effect} (ha : s.apply event now = (s', .ok effects)) :
    ∃ rest, effects = (s.expire now).2 ++ rest ∧
      (s.expire now).1.apply event now = (s', .ok rest) := by
  obtain ⟨t, own, hh, rfl, rfl⟩ := apply_ok ha
  refine ⟨own ++ t.reconcile.2, List.append_assoc _ _ _, ?_⟩
  have hnone : (s.expire now).1.expire now = ((s.expire now).1, []) :=
    expire_of_none_overdue (expire_timely s now)
  have hh' : ((s.expire now).1.expire now).1.handle event = .ok (t, own) := by
    rw [hnone]
    exact hh
  rw [apply_of_handle hh', hnone]
  rfl

/-- **Deadlines are respected.**  For every call of a run with fresh ids whose
    submission, if it makes one, is due after the time of the call: afterwards
    every pending request is due later and `next_deadline` is the least of their
    deadlines; what the call dispatches or answers with a packet was submitted
    with a later deadline, and what it answers with a timeout with one that has
    passed.  If the call succeeds, its effects are those of the expired requests,
    followed by the effects of the event on the state without them; the timeouts
    among the former are exactly the expired requests, in admission order as long
    as there were fewer than 2^64 admissions. -/
theorem deadlines_respected {max_pending_requests : Nat} {h : List Call} {s s' : BrokerState}
    {c : Call} (hr : BrokerRun max_pending_requests h s) (hstep : Applied s c s')
    (hf : (submittedIds (h ++ [c])).Nodup)
    (hnew : ∀ deadline, submittedDeadline c.event = some deadline → c.now < deadline) :
    (∀ id p, s'.pending.get? id = some p → c.now < p.deadline) ∧
    (∀ d, s'.next_deadline = some d
      ↔ (∃ id p, s'.pending.get? id = some p ∧ p.deadline = d) ∧
        ∀ id p, s'.pending.get? id = some p → d ≤ p.deadline) ∧
    (∀ id ∈ dispatchedIds (Call.emitted c),
      ∃ m, SubmittedAs (h ++ [c]) id m ∧ c.now < m.deadline) ∧
    (∀ id packet, .complete id (.ok packet) ∈ Call.emitted c →
      ∃ m, SubmittedAs (h ++ [c]) id m ∧ c.now < m.deadline) ∧
    (∀ id, .complete id (.error .timedOut) ∈ Call.emitted c →
      ∃ m, SubmittedAs (h ++ [c]) id m ∧ m.deadline ≤ c.now) ∧
    (∀ effects, c.result = .ok effects → ∃ expired rest, effects = expired ++ rest ∧
      (s.expire c.now).1.apply c.event c.now = (s', .ok rest) ∧
      (∀ e ∈ expired, ∃ id p, s.pending.get? id = some p ∧ p.deadline ≤ c.now ∧
        e ∈ dropEffects id p .timedOut) ∧
      (∀ id, id ∈ timedOutIds expired ↔ ∃ p, s.pending.get? id = some p ∧ p.deadline ≤ c.now) ∧
      ((admittedIds h).length < 2 ^ 64 →
        (timedOutIds expired).Pairwise (Precedes (admittedIds h)))) := by
  obtain ⟨t, hst⟩ := run_staged hr hf hstep
  have hold := fresh_of_snoc hf
  have ht := staged_timely hst hnew
  -- an entry records the submission under its id
  have hentry : ∀ {id p}, s.pending.get? id = some p →
      SubmittedAs (h ++ [c]) id (submissionOf p) :=
    fun hp => (run_submitted hr _ _ hp).mono (fun d hd => List.mem_append_left [c] hd)
  refine ⟨staged_timely_end hst ht, fun d => next_deadline_iff, ?_, ?_, ?_, ?_⟩
  · intro id hd
    obtain ⟨p, hp⟩ := hst.consistent.queue_present id (hst.mem_queue hd)
    exact ⟨submissionOf p, hst.submitted (run_submitted hr) hp, ht id p hp⟩
  · intro id packet he
    obtain ⟨event, now, result⟩ := c
    cases result with
    | error e => cases he
    | ok effects =>
        obtain ⟨_, _, _, p, hp, _⟩ := apply_answers hstep he
        obtain ⟨hp', hlt⟩ := expire_get?_some.mp hp
        exact ⟨submissionOf p, hentry hp', hlt⟩
  · intro id he
    obtain ⟨event, now, result⟩ := c
    cases result with
    | error e => cases he
    | ok effects =>
        have ha : s.apply event now = (s', .ok effects) := hstep
        obtain ⟨t', own, hh, _, rfl⟩ := apply_ok ha
        obtain ⟨p, hp, hle⟩ := timedOut_expired hh he
        exact ⟨submissionOf p, hentry hp, hle⟩
  · intro effects hres
    have ha : s.apply c.event c.now = (s', .ok effects) := hres ▸ hstep
    obtain ⟨rest, heq, hrest⟩ := apply_after_expiry ha
    refine ⟨_, rest, heq, hrest, fun e he => mem_expire_effects he, ?_, ?_⟩
    · intro id
      rw [expire_timedOutIds]
      exact mem_overdue s c.now id
    · intro hlen
      rw [expire_timedOutIds]
      exact sorted_precedes hlen (run_numbered hr hold).entry (fun p => p.deadline ≤ c.now)

/-- A request that is dispatched, and both it and a queued one expire. -/
def overdueEvents : List (Event × Instant) :=
  [(.submit ⟨1⟩ [11] none 5 0 5, 0), (.submit ⟨2⟩ [12] none 4 0 4, 1), (.connected ⟨7⟩ 1, 2)]

/-- The tick at which both are due. -/
def overdueCall : Call := ⟨.tick, 5, ((replay (.new 4) overdueEvents).apply .tick 5).2⟩

theorem deadlines_respected_overdue :
    Call.emitted overdueCall = [.cancel ⟨7⟩ ⟨1⟩ 1, .complete ⟨1⟩ (.error .timedOut),
      .complete ⟨2⟩ (.error .timedOut)] ∧
    ∃ m, SubmittedAs (record (.new 4) overdueEvents ++ [overdueCall]) ⟨2⟩ m ∧ m.deadline ≤ 5 := by
  have hr : BrokerRun 4 (record (.new 4) overdueEvents) _ := run_record .nil overdueEvents
  have h := deadlines_respected hr (c := overdueCall) rfl (by decide)
    (fun deadline hd => by cases hd)
  exact ⟨by decide, h.2.2.2.2.1 ⟨2⟩ (by decide)⟩

/-! ## The counter wraps -/

/-- The broker with nothing pending and its counter somewhere. -/
def idleAt (n : UInt64) : BrokerState := { BrokerState.new 2 with next_sequence := n }

/-- The request of one cycle: submitted at time 0 and due at time 1. -/
def shortLived (id : RequestId) : Event := .submit id [] none 1 0 0

/-- Submit a request and cancel it. -/
def cycle (id : RequestId) : List (Event × Instant) := [(shortLived id, 0), (.cancelled id, 0)]

/-- Between the two events of a cycle. -/
def waitingAt (n : UInt64) (id : RequestId) : BrokerState :=
  { idleAt (n + 1) with
    pending := Map.empty.insert id
      { packet := [], context := none, deadline := 1, requested_at := 0, deadline_timestamp := 0
        sequence := n, attempt := 0, state := .queued }
    queue := [id]
    wake_announced := true }

/-- A cycle only moves the counter. -/
theorem replay_cycle (n : UInt64) (id : RequestId) :
    replay (idleAt n) (cycle id) = idleAt (n + 1) := by
  have hsubmit : ((idleAt n).apply (shortLived id) 0).1 = waitingAt n id := rfl
  have hh : ((waitingAt n id).expire 0).1.handle (.cancelled id)
      = .ok ({ waitingAt n id with
          pending := (waitingAt n id).pending.erase id
          queue := (waitingAt n id).queue.filter (fun queued => queued ≠ id) },
          [.complete id (.error .cancelled)]) := by
    show (waitingAt n id).handle (.cancelled id) = _
    simp [BrokerState.handle, waitingAt, dropEffects]
  have hpending : (waitingAt n id).pending.erase id = .empty := by
    refine eq_empty_of_len ?_
    show (List.filter (fun e : RequestId × PendingRequest => e.1 ≠ id)
      (waitingAt n id).pending.entries).length = 0
    rw [show (waitingAt n id).pending.entries = [(id, _)] from rfl]
    simp
  have hqueue : (waitingAt n id).queue.filter (fun queued => queued ≠ id) = [] := by
    simp [waitingAt]
  show ((((idleAt n).apply (shortLived id) 0).1).apply (.cancelled id) 0).1 = _
  rw [hsubmit, apply_of_handle hh, hpending, hqueue]
  rfl

theorem replay_append (s : BrokerState) (a b : List (Event × Instant)) :
    replay s (a ++ b) = replay (replay s a) b := by
  induction a generalizing s with
  | nil => rfl
  | cons e rest ih => exact ih _

theorem record_append (s : BrokerState) (a b : List (Event × Instant)) :
    record s (a ++ b) = record s a ++ record (replay s a) b := by
  induction a generalizing s with
  | nil => rfl
  | cons e rest ih => exact congrArg (List.cons _) (ih _)

/-- The calls are made with the given events at the given times. -/
theorem record_calls (s : BrokerState) (events : List (Event × Instant)) :
    (record s events).map (fun c => (c.event, c.now)) = events := by
  induction events generalizing s with
  | nil => rfl
  | cons e rest ih => exact congrArg (List.cons e) (ih _)

/-- The request of the `i`-th cycle. -/
def idOf (i : Nat) : RequestId := ⟨BitVec.ofNat 128 i⟩

/-- As many cycles as listed. -/
def cycles (n : Nat) : List (Event × Instant) := (List.range n).flatMap (fun i => cycle (idOf i))

theorem cycles_succ (n : Nat) : cycles (n + 1) = cycles n ++ cycle (idOf n) := by
  simp [cycles, List.range_succ, List.flatMap_append]

/-- Each cycle admits one request. -/
theorem run_cycles (n : Nat) :
    replay (.new 2) (cycles n) = idleAt (UInt64.ofNat n) ∧
      admittedIds (record (.new 2) (cycles n)) = (List.range n).map idOf ∧
      submittedIds (record (.new 2) (cycles n)) = (List.range n).map idOf := by
  induction n with
  | zero => exact ⟨rfl, rfl, rfl⟩
  | succ n ih =>
      obtain ⟨hstate, hadmitted, hsubmitted⟩ := ih
      have hadmit : admittedId ⟨shortLived (idOf n), 0,
          ((idleAt (UInt64.ofNat n)).apply (shortLived (idOf n)) 0).2⟩ = some (idOf n) :=
        admittedId_eq (s := idleAt (UInt64.ofNat n)) rfl
      have hone : admittedIds (record (idleAt (UInt64.ofNat n)) (cycle (idOf n))) = [idOf n] := by
        show List.filterMap admittedId [_, _] = _
        rw [List.filterMap_cons_some hadmit]
        rfl
      rw [cycles_succ, replay_append, record_append, hstate, List.range_succ, List.map_append]
      refine ⟨?_, ?_, ?_⟩
      · rw [replay_cycle, UInt64.ofNat_add]
        rfl
      · rw [admittedIds, List.filterMap_append]
        exact congrArg₂ (· ++ ·) hadmitted hone
      · rw [submittedIds_append, hsubmitted]
        rfl

theorem idOf_injective {i j : Nat} (hi : i < 2 ^ 128) (hj : j < 2 ^ 128) (h : idOf i = idOf j) :
    i = j := by
  have hbits := congrArg (fun id : Uuid => id.bits.toNat) h
  simpa only [idOf, BitVec.toNat_ofNat, Nat.mod_eq_of_lt hi, Nat.mod_eq_of_lt hj] using hbits

theorem idOf_not_mem {n i : Nat} (hi : n ≤ i) (hbig : i < 2 ^ 128) :
    idOf i ∉ (List.range n).map idOf := by
  intro hmem
  obtain ⟨j, hj, heq⟩ := List.mem_map.mp hmem
  have hj := List.mem_range.mp hj
  have := idOf_injective (by omega) hbig heq
  omega

theorem idOf_nodup {n : Nat} (hn : n ≤ 2 ^ 128) : ((List.range n).map idOf).Nodup := by
  refine List.nodup_range.map_on ?_
  intro i hi j hj heq
  have hi := List.mem_range.mp hi
  have hj := List.mem_range.mp hj
  exact idOf_injective (by omega) (by omega) heq

/-- The last request before the wrap and the first one after it. -/
def wrapEvents : List (Event × Instant) :=
  [(shortLived (idOf 18446744073709551615), 0), (shortLived (idOf 18446744073709551616), 0)]

/-- The tick at which both are due. -/
def wrapCall : Call :=
  ⟨.tick, 1, ((replay (idleAt 18446744073709551615) wrapEvents).apply .tick 1).2⟩

/-- All requests of the run are submitted at time 0 and due at time 1. -/
theorem wrap_timely {n : Nat} {c : Call} (hc : c ∈ record (.new 2) (cycles n ++ wrapEvents)) :
    c.now = 0 ∧ ∀ deadline, submittedDeadline c.event = some deadline → deadline = 1 := by
  have hevent : (c.event, c.now) ∈ cycles n ++ wrapEvents := by
    rw [← record_calls (.new 2) (cycles n ++ wrapEvents)]
    exact List.mem_map_of_mem hc
  have hshort : ∀ {id : RequestId}, (c.event, c.now) = (shortLived id, 0) →
      c.now = 0 ∧ ∀ deadline, submittedDeadline c.event = some deadline → deadline = 1 := by
    intro id heq
    obtain ⟨hev, hnow⟩ := Prod.mk.inj heq
    rw [hev]
    exact ⟨hnow, fun deadline hd => (Option.some.inj hd).symm⟩
  rcases List.mem_append.mp hevent with hcycle | hlast
  · obtain ⟨i, _, hmem⟩ := List.mem_flatMap.mp hcycle
    rcases List.mem_cons.mp hmem with heq | hmem
    · exact hshort heq
    · obtain ⟨hev, hnow⟩ := Prod.mk.inj (List.mem_singleton.mp hmem)
      rw [hev]
      exact ⟨hnow, fun deadline hd => by cases hd⟩
  · rcases List.mem_cons.mp hlast with heq | hmem
    · exact hshort heq
    · exact hshort (List.mem_singleton.mp hmem)

/-- The run, with the number of cycles left open. -/
theorem wrap_run {n : Nat} (hn : n + 2 ≤ 2 ^ 128)
    (hcounter : UInt64.ofNat n = 18446744073709551615)
    (hlast : idOf n = idOf 18446744073709551615)
    (hnext : idOf (n + 1) = idOf 18446744073709551616) :
    ∃ h s s' a b, BrokerRun 2 h s ∧ Applied s wrapCall s' ∧
      (submittedIds (h ++ [wrapCall])).Nodup ∧
      ((h ++ [wrapCall]).map Call.now).Pairwise (· ≤ ·) ∧
      (∀ d ∈ h ++ [wrapCall], ∀ deadline, submittedDeadline d.event = some deadline →
        d.now < deadline) ∧
      Precedes (admittedIds h) a b ∧
      wrapCall.result = .ok [.complete b (.error .timedOut), .complete a (.error .timedOut)] := by
  obtain ⟨hstate, hadmitted, hsubmitted⟩ := run_cycles n
  rw [hcounter] at hstate
  have hend : replay (.new 2) (cycles n ++ wrapEvents)
      = replay (idleAt 18446744073709551615) wrapEvents := by
    rw [replay_append, hstate]
  have hadmits : admittedIds (record (.new 2) (cycles n ++ wrapEvents))
      = ((List.range n).map idOf ++ [idOf n]) ++ [idOf (n + 1)] := by
    rw [record_append, hstate, admittedIds, List.filterMap_append, List.append_assoc, hlast, hnext]
    exact congrArg₂ (· ++ ·) hadmitted (by decide)
  have hids : (List.range (n + 2)).map idOf
      = (List.range n).map idOf ++ [idOf n, idOf (n + 1)] := by
    rw [List.range_succ, List.range_succ]
    simp
  refine ⟨record (.new 2) (cycles n ++ wrapEvents), replay (idleAt 18446744073709551615) wrapEvents,
    _, idOf n, idOf (n + 1), ?_, rfl, ?_, ?_, ?_, ?_, ?_⟩
  · rw [← hend]
    exact run_record .nil _
  · have hwrapped : submittedIds (record (idleAt 18446744073709551615) wrapEvents)
        = [idOf n, idOf (n + 1)] := by
      rw [hlast, hnext]
      rfl
    rw [submittedIds_append, record_append, submittedIds_append, hstate, hsubmitted, hwrapped, ← hids]
    show ((List.range (n + 2)).map idOf ++ []).Nodup
    rw [List.append_nil]
    exact idOf_nodup hn
  · rw [List.map_append, List.pairwise_append]
    refine ⟨?_, List.pairwise_singleton _ _, ?_⟩
    · refine List.pairwise_of_forall_mem_list ?_
      intro x hx y hy
      obtain ⟨c, hc, rfl⟩ := List.mem_map.mp hx
      rw [(wrap_timely hc).1]
      exact Nat.zero_le _
    · intro x hx y hy
      obtain ⟨c, hc, rfl⟩ := List.mem_map.mp hx
      rw [(wrap_timely hc).1]
      exact Nat.zero_le _
  · intro d hd deadline hdeadline
    rcases List.mem_append.mp hd with hd | hd
    · obtain ⟨hnow, hdue⟩ := wrap_timely hd
      rw [hnow, hdue deadline hdeadline]
      exact Nat.zero_lt_one
    · obtain rfl := List.mem_singleton.mp hd
      cases hdeadline
  · rw [hadmits]
    refine precedes_newest (List.mem_append_right _ (List.mem_singleton.mpr rfl)) ?_
    have := idOf_not_mem (Nat.le_refl (n + 1)) (by omega)
    rwa [List.range_succ, List.map_append] at this
  · rw [hlast, hnext]
    rfl

/-- **After the wrap the order is lost.**  A run with fresh ids, a monotone clock
    and deadlines after their submissions, in which a request admitted later is
    answered with a timeout before one admitted earlier. -/
theorem wrapped_counter_reorders :
    ∃ h s c s' a b, BrokerRun 2 h s ∧ Applied s c s' ∧ (submittedIds (h ++ [c])).Nodup ∧
      ((h ++ [c]).map Call.now).Pairwise (· ≤ ·) ∧
      (∀ d ∈ h ++ [c], ∀ deadline, submittedDeadline d.event = some deadline →
        d.now < deadline) ∧
      Precedes (admittedIds h) a b ∧
      c.result = .ok [.complete b (.error .timedOut), .complete a (.error .timedOut)] := by
  obtain ⟨h, s, s', a, b, hrun⟩ := wrap_run (n := 18446744073709551615) (by decide) rfl rfl rfl
  exact ⟨h, s, wrapCall, s', a, b, hrun⟩

end BrokerDeadline
