import AgentWitness.BrokerInvariantProofs

/-! # Exactly-once completion

    Completions are CONSERVED: over one call, the completions emitted for an id
    plus whether it is pending afterwards equal whether it was pending before
    plus whether the call submitted it.  Each of the five paths that add or
    remove a request (admission, a full queue, expiry, an answer, a
    cancellation) balances, and the two that only move it (requeueing,
    dispatching) add nothing.  Summed over a run with fresh ids this says that
    a request is pending without a completion or gone with exactly one.

    Cancels are paired with completions in `dropEffects`, so they never exceed
    them, and a request dropped in flight shows the pair in its effects. -/

namespace BrokerCompletion

open Packet KeyedMap BrokerModel BrokerInvariant Transition

/-- Whether an effect answers the given request. -/
def isComplete (id : RequestId) : Effect → Bool
  | .complete request_id _ => request_id = id
  | _ => false

/-- Whether an effect stops remote work on the given request. -/
def isCancel (id : RequestId) : Effect → Bool
  | .cancel _ request_id _ => request_id = id
  | _ => false

/-- The number of completions of a request in a list of effects. -/
def completions (id : RequestId) (effects : List Effect) : Nat :=
  effects.countP (isComplete id)

/-- The number of cancels of a request in a list of effects. -/
def cancels (id : RequestId) (effects : List Effect) : Nat :=
  effects.countP (isCancel id)

/-- One if the request is pending, else zero. -/
def pendingOnce (s : BrokerState) (id : RequestId) : Nat :=
  if (s.pending.get? id).isSome then 1 else 0

/-- One if the event submits the request, else zero. -/
def submittedOnce (event : Event) (id : RequestId) : Nat :=
  if submittedId event = some id then 1 else 0

@[simp] theorem completions_nil (id : RequestId) : completions id [] = 0 := rfl

@[simp] theorem completions_append (id : RequestId) (a b : List Effect) :
    completions id (a ++ b) = completions id a + completions id b :=
  List.countP_append

@[simp] theorem cancels_append (id : RequestId) (a b : List Effect) :
    cancels id (a ++ b) = cancels id a + cancels id b :=
  List.countP_append

theorem completions_complete (id j : RequestId) (result : Except RequestError Bytes) :
    completions id [.complete j result] = if j = id then 1 else 0 := by
  simp [completions, isComplete, List.countP_cons]

theorem completions_drop (id j : RequestId) (p : PendingRequest) (e : RequestError) :
    completions id (dropEffects j p e) = if j = id then 1 else 0 := by
  unfold dropEffects
  cases p.state <;> simp [completions, isComplete, List.countP_cons]

theorem cancels_drop_le (id j : RequestId) (p : PendingRequest) (e : RequestError) :
    cancels id (dropEffects j p e) ≤ completions id (dropEffects j p e) := by
  rw [completions_drop]
  unfold dropEffects
  cases p.state <;> simp [cancels, isCancel, List.countP_cons]

/-- The effects of dropping a request that was in flight. -/
theorem drop_in_flight {p : PendingRequest} {session_id : SessionId} {attempt : UInt32}
    (h : p.state = .inFlight session_id attempt) (id : RequestId) (e : RequestError) :
    dropEffects id p e = [.cancel session_id id attempt, .complete id (.error e)] := by
  simp [dropEffects, h]

/-! ## Expiry balances -/

/-- Dropping the listed requests in turn. -/
def dropAll (m : Map RequestId PendingRequest) (ids : List RequestId) : List Effect :=
  ids.flatMap (fun id =>
    match m.get? id with
    | none => []
    | some p => dropEffects id p .timedOut)

theorem dropAll_append (m : Map RequestId PendingRequest) (a b : List RequestId) :
    dropAll m (a ++ b) = dropAll m a ++ dropAll m b :=
  List.flatMap_append

theorem dropAll_cons_some {m : Map RequestId PendingRequest} {id : RequestId}
    {p : PendingRequest} (h : m.get? id = some p) (ids : List RequestId) :
    dropAll m (id :: ids) = dropEffects id p .timedOut ++ dropAll m ids := by
  simp only [dropAll, List.flatMap_cons, h]

/-- Dropping other requests does not answer this one. -/
theorem completions_dropAll_other {m : Map RequestId PendingRequest} {id : RequestId}
    {ids : List RequestId} (h : id ∉ ids) : completions id (dropAll m ids) = 0 := by
  induction ids with
  | nil => rfl
  | cons hd tl ih =>
      rw [List.mem_cons, not_or] at h
      cases hm : m.get? hd with
      | none => simpa [dropAll, hm] using ih h.2
      | some p =>
          rw [dropAll_cons_some hm, completions_append, completions_drop,
            if_neg (Ne.symm h.1), ih h.2]

theorem cancels_dropAll_le (m : Map RequestId PendingRequest) (id : RequestId)
    (ids : List RequestId) : cancels id (dropAll m ids) ≤ completions id (dropAll m ids) := by
  induction ids with
  | nil => exact Nat.le_refl _
  | cons hd tl ih =>
      cases hm : m.get? hd with
      | none => simpa [dropAll, hm] using ih
      | some p =>
          rw [dropAll_cons_some hm, cancels_append, completions_append]
          have := cancels_drop_le id hd p .timedOut
          omega

/-- An overdue request is dropped once, between requests that are not it. -/
theorem expire_effects_split {s : BrokerState} {now : Instant} {id : RequestId}
    {p : PendingRequest} (hp : s.pending.get? id = some p) (hd : p.deadline ≤ now) :
    ∃ before after, (s.expire now).2
        = dropAll s.pending before ++ dropEffects id p .timedOut ++ dropAll s.pending after
      ∧ id ∉ before ∧ id ∉ after := by
  have hmem := (mem_overdue s now id).mpr ⟨p, hp, hd⟩
  obtain ⟨before, after, heq⟩ := List.append_of_mem hmem
  have hn := overdue_nodup s now
  rw [heq] at hn
  have hnot := List.nodup_middle.mp hn
  rw [List.nodup_cons, List.mem_append, not_or] at hnot
  refine ⟨before, after, ?_, hnot.1.1, hnot.1.2⟩
  rw [expire_effects, heq]
  show dropAll s.pending (before ++ id :: after) = _
  rw [dropAll_append, dropAll_cons_some hp, List.append_assoc]

theorem expire_completions_zero {s : BrokerState} {now : Instant} {id : RequestId}
    (h : ∀ p, s.pending.get? id = some p → now < p.deadline) :
    completions id (s.expire now).2 = 0 := by
  rw [expire_effects]
  refine completions_dropAll_other ?_
  intro hin
  obtain ⟨p, hp, hle⟩ := (mem_overdue s now id).mp hin
  exact Nat.not_lt.mpr hle (h p hp)

theorem expire_conserves (s : BrokerState) (now : Instant) (id : RequestId) :
    completions id (s.expire now).2 + pendingOnce (s.expire now).1 id = pendingOnce s id := by
  unfold pendingOnce
  rw [expire_get?]
  cases hp : s.pending.get? id with
  | none =>
      rw [expire_completions_zero (fun p hq => by rw [hp] at hq; cases hq)]
      rfl
  | some p =>
      by_cases hd : now < p.deadline
      · rw [expire_completions_zero (fun q hq => by
          obtain rfl := Option.some.inj (hp.symm.trans hq)
          exact hd)]
        simp [Option.filter, hd]
      · obtain ⟨before, after, heq, hb, ha⟩ := expire_effects_split hp (Nat.le_of_not_lt hd)
        rw [heq, completions_append, completions_append, completions_drop,
          completions_dropAll_other hb, completions_dropAll_other ha]
        simp [Option.filter, hd]

theorem expire_cancels_le (s : BrokerState) (now : Instant) (id : RequestId) :
    cancels id (s.expire now).2 ≤ completions id (s.expire now).2 := by
  rw [expire_effects]
  exact cancels_dropAll_le s.pending id _

/-! ## The event's own change balances -/

theorem pendingOnce_erase {m : Map RequestId PendingRequest} {p : PendingRequest}
    {j : RequestId} (hp : m.get? j = some p) (id : RequestId) :
    (if j = id then 1 else 0) + (if ((m.erase j).get? id).isSome then 1 else 0)
      = if (m.get? id).isSome then 1 else 0 := by
  rw [get?_erase]
  by_cases h : id = j
  · subst h; simp [hp]
  · simp [h, Ne.symm h]

theorem handle_conserves {s t : BrokerState} {event : Event} {own : List Effect}
    (hfresh : ∀ id, submittedId event = some id → s.pending.get? id = none)
    (ht : s.handle event = .ok (t, own)) (id : RequestId) :
    completions id own + pendingOnce t id = pendingOnce s id + submittedOnce event id := by
  cases handle_cases ht with
  | @full request_id =>
      rw [completions_complete, submittedOnce, submittedId]
      simp only [Option.some.injEq]
      omega
  | @admitted request_id =>
      have hnone := hfresh request_id rfl
      simp only [completions_nil, pendingOnce, submittedOnce, submittedId, get?_insert,
        Option.some.injEq]
      by_cases h : id = request_id
      · subst h; simp [hnone]
      · simp [h, Ne.symm h]
  | connected _ => simp [pendingOnce, submittedOnce, submittedId]
  | ready _ => simp [pendingOnce, submittedOnce, submittedId]
  | locked _ => simp [pendingOnce, submittedOnce, submittedId]
  | @disconnected session_id _ =>
      have hget := requeue_get? s session_id id
      simp only [completions_nil, pendingOnce, submittedOnce, submittedId]
      rw [hget]
      cases s.pending.get? id <;> simp
  | answered hp _ =>
      rw [completions_complete]
      simpa [pendingOnce, submittedOnce, submittedId] using pendingOnce_erase hp id
  | cancelled hp =>
      rw [completions_drop]
      simpa [pendingOnce, submittedOnce, submittedId] using pendingOnce_erase hp id
  | ignored hi =>
      have hnot : submittedId event ≠ some id := by
        cases event with
        | submit => exact hi.elim
        | _ => rintro ⟨⟩
      simp [pendingOnce, submittedOnce, hnot]

theorem handle_cancels_le {s t : BrokerState} {event : Event} {own : List Effect}
    (ht : s.handle event = .ok (t, own)) (id : RequestId) :
    cancels id own ≤ completions id own := by
  cases handle_cases ht with
  | full _ => simp [cancels, isCancel]
  | admitted _ => exact Nat.le_refl _
  | connected _ => exact Nat.le_refl _
  | ready _ => exact Nat.le_refl _
  | locked _ => exact Nat.le_refl _
  | disconnected _ => exact Nat.le_refl _
  | answered _ _ => simp [cancels, isCancel]
  | cancelled _ => exact cancels_drop_le id _ _ _
  | ignored _ => exact Nat.le_refl _

/-! ## Reconciliation moves requests without answering them -/

/-- Reconciliation emits dispatches and wake-ups only. -/
theorem reconcile_countP {s : BrokerState} (h : Consistent s) {f : Effect → Bool}
    (hdispatch : ∀ session_id id attempt requested_at stamp packet context,
      f (.dispatch session_id id attempt requested_at stamp packet context) = false)
    (hwake : ∀ request, f (.wakeRequired request) = false) : s.reconcile.2.countP f = 0 := by
  refine List.countP_eq_zero.mpr ?_
  intro e he
  rcases mem_reconcile_effects h he with ⟨j, p, session_id, _, _, _, rfl⟩ | ⟨w, rfl⟩
  · exact ne_true_of_eq_false (hdispatch _ _ _ _ _ _ _)
  · exact ne_true_of_eq_false (hwake w)

theorem reconcile_completions {s : BrokerState} (h : Consistent s) (id : RequestId) :
    completions id s.reconcile.2 = 0 :=
  reconcile_countP h (fun _ _ _ _ _ _ _ => rfl) (fun _ => rfl)

theorem reconcile_cancels {s : BrokerState} (h : Consistent s) (id : RequestId) :
    cancels id s.reconcile.2 = 0 :=
  reconcile_countP h (fun _ _ _ _ _ _ _ => rfl) (fun _ => rfl)

theorem reconcile_pendingOnce {s : BrokerState} (h : Consistent s) (id : RequestId) :
    pendingOnce s.reconcile.1 id = pendingOnce s id := by
  unfold pendingOnce
  rw [reconcile_get? h]
  by_cases hd : id ∈ s.dispatchable
  · obtain ⟨p, hp, _⟩ := mem_dispatchable_queued h hd
    obtain ⟨session_id, hs⟩ := session_of_dispatchable hd
    rw [if_pos hd, hp, hs]
    rfl
  · rw [if_neg hd]

/-! ## Whole calls -/

/-- The stages of a successful call with a fresh id, with the facts later stages
    start from. -/
theorem apply_stages {s s' : BrokerState} {event : Event} {now : Instant}
    {effects : List Effect} (h : Consistent s)
    (hfresh : ∀ id, submittedId event = some id → s.pending.get? id = none)
    (ha : s.apply event now = (s', .ok effects)) :
    ∃ t own, (s.expire now).1.handle event = .ok (t, own) ∧ Consistent t ∧
      (∀ id, submittedId event = some id → (s.expire now).1.pending.get? id = none) ∧
      s' = t.reconcile.1 ∧ effects = (s.expire now).2 ++ own ++ t.reconcile.2 := by
  obtain ⟨t, own, hh, hs', he⟩ := apply_ok ha
  have hfresh' : ∀ id, submittedId event = some id →
      (s.expire now).1.pending.get? id = none := by
    intro id hid
    rw [expire_get?, hfresh id hid]
    rfl
  exact ⟨t, own, hh, consistent_handle (consistent_expire h now) hfresh' hh, hfresh', hs', he⟩

/-- **Conservation.** Over one call, completions emitted plus requests still
    pending equal requests pending before plus requests submitted. -/
theorem apply_conserves {s s' : BrokerState} {event : Event} {now : Instant}
    {effects : List Effect} (h : Consistent s)
    (hfresh : ∀ id, submittedId event = some id → s.pending.get? id = none)
    (ha : s.apply event now = (s', .ok effects)) (id : RequestId) :
    completions id effects + pendingOnce s' id = pendingOnce s id + submittedOnce event id := by
  obtain ⟨t, own, hh, hcons, hfresh', rfl, rfl⟩ := apply_stages h hfresh ha
  have h1 := expire_conserves s now id
  have h2 := handle_conserves hfresh' hh id
  rw [completions_append, completions_append, reconcile_completions hcons,
    reconcile_pendingOnce hcons]
  omega

theorem apply_cancels_le {s s' : BrokerState} {event : Event} {now : Instant}
    {effects : List Effect} (h : Consistent s)
    (hfresh : ∀ id, submittedId event = some id → s.pending.get? id = none)
    (ha : s.apply event now = (s', .ok effects)) (id : RequestId) :
    cancels id effects ≤ completions id effects := by
  obtain ⟨t, own, hh, hcons, _, rfl, rfl⟩ := apply_stages h hfresh ha
  have h1 := expire_cancels_le s now id
  have h2 := handle_cancels_le hh id
  simp only [completions_append, cancels_append, reconcile_cancels hcons]
  omega

/-! ## Whole runs -/

/-- The effects a call handed to the actor. -/
def Call.emitted (c : Call) : List Effect :=
  match c.result with
  | .ok effects => effects
  | .error _ => []

/-- All effects of a run, oldest first. -/
def emitted (h : List Call) : List Effect := h.flatMap Call.emitted

/-- Every call of the run succeeded. -/
def AllOk (h : List Call) : Prop := ∀ c ∈ h, c.result.isOk = true

instance (h : List Call) : Decidable (AllOk h) :=
  inferInstanceAs (Decidable (∀ c ∈ h, c.result.isOk = true))

theorem emitted_snoc (h : List Call) (c : Call) :
    emitted (h ++ [c]) = emitted h ++ Call.emitted c := by
  simp [emitted, List.flatMap_append]

theorem AllOk.of_snoc {h : List Call} {c : Call} (hok : AllOk (h ++ [c])) : AllOk h :=
  fun d hd => hok d (List.mem_append_left _ hd)

theorem AllOk.newest {h : List Call} {c : Call} (hok : AllOk (h ++ [c])) :
    ∃ effects, c.result = .ok effects := by
  have hc : c.result.isOk = true := hok c (by simp)
  cases hres : c.result with
  | ok effects => exact ⟨effects, rfl⟩
  | error e =>
      rw [hres] at hc
      cases hc

/-- Conservation summed over a run. -/
theorem run_conserves {max_pending_requests : Nat} {h : List Call} {s : BrokerState}
    (hr : BrokerRun max_pending_requests h s) (hok : AllOk h)
    (hf : (submittedIds h).Nodup) (id : RequestId) :
    completions id (emitted h) + pendingOnce s id = (submittedIds h).count id ∧
      cancels id (emitted h) ≤ completions id (emitted h) := by
  induction hr with
  | nil => exact ⟨rfl, Nat.le_refl _⟩
  | @snoc h s s' c hr hstep ih =>
      obtain ⟨heq, hle⟩ := ih hok.of_snoc (fresh_of_snoc hf)
      have hcons := (run_consistent hr (fresh_of_snoc hf)).1
      have hfresh := fresh_not_pending hr hf
      obtain ⟨effects, hres⟩ := hok.newest
      have ha : s.apply c.event c.now = (s', .ok effects) := hres ▸ hstep
      have hbal := apply_conserves hcons hfresh ha id
      have hcan := apply_cancels_le hcons hfresh ha id
      have hem : Call.emitted c = effects := by rw [Call.emitted, hres]
      have hcount : ((submittedId c.event).toList).count id = submittedOnce c.event id := by
        unfold submittedOnce
        cases hs : submittedId c.event with
        | none => simp
        | some j => by_cases hj : j = id <;> simp [hj]
      rw [emitted_snoc, hem, completions_append, cancels_append, submittedIds_snoc,
        List.count_append, hcount]
      constructor
      · omega
      · omega

/-- A request dropped while in flight shows its cancel right before its
    completion, once. -/
theorem apply_drop_in_flight {s s' : BrokerState} {event : Event} {now : Instant}
    {effects : List Effect} (h : Consistent s)
    (hfresh : ∀ id, submittedId event = some id → s.pending.get? id = none)
    (ha : s.apply event now = (s', .ok effects)) {id : RequestId} {p : PendingRequest}
    {session_id : SessionId} {attempt : UInt32} (hp : s.pending.get? id = some p)
    (hs : p.state = .inFlight session_id attempt)
    (hcause : event = .cancelled id ∨ p.deadline ≤ now) :
    s'.pending.get? id = none ∧ completions id effects = 1 ∧ cancels id effects = 1 ∧
      ∃ before after error, effects
        = before ++ [.cancel session_id id attempt, .complete id (.error error)] ++ after := by
  obtain ⟨t, own, hh, hcons, hfresh', rfl, rfl⟩ := apply_stages h hfresh ha
  have hnot : submittedOnce event id = 0 := by
    unfold submittedOnce
    rw [if_neg]
    intro he
    rw [hfresh id he] at hp
    cases hp
  have hbal := apply_conserves h hfresh ha id
  have hle := apply_cancels_le h hfresh ha id
  have hpend : pendingOnce s id = 1 := by simp [pendingOnce, hp]
  rw [hnot, hpend] at hbal
  -- the pair occurs; conservation then says that it occurs once and that the
  -- request is gone
  suffices hshape : ∃ before after error, (s.expire now).2 ++ own ++ t.reconcile.2
      = before ++ [.cancel session_id id attempt, .complete id (.error error)] ++ after by
    obtain ⟨before, after, error, heq⟩ := hshape
    have hc1 : 1 ≤ cancels id ((s.expire now).2 ++ own ++ t.reconcile.2) := by
      rw [heq]
      simp only [cancels_append]
      have : cancels id [.cancel session_id id attempt, .complete id (.error error)] = 1 := by
        simp [cancels, isCancel]
      omega
    refine ⟨?_, by omega, by omega, before, after, error, heq⟩
    have hzero : pendingOnce t.reconcile.1 id = 0 := by omega
    unfold pendingOnce at hzero
    cases hg : t.reconcile.1.pending.get? id with
    | none => rfl
    | some q =>
        rw [hg] at hzero
        cases hzero
  by_cases hd : p.deadline ≤ now
  · obtain ⟨before, after, heq, _, _⟩ := expire_effects_split hp hd
    rw [drop_in_flight hs] at heq
    refine ⟨dropAll s.pending before,
      dropAll s.pending after ++ own ++ t.reconcile.2, .timedOut, ?_⟩
    rw [heq]
    simp only [List.append_assoc]
  · obtain rfl := hcause.resolve_right hd
    have hp' : (s.expire now).1.pending.get? id = some p :=
      expire_get?_some.mpr ⟨hp, Nat.lt_of_not_le hd⟩
    have hown : own = dropEffects id p .cancelled := by
      rw [BrokerState.handle, hp'] at hh
      exact (Prod.mk.inj (Except.ok.inj hh)).2.symm
    rw [drop_in_flight hs] at hown
    exact ⟨(s.expire now).2, t.reconcile.2, .cancelled, by rw [hown]⟩

/-- **Exactly-once completion.**  In a run of successful calls with fresh ids,
    every submitted request is pending without a completion so far, or is gone
    with exactly one completion over the whole run.  When the next call drops a
    request that is in flight, by cancellation or by expiry, the run has exactly
    one cancel for it: of the session and attempt it was in flight to, and
    immediately before its completion. -/
theorem completes_exactly_once {max_pending_requests : Nat} {h : List Call}
    {s : BrokerState} (hr : BrokerRun max_pending_requests h s) (hok : AllOk h)
    (hf : (submittedIds h).Nodup) :
    (∀ id ∈ submittedIds h,
      (s.pending.get? id ≠ none ∧ completions id (emitted h) = 0)
      ∨ (s.pending.get? id = none ∧ completions id (emitted h) = 1)) ∧
    (∀ event now s' effects,
      (∀ id, submittedId event = some id → id ∉ submittedIds h) →
      s.apply event now = (s', .ok effects) →
      ∀ id p session_id attempt, s.pending.get? id = some p →
      p.state = .inFlight session_id attempt →
      (event = .cancelled id ∨ p.deadline ≤ now) →
      s'.pending.get? id = none ∧ completions id (emitted h ++ effects) = 1 ∧
      cancels id (emitted h ++ effects) = 1 ∧
      ∃ before after error, effects
        = before ++ [.cancel session_id id attempt, .complete id (.error error)] ++ after) := by
  obtain ⟨hcons, hsub⟩ := run_consistent hr hf
  constructor
  · intro id hid
    have hbal := (run_conserves hr hok hf id).1
    rw [List.count_eq_one_of_mem hf hid] at hbal
    cases hp : s.pending.get? id with
    | none =>
        simp only [pendingOnce, hp, Option.isSome_none, Bool.false_eq_true, if_false] at hbal
        exact Or.inr ⟨rfl, hbal⟩
    | some p =>
        simp only [pendingOnce, hp, Option.isSome_some, if_true] at hbal
        exact Or.inl ⟨Option.some_ne_none p, by omega⟩
  · intro event now s' effects hnew ha id p session_id attempt hp hs hcause
    have hfresh : ∀ j, submittedId event = some j → s.pending.get? j = none := by
      intro j hj
      by_contra hne
      exact hnew j hj (hsub j hne)
    obtain ⟨hgone, hone, hcan, hshape⟩ := apply_drop_in_flight hcons hfresh ha hp hs hcause
    obtain ⟨hbal, hle⟩ := run_conserves hr hok hf id
    have hcount : (submittedIds h).count id ≤ 1 := List.nodup_iff_count_le_one.mp hf id
    simp only [pendingOnce, hp, Option.isSome_some, if_true] at hbal
    refine ⟨hgone, ?_, ?_, hshape⟩
    · rw [completions_append, hone]
      omega
    · rw [cancels_append, hcan]
      omega

/-- A request is admitted, dispatched and cancelled by its caller, while another
    one expires. -/
def droppedEvents : List (Event × Instant) :=
  [(.submit ⟨1⟩ [11] none 30 0 30, 0), (.submit ⟨2⟩ [12] none 5 0 5, 1),
   (.connected ⟨7⟩ 4, 2)]

theorem completes_exactly_once_dropped :
    AllOk (record (.new 8) droppedEvents) ∧
    (submittedIds (record (.new 8) droppedEvents)).Nodup ∧
    cancels ⟨1⟩ (emitted (record (.new 8) droppedEvents)
      ++ [.cancel ⟨7⟩ ⟨2⟩ 1, .complete ⟨2⟩ (.error .timedOut),
          .cancel ⟨7⟩ ⟨1⟩ 1, .complete ⟨1⟩ (.error .cancelled)]) = 1 := by
  have hrun : BrokerRun 8 (record (.new 8) droppedEvents) (replay (.new 8) droppedEvents) :=
    run_record .nil droppedEvents
  have happly : (replay (.new 8) droppedEvents).apply (.cancelled ⟨1⟩) 9
      = (((replay (.new 8) droppedEvents).apply (.cancelled ⟨1⟩) 9).1,
         .ok [.cancel ⟨7⟩ ⟨2⟩ 1, .complete ⟨2⟩ (.error .timedOut),
              .cancel ⟨7⟩ ⟨1⟩ 1, .complete ⟨1⟩ (.error .cancelled)]) :=
    Prod.ext rfl (by decide)
  refine ⟨by decide, by decide, ?_⟩
  exact ((completes_exactly_once hrun (by decide) (by decide)).2 (.cancelled ⟨1⟩) 9 _ _
    (by decide) happly ⟨1⟩ _ ⟨7⟩ 1 rfl rfl (Or.inl rfl)).2.2.1

end BrokerCompletion
