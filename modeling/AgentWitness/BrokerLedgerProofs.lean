import AgentWitness.BrokerTaskProofs
import Mathlib.Algebra.Order.Ring.Nat

/-! # The ledger — one call, cut at its dispatches

    A pending entry has a part that never changes: what its submission said and
    the sequence number it was admitted under.  Only the attempt counter and the
    state move, and only `reconcile` and a disconnect move them.

    Results about the ORDER of dispatches look at a call from one angle.  Let `t`
    be the state that the event's arm leaves behind.  The ids the call dispatches,
    followed by the queue it ends with, are the queue of `t`; and apart from the
    dispatched attempts nothing else changes between `t` and the end of the call.
    A refused call fits the same picture, with `t` the state after expiry. -/

namespace BrokerLedger

open Packet KeyedMap BrokerModel BrokerInvariant BrokerCompletion BrokerCorrelation BrokerTask
open Transition

/-! ## Submissions -/

/-- What a submission says about its request. -/
structure Submission where
  packet : Bytes
  context : Option RequestContext
  deadline : Instant
  requested_at : UInt64
  deadline_timestamp : UInt64
  deriving DecidableEq, Repr

/-- The event that submits it under an id. -/
def Submission.event (m : Submission) (id : RequestId) : Event :=
  .submit id m.packet m.context m.deadline m.requested_at m.deadline_timestamp

/-- The submission recorded in a pending entry. -/
def submissionOf (p : PendingRequest) : Submission where
  packet := p.packet
  context := p.context
  deadline := p.deadline
  requested_at := p.requested_at
  deadline_timestamp := p.deadline_timestamp

/-- The same admitted request, whatever its attempt and state. -/
structure SameRequest (p q : PendingRequest) : Prop where
  submission : submissionOf q = submissionOf p
  sequence : q.sequence = p.sequence

theorem SameRequest.refl (p : PendingRequest) : SameRequest p p := ⟨rfl, rfl⟩

/-- An entry of the same request has the same deadline. -/
theorem SameRequest.deadline {p q : PendingRequest} (h : SameRequest p q) :
    q.deadline = p.deadline :=
  congrArg Submission.deadline h.submission

theorem requeued_same (session_id : SessionId) (p : PendingRequest) :
    SameRequest p (p.requeued session_id) ∧ (p.requeued session_id).attempt = p.attempt := by
  rw [PendingRequest.requeued]
  split
  · exact ⟨⟨rfl, rfl⟩, rfl⟩
  · exact ⟨.refl p, rfl⟩

/-- **Where a pending entry comes from.**  After the event's arm an entry was
    pending before, with the same attempt count, or it is the one just
    admitted. -/
theorem handle_pending {s t : BrokerState} {event : Event} {own : List Effect}
    (ht : s.handle event = .ok (t, own)) {id : RequestId} {q : PendingRequest}
    (hq : t.pending.get? id = some q) :
    (∃ p, s.pending.get? id = some p ∧ SameRequest p q ∧ q.attempt = p.attempt) ∨
      (event = (submissionOf q).event id ∧ s.pending.len < s.max_pending_requests ∧
        q.sequence = s.next_sequence ∧ q.attempt = 0) := by
  have hsame : s.pending.get? id = some q →
      ∃ p, s.pending.get? id = some p ∧ SameRequest p q ∧ q.attempt = p.attempt :=
    fun h => ⟨q, h, .refl q, rfl⟩
  cases handle_cases ht with
  | full _ | connected _ | ready _ | locked _ | ignored _ => exact Or.inl (hsame hq)
  | @admitted request_id _ _ _ _ _ hroom =>
      rcases get?_of_insert hq with ⟨rfl, rfl⟩ | ⟨_, hold⟩
      · exact Or.inr ⟨rfl, hroom, rfl, rfl⟩
      · exact Or.inl (hsame hold)
  | @disconnected session_id _ =>
      change (s.requeue_session session_id).pending.get? id = some q at hq
      rw [requeue_get?] at hq
      obtain ⟨p, hp, rfl⟩ := Option.map_eq_some_iff.mp hq
      exact Or.inl ⟨p, hp, requeued_same session_id p⟩
  | answered _ _ => exact Or.inl (hsame (get?_of_erase hq).2)
  | cancelled _ => exact Or.inl (hsame (get?_of_erase hq).2)

/-- Reconciliation counts one attempt for each request it hands out, and changes
    nothing else that an entry records. -/
theorem reconcile_pending_same {s : BrokerState} (h : Consistent s) {id : RequestId}
    {q : PendingRequest} (hq : s.reconcile.1.pending.get? id = some q) :
    ∃ p, s.pending.get? id = some p ∧ SameRequest p q ∧
      q.attempt = if id ∈ s.dispatchable then p.attempt + 1 else p.attempt := by
  rw [reconcile_get? h] at hq
  split at hq
  · rename_i hid
    obtain ⟨p, hp, hq⟩ := Option.bind_eq_some_iff.mp hq
    obtain ⟨session_id, _, rfl⟩ := Option.map_eq_some_iff.mp hq
    exact ⟨p, hp, ⟨rfl, rfl⟩, (if_pos hid).symm⟩
  · rename_i hid
    exact ⟨q, hq, .refl q, (if_neg hid).symm⟩

/-! ## Admissions and dispatches -/

/-- The request a call admits: the one it submits, unless the call answers that
    the queue is full. -/
def admittedId (c : Call) : Option RequestId :=
  (submittedId c.event).filter
    (fun id => Effect.complete id (.error .queueFull) ∉ Call.emitted c)

/-- The requests admitted so far, oldest first. -/
def admittedIds (h : List Call) : List RequestId := h.filterMap admittedId

theorem submittedIds_append (g rest : List Call) :
    submittedIds (g ++ rest) = submittedIds g ++ submittedIds rest :=
  List.filterMap_append

theorem fresh_of_append {g rest : List Call} (hf : (submittedIds (g ++ rest)).Nodup) :
    (submittedIds g).Nodup := by
  rw [submittedIds_append] at hf
  exact (List.nodup_append.mp hf).1

/-- The request an effect dispatches. -/
def dispatchedId : Effect → Option RequestId
  | .dispatch _ request_id _ _ _ _ _ => some request_id
  | _ => none

/-- The requests dispatched by a list of effects, in order. -/
def dispatchedIds (effects : List Effect) : List RequestId := effects.filterMap dispatchedId

theorem admittedIds_snoc (h : List Call) (c : Call) :
    admittedIds (h ++ [c]) = admittedIds h ++ (admittedId c).toList := by
  cases hc : admittedId c <;> simp [admittedIds, List.filterMap_append, hc]

theorem submitted_of_admitted {c : Call} {id : RequestId} (h : admittedId c = some id) :
    submittedId c.event = some id :=
  (Option.filter_eq_some_iff.mp h).1

theorem admitted_submitted {h : List Call} {id : RequestId} (hid : id ∈ admittedIds h) :
    id ∈ submittedIds h := by
  obtain ⟨c, hc, hid⟩ := List.mem_filterMap.mp hid
  exact List.mem_filterMap.mpr ⟨c, hc, submitted_of_admitted hid⟩

/-- Fresh ids are admitted at most once. -/
theorem admittedIds_nodup {h : List Call} (hf : (submittedIds h).Nodup) :
    (admittedIds h).Nodup := by
  induction h using List.reverseRecOn with
  | nil => exact List.nodup_nil
  | append_singleton h c ih =>
      rw [admittedIds_snoc]
      cases hc : admittedId c with
      | none => simpa using ih (fresh_of_snoc hf)
      | some id =>
          refine List.Nodup.append (ih (fresh_of_snoc hf)) (List.nodup_singleton id) ?_
          intro j hj hj'
          obtain rfl := List.mem_singleton.mp hj'
          exact fresh_newest hf (submitted_of_admitted hc) (admitted_submitted hj)

theorem dispatchedIds_append (a b : List Effect) :
    dispatchedIds (a ++ b) = dispatchedIds a ++ dispatchedIds b :=
  List.filterMap_append

theorem mem_dispatchedIds {effects : List Effect} {id : RequestId} :
    id ∈ dispatchedIds effects ↔ ∃ session_id attempt requested_at deadline packet context,
      Effect.dispatch session_id id attempt requested_at deadline packet context ∈ effects := by
  rw [dispatchedIds, List.mem_filterMap]
  constructor
  · rintro ⟨e, he, hid⟩
    cases e with
    | dispatch session_id request_id attempt requested_at deadline packet context =>
        obtain rfl := Option.some.inj hid
        exact ⟨_, _, _, _, _, _, he⟩
    | cancel | wakeRequired | complete => cases hid
  · rintro ⟨_, _, _, _, _, _, he⟩
    exact ⟨_, he, rfl⟩

theorem dispatchedIds_eq_nil {effects : List Effect}
    (h : ∀ e ∈ effects, dispatchedId e = none) : dispatchedIds effects = [] :=
  List.filterMap_eq_nil_iff.mpr h

theorem dropEffects_dispatchedId {id : RequestId} {p : PendingRequest} {error : RequestError}
    {e : Effect} (he : e ∈ dropEffects id p error) : dispatchedId e = none := by
  rcases mem_dropEffects he with rfl | ⟨_, _, _, rfl⟩
  · rfl
  · rfl

theorem expire_dispatchedIds (s : BrokerState) (now : Instant) :
    dispatchedIds (s.expire now).2 = [] := by
  refine dispatchedIds_eq_nil ?_
  intro e he
  obtain ⟨_, _, _, _, hin⟩ := mem_expire_effects he
  exact dropEffects_dispatchedId hin

theorem handle_dispatchedIds {s t : BrokerState} {event : Event} {own : List Effect}
    (ht : s.handle event = .ok (t, own)) : dispatchedIds own = [] := by
  cases handle_cases ht with
  | full _ | answered _ _ => rfl
  | cancelled _ => exact dispatchedIds_eq_nil (fun e he => dropEffects_dispatchedId he)
  | admitted _ | connected _ | ready _ | locked _ | disconnected _ | ignored _ => rfl

/-- Reconciliation dispatches the dispatchable requests, in queue order. -/
theorem reconcile_dispatchedIds {s : BrokerState} (h : Consistent s) :
    dispatchedIds s.reconcile.2 = s.dispatchable := by
  have hwake : dispatchedIds s.dispatchQueued.1.announceWake.2 = [] := by
    rcases announceWake_effects s.dispatchQueued.1 with hw | ⟨w, hw⟩
    · rw [hw]; rfl
    · rw [hw]; rfl
  have hqueued : ∀ l : List RequestId, (∀ id ∈ l, id ∈ s.dispatchable) →
      dispatchedIds (l.filterMap (fun id => (s.pending.get? id).bind (fun p =>
        s.agent.session.map (fun session_id =>
          (p.dispatched session_id).dispatchEffect session_id id)))) = l := by
    intro l hl
    induction l with
    | nil => rfl
    | cons id rest ih =>
        have hid := hl id List.mem_cons_self
        obtain ⟨p, hp, _⟩ := mem_dispatchable_queued h hid
        obtain ⟨session_id, hs⟩ := session_of_dispatchable hid
        rw [List.filterMap_cons, hp, hs]
        show id :: dispatchedIds _ = id :: rest
        rw [← hs, ih (fun j hj => hl j (List.mem_cons_of_mem _ hj))]
  rw [reconcile_effects h, dispatchedIds_append, hwake, List.append_nil]
  exact hqueued _ (fun id hid => hid)

/-- Only the event's own arm answers that the queue is full: expiry answers with
    a timeout and reconciliation not at all. -/
theorem queueFull_own (s t : BrokerState) (now : Instant) (own : List Effect) (id : RequestId) :
    Effect.complete id (.error .queueFull) ∈ (s.expire now).2 ++ own ++ t.reconcile.2
      ↔ Effect.complete id (.error .queueFull) ∈ own := by
  rw [List.mem_append, List.mem_append]
  constructor
  · rintro ((hexpire | hown) | hreconcile)
    · obtain ⟨_, _, _, _, hin⟩ := mem_expire_effects hexpire
      rcases mem_dropEffects hin with heq | ⟨_, _, _, heq⟩
      · cases (Effect.complete.inj heq).2
      · cases heq
    · exact hown
    · rcases reconcile_kind hreconcile with hd | ⟨w, heq⟩
      · exact absurd rfl hd
      · cases heq
  · exact fun hown => Or.inl (Or.inr hown)

/-- Whether a submission is admitted is decided by the room that expiry leaves. -/
theorem admittedId_eq {s s' : BrokerState} {c : Call} (hstep : Applied s c s') :
    admittedId c = if (s.expire c.now).1.pending.len < s.max_pending_requests
      then submittedId c.event else none := by
  obtain ⟨event, now, result⟩ := c
  cases hsub : submittedId event with
  | none => simp [admittedId, hsub]
  | some id =>
      cases result with
      | error e =>
          obtain ⟨session_id, capacity, rfl, _⟩ := handle_error (apply_error hstep).2
          cases hsub
      | ok effects =>
          have ha : s.apply event now = (s', .ok effects) := hstep
          obtain ⟨t, own, hh, _, rfl⟩ := apply_ok ha
          show Option.filter (fun id => Effect.complete id (.error .queueFull)
              ∉ (s.expire now).2 ++ own ++ t.reconcile.2) (submittedId event)
            = if (s.expire now).1.pending.len < (s.expire now).1.max_pending_requests
              then some id else none
          simp only [hsub, Option.filter_some, decide_eq_true_eq, queueFull_own]
          cases handle_cases hh with
          | full hfull =>
              obtain rfl := Option.some.inj hsub
              rw [if_neg (Nat.not_lt.mpr hfull), if_neg (by simp)]
          | admitted hroom => rw [if_pos hroom, if_pos (by simp)]
          | connected _ | ready _ | locked _ | disconnected _ | answered _ _ | cancelled _ =>
              cases hsub
          | ignored hign =>
              cases event with
              | submit => exact hign.elim
              | connected | ready | locked | disconnected | response | cancelled | tick =>
                  cases hsub

/-! ## One call, cut at its dispatches -/

@[simp] theorem reconcile_next (s : BrokerState) :
    s.reconcile.1.next_sequence = s.next_sequence := by
  have hwake : ∀ t : BrokerState, t.announceWake.1.next_sequence = t.next_sequence := by
    intro t
    unfold BrokerState.announceWake
    split
    · rfl
    · split <;> rfl
  show s.dispatchQueued.1.announceWake.1.next_sequence = _
  rw [hwake]
  unfold BrokerState.dispatchQueued
  split <;> rfl

/-- A call from `s` to `s'` and the state `t` before its dispatches. -/
structure Staged (s : BrokerState) (c : Call) (t s' : BrokerState) : Prop where
  applied : Applied s c s'
  consistent : Consistent t
  arm : (∃ own, (s.expire c.now).1.handle c.event = .ok (t, own)) ∨
    (t = (s.expire c.now).1 ∧ ∃ session_id capacity, c.event = .connected session_id capacity)
  queue : dispatchedIds (Call.emitted c) ++ s'.queue = t.queue
  agent : s'.agent = t.agent
  next : s'.next_sequence = t.next_sequence
  entry : ∀ id q, s'.pending.get? id = some q → ∃ p, t.pending.get? id = some p ∧
    SameRequest p q ∧
    q.attempt = if id ∈ dispatchedIds (Call.emitted c) then p.attempt + 1 else p.attempt
  tags : ∀ id session_id attempt, InFlight s' id session_id attempt →
    id ∈ dispatchedIds (Call.emitted c) ∨ InFlight t id session_id attempt
  dispatch : ∀ session_id id attempt requested_at deadline packet context,
    .dispatch session_id id attempt requested_at deadline packet context ∈ Call.emitted c →
    t.agent.session = some session_id ∧ ∃ p, t.pending.get? id = some p ∧
      attempt = p.attempt + 1 ∧ requested_at = p.requested_at ∧
      deadline = p.deadline_timestamp ∧ packet = p.packet ∧ context = p.context

/-- **Every call is staged**, refused ones included. -/
theorem applied_staged {s s' : BrokerState} {c : Call} (h : Consistent s)
    (hfresh : ∀ id, submittedId c.event = some id → s.pending.get? id = none)
    (hstep : Applied s c s') : ∃ t, Staged s c t s' := by
  obtain ⟨event, now, result⟩ := c
  cases result with
  | error e =>
      obtain ⟨rfl, hh⟩ := apply_error hstep
      obtain ⟨session_id, capacity, hevent, _⟩ := handle_error hh
      refine ⟨(s.expire now).1, hstep, consistent_expire h now,
        Or.inr ⟨rfl, session_id, capacity, hevent⟩, rfl, rfl, rfl, ?_, ?_, ?_⟩
      · intro id q hq
        exact ⟨q, hq, .refl q, rfl⟩
      · intro _ _ _ hin
        exact Or.inr hin
      · intro _ _ _ _ _ _ _ he
        cases he
  | ok effects =>
      have ha : s.apply event now = (s', .ok effects) := hstep
      obtain ⟨t, own, hh, hcons, _, rfl, heffects⟩ := apply_stages h hfresh ha
      have hids : dispatchedIds effects = t.dispatchable := by
        rw [heffects, dispatchedIds_append, dispatchedIds_append, expire_dispatchedIds,
          handle_dispatchedIds hh, reconcile_dispatchedIds hcons]
        rfl
      have hqueue : dispatchedIds effects ++ t.reconcile.1.queue = t.queue := by
        rw [hids, dispatchable_append_queue hcons]
      refine ⟨t, hstep, hcons, Or.inl ⟨own, hh⟩, hqueue, reconcile_agent t, reconcile_next t,
        ?_, ?_, ?_⟩
      · intro id q hq
        show ∃ p, _ ∧ _ ∧ q.attempt = if id ∈ dispatchedIds effects then _ else _
        rw [hids]
        exact reconcile_pending_same hcons hq
      · rintro id session_id attempt ⟨q, hq, hs⟩
        show id ∈ dispatchedIds effects ∨ _
        rw [hids]
        by_cases hid : id ∈ t.dispatchable
        · exact Or.inl hid
        · rw [reconcile_get? hcons, if_neg hid] at hq
          exact Or.inr ⟨q, hq, hs⟩
      · intro session_id id attempt requested_at deadline packet context he
        change _ ∈ effects at he
        rw [heffects] at he
        rcases List.mem_append.mp he with he | he
        · cases stages_no_dispatch hh he
        · rcases mem_reconcile_effects hcons he with ⟨j, p, active, _, hp, hact, heq⟩ | ⟨w, heq⟩
          · obtain ⟨rfl, rfl, rfl, rfl, rfl, rfl, rfl⟩ := Effect.dispatch.inj heq
            exact ⟨hact, p, hp, rfl, rfl, rfl, rfl, rfl⟩
          · cases heq

/-- Along a run with fresh ids every call is staged. -/
theorem run_staged {max_pending_requests : Nat} {h : List Call} {s s' : BrokerState} {c : Call}
    (hr : BrokerRun max_pending_requests h s) (hf : (submittedIds (h ++ [c])).Nodup)
    (hstep : Applied s c s') : ∃ t, Staged s c t s' :=
  applied_staged (run_consistent hr (fresh_of_snoc hf)).1 (fresh_not_pending hr hf) hstep

section Staged

variable {s t s' : BrokerState} {c : Call}

/-- A dispatched request stood in the queue that the arm left. -/
theorem Staged.mem_queue (hst : Staged s c t s') {id : RequestId}
    (hid : id ∈ dispatchedIds (Call.emitted c)) : id ∈ t.queue := by
  rw [← hst.queue]
  exact List.mem_append_left _ hid

/-- An entry before the dispatches was pending, or it is the one admitted. -/
theorem Staged.origin (hst : Staged s c t s') {id : RequestId} {q : PendingRequest}
    (hq : t.pending.get? id = some q) :
    (∃ p, s.pending.get? id = some p ∧ SameRequest p q ∧ q.attempt = p.attempt) ∨
      (admittedId c = some id ∧ c.event = (submissionOf q).event id ∧
        q.sequence = s.next_sequence ∧ q.attempt = 0) := by
  rcases hst.arm with ⟨own, hh⟩ | ⟨rfl, _⟩
  · rcases handle_pending hh hq with ⟨p, hp, hsame⟩ | ⟨hevent, hroom, hsequence, hattempt⟩
    · exact Or.inl ⟨p, (expire_get?_some.mp hp).1, hsame⟩
    · refine Or.inr ⟨?_, hevent, hsequence, hattempt⟩
      rw [admittedId_eq hst.applied, if_pos (show _ < s.max_pending_requests from hroom), hevent]
      rfl
  · exact Or.inl ⟨q, (expire_get?_some.mp hq).1, .refl q, rfl⟩

/-- The counter moves with an admission and only then. -/
theorem Staged.counter (hst : Staged s c t s') :
    t.next_sequence = if (admittedId c).isSome then s.next_sequence + 1 else s.next_sequence := by
  rw [admittedId_eq hst.applied]
  rcases hst.arm with ⟨own, hh⟩ | ⟨rfl, session_id, capacity, hevent⟩
  · have hnone : submittedId c.event = none → (if (s.expire c.now).1.pending.len
          < s.max_pending_requests then submittedId c.event else none).isSome = false := by
      intro hsub
      rw [hsub, ite_self]
      rfl
    cases hevent : c.event with
    | submit id packet context deadline requested_at deadline_timestamp =>
        rw [hevent] at hh
        cases handle_cases hh with
        | full hfull =>
            rw [if_neg (show ¬ _ < s.max_pending_requests from Nat.not_lt.mpr hfull)]
            rfl
        | admitted hroom =>
            rw [if_pos (show _ < s.max_pending_requests from hroom)]
            rfl
        | ignored hign => exact hign.elim
    | connected | ready | locked | disconnected | response | cancelled | tick =>
        rw [hevent] at hnone hh
        rw [hnone rfl]
        cases handle_cases hh <;> rfl
  · rw [hevent]
    show s.next_sequence = if (if _ then none else none).isSome then _ else _
    rw [ite_self]
    rfl

/-- A queued request leaves the queue by a dispatch, or it leaves the broker. -/
theorem Staged.waits (hst : Staged s c t s') {r : RequestId}
    (hr : r ∈ s.queue) : r ∈ t.queue ∨ t.pending.get? r = none := by
  have hexpire : r ∈ (s.expire c.now).1.queue ∨ (s.expire c.now).1.pending.get? r = none := by
    rw [mem_expire_queue, expire_get?]
    cases hp : s.pending.get? r with
    | none => exact Or.inr rfl
    | some p =>
        by_cases hd : c.now < p.deadline
        · refine Or.inl ⟨hr, ?_⟩
          intro q hq
          obtain rfl := Option.some.inj hq
          exact hd
        · exact Or.inr (by simp [Option.filter, hd])
  rcases hst.arm with ⟨own, hh⟩ | ⟨rfl, _⟩
  · generalize c.event = event at hh
    cases handle_cases hh with
    | full _ | connected _ | ready _ | locked _ | ignored _ => exact hexpire
    | @admitted request_id _ _ _ _ _ _ =>
        rcases hexpire with hq | hnone
        · exact Or.inl (List.mem_append_left _ hq)
        · by_cases heq : r = request_id
          · exact Or.inl (List.mem_append_right _ (List.mem_singleton.mpr heq))
          · refine Or.inr ?_
            show ((s.expire c.now).1.pending.insert request_id _).get? r = none
            rw [get?_insert_of_ne _ _ heq]
            exact hnone
    | @disconnected session_id _ =>
        rcases hexpire with hq | hnone
        · exact Or.inl (List.mem_append_right _ hq)
        · refine Or.inr ?_
          show ((s.expire c.now).1.requeue_session session_id).pending.get? r = none
          rw [requeue_get?, hnone]
          rfl
    | @answered _ request_id _ _ _ _ _ =>
        rcases hexpire with hq | hnone
        · exact Or.inl hq
        · refine Or.inr ?_
          show ((s.expire c.now).1.pending.erase request_id).get? r = none
          rw [get?_erase, hnone, ite_self]
    | @cancelled request_id _ _ =>
        by_cases heq : r = request_id
        · refine Or.inr ?_
          show ((s.expire c.now).1.pending.erase request_id).get? r = none
          rw [get?_erase, if_pos heq]
        · rcases hexpire with hq | hnone
          · exact Or.inl (List.mem_filter.mpr ⟨hq, decide_eq_true heq⟩)
          · refine Or.inr ?_
            show ((s.expire c.now).1.pending.erase request_id).get? r = none
            rw [get?_erase, hnone, ite_self]
  · exact hexpire

/-- Dispatching removes nothing from the broker and adds nothing to it. -/
theorem Staged.gone (hst : Staged s c t s') {r : RequestId}
    (hr : t.pending.get? r = none) : s'.pending.get? r = none := by
  cases hq : s'.pending.get? r with
  | none => rfl
  | some q =>
      obtain ⟨p, hp, _⟩ := hst.entry r q hq
      rw [hr] at hp
      cases hp

end Staged

/-! ## Sequence numbers are places in the list of admissions -/

/-- One id stands before another in a list. -/
def Precedes (ids : List RequestId) (a b : RequestId) : Prop :=
  b ∈ ids ∧ ids.idxOf a < ids.idxOf b

instance (ids : List RequestId) (a b : RequestId) : Decidable (Precedes ids a b) :=
  inferInstanceAs (Decidable (_ ∧ _))

section Precedes

variable {ids : List RequestId} {a b x : RequestId}

theorem Precedes.mem_left (h : Precedes ids a b) : a ∈ ids :=
  List.idxOf_lt_length_iff.mp (Nat.lt_trans h.2 (List.idxOf_lt_length_iff.mpr h.1))

theorem Precedes.asymm (h : Precedes ids a b) : ¬ Precedes ids b a :=
  fun hba => Nat.lt_asymm h.2 hba.2

theorem not_precedes_self : ¬ Precedes ids a a := fun h => Nat.lt_irrefl _ h.2

/-- Later admissions leave the order of earlier ones as it is. -/
theorem Precedes.append (h : Precedes ids a b) (l : List RequestId) : Precedes (ids ++ l) a b := by
  refine ⟨List.mem_append_left _ h.1, ?_⟩
  rw [List.idxOf_append_of_mem h.mem_left, List.idxOf_append_of_mem h.1]
  exact h.2

/-- The newest admission comes after all others. -/
theorem precedes_newest (ha : a ∈ ids) (hx : x ∉ ids) : Precedes (ids ++ [x]) a x := by
  refine ⟨by simp, ?_⟩
  rw [List.idxOf_append_of_mem ha, List.idxOf_append_of_notMem hx]
  exact Nat.lt_of_lt_of_le (List.idxOf_lt_length_iff.mpr ha) (Nat.le_add_right _ _)

end Precedes

/-- The sequence numbers count the admissions, in 64 bits. -/
structure Numbered (ids : List RequestId) (s : BrokerState) : Prop where
  next : s.next_sequence = UInt64.ofNat ids.length
  entry : ∀ id p, s.pending.get? id = some p →
    id ∈ ids ∧ p.sequence = UInt64.ofNat (ids.idxOf id)

/-- What the arm of a call leaves behind is numbered by the extended list. -/
theorem Staged.numbered {s t s' : BrokerState} {c : Call} {ids : List RequestId}
    (hst : Staged s c t s') (h : Numbered ids s) (hnew : ∀ x, admittedId c = some x → x ∉ ids) :
    Numbered (ids ++ (admittedId c).toList) t where
  next := by
    rw [hst.counter, h.next]
    cases admittedId c with
    | none => simp
    | some x => simp [UInt64.ofNat_add]
  entry := by
    intro id q hq
    rcases hst.origin hq with ⟨p, hp, hsame, _⟩ | ⟨hadmitted, _, hsequence, _⟩
    · obtain ⟨hmem, hnumber⟩ := h.entry id p hp
      refine ⟨List.mem_append_left _ hmem, ?_⟩
      rw [hsame.sequence, hnumber, List.idxOf_append_of_mem hmem]
    · refine ⟨by simp [hadmitted], ?_⟩
      rw [hsequence, h.next, List.idxOf_append_of_notMem (hnew id hadmitted), hadmitted]
      simp

/-- Dispatching renumbers nothing. -/
theorem Staged.numbered_end {s t s' : BrokerState} {c : Call} {ids : List RequestId}
    (hst : Staged s c t s') (h : Numbered ids t) : Numbered ids s' where
  next := hst.next.trans h.next
  entry := by
    intro id q hq
    obtain ⟨p, hp, hsame, _⟩ := hst.entry id q hq
    rw [hsame.sequence]
    exact h.entry id p hp

/-- A fresh admission is not in the list yet. -/
theorem admitted_fresh {h : List Call} {c : Call} (hf : (submittedIds (h ++ [c])).Nodup) :
    ∀ x, admittedId c = some x → x ∉ admittedIds h := by
  intro x hx hmem
  have hn := admittedIds_nodup hf
  rw [admittedIds_snoc, hx] at hn
  exact List.disjoint_of_nodup_append hn hmem (by simp)

/-- **Numbering**: along every run with fresh ids. -/
theorem run_numbered {max_pending_requests : Nat} {h : List Call} {s : BrokerState}
    (hr : BrokerRun max_pending_requests h s) (hf : (submittedIds h).Nodup) :
    Numbered (admittedIds h) s := by
  induction hr with
  | nil => exact ⟨rfl, fun id p hp => (by cases hp)⟩
  | @snoc h s s' c hr hstep ih =>
      obtain ⟨t, hst⟩ := run_staged hr hf hstep
      rw [admittedIds_snoc]
      exact hst.numbered_end (hst.numbered (ih (fresh_of_snoc hf)) (admitted_fresh hf))

/-- As long as the counter has not wrapped, sorting entries by their number puts
    them in admission order. -/
theorem sorted_precedes {ids : List RequestId} (hlen : ids.length < 2 ^ 64)
    {m : Map RequestId PendingRequest}
    (hnum : ∀ id p, m.get? id = some p → id ∈ ids ∧ p.sequence = UInt64.ofNat (ids.idxOf id))
    (f : PendingRequest → Bool) :
    ((sortBySequence ((m.entries.filter (fun e => f e.2)).map
      (fun e => (e.1, e.2.sequence)))).map Prod.fst).Pairwise (Precedes ids) := by
  have hsorted : (sortBySequence ((m.entries.filter (fun e => f e.2)).map
      (fun e => (e.1, e.2.sequence)))).Pairwise (fun a b => a.2 ≤ b.2) :=
    List.pairwise_insertionSort _ _
  have hdistinct := List.pairwise_map.mp (sorted_ids_nodup m f)
  refine List.pairwise_map.mpr ((hsorted.and hdistinct).imp_of_mem ?_)
  have hentry : ∀ e ∈ sortBySequence ((m.entries.filter (fun e => f e.2)).map
      (fun e => (e.1, e.2.sequence))), e.1 ∈ ids ∧ e.2.toNat = ids.idxOf e.1 := by
    intro e he
    obtain ⟨⟨id, p⟩, hp, rfl⟩ := List.mem_map.mp ((sortBySequence_perm _).mem_iff.mp he)
    obtain ⟨hmem, hnumber⟩ := hnum id p ((mem_entries_iff m id p).mp (List.mem_filter.mp hp).1)
    refine ⟨hmem, ?_⟩
    show p.sequence.toNat = ids.idxOf id
    rw [hnumber]
    exact UInt64.toNat_ofNat_of_lt' (Nat.lt_trans (List.idxOf_lt_length_iff.mpr hmem) hlen)
  rintro a b ha hb ⟨hle, hne⟩
  obtain ⟨hmema, hnuma⟩ := hentry a ha
  obtain ⟨hmemb, hnumb⟩ := hentry b hb
  refine ⟨hmemb, Nat.lt_of_le_of_ne ?_ ?_⟩
  · rw [← hnuma, ← hnumb]
    exact UInt64.le_iff_toNat_le.mp hle
  · intro heq
    exact hne ((List.idxOf_inj hmema).mp heq)

/-! ## Submissions along runs -/

/-- The request was submitted with this content. -/
def SubmittedAs (h : List Call) (id : RequestId) (m : Submission) : Prop :=
  ∃ c ∈ h, c.event = m.event id

theorem SubmittedAs.mono {h h' : List Call} {id : RequestId} {m : Submission}
    (hs : SubmittedAs h id m) (hsub : ∀ c ∈ h, c ∈ h') : SubmittedAs h' id m := by
  obtain ⟨c, hc, hevent⟩ := hs
  exact ⟨c, hsub c hc, hevent⟩

/-- Under fresh ids the content is determined by the id. -/
theorem SubmittedAs.unique {h : List Call} (hf : (submittedIds h).Nodup) {id : RequestId}
    {m m' : Submission} (hs : SubmittedAs h id m) (hs' : SubmittedAs h id m') : m = m' := by
  obtain ⟨c, hc, hevent⟩ := hs
  obtain ⟨c', hc', hevent'⟩ := hs'
  obtain rfl := eq_of_named_once hf hc hc'
    (show submittedId c.event = some id by rw [hevent]; rfl)
    (show submittedId c'.event = some id by rw [hevent']; rfl)
  obtain ⟨packet, context, deadline, requested_at, deadline_timestamp⟩ := m
  obtain ⟨_, rfl, rfl, rfl, rfl, rfl⟩ := Event.submit.inj (hevent.symm.trans hevent')
  rfl

/-- An entry before the dispatches of the newest call records a submission. -/
theorem Staged.submitted {s t s' : BrokerState} {h : List Call} {c : Call}
    (hst : Staged s c t s')
    (hs : ∀ id p, s.pending.get? id = some p → SubmittedAs h id (submissionOf p))
    {id : RequestId} {q : PendingRequest} (hq : t.pending.get? id = some q) :
    SubmittedAs (h ++ [c]) id (submissionOf q) := by
  rcases hst.origin hq with ⟨p, hp, hsame, _⟩ | ⟨_, hevent, _, _⟩
  · rw [hsame.submission]
    exact (hs id p hp).mono (fun d hd => List.mem_append_left _ hd)
  · exact ⟨c, List.mem_append_right _ (List.mem_singleton.mpr rfl), hevent⟩

/-- A dispatch changes nothing that the entry says about its submission, so what holds of
    the submissions before reconciliation holds of the entries and of the dispatches. -/
theorem reconcile_submissions {s : BrokerState} {R : RequestId → Submission → Prop}
    (h : ∀ id p, s.pending.get? id = some p → R id (submissionOf p)) :
    (∀ id p, s.reconcile.1.pending.get? id = some p → R id (submissionOf p)) ∧
      ∀ e ∈ s.reconcile.2, dispatchSession e ≠ none → ∃ session_id id p, R id (submissionOf p) ∧
        e = (p.dispatched session_id).dispatchEffect session_id id := by
  have hwake : ∀ e ∈ s.dispatchQueued.1.announceWake.2, dispatchSession e = none := by
    intro e he
    rcases announceWake_effects s.dispatchQueued.1 with hnil | ⟨w, hone⟩
    · rw [hnil] at he
      cases he
    · rw [hone] at he
      rw [List.mem_singleton.mp he]
      rfl
  rw [reconcile_pending]
  show _ ∧ ∀ e ∈ s.dispatchQueued.2 ++ _, _
  cases hc : s.connected_remote with
  | none =>
      rw [dispatchQueued_none hc] at hwake ⊢
      exact ⟨h, fun e he hd => absurd (hwake e he) hd⟩
  | some remote =>
      obtain ⟨session_id, capacity⟩ := remote
      rw [dispatchQueued_some hc] at hwake ⊢
      have hstep : ∀ (m : Map RequestId PendingRequest) (n : Nat) (id : RequestId)
          (p : PendingRequest), (∀ j q, m.get? j = some q → R j (submissionOf q)) →
          n < capacity → m.get? id = some p →
          ∀ j q, (m.insert id (p.dispatched session_id)).get? j = some q →
            R j (submissionOf q) := by
        intro m n id p hm _ hp j q hq
        rcases get?_of_insert hq with ⟨rfl, rfl⟩ | ⟨_, hold⟩
        · exact hm j p hp
        · exact hm j q hold
      obtain ⟨⟨_, hend⟩, heffects⟩ := dispatchLoop_invariant hstep
        (q := s.queue) (n := s.in_flight_for session_id) h
      refine ⟨hend, ?_⟩
      intro e he hd
      rcases List.mem_append.mp he with he | he
      · obtain ⟨m, _, id, p, hm, hp, heq⟩ := heffects e he
        exact ⟨session_id, id, p, hm id p hp, heq⟩
      · exact absurd (hwake e he) hd

/-- **Step lemma.**  Entries and dispatches record submissions, under fresh ids or not. -/
theorem applied_submissions {h : List Call} {s s' : BrokerState} {c : Call}
    (hs : ∀ id p, s.pending.get? id = some p → SubmittedAs h id (submissionOf p))
    (hstep : Applied s c s') :
    (∀ id p, s'.pending.get? id = some p → SubmittedAs (h ++ [c]) id (submissionOf p)) ∧
      ∀ e ∈ Call.emitted c, dispatchSession e ≠ none → ∃ session_id id p,
        SubmittedAs (h ++ [c]) id (submissionOf p) ∧
        e = (p.dispatched session_id).dispatchEffect session_id id := by
  have hexpired : ∀ id p, (s.expire c.now).1.pending.get? id = some p →
      SubmittedAs (h ++ [c]) id (submissionOf p) := by
    intro id p hp
    exact (hs id p (expire_get?_some.mp hp).1).mono (fun d hd => List.mem_append_left _ hd)
  obtain ⟨event, now, result⟩ := c
  cases result with
  | error e =>
      obtain ⟨rfl, _⟩ := apply_error hstep
      exact ⟨hexpired, fun e he => by cases he⟩
  | ok effects =>
      obtain ⟨t, own, hh, rfl, heffects⟩ := apply_ok hstep
      have ht : ∀ id q, t.pending.get? id = some q →
          SubmittedAs (h ++ [⟨event, now, .ok effects⟩]) id (submissionOf q) := by
        intro id q hq
        rcases handle_pending hh hq with ⟨p, hp, hsame, _⟩ | ⟨hevent, _⟩
        · rw [hsame.submission]
          exact hexpired id p hp
        · exact ⟨_, List.mem_append_right _ (List.mem_singleton.mpr rfl), hevent⟩
      obtain ⟨hentries, hdispatches⟩ := reconcile_submissions ht
      refine ⟨hentries, ?_⟩
      intro e he hd
      change e ∈ effects at he
      rw [heffects] at he
      rcases List.mem_append.mp he with he | he
      · exact absurd (stages_no_dispatch hh he) hd
      · exact hdispatches e he hd

/-- **Entries record their submissions** along every run. -/
theorem run_submitted {max_pending_requests : Nat} {h : List Call} {s : BrokerState}
    (hr : BrokerRun max_pending_requests h s) :
    ∀ id p, s.pending.get? id = some p → SubmittedAs h id (submissionOf p) := by
  induction hr with
  | nil => intro id p hp; cases hp
  | snoc _ hstep ih => exact (applied_submissions ih hstep).1

/-- Every dispatch carries what was submitted under its id. -/
theorem run_dispatch_submitted {max_pending_requests : Nat} {h : List Call} {s : BrokerState}
    (hr : BrokerRun max_pending_requests h s) {session_id : SessionId} {id : RequestId}
    {attempt : UInt32} {requested_at stamp : UInt64} {packet : Bytes}
    {context : Option RequestContext}
    (he : .dispatch session_id id attempt requested_at stamp packet context ∈ emitted h) :
    ∃ deadline, SubmittedAs h id ⟨packet, context, deadline, requested_at, stamp⟩ := by
  induction hr with
  | nil => cases he
  | @snoc h s s' c hr hstep ih =>
      rw [emitted_snoc] at he
      rcases List.mem_append.mp he with he | he
      · obtain ⟨deadline, hs⟩ := ih he
        exact ⟨deadline, hs.mono (fun d hd => List.mem_append_left _ hd)⟩
      · obtain ⟨_, _, p, hsubmitted, heq⟩ := (applied_submissions (run_submitted hr) hstep).2 _ he
          (Option.some_ne_none _)
        obtain ⟨_, rfl, _, rfl, rfl, rfl, rfl⟩ := Effect.dispatch.inj heq
        exact ⟨p.deadline, hsubmitted⟩

/-! ## While a session lasts -/

/-- The entry dispatches the request to the session. -/
def DispatchedTo (id : RequestId) (session_id : SessionId) (a : Entry) : Prop :=
  ∃ attempt, Entry.Dispatches id session_id attempt a

/-- The entry does not disconnect the session. -/
def Lasts (session_id : SessionId) (a : Entry) : Prop :=
  a ≠ .received (.disconnected session_id)

/-- The request was dispatched to the session, which has lasted since. -/
abbrev HandedTo (id : RequestId) (session_id : SessionId) (l : List Entry) : Prop :=
  Since (DispatchedTo id session_id) (Lasts session_id) l

/-- While the session of a dispatch lasts, it is the connected one, and the
    dispatched request is related to everything queued. -/
def Held (R : RequestId → RequestId → Prop) (l : List Entry) (s : BrokerState) : Prop :=
  ∀ r session_id, HandedTo r session_id l →
    s.agent.session = some session_id ∧ ∀ q ∈ s.queue, R r q

/-- A dispatch is related to every dispatch whose session has lasted since. -/
def InSessionOrder (R : RequestId → RequestId → Prop) (before : List Entry) (a : Entry) : Prop :=
  ∀ q session_id, DispatchedTo q session_id a →
    ∀ r earlier, HandedTo r earlier before → R r q

theorem dispatchedTo_emitted {id : RequestId} {session_id : SessionId} {e : Effect}
    (h : DispatchedTo id session_id (.emitted e)) :
    dispatchedId e = some id ∧ dispatchSession e = some session_id := by
  obtain ⟨attempt, hd⟩ := h
  cases e with
  | dispatch active request_id n requested_at deadline packet context =>
      obtain ⟨rfl, rfl, rfl⟩ := hd
      exact ⟨rfl, rfl⟩
  | cancel | wakeRequired | complete => exact hd.elim

/-- No effect disconnects a session, so among effects only the dispatches
    matter. -/
theorem handedTo_effects {id : RequestId} {session_id : SessionId} {l : List Entry}
    {effects : List Effect} (h : HandedTo id session_id (l ++ effects.map .emitted)) :
    (∃ e ∈ effects, dispatchedId e = some id ∧ dispatchSession e = some session_id) ∨
      HandedTo id session_id l := by
  rcases since_append.mp h with ⟨before, a, after, heq, ha, _⟩ | ⟨_, hold⟩
  · have hmem : a ∈ effects.map Entry.emitted := by
      rw [heq]
      exact List.mem_append_right _ List.mem_cons_self
    obtain ⟨e, he, rfl⟩ := List.mem_map.mp hmem
    exact Or.inl ⟨e, he, dispatchedTo_emitted ha⟩
  · exact Or.inr hold

section Held

variable {R : RequestId → RequestId → Prop} {s t s' : BrokerState} {c : Call} {l : List Entry}

/-- A session survives every arm but its own disconnect, and the queue grows
    there by admissions only. -/
theorem Staged.arm_lasts (hst : Staged s c t s') {session_id : SessionId}
    (hs : s.agent.session = some session_id) (hlasts : c.event ≠ .disconnected session_id) :
    t.agent.session = some session_id ∧ ∀ q ∈ t.queue, q ∈ s.queue ∨ admittedId c = some q := by
  have hqueue : ∀ q ∈ (s.expire c.now).1.queue, q ∈ s.queue :=
    fun q hq => (mem_expire_queue.mp hq).1
  rcases hst.arm with ⟨own, hh⟩ | ⟨rfl, _⟩
  · have hadmitted := admittedId_eq hst.applied
    generalize c.event = event at hh hlasts hadmitted
    cases handle_cases hh with
    | full _ | ignored _ => exact ⟨hs, fun q hq => Or.inl (hqueue q hq)⟩
    | @admitted request_id _ _ _ _ _ hroom =>
        refine ⟨hs, fun q hq => ?_⟩
        rcases List.mem_append.mp hq with hq | hq
        · exact Or.inl (hqueue q hq)
        · obtain rfl := List.mem_singleton.mp hq
          rw [if_pos (show _ < s.max_pending_requests from hroom)] at hadmitted
          exact Or.inr hadmitted
    | connected hd =>
        rw [show s.agent = .disconnected from hd] at hs
        cases hs
    | ready hc =>
        rw [show s.agent.session = _ from session_eq_connected _,
          show s.connected_remote = _ from hc] at hs
        exact ⟨hs, fun q hq => Or.inl (hqueue q hq)⟩
    | locked hc =>
        rw [show s.agent.session = _ from session_eq_connected _,
          show s.connected_remote = _ from hc] at hs
        exact ⟨hs, fun q hq => Or.inl (hqueue q hq)⟩
    | disconnected hd =>
        obtain rfl := Option.some.inj (hs.symm.trans hd)
        exact absurd rfl hlasts
    | answered _ _ => exact ⟨hs, fun q hq => Or.inl (hqueue q hq)⟩
    | cancelled _ => exact ⟨hs, fun q hq => Or.inl (hqueue q (List.mem_filter.mp hq).1)⟩
  · exact ⟨hs, fun q hq => Or.inl (hqueue q hq)⟩

/-- What is held before a call is held in the middle of it. -/
theorem Staged.held_arm (hst : Staged s c t s') (hheld : Held R l s)
    (hnew : ∀ x, admittedId c = some x → ∀ r session_id, HandedTo r session_id l → R r x) :
    Held R (l ++ [.received c.event]) t := by
  intro r session_id hh
  rcases since_snoc.mp hh with ⟨attempt, hd⟩ | ⟨hlasts, hold⟩
  · exact hd.elim
  · obtain ⟨hs, hqueue⟩ := hheld r session_id hold
    obtain ⟨ht, hgrows⟩ := hst.arm_lasts hs (fun he => hlasts (congrArg Entry.received he))
    refine ⟨ht, fun q hq => ?_⟩
    rcases hgrows q hq with hq | hq
    · exact hqueue q hq
    · exact hnew q hq r session_id hold

/-- **One call.**  If the queue before the dispatches is ordered, the dispatches
    are in order with everything handed to a lasting session, and what is handed
    out is held. -/
theorem Staged.held (hst : Staged s c t s') (hheld : Held R l s)
    (hnew : ∀ x, admittedId c = some x → ∀ r session_id, HandedTo r session_id l → R r x)
    (horder : t.queue.Pairwise R) (ht : Throughout (InSessionOrder R) l) :
    Held R (l ++ Call.entries c) s' ∧ Throughout (InSessionOrder R) (l ++ Call.entries c) := by
  have harm := hst.held_arm hheld hnew
  have hsession : ∀ e ∈ Call.emitted c, ∀ r session_id, dispatchedId e = some r →
      dispatchSession e = some session_id → t.agent.session = some session_id := by
    intro e he r session_id hid hs
    cases e with
    | dispatch => obtain rfl := Option.some.inj hs; exact (hst.dispatch _ _ _ _ _ _ _ he).1
    | cancel | wakeRequired | complete => cases hid
  have hlist : l ++ Call.entries c
      = (l ++ [.received c.event]) ++ (Call.emitted c).map .emitted := by
    simp [Call.entries]
  rw [hlist]
  rw [← hst.queue, List.pairwise_append] at horder
  constructor
  · intro r session_id hh
    rcases handedTo_effects hh with ⟨e, he, hid, hs⟩ | hold
    · refine ⟨by rw [hst.agent]; exact hsession e he r session_id hid hs, fun q hq => ?_⟩
      exact horder.2.2 r (List.mem_filterMap.mpr ⟨e, he, hid⟩) q hq
    · obtain ⟨hs, hqueue⟩ := harm r session_id hold
      refine ⟨by rw [hst.agent]; exact hs, fun q hq => hqueue q ?_⟩
      rw [← hst.queue]
      exact List.mem_append_right _ hq
  · -- one more effect at a time: it comes after the effects before it
    have hpart : ∀ done rest, Call.emitted c = done ++ rest →
        Throughout (InSessionOrder R) ((l ++ [.received c.event]) ++ done.map .emitted) := by
      intro done
      induction done using List.reverseRecOn with
      | nil =>
          intro rest _
          rw [List.map_nil, List.append_nil]
          refine throughout_snoc.mpr ⟨ht, ?_⟩
          rintro q session_id ⟨attempt, hd⟩
          exact hd.elim
      | append_singleton done e ih =>
          intro rest heq
          rw [List.append_assoc] at heq
          rw [List.map_append, ← List.append_assoc]
          refine throughout_snoc.mpr ⟨ih _ heq, ?_⟩
          intro q session_id hd r earlier hh
          have hid := (dispatchedTo_emitted hd).1
          have hq : q ∈ dispatchedIds (Call.emitted c) := by
            rw [heq]
            exact List.mem_filterMap.mpr ⟨e, by simp, hid⟩
          rcases handedTo_effects hh with ⟨d, hd', hr, _⟩ | hold
          · have hpair := horder.1
            rw [heq, dispatchedIds_append, List.pairwise_append] at hpair
            exact hpair.2.2 r (List.mem_filterMap.mpr ⟨d, hd', hr⟩) q
              (List.mem_filterMap.mpr ⟨e, by simp, hid⟩)
          · exact (harm r earlier hold).2 q (hst.mem_queue hq)
    exact hpart _ [] (List.append_nil _).symm

end Held

/-- Only admitted requests are dispatched. -/
theorem run_dispatched_admitted {max_pending_requests : Nat} {h : List Call} {s : BrokerState}
    (hr : BrokerRun max_pending_requests h s) (hf : (submittedIds h).Nodup) :
    ∀ id ∈ dispatchedIds (emitted h), id ∈ admittedIds h := by
  induction hr with
  | nil => intro id hid; cases hid
  | @snoc h s s' c hr hstep ih =>
      obtain ⟨t, hst⟩ := run_staged hr hf hstep
      intro id hid
      rw [emitted_snoc, dispatchedIds_append] at hid
      rw [admittedIds_snoc]
      rcases List.mem_append.mp hid with hid | hid
      · exact List.mem_append_left _ (ih (fresh_of_snoc hf) id hid)
      · obtain ⟨q, hq⟩ := hst.consistent.queue_present id (hst.mem_queue hid)
        exact ((hst.numbered (run_numbered hr (fresh_of_snoc hf)) (admitted_fresh hf)).entry id q hq).1

/-- A dispatch in the history is one of the emitted effects. -/
theorem dispatchedTo_history {h : List Call} {id : RequestId} {session_id : SessionId} {a : Entry}
    (hmem : a ∈ history h) (ha : DispatchedTo id session_id a) :
    id ∈ dispatchedIds (emitted h) := by
  obtain ⟨c, hc, hmem⟩ := List.mem_flatMap.mp hmem
  rcases List.mem_cons.mp hmem with rfl | hmem
  · obtain ⟨_, hd⟩ := ha
    exact hd.elim
  · obtain ⟨e, he, rfl⟩ := List.mem_map.mp hmem
    exact List.mem_filterMap.mpr
      ⟨e, List.mem_flatMap.mpr ⟨c, hc, he⟩, (dispatchedTo_emitted ha).1⟩

/-- **Order within a session.**  If `R` orders the queue in the middle of every
    call and relates what was admitted to every later admission, then it relates
    a dispatch to all later ones, for as long as its session lasts. -/
theorem run_held (R : RequestId → RequestId → Prop) {max_pending_requests : Nat}
    {h : List Call} {s : BrokerState} (hr : BrokerRun max_pending_requests h s)
    (hf : (submittedIds h).Nodup)
    (horder : ∀ g c rest s t s', h = g ++ c :: rest → BrokerRun max_pending_requests g s →
      Staged s c t s' → t.queue.Pairwise R)
    (hnew : ∀ g c rest x r, h = g ++ c :: rest → admittedId c = some x → r ∈ admittedIds g → R r x) :
    Held R (history h) s ∧ Throughout (InSessionOrder R) (history h) := by
  induction hr with
  | nil => exact ⟨fun r session_id hh => absurd hh not_since_nil, throughout_nil⟩
  | @snoc h s s' c hr hstep ih =>
      obtain ⟨t, hst⟩ := run_staged hr hf hstep
      have hpart : ∀ {g d rest}, h = g ++ d :: rest → h ++ [c] = g ++ d :: (rest ++ [c]) := by
        intro g d rest heq
        rw [heq, List.append_assoc, List.cons_append]
      obtain ⟨hheld, ht⟩ := ih (fresh_of_snoc hf)
        (fun g d rest s t s' heq => horder g d (rest ++ [c]) s t s' (hpart heq))
        (fun g d rest x r heq => hnew g d (rest ++ [c]) x r (hpart heq))
      rw [history_snoc]
      refine hst.held hheld ?_ (horder h c [] s t s' rfl hr hst) ht
      intro x hx r session_id hh
      refine hnew h c [] x r rfl hx (run_dispatched_admitted hr (fresh_of_snoc hf) r ?_)
      obtain ⟨before, a, after, heq, ha, _⟩ := hh
      exact dispatchedTo_history (heq ▸ List.mem_append_right _ List.mem_cons_self) ha

end BrokerLedger
