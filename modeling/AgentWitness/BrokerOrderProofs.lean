import AgentWitness.BrokerTraceProofs

/-! # First in, first out — dispatch order across reconnects

    Requeueing puts the work of a lost session IN FRONT of the queue, sorted by
    sequence numbers that come out of an unordered map.  That this is admission
    order rests on an invariant: the queue is in admission order, and whatever is
    in flight was admitted before everything queued.  Expiry, answers and
    cancellations take elements out of such a state, an admission appends the
    newest one, a disconnect joins the two parts and dispatching cuts them apart
    again somewhere else.

    The sequence numbers are places in the list of admissions as long as the
    64-bit counter has not wrapped. -/

namespace BrokerOrder

open Packet KeyedMap BrokerModel BrokerInvariant BrokerCompletion BrokerCorrelation BrokerTask
open BrokerLedger BrokerTrace Transition

/-- The queue is in admission order, behind everything in flight. -/
structure Ordered (ids : List RequestId) (s : BrokerState) : Prop where
  sorted : s.queue.Pairwise (Precedes ids)
  ahead : ∀ r session_id attempt, InFlight s r session_id attempt →
    ∀ q ∈ s.queue, Precedes ids r q

section Ordered

variable {ids : List RequestId} {s t s' : BrokerState} {c : Call}

/-- Taking elements out of the queue and the flight keeps the order. -/
theorem Ordered.shrink (h : Ordered ids s) (hqueue : t.queue.Sublist s.queue)
    (htags : ∀ r session_id attempt, InFlight t r session_id attempt →
      InFlight s r session_id attempt) : Ordered ids t where
  sorted := h.sorted.sublist hqueue
  ahead := by
    intro r session_id attempt hr q hq
    exact h.ahead r session_id attempt (htags r session_id attempt hr) q (hqueue.subset hq)

theorem ordered_expire (h : Ordered ids s) (now : Instant) : Ordered ids (s.expire now).1 :=
  h.shrink List.filter_sublist
    (fun r session_id attempt hr => ((expire_in_flight s now r session_id attempt).mp hr).2)

/-- The newest admission goes to the end of the queue. -/
theorem ordered_admit {x : RequestId} (h : Ordered ids s) (hx : x ∉ ids)
    (hpending : ∀ id p, s.pending.get? id = some p → id ∈ ids) (hcons : Consistent s)
    (hqueue : t.queue = s.queue ++ [x])
    (htags : ∀ r session_id attempt, InFlight t r session_id attempt →
      InFlight s r session_id attempt) : Ordered (ids ++ [x]) t where
  sorted := by
    rw [hqueue, List.pairwise_append]
    refine ⟨h.sorted.imp (fun hab => hab.append [x]), List.pairwise_singleton _ _, ?_⟩
    intro a ha b hb
    obtain rfl := List.mem_singleton.mp hb
    obtain ⟨p, hp⟩ := hcons.queue_present a ha
    exact precedes_newest (hpending a p hp) hx
  ahead := by
    intro r session_id attempt hr q hq
    have hold := htags r session_id attempt hr
    rw [hqueue] at hq
    rcases List.mem_append.mp hq with hq | hq
    · exact (h.ahead r session_id attempt hold q hq).append [x]
    · obtain rfl := List.mem_singleton.mp hq
      obtain ⟨p, hp, _⟩ := hold
      exact precedes_newest (hpending r p hp) hx

/-- A disconnect joins what was in flight, sorted, and the queue behind it. -/
theorem ordered_disconnect (h : Ordered ids s) (hnum : Numbered ids s)
    (hlen : ids.length < 2 ^ 64) (session_id : SessionId)
    (hqueue : t.queue = (s.requeue_session session_id).queue)
    (htags : ∀ r active attempt, ¬ InFlight t r active attempt) : Ordered ids t where
  sorted := by
    rw [hqueue]
    show ((sortBySequence _).map Prod.fst ++ s.queue).Pairwise _
    rw [List.pairwise_append]
    refine ⟨sorted_precedes hlen hnum.entry (fun p => p.inFlightFor session_id), h.sorted, ?_⟩
    intro a ha b hb
    obtain ⟨p, hp, hflight⟩ :=
      (mem_sorted_ids s.pending (fun p => p.inFlightFor session_id) a).mp ha
    obtain ⟨attempt, hs⟩ := inFlightFor_iff.mp hflight
    exact h.ahead a session_id attempt ⟨p, hp, hs⟩ b hb
  ahead := fun r active attempt hr => absurd hr (htags r active attempt)

/-- **Every arm keeps the order.** -/
theorem ordered_arm (hst : Staged s c t s') (h : Ordered ids s) (hcons : Consistent s)
    (hfresh : ∀ id, submittedId c.event = some id → s.pending.get? id = none)
    (hnum : Numbered ids s) (hlen : ids.length < 2 ^ 64)
    (hnew : ∀ x, admittedId c = some x → x ∉ ids) :
    Ordered (ids ++ (admittedId c).toList) t := by
  have hx := ordered_expire h c.now
  have hxcons := consistent_expire hcons c.now
  have hadmitted := admittedId_eq hst.applied
  rcases hst.arm with ⟨own, hh⟩ | ⟨rfl, session_id, capacity, hevent⟩
  · have hfresh' : ∀ id, submittedId c.event = some id →
        (s.expire c.now).1.pending.get? id = none := by
      intro id hid
      rw [expire_get?, hfresh id hid]
      rfl
    have htags : ∀ r session_id attempt, InFlight t r session_id attempt →
        InFlight (s.expire c.now).1 r session_id attempt := fun r session_id attempt hr =>
      ((handle_in_flight hxcons hfresh' hh r session_id attempt).mp hr).2
    have hkeep : submittedId c.event = none → t.queue.Sublist (s.expire c.now).1.queue →
        Ordered (ids ++ (admittedId c).toList) t := by
      intro hnone hsub
      rw [hnone, ite_self] at hadmitted
      rw [hadmitted, Option.toList_none, List.append_nil]
      exact hx.shrink hsub htags
    generalize c.event = event at hh hadmitted hkeep
    cases handle_cases hh with
    | full hfull =>
        rw [if_neg (show ¬ _ < s.max_pending_requests from Nat.not_lt.mpr hfull)] at hadmitted
        rw [hadmitted, Option.toList_none, List.append_nil]
        exact hx
    | @admitted request_id _ _ _ _ _ hroom =>
        rw [if_pos (show _ < s.max_pending_requests from hroom)] at hadmitted
        rw [hadmitted]
        refine ordered_admit hx (hnew request_id hadmitted) ?_ hxcons rfl htags
        intro id p hp
        exact (hnum.entry id p (expire_get?_some.mp hp).1).1
    | connected _ => exact hkeep rfl (List.Sublist.refl _)
    | ready _ => exact hkeep rfl (List.Sublist.refl _)
    | locked _ => exact hkeep rfl (List.Sublist.refl _)
    | @disconnected session_id hs =>
        have hnone : admittedId c = none := hadmitted.trans (ite_self _)
        rw [hnone, Option.toList_none, List.append_nil]
        refine ordered_disconnect hx ⟨hnum.next, fun id p hp =>
          hnum.entry id p (expire_get?_some.mp hp).1⟩ hlen session_id rfl ?_
        rintro r active attempt ⟨p, hp, hstate⟩
        have := hst.consistent.queued_of_disconnected rfl hp
        rw [hstate] at this
        cases this
    | answered _ _ => exact hkeep rfl (List.Sublist.refl _)
    | cancelled _ => exact hkeep rfl List.filter_sublist
    | ignored hign =>
        refine hkeep ?_ (List.Sublist.refl _)
        cases event with
        | submit => exact hign.elim
        | connected | ready | locked | disconnected | response | cancelled | tick => rfl
  · rw [hevent] at hadmitted
    have hnone : admittedId c = none := hadmitted.trans (ite_self _)
    rw [hnone, Option.toList_none, List.append_nil]
    exact hx

/-- Dispatching moves the cut between flight and queue. -/
theorem ordered_end (hst : Staged s c t s') (h : Ordered ids t) : Ordered ids s' := by
  have hsorted := h.sorted
  rw [← hst.queue, List.pairwise_append] at hsorted
  refine ⟨hsorted.2.1, ?_⟩
  intro r session_id attempt hr q hq
  rcases hst.tags r session_id attempt hr with hid | hold
  · exact hsorted.2.2 r hid q hq
  · refine h.ahead r session_id attempt hold q ?_
    rw [← hst.queue]
    exact List.mem_append_right _ hq

end Ordered

/-! ## Runs -/

/-- The newest call keeps the order up to its dispatches. -/
theorem ordered_middle {max_pending_requests : Nat} {h : List Call} {s t s' : BrokerState}
    {c : Call} (hr : BrokerRun max_pending_requests h s) (hst : Staged s c t s')
    (hf : (submittedIds (h ++ [c])).Nodup) (hlen : (admittedIds (h ++ [c])).length < 2 ^ 64)
    (ho : (admittedIds h).length < 2 ^ 64 → Ordered (admittedIds h) s) :
    Ordered (admittedIds (h ++ [c])) t := by
  rw [admittedIds_snoc] at hlen ⊢
  have hlen' : (admittedIds h).length < 2 ^ 64 := by
    rw [List.length_append] at hlen
    omega
  have hold := fresh_of_snoc hf
  exact ordered_arm hst (ho hlen') (run_consistent hr hold).1 (fresh_not_pending hr hf)
    (run_numbered hr hold) hlen' (admitted_fresh hf)

/-- **The order of a run**: admissions are in order, at the end of every run with
    fresh ids and fewer admissions than the counter can tell apart. -/
theorem run_ordered {max_pending_requests : Nat} {h : List Call} {s : BrokerState}
    (hr : BrokerRun max_pending_requests h s) (hf : (submittedIds h).Nodup)
    (hlen : (admittedIds h).length < 2 ^ 64) : Ordered (admittedIds h) s := by
  induction hr with
  | nil =>
      refine ⟨List.Pairwise.nil, ?_⟩
      intro r session_id attempt hr
      exact absurd hr (not_in_flight_of_none rfl)
  | @snoc h s s' c hr hstep ih =>
      obtain ⟨t, hst⟩ := run_staged hr hf hstep
      exact ordered_end hst (ordered_middle hr hst hf hlen (ih (fresh_of_snoc hf)))

section Waiting

variable {max_pending_requests : Nat} {g rest : List Call} {v s : BrokerState}

/-- A request that was submitted and is gone does not come back. -/
theorem run_gone (hg : BrokerRun max_pending_requests g v) (hr : Run Applied v rest s)
    (hf : (submittedIds (g ++ rest)).Nodup) {id : RequestId} (hid : id ∈ submittedIds g)
    (hnone : v.pending.get? id = none) : s.pending.get? id = none := by
  induction hr with
  | nil => exact hnone
  | @snoc rest s s' c hr hstep ih =>
      rw [← List.append_assoc] at hf
      have hrun := hg.append hr
      refine apply_present (run_consistent hrun (fresh_of_snoc hf)).1 (fresh_not_pending hrun hf)
        hstep (ih (fresh_of_snoc hf)) ?_
      intro hsub
      refine fresh_newest hf hsub ?_
      rw [submittedIds_append]
      exact List.mem_append_left _ hid

/-- **Waiting over many calls.** -/
theorem run_waits (hg : BrokerRun max_pending_requests g v) (hr : Run Applied v rest s)
    (hf : (submittedIds (g ++ rest)).Nodup) {r : RequestId} (hq : r ∈ v.queue) :
    r ∈ dispatchedIds (emitted rest) ∨ s.pending.get? r = none ∨ r ∈ s.queue := by
  induction hr with
  | nil => exact Or.inr (Or.inr hq)
  | @snoc rest s s' c hr hstep ih =>
      rw [← List.append_assoc] at hf
      have hrun := hg.append hr
      obtain ⟨hcons, hsub⟩ := run_consistent hg (fresh_of_append (fresh_of_snoc hf))
      rw [emitted_snoc, dispatchedIds_append]
      rcases ih (fresh_of_snoc hf) with hd | hnone | hq'
      · exact Or.inl (List.mem_append_left _ hd)
      · refine Or.inr (Or.inl ?_)
        have hone : Run Applied s [c] s' := .snoc .nil hstep
        refine run_gone hrun hone hf ?_ hnone
        obtain ⟨p, hp⟩ := hcons.queue_present r hq
        rw [submittedIds_append]
        exact List.mem_append_left _ (hsub r (by rw [hp]; exact Option.some_ne_none p))
      · obtain ⟨t, hst⟩ := run_staged hrun hf hstep
        rcases hst.waits hq' with ht | hnone
        · rw [← hst.queue] at ht
          rcases List.mem_append.mp ht with hd | hs
          · exact Or.inl (List.mem_append_right _ hd)
          · exact Or.inr (Or.inr hs)
        · exact Or.inr (Or.inl (hst.gone hnone))

end Waiting

/-! ## The theorem -/

theorem admittedIds_append (g rest : List Call) :
    admittedIds (g ++ rest) = admittedIds g ++ admittedIds rest :=
  List.filterMap_append

/-- In flight means dispatched. -/
theorem in_flight_dispatched {max_pending_requests : Nat} {h : List Call} {s : BrokerState}
    (hr : BrokerRun max_pending_requests h s) (hf : (submittedIds h).Nodup) {id : RequestId}
    {session_id : SessionId} {attempt : UInt32} (hin : InFlight s id session_id attempt) :
    id ∈ dispatchedIds (emitted h) := by
  obtain ⟨before, a, after, heq, ha, _⟩ := run_tags hr hf hin
  exact dispatchedTo_history (heq ▸ List.mem_append_right _ List.mem_cons_self) ⟨attempt, ha⟩

/-- The queue before the dispatches of a call, seen from one of them: what was
    popped before it, it, and what is still queued. -/
theorem queue_split {s t s' : BrokerState} {c : Call} (hst : Staged s c t s')
    {e₁ e₂ : List Effect} {e : Effect} {r : RequestId}
    (heq : Call.emitted c = e₁ ++ e :: e₂) (he : dispatchedId e = some r) :
    t.queue = dispatchedIds e₁ ++ r :: (dispatchedIds e₂ ++ s'.queue) := by
  rw [← hst.queue, heq, dispatchedIds_append, dispatchedIds, dispatchedIds,
    List.filterMap_cons_some he, List.append_assoc, List.cons_append]
  rfl

/-- What is still queued was admitted later. -/
theorem dispatch_oldest {ids : List RequestId} {s t s' : BrokerState} {c : Call}
    (hst : Staged s c t s') (ho : Ordered ids t) {e₁ e₂ : List Effect} {e : Effect}
    {r : RequestId} (heq : Call.emitted c = e₁ ++ e :: e₂) (he : dispatchedId e = some r) :
    ∀ q ∈ dispatchedIds e₂ ++ s'.queue, Precedes ids r q := by
  have hsorted := ho.sorted
  rw [queue_split hst heq he] at hsorted
  exact (List.pairwise_cons.mp (List.pairwise_append.mp hsorted).2.1).1

/-- After losing its session a request stands in the queue. -/
theorem disconnect_requeues {u v : BrokerState} {d : Call} {session_id : SessionId}
    {r : RequestId} {attempt : UInt32} (hcons : Consistent u) (hstep : Applied u d v)
    (hd : d.event = .disconnected session_id)
    (hin : InFlight (u.expire d.now).1 r session_id attempt) : r ∈ v.queue := by
  have hfresh : ∀ id, submittedId d.event = some id → u.pending.get? id = none := by
    rw [hd]
    intro id hid
    cases hid
  obtain ⟨w, hst⟩ := applied_staged hcons hfresh hstep
  have hw : r ∈ w.queue ∧ w.agent = .disconnected := by
    rcases hst.arm with ⟨own, hh⟩ | ⟨_, active, capacity, hevent⟩
    · rw [hd] at hh
      cases handle_cases hh with
      | disconnected _ =>
          obtain ⟨p, hp, hs⟩ := hin
          refine ⟨?_, rfl⟩
          show r ∈ ((u.expire d.now).1.requeue_session session_id).queue
          rw [mem_requeue_queue]
          exact Or.inl ⟨p, hp, inFlightFor_iff.mpr ⟨attempt, hs⟩⟩
      | ignored hign =>
          exact absurd (session_of_in_flight (consistent_expire hcons d.now) hin) hign
    · rw [hd] at hevent
      cases hevent
  -- nothing is dispatched without a session
  have hnone : dispatchedIds (Call.emitted d) = [] := by
    refine List.eq_nil_iff_forall_not_mem.mpr ?_
    intro id hid
    obtain ⟨active, n, requested_at, deadline, packet, context, he⟩ := mem_dispatchedIds.mp hid
    have hactive := (hst.dispatch _ _ _ _ _ _ _ he).1
    rw [hw.2] at hactive
    cases hactive
  have hqueue := hst.queue
  rw [hnone, List.nil_append] at hqueue
  rw [hqueue]
  exact hw.1

/-- Admitted before something in a shorter list of admissions, and the longer
    list agrees. -/
theorem precedes_of_append {ids rest : List RequestId} {a b : RequestId} (hb : b ∈ ids)
    (h : Precedes (ids ++ rest) a b) : Precedes ids a b := by
  have hlt := h.2
  have hlen := List.idxOf_lt_length_iff.mpr hb
  rw [List.idxOf_append_of_mem hb] at hlt
  by_cases ha : a ∈ ids
  · rw [List.idxOf_append_of_mem ha] at hlt
    exact ⟨hb, hlt⟩
  · rw [List.idxOf_append_of_notMem ha] at hlt
    omega

/-- A request that is dispatched now and was submitted before an earlier call
    survived the expiry of that call. -/
theorem dispatched_survived {max_pending_requests : Nat} {before between : List Call}
    {u v s t s' : BrokerState} {d c : Call} (hu : BrokerRun max_pending_requests before u)
    (hd : Applied u d v) (hr : Run Applied v between s) (hst : Staged s c t s')
    (hf : (submittedIds ((before ++ [d] ++ between) ++ [c])).Nodup) {q : RequestId}
    (hq : q ∈ submittedIds before) (hdispatched : q ∈ dispatchedIds (Call.emitted c)) :
    ∃ p, (u.expire d.now).1.pending.get? q = some p := by
  have hv : BrokerRun max_pending_requests (before ++ [d]) v := .snoc hu hd
  have hfs := fresh_of_snoc hf
  have hfd := fresh_of_append hfs
  have hagain : ∀ {g : List Call} {x : Call}, (submittedIds (g ++ [x])).Nodup →
      q ∈ submittedIds g → submittedId x.event ≠ some q :=
    fun hf' hmem hsub => fresh_newest hf' hsub hmem
  by_contra hnone
  have hgone : (u.expire d.now).1.pending.get? q = none :=
    Option.eq_none_iff_forall_ne_some.mpr (fun p hp => hnone ⟨p, hp⟩)
  have hvnone : v.pending.get? q = none := by
    obtain ⟨w, hstd⟩ := run_staged hu hfd hd
    refine hstd.gone ?_
    rcases hstd.arm with ⟨own, hh⟩ | ⟨rfl, _⟩
    · exact handle_present hh hgone (hagain hfd hq)
    · exact hgone
  have hmem : q ∈ submittedIds (before ++ [d]) := by
    rw [submittedIds_append]
    exact List.mem_append_left _ hq
  have hsnone := run_gone hv hr hfs hmem hvnone
  obtain ⟨p, hp⟩ := hst.consistent.queue_present q (hst.mem_queue hdispatched)
  rcases hst.origin hp with ⟨p', hp', _⟩ | ⟨hadmitted, _⟩
  · rw [hsnone] at hp'
    cases hp'
  · refine hagain hf ?_ (submitted_of_admitted hadmitted)
    rw [submittedIds_append]
    exact List.mem_append_left _ hmem

/-- With `r` in flight, an older request is in flight too or gone, so it was
    dispatched. -/
theorem older_dispatched {max_pending_requests : Nat} {before : List Call} {u : BrokerState}
    (hu : BrokerRun max_pending_requests before u) (hf : (submittedIds before).Nodup)
    (hlen : (admittedIds before).length < 2 ^ 64) {now : Instant} {session_id : SessionId}
    {q r : RequestId} {attempt : UInt32}
    (hin : InFlight (u.expire now).1 r session_id attempt)
    (hqr : Precedes (admittedIds before) q r)
    (hq : ∃ p, (u.expire now).1.pending.get? q = some p) : q ∈ dispatchedIds (emitted before) := by
  obtain ⟨p, hp⟩ := hq
  cases hs : p.state with
  | queued =>
      have hqueue := ((consistent_expire (run_consistent hu hf).1 now).mem_queue q).mpr ⟨p, hp, hs⟩
      have hrq := (ordered_expire (run_ordered hu hf hlen) now).ahead r session_id attempt hin q hqueue
      exact absurd hqr hrq.asymm
  | inFlight active n =>
      exact in_flight_dispatched hu hf ⟨p, (expire_get?_some.mp hp).1, hs⟩

/-- **Requeued work goes first.**  `u` is the state before a disconnect and `r` is
    in flight there.  At any later dispatch of a request that was admitted after
    `r`, or not dispatched before the disconnect, `r` has been dispatched again or
    is gone. -/
theorem requeued_first {max_pending_requests : Nat} {before between : List Call}
    {u v s t s' : BrokerState} {d c : Call} (hu : BrokerRun max_pending_requests before u)
    (hd : Applied u d v) (hr : Run Applied v between s) (hst : Staged s c t s')
    (hf : (submittedIds ((before ++ [d] ++ between) ++ [c])).Nodup)
    (hlen : (admittedIds ((before ++ [d] ++ between) ++ [c])).length < 2 ^ 64)
    {session_id : SessionId} {r : RequestId} {attempt : UInt32}
    (hevent : d.event = .disconnected session_id)
    (hin : InFlight (u.expire d.now).1 r session_id attempt)
    {e₁ e₂ : List Effect} {e : Effect} {q : RequestId}
    (heq : Call.emitted c = e₁ ++ e :: e₂) (he : dispatchedId e = some q)
    (hq : Precedes (admittedIds ((before ++ [d] ++ between) ++ [c])) r q ∨
      q ∉ dispatchedIds (emitted before)) :
    r ∈ dispatchedIds (emitted between ++ e₁) ∨ s'.pending.get? r = none := by
  have hv : BrokerRun max_pending_requests (before ++ [d]) v := .snoc hu hd
  have hs := hv.append hr
  have hfs := fresh_of_snoc hf
  have hfu := fresh_of_append (fresh_of_append hfs)
  obtain ⟨hcons, hsub⟩ := run_consistent hu hfu
  have ho := ordered_middle hs hst hf hlen (run_ordered hs hfs)
  rw [dispatchedIds_append]
  rcases run_waits hv hr hfs (disconnect_requeues hcons hd hevent hin) with hd' | hnone | hqueue
  · exact Or.inl (List.mem_append_left _ hd')
  · right
    obtain ⟨p, hp, _⟩ := hin
    have hp' := (expire_get?_some.mp hp).1
    refine run_gone hs (.snoc .nil hst.applied) hf ?_ hnone
    rw [submittedIds_append, submittedIds_append]
    exact List.mem_append_left _ (List.mem_append_left _
      (hsub r (by rw [hp']; exact Option.some_ne_none p)))
  · rcases hst.waits hqueue with ht | hnone
    · have hbehind := dispatch_oldest hst ho heq he
      rw [queue_split hst heq he] at ht
      rcases List.mem_append.mp ht with hfirst | hlater
      · exact Or.inl (List.mem_append_right _ hfirst)
      · exfalso
        have hflight : InFlight u r session_id attempt :=
          ((expire_in_flight u d.now r session_id attempt).mp hin).2
        have hrmem : r ∈ admittedIds before := by
          obtain ⟨p, hp, _⟩ := hflight
          exact ((run_numbered hu hfu).entry r p hp).1
        have hids : admittedIds ((before ++ [d] ++ between) ++ [c])
            = admittedIds before ++ admittedIds ([d] ++ between ++ [c]) := by
          rw [← admittedIds_append]
          simp
        rcases List.mem_cons.mp hlater with rfl | hlater
        · rcases hq with hprec | hnot
          · exact not_precedes_self hprec
          · exact hnot (in_flight_dispatched hu hfu hflight)
        · have hqr := hbehind r hlater
          rcases hq with hprec | hnot
          · exact hqr.asymm hprec
          · -- `q` is older than `r`, so it was pending at the disconnect
            rw [hids] at hqr hlen
            have hqr' := precedes_of_append hrmem hqr
            have hlen' : (admittedIds before).length < 2 ^ 64 := by
              rw [List.length_append] at hlen
              omega
            refine hnot (older_dispatched hu hfu hlen' hin hqr' ?_)
            refine dispatched_survived hu hd hr hst hf (admitted_submitted hqr'.mem_left) ?_
            rw [heq]
            exact List.mem_filterMap.mpr ⟨e, by simp, he⟩
    · exact Or.inr (hst.gone hnone)

/-- Dispatches to a session that lasts are in admission order. -/
theorem run_session_order {max_pending_requests : Nat} {h : List Call} {s : BrokerState}
    (hr : BrokerRun max_pending_requests h s) (hf : (submittedIds h).Nodup)
    (hlen : (admittedIds h).length < 2 ^ 64) :
    Throughout (InSessionOrder (Precedes (admittedIds h))) (history h) := by
  refine (run_held (Precedes (admittedIds h)) hr hf ?_ ?_).2
  · intro g d rest s t s' hsplit hg hst
    rw [hsplit, List.append_cons g d rest] at hf hlen ⊢
    rw [admittedIds_append] at hlen ⊢
    have hlen' : (admittedIds (g ++ [d])).length < 2 ^ 64 := by
      rw [List.length_append] at hlen
      omega
    have hfd := fresh_of_append hf
    have ho := ordered_middle hg hst hfd hlen' (run_ordered hg (fresh_of_snoc hfd))
    exact ho.sorted.imp (fun hab => hab.append _)
  · intro g d rest x y hsplit hx hy
    rw [hsplit, List.append_cons g d rest] at hf ⊢
    rw [admittedIds_append, admittedIds_snoc, hx]
    exact (precedes_newest hy (admitted_fresh (fresh_of_append hf) x hx)).append _

/-- **First in, first out.**  Along every run with fresh ids and fewer than 2^64
    admissions, whatever is disconnected, expired or cancelled: when a call
    dispatches `r`, no request admitted before `r` is still queued, neither to be
    dispatched later in the call nor after it; two dispatches to a session that
    lasts between them are in admission order; and work requeued by a disconnect
    is dispatched again, unless it is gone, before anything that was admitted
    later or had not been dispatched yet. -/
theorem dispatch_is_fifo {max_pending_requests : Nat} {h : List Call} {s s' : BrokerState}
    {c : Call} (hr : BrokerRun max_pending_requests h s) (hstep : Applied s c s')
    (hf : (submittedIds (h ++ [c])).Nodup) (hlen : (admittedIds (h ++ [c])).length < 2 ^ 64) :
    (∀ e₁ e e₂ r, Call.emitted c = e₁ ++ e :: e₂ → dispatchedId e = some r →
      ∀ q, Precedes (admittedIds (h ++ [c])) q r → q ∉ dispatchedIds e₂ ∧ q ∉ s'.queue) ∧
    (∀ before a between b after session_id r q,
      history (h ++ [c]) = before ++ a :: (between ++ b :: after) →
      DispatchedTo r session_id a → DispatchedTo q session_id b →
      .received (.disconnected session_id) ∉ between →
      Precedes (admittedIds (h ++ [c])) r q) ∧
    (∀ before d between u v session_id r attempt, h = before ++ d :: between →
      BrokerRun max_pending_requests before u → Applied u d v → Run Applied v between s →
      d.event = .disconnected session_id →
      InFlight (u.expire d.now).1 r session_id attempt →
      ∀ e₁ e e₂ q, Call.emitted c = e₁ ++ e :: e₂ → dispatchedId e = some q →
      Precedes (admittedIds (h ++ [c])) r q ∨ q ∉ dispatchedIds (emitted before) →
      r ∈ dispatchedIds (emitted between ++ e₁) ∨ s'.pending.get? r = none) := by
  obtain ⟨t, hst⟩ := run_staged hr hf hstep
  have ho := ordered_middle hr hst hf hlen (run_ordered hr (fresh_of_snoc hf))
  refine ⟨?_, ?_, ?_⟩
  · intro e₁ e e₂ r heq he q hqr
    have hbehind := dispatch_oldest hst ho heq he
    exact ⟨fun hq => hqr.asymm (hbehind q (List.mem_append_left _ hq)),
      fun hq => hqr.asymm (hbehind q (List.mem_append_right _ hq))⟩
  · intro before a between b after session_id r q heq ha hb hlasts
    have hsplit : history (h ++ [c]) = (before ++ a :: between) ++ b :: after := by
      rw [heq, List.append_assoc, List.cons_append]
    exact run_session_order (.snoc hr hstep) hf hlen _ b after hsplit q session_id hb r session_id
      ⟨before, a, between, rfl, ha, fun x hx he => hlasts (he ▸ hx)⟩
  · intro before d between u v session_id r attempt hsplit hu hd hrest hevent hin e₁ e e₂ q heq he hq
    rw [hsplit, List.append_cons before d between] at hf hlen hq
    exact requeued_first hu hd hrest hst hf hlen hevent hin heq he hq

/-- Two requests in flight to a session that is lost, a third one queued behind
    them, and a new session with room for one. -/
def reconnectEvents : List (Event × Instant) :=
  [(.submit ⟨1⟩ [11] none 30 0 30, 0), (.submit ⟨2⟩ [12] none 30 0 30, 0),
   (.submit ⟨3⟩ [13] none 30 0 30, 0), (.connected ⟨7⟩ 2, 1), (.disconnected ⟨7⟩, 2)]

/-- The next session is given the oldest request first. -/
def reconnectCall : Call :=
  ⟨.connected ⟨8⟩ 1, 3, ((replay (.new 4) reconnectEvents).apply (.connected ⟨8⟩ 1) 3).2⟩

theorem dispatch_is_fifo_reconnect :
    dispatchedIds (Call.emitted reconnectCall) = [⟨1⟩] ∧
      Precedes (admittedIds (record (.new 4) reconnectEvents ++ [reconnectCall])) ⟨1⟩ ⟨2⟩ := by
  have hr : BrokerRun 4 (record (.new 4) reconnectEvents) _ := run_record .nil reconnectEvents
  have h := dispatch_is_fifo hr (c := reconnectCall) rfl (by decide) (by decide)
  refine ⟨by decide, ?_⟩
  exact h.2.1 [.received (.submit ⟨1⟩ [11] none 30 0 30), .emitted (.wakeRequired ⟨[]⟩),
    .received (.submit ⟨2⟩ [12] none 30 0 30), .emitted (.wakeRequired ⟨[]⟩),
    .received (.submit ⟨3⟩ [13] none 30 0 30), .emitted (.wakeRequired ⟨[]⟩),
    .received (.connected ⟨7⟩ 2)] (.emitted (.dispatch ⟨7⟩ ⟨1⟩ 1 0 30 [11] none)) []
    (.emitted (.dispatch ⟨7⟩ ⟨2⟩ 1 0 30 [12] none))
    [.received (.disconnected ⟨7⟩), .emitted (.wakeRequired ⟨[]⟩), .received (.connected ⟨8⟩ 1),
      .emitted (.dispatch ⟨8⟩ ⟨1⟩ 2 0 30 [11] none)] ⟨7⟩ ⟨1⟩ ⟨2⟩ rfl ⟨1, rfl, rfl, rfl⟩
    ⟨1, rfl, rfl, rfl⟩ (by simp)

end BrokerOrder
