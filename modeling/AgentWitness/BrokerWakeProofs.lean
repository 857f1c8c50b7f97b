import AgentWitness.BrokerLedgerProofs

/-! # Wake notifications are exact

    The flag `wake_announced` remembers that the user was told about the queue as
    it stands.  What makes it right is ONE invariant: while no remote is connected
    and work is queued, the flag is set.  Events that add work clear it before
    reconciliation looks; expiries, answers and cancellations only shorten a queue
    that was announced already, and an emptied queue clears it for the next one.

    Nothing here depends on the ids: a queue may name a request twice, or one that
    is gone. -/

namespace BrokerWake

open Packet KeyedMap BrokerModel BrokerInvariant BrokerCompletion BrokerCorrelation BrokerTask
open BrokerLedger Transition

/-- The wake request an effect carries. -/
def wakeOf : Effect → Option WakeRequest
  | .wakeRequired request => some request
  | _ => none

/-- The wake requests among the effects, in order. -/
def wakes (effects : List Effect) : List WakeRequest := effects.filterMap wakeOf

theorem wakes_append (a b : List Effect) : wakes (a ++ b) = wakes a ++ wakes b :=
  List.filterMap_append

theorem wakes_eq_nil {effects : List Effect} (h : ∀ e ∈ effects, wakeOf e = none) :
    wakes effects = [] :=
  List.filterMap_eq_nil_iff.mpr h

/-! ## The reasons -/

/-- The reasons of the queued requests' contexts, with repetitions, in queue
    order. -/
def queuedReasons (s : BrokerState) : List String :=
  s.queue.filterMap
    (fun id => ((s.pending.get? id).bind PendingRequest.context).map RequestContext.reason)

theorem mem_distinctReasons {seen l : List String} {x : String} :
    x ∈ distinctReasons seen l ↔ x ∈ l ∧ x ∉ seen := by
  induction l generalizing seen with
  | nil => simp [distinctReasons]
  | cons reason rest ih =>
      rw [distinctReasons]
      split
      · rename_i hseen
        rw [ih, List.mem_cons]
        constructor
        · rintro ⟨hx, hnot⟩
          exact ⟨Or.inr hx, hnot⟩
        · rintro ⟨rfl | hx, hnot⟩
          · exact absurd hseen hnot
          · exact ⟨hx, hnot⟩
      · rename_i hseen
        rw [List.mem_cons, ih, List.mem_cons, List.mem_cons]
        constructor
        · rintro (rfl | ⟨hx, hnot⟩)
          · exact ⟨Or.inl rfl, hseen⟩
          · exact ⟨Or.inr hx, fun hs => hnot (Or.inr hs)⟩
        · rintro ⟨rfl | hx, hnot⟩
          · exact Or.inl rfl
          · by_cases heq : x = reason
            · exact Or.inl heq
            · exact Or.inr ⟨hx, fun hs => hs.elim heq hnot⟩

/-- The distinct reasons come in the order of their first appearance. -/
theorem distinctReasons_order (seen l : List String) :
    (distinctReasons seen l).Pairwise (fun a b => l.idxOf a < l.idxOf b) := by
  induction l generalizing seen with
  | nil => exact List.Pairwise.nil
  | cons reason rest ih =>
      have hshift : ∀ {seen' : List String}, reason ∈ seen' →
          (distinctReasons seen' rest).Pairwise
            (fun a b => (reason :: rest).idxOf a < (reason :: rest).idxOf b) := by
        intro seen' hseen
        refine (ih seen').imp_of_mem ?_
        intro a b ha hb hlt
        have hne : ∀ {x}, x ∈ distinctReasons seen' rest → reason ≠ x := by
          rintro x hx rfl
          exact (mem_distinctReasons.mp hx).2 hseen
        rw [List.idxOf_cons_ne _ (hne ha), List.idxOf_cons_ne _ (hne hb)]
        exact Nat.succ_lt_succ hlt
      rw [distinctReasons]
      split
      · rename_i hseen
        exact hshift hseen
      · refine List.pairwise_cons.mpr ⟨?_, hshift List.mem_cons_self⟩
        intro b hb
        have hne : reason ≠ b := by
          rintro rfl
          exact (mem_distinctReasons.mp hb).2 List.mem_cons_self
        rw [List.idxOf_cons_self, List.idxOf_cons_ne _ hne]
        exact Nat.succ_pos _

/-! ## Reconciliation -/

/-- Reconciliation announces work that is queued with nobody connected and not
    announced yet. -/
theorem reconcile_wakes (t : BrokerState) :
    wakes t.reconcile.2
      = if t.agent.session = none ∧ t.queue ≠ [] ∧ t.wake_announced = false
        then [⟨distinctReasons [] (queuedReasons t)⟩] else [] := by
  cases hc : t.connected_remote with
  | none =>
      have hs : t.agent.session = none := by rw [session_eq_connected, hc]; rfl
      show wakes (t.dispatchQueued.2 ++ t.dispatchQueued.1.announceWake.2) = _
      rw [dispatchQueued_none hc, List.nil_append, BrokerState.announceWake]
      cases hq : t.queue with
      | nil => simp [wakes]
      | cons id rest =>
          cases hw : t.wake_announced with
          | true => simp [hs, wakes]
          | false => simp [hs, wakes, wakeOf, BrokerState.wakeReasons, queuedReasons, hq]
  | some r =>
      have hs : t.agent.session = some r.1 := by rw [session_eq_connected, hc]; rfl
      rw [if_neg (fun h => by rw [hs] at h; cases h.1)]
      show wakes (t.dispatchQueued.2 ++ t.dispatchQueued.1.announceWake.2) = _
      have hdispatch : wakes t.dispatchQueued.2 = [] := by
        refine wakes_eq_nil ?_
        intro e he
        rw [dispatchQueued_some hc] at he
        have := dispatchLoop_session he
        cases e with
        | wakeRequired => cases this
        | dispatch | cancel | complete => rfl
      rw [wakes_append, hdispatch, BrokerState.announceWake, dispatchQueued_agent, hs]
      simp [wakes]

/-- Without a remote, reconciliation leaves requests and queue as they are and
    the flag set if there is work. -/
theorem reconcile_disconnected {t : BrokerState} (hs : t.agent.session = none) :
    t.reconcile.1.queue = t.queue ∧ t.reconcile.1.pending = t.pending ∧
      (t.queue ≠ [] → t.reconcile.1.wake_announced = true) := by
  have hc : t.connected_remote = none := by
    rw [session_eq_connected] at hs
    exact Option.map_eq_none_iff.mp hs
  refine ⟨?_, ?_, ?_⟩
  · rw [reconcile_queue, dispatchQueued_none hc]
  · rw [reconcile_pending, dispatchQueued_none hc]
  · intro hq
    show t.dispatchQueued.1.announceWake.1.wake_announced = true
    rw [dispatchQueued_none hc, BrokerState.announceWake]
    cases hqueue : t.queue with
    | nil => exact absurd hqueue hq
    | cons id rest =>
        cases hw : t.wake_announced with
        | true => simp [hs, hw]
        | false => simp [hs]

/-! ## The event's arm -/

/-- Nothing is announced before reconciliation. -/
theorem stages_wakes {s t : BrokerState} {event : Event} {now : Instant} {own : List Effect}
    (hh : (s.expire now).1.handle event = .ok (t, own)) :
    wakes ((s.expire now).2 ++ own) = [] := by
  have hdrop : ∀ {id p error} {e : Effect}, e ∈ dropEffects id p error → wakeOf e = none := by
    intro id p error e he
    rcases mem_dropEffects he with rfl | ⟨_, _, _, rfl⟩
    · rfl
    · rfl
  have hexpire : wakes (s.expire now).2 = [] := by
    refine wakes_eq_nil ?_
    intro e he
    obtain ⟨_, _, _, _, hin⟩ := mem_expire_effects he
    exact hdrop hin
  rw [wakes_append, hexpire, List.nil_append]
  cases handle_cases hh with
  | full _ | answered _ _ => rfl
  | cancelled _ => exact wakes_eq_nil (fun e he => hdrop he)
  | admitted _ | connected _ | ready _ | locked _ | disconnected _ | ignored _ => rfl

/-- The event brings new work to announce: an admission, or the loss of the
    connected session. -/
def Announces (s : BrokerState) (c : Call) : Prop :=
  (admittedId c).isSome = true ∨
    ∃ session_id, c.event = .disconnected session_id ∧ s.agent.session = some session_id

/-- While nobody is connected and work is queued, the flag is set. -/
def Announced (s : BrokerState) : Prop :=
  s.agent.session = none → s.queue ≠ [] → s.wake_announced = true

/-- **What an arm does to the flag**: it clears it if it brings work, and else a
    disconnected state keeps the flag and does not gain work. -/
theorem arm_flag {s t s' : BrokerState} {c : Call} {own : List Effect} (hstep : Applied s c s')
    (hh : (s.expire c.now).1.handle c.event = .ok (t, own)) (ht : t.agent.session = none) :
    (Announces s c ∧ t.wake_announced = false) ∨
      (¬ Announces s c ∧ s.agent.session = none ∧ t.wake_announced = s.wake_announced ∧
        t.queue.Sublist s.queue) := by
  have hadmitted := admittedId_eq hstep
  have hqueue : (s.expire c.now).1.queue.Sublist s.queue := List.filter_sublist
  have hquiet : admittedId c = none →
      (∀ session_id, c.event = .disconnected session_id → s.agent.session ≠ some session_id) →
      ¬ Announces s c := by
    rintro hnone hlost (hsome | ⟨session_id, hevent, hs⟩)
    · rw [hnone] at hsome
      cases hsome
    · exact hlost session_id hevent hs
  unfold Announces at hquiet ⊢
  generalize c.event = event at hh hadmitted hquiet
  cases handle_cases hh with
  | full hfull =>
      rw [if_neg (show ¬ _ < s.max_pending_requests from Nat.not_lt.mpr hfull)] at hadmitted
      exact Or.inr ⟨hquiet hadmitted (by rintro _ ⟨⟩), ht, rfl, hqueue⟩
  | admitted hroom =>
      rw [if_pos (show _ < s.max_pending_requests from hroom)] at hadmitted
      exact Or.inl ⟨Or.inl (by rw [hadmitted]; rfl), rfl⟩
  | connected _ => cases ht
  | ready _ => cases ht
  | locked _ => cases ht
  | disconnected hs => exact Or.inl ⟨Or.inr ⟨_, rfl, hs⟩, rfl⟩
  | answered _ _ =>
      exact Or.inr ⟨hquiet (hadmitted.trans (ite_self _)) (by rintro _ ⟨⟩), ht, rfl, hqueue⟩
  | cancelled _ =>
      exact Or.inr ⟨hquiet (hadmitted.trans (ite_self _)) (by rintro _ ⟨⟩), ht, rfl,
        List.filter_sublist.trans hqueue⟩
  | ignored hign =>
      have hnone : submittedId event = none := by
        cases event with
        | submit => exact hign.elim
        | connected | ready | locked | disconnected | response | cancelled | tick => rfl
      rw [hnone, ite_self] at hadmitted
      refine Or.inr ⟨hquiet hadmitted ?_, ht, rfl, hqueue⟩
      rintro session_id rfl
      exact hign

/-- Every call keeps the invariant, refused ones included. -/
theorem announced_applied {s s' : BrokerState} {c : Call} (hstep : Applied s c s') :
    Announced s' := by
  obtain ⟨event, now, result⟩ := c
  intro hs' hq'
  cases result with
  | error e =>
      -- only a connect is refused, and then somebody is connected
      obtain ⟨rfl, hh⟩ := apply_error hstep
      obtain ⟨_, _, _, hbound⟩ := handle_error hh
      cases ha : (s.expire now).1.agent with
      | disconnected => exact absurd ha hbound
      | locked session_id capacity => rw [ha] at hs'; cases hs'
      | ready session_id capacity => rw [ha] at hs'; cases hs'
  | ok effects =>
      obtain ⟨t, own, hh, rfl, _⟩ := apply_ok hstep
      rw [reconcile_agent] at hs'
      obtain ⟨hqueue, _, hflag⟩ := reconcile_disconnected hs'
      rw [hqueue] at hq'
      exact hflag hq'

theorem run_announced {max_pending_requests : Nat} {h : List Call} {s : BrokerState}
    (hr : BrokerRun max_pending_requests h s) : Announced s := by
  cases hr with
  | nil => intro _ hq; exact absurd rfl hq
  | snoc _ hstep => exact announced_applied hstep

/-- **Wake notifications are exact.**  In every run a call emits at most one wake
    request.  It emits one exactly when afterwards no remote is connected, work is
    queued, and the event admitted a request or lost the connected session.  Its
    reasons are those of the queued requests' contexts, each once, in the order in
    which the queue names them first. -/
theorem wakes_are_exact {max_pending_requests : Nat} {h : List Call} {s s' : BrokerState}
    {c : Call} (hr : BrokerRun max_pending_requests h s) (hstep : Applied s c s') :
    (wakes (Call.emitted c)).length ≤ 1 ∧
    (wakes (Call.emitted c) ≠ [] ↔
      s'.agent.session = none ∧ s'.queue ≠ [] ∧
        ((admittedId c).isSome = true ∨
          ∃ session_id, c.event = .disconnected session_id ∧
            s.agent.session = some session_id)) ∧
    (∀ request ∈ wakes (Call.emitted c),
      (∀ reason, reason ∈ request.reasons ↔ reason ∈ queuedReasons s') ∧
      request.reasons.Pairwise
        (fun a b => (queuedReasons s').idxOf a < (queuedReasons s').idxOf b)) := by
  have hannounced := run_announced hr
  show _ ∧ (_ ↔ _ ∧ _ ∧ Announces s c) ∧ _
  cases hres : c.result with
  | error e =>
      have ha : s.apply c.event c.now = (s', .error e) := hres ▸ hstep
      have hnone : wakes (Call.emitted c) = [] := by rw [Call.emitted, hres]; rfl
      obtain ⟨rfl, hh⟩ := apply_error ha
      obtain ⟨_, _, _, hbound⟩ := handle_error hh
      rw [hnone]
      refine ⟨Nat.zero_le _, ⟨fun hne => absurd rfl hne, ?_⟩, fun request hmem => by cases hmem⟩
      rintro ⟨hs, _⟩
      cases hagent : (s.expire c.now).1.agent with
      | disconnected => exact absurd hagent hbound
      | locked session_id capacity => rw [hagent] at hs; cases hs
      | ready session_id capacity => rw [hagent] at hs; cases hs
  | ok effects =>
      have ha : s.apply c.event c.now = (s', .ok effects) := hres ▸ hstep
      obtain ⟨t, own, hh, rfl, heffects⟩ := apply_ok ha
      have hwakes : wakes (Call.emitted c)
          = if t.agent.session = none ∧ t.queue ≠ [] ∧ t.wake_announced = false
            then [⟨distinctReasons [] (queuedReasons t)⟩] else [] := by
        rw [Call.emitted, hres]
        show wakes effects = _
        rw [heffects, wakes_append, stages_wakes hh, reconcile_wakes]
        rfl
      rw [hwakes, reconcile_agent]
      split
      · rename_i hcond
        obtain ⟨hs, hq, hflag⟩ := hcond
        obtain ⟨hqueue, hpending, _⟩ := reconcile_disconnected hs
        have hreasons : queuedReasons t.reconcile.1 = queuedReasons t := by
          rw [queuedReasons, hqueue, hpending]
          rfl
        refine ⟨Nat.le_refl _, ⟨fun _ => ⟨hs, by rw [hqueue]; exact hq, ?_⟩,
          fun _ => List.cons_ne_nil _ _⟩, ?_⟩
        · rcases arm_flag hstep hh hs with ⟨hann, _⟩ | ⟨_, hs', hsame, hsub⟩
          · exact hann
          · -- the queue was announced before
            have hold : s.queue ≠ [] := by
              intro hnil
              rw [hnil, List.sublist_nil] at hsub
              exact hq hsub
            rw [hsame, hannounced hs' hold] at hflag
            cases hflag
        · intro request hmem
          obtain rfl := List.mem_singleton.mp hmem
          rw [hreasons]
          exact ⟨fun reason => by simp [mem_distinctReasons], distinctReasons_order [] _⟩
      · rename_i hcond
        refine ⟨Nat.zero_le _, ⟨fun hne => absurd rfl hne, ?_⟩, fun request hmem => by cases hmem⟩
        rintro ⟨hs, hq, hann⟩
        rw [(reconcile_disconnected hs).1] at hq
        rcases arm_flag hstep hh hs with ⟨_, hflag⟩ | ⟨hnot, _⟩
        · exact absurd ⟨hs, hq, hflag⟩ hcond
        · exact absurd hann hnot

/-- Two requests with different reasons are queued for a phone that is asleep. -/
def sleepingEvents : List (Event × Instant) :=
  [(.submit ⟨1⟩ [11] (some ⟨⟨1⟩, "deploy", []⟩) 30 0 30, 0),
   (.submit ⟨2⟩ [12] (some ⟨⟨2⟩, "review", []⟩) 30 0 30, 1)]

/-- A third one repeats the first reason. -/
def remindingEvent : Event := .submit ⟨3⟩ [13] (some ⟨⟨1⟩, "deploy", []⟩) 30 0 30

theorem wakes_are_exact_sleeping :
    wakes (Call.emitted ⟨remindingEvent, 2,
      ((replay (.new 4) sleepingEvents).apply remindingEvent 2).2⟩) ≠ [] := by
  have hr : BrokerRun 4 (record (.new 4) sleepingEvents) _ := run_record .nil sleepingEvents
  have h := wakes_are_exact hr (c := ⟨remindingEvent, 2,
    ((replay (.new 4) sleepingEvents).apply remindingEvent 2).2⟩) rfl
  exact h.2.1.mpr ⟨rfl, by decide, Or.inl rfl⟩

end BrokerWake
