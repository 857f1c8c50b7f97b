import AgentWitness.BrokerCompletionProofs

/-! # Correlation — only the latest dispatch can be answered

    The state keeps one tag per request: the session and attempt it is in
    flight to.  Over a whole run this tag is a fact about the history of
    received events and emitted effects: a request is in flight to
    `(session, attempt)` exactly when its newest dispatch named that pair and
    the history has since neither completed the request nor disconnected the
    session.  Each stage of `apply` extends the history by entries that agree
    with what it does to the tags; the run result is their composition.

    A response is therefore accepted by history alone, and every event that
    names something not current is handled as a timer tick. -/

namespace BrokerCorrelation

open Packet KeyedMap BrokerModel BrokerInvariant BrokerCompletion Transition

/-- What a history records: the events the broker was given and the effects it
    handed out. -/
inductive Entry where
  | received (event : Event)
  | emitted (effect : Effect)

/-- The entries one call adds. -/
def Call.entries (c : Call) : List Entry :=
  .received c.event :: (Call.emitted c).map .emitted

/-- The history of a run, oldest entry first. -/
def history (h : List Call) : List Entry := h.flatMap Call.entries

/-- The entry dispatches the request to the session with that attempt number. -/
def Entry.Dispatches (id : RequestId) (session_id : SessionId) (attempt : UInt32) :
    Entry → Prop
  | .emitted (.dispatch active request_id n _ _ _ _) =>
      active = session_id ∧ request_id = id ∧ n = attempt
  | _ => False

/-- The entry neither dispatches nor completes the request, nor disconnects the
    session. -/
def Entry.Keeps (id : RequestId) (session_id : SessionId) : Entry → Prop
  | .emitted (.dispatch _ request_id _ _ _ _ _) => request_id ≠ id
  | .emitted (.complete request_id _) => request_id ≠ id
  | .received (.disconnected active) => active ≠ session_id
  | _ => True

/-- The newest dispatch of the request named this session and attempt, and the
    request has since been neither completed nor requeued by a disconnect. -/
def LatestDispatch (id : RequestId) (session_id : SessionId) (attempt : UInt32)
    (l : List Entry) : Prop :=
  Since (Entry.Dispatches id session_id attempt) (Entry.Keeps id session_id) l

/-- The request is pending and in flight with this tag. -/
def InFlight (s : BrokerState) (id : RequestId) (session_id : SessionId)
    (attempt : UInt32) : Prop :=
  ∃ p, s.pending.get? id = some p ∧ p.state = .inFlight session_id attempt

/-- The entry leaves the tags of a request in flight alone. -/
abbrev AllKeep (id : RequestId) (session_id : SessionId) (l : List Entry) : Prop :=
  ∀ a ∈ l, Entry.Keeps id session_id a

/-! ## Expiry -/

theorem mem_expire_effects {s : BrokerState} {now : Instant} {e : Effect}
    (he : e ∈ (s.expire now).2) :
    ∃ id p, s.pending.get? id = some p ∧ p.deadline ≤ now ∧ e ∈ dropEffects id p .timedOut := by
  rw [expire_effects] at he
  obtain ⟨id, hid, hin⟩ := List.mem_flatMap.mp he
  obtain ⟨p, hp, hd⟩ := (mem_overdue s now id).mp hid
  rw [hp] at hin
  exact ⟨id, p, hp, hd, hin⟩

theorem mem_dropEffects {id : RequestId} {p : PendingRequest} {error : RequestError}
    {e : Effect} (he : e ∈ dropEffects id p error) :
    e = .complete id (.error error) ∨
      ∃ session_id attempt, p.state = .inFlight session_id attempt ∧
        e = .cancel session_id id attempt := by
  unfold dropEffects at he
  cases hs : p.state with
  | queued =>
      rw [hs] at he
      exact Or.inl (List.mem_singleton.mp he)
  | inFlight session_id attempt =>
      rw [hs] at he
      rcases List.mem_cons.mp he with rfl | he
      · exact Or.inr ⟨session_id, attempt, rfl, rfl⟩
      · exact Or.inl (List.mem_singleton.mp he)

/-- Dropping a request concerns that request only. -/
theorem dropEffects_keep {id j : RequestId} {p : PendingRequest} {error : RequestError}
    (hne : j ≠ id) (session_id : SessionId) {e : Effect} (he : e ∈ dropEffects j p error) :
    Entry.Keeps id session_id (.emitted e) := by
  rcases mem_dropEffects he with rfl | ⟨_, _, _, rfl⟩
  · exact hne
  · exact trivial

theorem complete_mem_dropEffects (id : RequestId) (p : PendingRequest)
    (error : RequestError) : Effect.complete id (.error error) ∈ dropEffects id p error := by
  unfold dropEffects
  exact List.mem_append_right _ (List.mem_singleton.mpr rfl)

/-- Expiry takes the tag of exactly the requests it completes. -/
theorem expire_in_flight (s : BrokerState) (now : Instant) (id : RequestId)
    (session_id : SessionId) (attempt : UInt32) :
    InFlight (s.expire now).1 id session_id attempt
      ↔ AllKeep id session_id ((s.expire now).2.map .emitted)
        ∧ InFlight s id session_id attempt := by
  constructor
  · rintro ⟨p, hp, hs⟩
    obtain ⟨hp', hlt⟩ := expire_get?_some.mp hp
    refine ⟨?_, p, hp', hs⟩
    intro a ha
    obtain ⟨e, he, rfl⟩ := List.mem_map.mp ha
    obtain ⟨j, q, hq, hd, hin⟩ := mem_expire_effects he
    refine dropEffects_keep ?_ session_id hin
    rintro rfl
    obtain rfl := Option.some.inj (hp'.symm.trans hq)
    exact absurd hd (Nat.not_le.mpr hlt)
  · rintro ⟨hkeep, p, hp, hs⟩
    refine ⟨p, expire_get?_some.mpr ⟨hp, ?_⟩, hs⟩
    by_contra hd
    have hin : Effect.complete id (.error .timedOut) ∈ (s.expire now).2 := by
      rw [expire_effects]
      refine List.mem_flatMap.mpr
        ⟨id, (mem_overdue s now id).mpr ⟨p, hp, Nat.le_of_not_lt hd⟩, ?_⟩
      rw [hp]
      exact complete_mem_dropEffects id p .timedOut
    exact hkeep _ (List.mem_map_of_mem hin) rfl

theorem expire_no_dispatch {s : BrokerState} {now : Instant} {id : RequestId}
    {session_id : SessionId} {attempt : UInt32} :
    ∀ a ∈ (s.expire now).2.map Entry.emitted, ¬ Entry.Dispatches id session_id attempt a := by
  intro a ha hd
  obtain ⟨e, he, rfl⟩ := List.mem_map.mp ha
  obtain ⟨j, q, _, _, hin⟩ := mem_expire_effects he
  rcases mem_dropEffects hin with rfl | ⟨_, _, _, rfl⟩
  · exact hd
  · exact hd

/-! ## The event's own arm -/

/-- A submission with a fresh id touches no tag. -/
theorem not_in_flight_of_none {s : BrokerState} {id : RequestId} {session_id : SessionId}
    {attempt : UInt32} (h : s.pending.get? id = none) : ¬ InFlight s id session_id attempt := by
  rintro ⟨p, hp, _⟩
  rw [h] at hp
  cases hp

/-- Admitting a fresh request as queued gives it no tag. -/
theorem in_flight_insert {s t : BrokerState} {j : RequestId} {q : PendingRequest}
    (h : t.pending = s.pending.insert j q) (hfresh : s.pending.get? j = none)
    (hq : q.state = .queued) {id : RequestId} {session_id : SessionId} {attempt : UInt32} :
    InFlight t id session_id attempt ↔ InFlight s id session_id attempt := by
  unfold InFlight
  rw [h]
  by_cases hid : id = j
  · subst hid
    simp [get?_insert_self, hfresh, hq]
  · simp only [get?_insert_of_ne _ _ hid]

/-- Removing a request takes its tag and no other. -/
theorem in_flight_erase {s t : BrokerState} {j : RequestId}
    (h : t.pending = s.pending.erase j) (id : RequestId) (session_id : SessionId)
    (attempt : UInt32) :
    InFlight t id session_id attempt ↔ j ≠ id ∧ InFlight s id session_id attempt := by
  unfold InFlight
  rw [h]
  constructor
  · rintro ⟨p, hp, hs⟩
    have hne : id ≠ j := by
      rintro rfl
      rw [get?_erase_self] at hp
      cases hp
    rw [get?_erase_of_ne _ hne] at hp
    exact ⟨hne.symm, p, hp, hs⟩
  · rintro ⟨hne, p, hp, hs⟩
    rw [get?_erase_of_ne _ hne.symm]
    exact ⟨p, hp, hs⟩

/-- A tag is in flight only to the connected session. -/
theorem session_of_in_flight {s : BrokerState} (h : Consistent s) {id : RequestId}
    {session_id : SessionId} {attempt : UInt32} (hf : InFlight s id session_id attempt) :
    s.agent.session = some session_id := by
  obtain ⟨p, hp, hs⟩ := hf
  exact (h.current id p session_id attempt hp hs).1

/-- An arm without effects that keeps the tags, whatever the event, agrees with
    the history as long as the event is not the disconnect of the session. -/
theorem keep_received {id : RequestId} {session_id : SessionId} {event : Event}
    (h : event ≠ .disconnected session_id) :
    Entry.Keeps id session_id (.received event) := by
  cases event with
  | disconnected active =>
      intro he
      exact h (congrArg Event.disconnected he)
  | submit | connected | ready | locked | response | cancelled | tick => exact trivial

/-- The event and its own effects take exactly the tags that the arm takes. -/
theorem handle_in_flight {s t : BrokerState} {event : Event} {own : List Effect}
    (h : Consistent s)
    (hfresh : ∀ id, submittedId event = some id → s.pending.get? id = none)
    (ht : s.handle event = .ok (t, own)) (id : RequestId) (session_id : SessionId)
    (attempt : UInt32) :
    InFlight t id session_id attempt
      ↔ AllKeep id session_id (.received event :: own.map .emitted)
        ∧ InFlight s id session_id attempt := by
  rw [AllKeep, List.forall_mem_cons]
  cases handle_cases ht with
  | @full request_id =>
      refine ⟨fun hf => ⟨⟨trivial, ?_⟩, hf⟩, fun hf => hf.2⟩
      intro a ha
      obtain rfl := List.mem_singleton.mp ha
      show request_id ≠ id
      rintro rfl
      exact not_in_flight_of_none (hfresh request_id rfl) hf
  | @admitted request_id =>
      rw [in_flight_insert rfl (hfresh request_id rfl) rfl]
      exact ⟨fun hf => ⟨⟨trivial, fun a ha => (by cases ha)⟩, hf⟩, fun hf => hf.2⟩
  | connected _ =>
      exact ⟨fun hf => ⟨⟨trivial, fun a ha => (by cases ha)⟩, hf⟩, fun hf => hf.2⟩
  | ready _ => exact ⟨fun hf => ⟨⟨trivial, fun a ha => (by cases ha)⟩, hf⟩, fun hf => hf.2⟩
  | locked _ => exact ⟨fun hf => ⟨⟨trivial, fun a ha => (by cases ha)⟩, hf⟩, fun hf => hf.2⟩
  | @disconnected active hact =>
      -- all tags name the session that is lost
      constructor
      · rintro ⟨p, hp, hs⟩
        change (s.requeue_session active).pending.get? id = some p at hp
        rw [requeue_get?] at hp
        obtain ⟨q, hq, rfl⟩ := Option.map_eq_some_iff.mp hp
        rw [requeued_state h hact hq] at hs
        cases hs
      · rintro ⟨⟨hne, _⟩, hf⟩
        have := session_of_in_flight h hf
        rw [hact] at this
        exact absurd (Option.some.inj this) hne
  | @answered active request_id n packet p hp hs =>
      rw [in_flight_erase rfl]
      refine ⟨fun hf => ⟨⟨trivial, ?_⟩, hf.2⟩, fun hf => ⟨?_, hf.2⟩⟩
      · intro a ha
        obtain rfl := List.mem_singleton.mp ha
        exact hf.1
      · exact hf.1.2 _ (List.mem_singleton.mpr rfl)
  | @cancelled request_id p hp =>
      rw [in_flight_erase rfl]
      refine ⟨fun hf => ⟨⟨trivial, ?_⟩, hf.2⟩, fun hf => ⟨?_, hf.2⟩⟩
      · intro a ha
        obtain ⟨e, he, rfl⟩ := List.mem_map.mp ha
        exact dropEffects_keep hf.1 session_id he
      · exact hf.1.2 _ (List.mem_map_of_mem (complete_mem_dropEffects request_id p .cancelled))
  | ignored hign =>
      refine ⟨fun hf => ⟨⟨keep_received ?_, fun a ha => (by cases ha)⟩, hf⟩, fun hf => hf.2⟩
      rintro rfl
      exact hign (session_of_in_flight h hf)

theorem handle_no_dispatch {s t : BrokerState} {event : Event} {own : List Effect}
    (ht : s.handle event = .ok (t, own)) (id : RequestId) (session_id : SessionId)
    (attempt : UInt32) :
    ∀ a ∈ Entry.received event :: own.map .emitted,
      ¬ Entry.Dispatches id session_id attempt a := by
  intro a ha hd
  rcases List.mem_cons.mp ha with rfl | ha
  · exact hd
  · obtain ⟨e, he, rfl⟩ := List.mem_map.mp ha
    cases handle_cases ht with
    | full _ =>
        obtain rfl := List.mem_singleton.mp he
        exact hd
    | answered _ _ =>
        obtain rfl := List.mem_singleton.mp he
        exact hd
    | cancelled _ =>
        rcases mem_dropEffects he with rfl | ⟨_, _, _, rfl⟩
        · exact hd
        · exact hd
    | admitted _ | connected _ | ready _ | locked _ | disconnected _ | ignored _ =>
        cases he

/-! ## Reconciliation -/

/-- Only a dispatchable request is named by what reconciliation emits. -/
theorem reconcile_keep {s : BrokerState} (h : Consistent s) {id : RequestId}
    (hid : id ∉ s.dispatchable) (session_id : SessionId) :
    AllKeep id session_id (s.reconcile.2.map .emitted) := by
  intro a ha
  obtain ⟨e, he, rfl⟩ := List.mem_map.mp ha
  rcases mem_reconcile_effects h he with ⟨j, p, active, hj, _, _, rfl⟩ | ⟨w, rfl⟩
  · show j ≠ id
    rintro rfl
    exact hid hj
  · exact trivial

/-- The dispatches emitted for a request name the tag it gets. -/
theorem reconcile_dispatches {s : BrokerState} (h : Consistent s) {id : RequestId}
    {session_id : SessionId} {attempt : UInt32} {a : Entry}
    (ha : a ∈ s.reconcile.2.map Entry.emitted)
    (hd : Entry.Dispatches id session_id attempt a) :
    id ∈ s.dispatchable ∧ s.agent.session = some session_id ∧
      ∃ p, s.pending.get? id = some p ∧ attempt = p.attempt + 1 := by
  obtain ⟨e, he, rfl⟩ := List.mem_map.mp ha
  rcases mem_reconcile_effects h he with ⟨j, p, active, hj, hp, hact, rfl⟩ | ⟨w, rfl⟩
  · obtain ⟨rfl, rfl, rfl⟩ := hd
    exact ⟨hj, hact, p, hp, rfl⟩
  · exact hd.elim

/-- A dispatchable request is dispatched once, and nothing later in the same
    call concerns it. -/
theorem reconcile_since {s : BrokerState} (h : Consistent s) {id : RequestId}
    {session_id : SessionId} {p : PendingRequest} (hid : id ∈ s.dispatchable)
    (hact : s.agent.session = some session_id) (hp : s.pending.get? id = some p) :
    LatestDispatch id session_id (p.attempt + 1) (s.reconcile.2.map .emitted) := by
  obtain ⟨before, after, hsplit⟩ := List.append_of_mem hid
  have hn : s.dispatchable.Nodup := by
    have := h.queue_nodup
    rw [← dispatchable_append_queue h] at this
    exact (List.nodup_append.mp this).1
  rw [hsplit] at hn
  have hnot : id ∉ after := (List.nodup_cons.mp (List.nodup_append.mp hn).2.1).1
  rw [reconcile_effects h, hsplit, List.filterMap_append, List.filterMap_cons, hp, hact]
  simp only [Option.bind_some, Option.map_some, List.map_append, List.map_cons,
    List.append_assoc, List.cons_append]
  refine ⟨_, _, _, rfl, ⟨rfl, rfl, rfl⟩, ?_⟩
  intro a ha
  rcases List.mem_append.mp ha with ha | ha
  · obtain ⟨e, he, rfl⟩ := List.mem_map.mp ha
    obtain ⟨j, hj, heq⟩ := List.mem_filterMap.mp he
    obtain ⟨q, _, heq⟩ := Option.bind_eq_some_iff.mp heq
    obtain rfl := Option.some.inj heq
    show j ≠ id
    rintro rfl
    exact hnot hj
  · obtain ⟨e, he, rfl⟩ := List.mem_map.mp ha
    rcases announceWake_effects s.dispatchQueued.1 with hw | ⟨w, hw⟩
    · rw [hw] at he
      cases he
    · rw [hw] at he
      obtain rfl := List.mem_singleton.mp he
      exact trivial

/-- Reconciliation gives tags exactly as its dispatches say. -/
theorem reconcile_tags {s : BrokerState} (h : Consistent s) (id : RequestId)
    (session_id : SessionId) (attempt : UInt32) :
    InFlight s.reconcile.1 id session_id attempt
      ↔ LatestDispatch id session_id attempt (s.reconcile.2.map .emitted)
        ∨ (AllKeep id session_id (s.reconcile.2.map .emitted)
          ∧ InFlight s id session_id attempt) := by
  have hget := reconcile_get? h id
  by_cases hid : id ∈ s.dispatchable
  · obtain ⟨p, hp, hq⟩ := mem_dispatchable_queued h hid
    obtain ⟨active, hact⟩ := session_of_dispatchable hid
    rw [if_pos hid, hp, hact] at hget
    have hnot : ¬ InFlight s id session_id attempt := by
      rintro ⟨q, hq', hs⟩
      obtain rfl := Option.some.inj (hp.symm.trans hq')
      rw [hq] at hs
      cases hs
    constructor
    · rintro ⟨q, hq', hs⟩
      obtain rfl := Option.some.inj (hget.symm.trans hq')
      obtain ⟨rfl, rfl⟩ := PendingState.inFlight.inj hs
      exact Or.inl (reconcile_since h hid hact hp)
    · rintro (⟨before, a, after, heq, ha, _⟩ | ⟨_, hf⟩)
      · obtain ⟨_, hact', q, hq', rfl⟩ :=
          reconcile_dispatches h (heq ▸ List.mem_append_right _ (List.mem_cons_self ..)) ha
        obtain rfl := Option.some.inj (hact.symm.trans hact')
        obtain rfl := Option.some.inj (hp.symm.trans hq')
        exact ⟨_, hget, rfl⟩
      · exact absurd hf hnot
  · rw [if_neg hid] at hget
    have hsame : InFlight s.reconcile.1 id session_id attempt
        ↔ InFlight s id session_id attempt := by
      unfold InFlight
      rw [hget]
    rw [hsame]
    constructor
    · intro hf
      exact Or.inr ⟨reconcile_keep h hid session_id, hf⟩
    · rintro (⟨before, a, after, heq, ha, _⟩ | ⟨_, hf⟩)
      · exact absurd (reconcile_dispatches h
          (heq ▸ List.mem_append_right _ (List.mem_cons_self ..)) ha).1 hid
      · exact hf

/-! ## Whole runs -/

/-- The tags in the state are the latest dispatches of the history. -/
def Tracks (s : BrokerState) (l : List Entry) : Prop :=
  ∀ id session_id attempt,
    InFlight s id session_id attempt ↔ LatestDispatch id session_id attempt l

theorem tracks_expire {s : BrokerState} {l : List Entry} (h : Tracks s l) (now : Instant) :
    Tracks (s.expire now).1 (l ++ (s.expire now).2.map .emitted) := by
  intro id session_id attempt
  rw [expire_in_flight, h]
  exact (since_append_of_none expire_no_dispatch).symm

/-- A successful call gives and takes tags exactly as its entries say. -/
theorem apply_tags {s s' : BrokerState} {event : Event} {now : Instant}
    {effects : List Effect} (hc : Consistent s)
    (hfresh : ∀ id, submittedId event = some id → s.pending.get? id = none)
    (ha : s.apply event now = (s', .ok effects)) (id : RequestId) (session_id : SessionId)
    (attempt : UInt32) :
    InFlight s' id session_id attempt
      ↔ LatestDispatch id session_id attempt (.received event :: effects.map .emitted)
        ∨ (AllKeep id session_id (.received event :: effects.map .emitted)
          ∧ InFlight s id session_id attempt) := by
  obtain ⟨t, own, hh, hcons, hfresh', rfl, rfl⟩ := apply_stages hc hfresh ha
  have hlist : Entry.received event :: ((s.expire now).2 ++ own ++ t.reconcile.2).map Entry.emitted
      = (Entry.received event :: ((s.expire now).2.map .emitted ++ own.map .emitted))
        ++ t.reconcile.2.map .emitted := by simp
  have hnone : ∀ a ∈ Entry.received event
      :: ((s.expire now).2.map Entry.emitted ++ own.map .emitted),
      ¬ Entry.Dispatches id session_id attempt a := by
    have h1 := handle_no_dispatch hh id session_id attempt
    intro a ha
    simp only [List.mem_cons, List.mem_append] at ha h1
    rcases ha with ha | ha | ha
    · exact h1 a (Or.inl ha)
    · exact expire_no_dispatch a ha
    · exact h1 a (Or.inr ha)
  have hfirst : ¬ LatestDispatch id session_id attempt (Entry.received event
      :: ((s.expire now).2.map Entry.emitted ++ own.map .emitted)) := by
    rintro ⟨before, a, after, heq, ha, _⟩
    exact hnone a (heq ▸ List.mem_append_right _ (List.mem_cons_self ..)) ha
  -- the event's entry stands before the expiry that precedes it; as neither
  -- dispatches, their order does not matter
  have horder : AllKeep id session_id (Entry.received event
        :: ((s.expire now).2.map Entry.emitted ++ own.map .emitted))
      ↔ AllKeep id session_id (.received event :: own.map .emitted)
        ∧ AllKeep id session_id ((s.expire now).2.map .emitted) := by
    simp only [AllKeep, List.forall_mem_cons, List.forall_mem_append]
    constructor
    · rintro ⟨h1, h2, h3⟩
      exact ⟨⟨h1, h3⟩, h2⟩
    · rintro ⟨⟨h1, h3⟩, h2⟩
      exact ⟨h1, h2, h3⟩
  have hsplit : AllKeep id session_id ((Entry.received event
        :: ((s.expire now).2.map Entry.emitted ++ own.map .emitted))
        ++ t.reconcile.2.map .emitted)
      ↔ AllKeep id session_id (Entry.received event
          :: ((s.expire now).2.map Entry.emitted ++ own.map .emitted))
        ∧ AllKeep id session_id (t.reconcile.2.map .emitted) :=
    List.forall_mem_append
  have hlatest : LatestDispatch id session_id attempt ((Entry.received event
        :: ((s.expire now).2.map Entry.emitted ++ own.map .emitted))
        ++ t.reconcile.2.map .emitted)
      ↔ LatestDispatch id session_id attempt (t.reconcile.2.map .emitted) :=
    since_append.trans (or_iff_left (fun hn => hfirst hn.2))
  rw [reconcile_tags hcons, handle_in_flight (consistent_expire hc now) hfresh' hh,
    expire_in_flight, hlist, hsplit, horder, hlatest]
  refine or_congr_right ?_
  constructor
  · rintro ⟨hreconcile, hown, hexpire, hf⟩
    exact ⟨⟨⟨hown, hexpire⟩, hreconcile⟩, hf⟩
  · rintro ⟨⟨⟨hown, hexpire⟩, hreconcile⟩, hf⟩
    exact ⟨hreconcile, hown, hexpire, hf⟩

/-- A successful call extends the history by entries that track its state. -/
theorem tracks_apply {s s' : BrokerState} {event : Event} {now : Instant}
    {effects : List Effect} {l : List Entry} (hc : Consistent s)
    (hfresh : ∀ id, submittedId event = some id → s.pending.get? id = none)
    (ha : s.apply event now = (s', .ok effects)) (h : Tracks s l) :
    Tracks s' (l ++ .received event :: effects.map .emitted) := by
  intro id session_id attempt
  rw [apply_tags hc hfresh ha, h]
  exact since_append.symm

theorem history_snoc (h : List Call) (c : Call) :
    history (h ++ [c]) = history h ++ Call.entries c := by
  simp [history, List.flatMap_append]

/-- **The tags are the history**: along every run of successful calls with
    fresh ids, a request is in flight exactly as its latest dispatch says. -/
theorem run_tracks {max_pending_requests : Nat} {h : List Call} {s : BrokerState}
    (hr : BrokerRun max_pending_requests h s) (hok : AllOk h)
    (hf : (submittedIds h).Nodup) : Tracks s (history h) := by
  induction hr with
  | nil =>
      intro id session_id attempt
      refine iff_of_false (not_in_flight_of_none rfl) not_since_nil
  | @snoc h s s' c hr hstep ih =>
      have hcons := (run_consistent hr (fresh_of_snoc hf)).1
      have hfresh := fresh_not_pending hr hf
      obtain ⟨effects, hres⟩ := hok.newest
      have ha : s.apply c.event c.now = (s', .ok effects) := hres ▸ hstep
      have hent : Call.entries c = .received c.event :: effects.map .emitted := by
        rw [Call.entries, Call.emitted, hres]
      rw [history_snoc, hent]
      exact tracks_apply hcons hfresh ha (ih hok.of_snoc (fresh_of_snoc hf))

/-! ## Responses and stale events -/

/-- An event that nothing current answers to is a tick. -/
theorem apply_ignored {s : BrokerState} {event : Event} {now : Instant}
    (h : Ignored (s.expire now).1 event) : s.apply event now = s.apply .tick now := by
  rw [apply_of_handle (handle_ignored h)]
  rfl

theorem apply_tick (s : BrokerState) (now : Instant) :
    s.apply .tick now = ((s.expire now).1.reconcile.1,
      .ok ((s.expire now).2 ++ (s.expire now).1.reconcile.2)) := by
  show (_, Except.ok ((s.expire now).2 ++ [] ++ _)) = _
  rw [List.append_nil]

/-- Neither expiry nor reconciliation answers anything with a packet. -/
theorem not_answer_of_expire {s : BrokerState} {now : Instant} {id : RequestId}
    {packet : Bytes} : Effect.complete id (.ok packet) ∉ (s.expire now).2 := by
  intro he
  obtain ⟨j, q, _, _, hin⟩ := mem_expire_effects he
  rcases mem_dropEffects hin with heq | ⟨_, _, _, heq⟩
  · cases (Effect.complete.inj heq).2
  · cases heq

theorem not_answer_of_reconcile {s : BrokerState} (h : Consistent s) {id : RequestId}
    {packet : Bytes} : Effect.complete id (.ok packet) ∉ s.reconcile.2 := by
  intro he
  rcases mem_reconcile_effects h he with ⟨_, _, _, _, _, _, heq⟩ | ⟨_, heq⟩
  · cases heq
  · cases heq

/-- A response is accepted exactly while its tag is in flight after expiry. -/
theorem response_accepted_iff {s : BrokerState} (h : Consistent s) (session_id : SessionId)
    (id : RequestId) (attempt : UInt32) (packet : Bytes) (now : Instant) :
    (∃ effects, (s.apply (.response session_id id attempt packet) now).2 = .ok effects ∧
        Effect.complete id (.ok packet) ∈ effects)
      ↔ InFlight (s.expire now).1 id session_id attempt := by
  constructor
  · rintro ⟨effects, hok, hin⟩
    by_contra hnot
    have hign : Ignored (s.expire now).1 (.response session_id id attempt packet) :=
      fun p hp hs => hnot ⟨p, hp, hs⟩
    rw [apply_ignored hign, apply_tick] at hok
    obtain rfl := Except.ok.inj hok
    rcases List.mem_append.mp hin with hin | hin
    · exact not_answer_of_expire hin
    · exact not_answer_of_reconcile (consistent_expire h now) hin
  · rintro ⟨p, hp, hs⟩
    have hh : (s.expire now).1.handle (.response session_id id attempt packet)
        = .ok ({ (s.expire now).1 with pending := (s.expire now).1.pending.erase id },
            [.complete id (.ok packet)]) := by
      simp only [BrokerState.handle, hp, hs, if_true]
    rw [apply_of_handle hh]
    exact ⟨_, rfl, by simp⟩

/-- **No stale influence.**  After a run of successful calls with fresh ids, a
    response is passed on exactly when, with the expiry at `now` added to the
    history, the latest dispatch of its request named its session and attempt
    and the request has since been neither completed nor requeued.  Any other
    response, a session event that does not name the connected session and the
    cancellation of a request that is not pending act as a tick. -/
theorem stale_events_are_ticks {max_pending_requests : Nat} {h : List Call}
    {s : BrokerState} (hr : BrokerRun max_pending_requests h s) (hok : AllOk h)
    (hf : (submittedIds h).Nodup) (now : Instant) :
    (∀ session_id id attempt packet,
      ((∃ effects, (s.apply (.response session_id id attempt packet) now).2 = .ok effects ∧
          Effect.complete id (.ok packet) ∈ effects)
        ↔ LatestDispatch id session_id attempt
            (history h ++ (s.expire now).2.map .emitted)) ∧
      (¬ LatestDispatch id session_id attempt (history h ++ (s.expire now).2.map .emitted) →
        s.apply (.response session_id id attempt packet) now = s.apply .tick now)) ∧
    (∀ session_id, s.agent.session ≠ some session_id →
      s.apply (.disconnected session_id) now = s.apply .tick now ∧
      s.apply (.ready session_id) now = s.apply .tick now ∧
      s.apply (.locked session_id) now = s.apply .tick now) ∧
    (∀ id, s.pending.get? id = none →
      s.apply (.cancelled id) now = s.apply .tick now) := by
  have hcons := (run_consistent hr hf).1
  have htrack := tracks_expire (run_tracks hr hok hf) now
  refine ⟨?_, ?_, ?_⟩
  · intro session_id id attempt packet
    constructor
    · rw [response_accepted_iff hcons]
      exact htrack id session_id attempt
    · intro hstale
      refine apply_ignored ?_
      intro p hp hs
      exact hstale ((htrack id session_id attempt).mp ⟨p, hp, hs⟩)
  · intro session_id hne
    exact ⟨apply_ignored hne, apply_ignored hne, apply_ignored hne⟩
  · intro id hnone
    refine apply_ignored ?_
    show (s.expire now).1.pending.get? id = none
    rw [expire_get?, hnone]
    rfl

/-- A request is dispatched, requeued by a disconnect and dispatched again to
    the next session. -/
def redispatchedEvents : List (Event × Instant) :=
  [(.submit ⟨1⟩ [11] none 30 0 30, 0), (.connected ⟨7⟩ 4, 1), (.disconnected ⟨7⟩, 2),
   (.connected ⟨8⟩ 4, 3)]

theorem stale_events_redispatched :
    AllOk (record (.new 8) redispatchedEvents) ∧
    (submittedIds (record (.new 8) redispatchedEvents)).Nodup ∧
    LatestDispatch ⟨1⟩ ⟨8⟩ 2 (history (record (.new 8) redispatchedEvents)) ∧
    (replay (.new 8) redispatchedEvents).apply (.ready ⟨7⟩) 9
      = (replay (.new 8) redispatchedEvents).apply .tick 9 := by
  have hr : BrokerRun 8 (record (.new 8) redispatchedEvents) _ :=
    run_record .nil redispatchedEvents
  have h := stale_events_are_ticks hr (by decide) (by decide) 9
  refine ⟨by decide, by decide, ?_, (h.2.1 ⟨7⟩ (by decide)).2.1⟩
  have hlatest := (h.1 ⟨8⟩ ⟨1⟩ 2 [5]).1.mp ⟨_, rfl, by decide⟩
  rw [show ((replay (.new 8) redispatchedEvents).expire 9).2 = [] from by decide] at hlatest
  simpa using hlatest

end BrokerCorrelation
