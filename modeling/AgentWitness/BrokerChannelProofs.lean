import AgentWitness.ReplicaProofs
import AgentWitness.BrokerTraceProofs
import AgentWitness.BrokerWaitersProofs
import AgentWitness.ServeProofs

/-! # What the broker announces on a session's channel

    To the session it is connected to, the broker owns a bounded set: the tags
    (request id and attempt) in flight.  One call of `apply` announces how that
    set changes, CANCELS BEFORE DISPATCHES: expiry and the event's own arm come
    before reconciliation.  What is neither kept nor cancelled was answered by the
    session itself.

    A turn whose receiver is there sends exactly these announcements, in order:
    every dispatch goes to the connected session, whose channel is the active one,
    so none fails and nothing is fed back into the model. -/

namespace BrokerChannel

open Packet KeyedMap BrokerModel BrokerInvariant BrokerCompletion BrokerCorrelation BrokerTask
open BrokerWaiters BrokerTrace Serve Transition Replica

/-- What names one dispatch to a session. -/
abbrev Tag := RequestId × UInt32

/-- The tag with which an entry is in flight to a session. -/
def flightTag (session_id : SessionId) (e : RequestId × PendingRequest) : Option Tag :=
  match e.2.state with
  | .inFlight active attempt => if active = session_id then some (e.1, attempt) else none
  | .queued => none

/-- The tags in flight to a session. -/
def inFlightTags (s : BrokerState) (session_id : SessionId) : Finset Tag :=
  (s.pending.entries.filterMap (flightTag session_id)).toFinset

/-- The request waits in the queue. -/
def Queued (s : BrokerState) (id : RequestId) : Prop :=
  ∃ p, s.pending.get? id = some p ∧ p.state = .queued

/-- What a command announces. -/
def changeOf : RemoteCommand → Change Tag
  | .request request_id attempt _ _ _ _ => .add (request_id, attempt)
  | .cancel request_id attempt => .remove (request_id, attempt)

/-- The command an effect sends to a session. -/
def commandTo (session_id : SessionId) (e : Effect) : Option RemoteCommand :=
  (outgoing e).bind (fun r => if r.1 = session_id then some r.2 else none)

/-- What a list of effects announces to a session. -/
def changesTo (session_id : SessionId) (effects : List Effect) : List (Change Tag) :=
  (effects.filterMap (commandTo session_id)).map changeOf

/-! ## The set in flight -/

theorem flightTag_eq {session_id : SessionId} {e : RequestId × PendingRequest} {tag : Tag} :
    flightTag session_id e = some tag ↔
      e.1 = tag.1 ∧ e.2.state = .inFlight session_id tag.2 := by
  obtain ⟨id, p⟩ := e
  obtain ⟨tid, attempt⟩ := tag
  rw [flightTag]
  cases hs : p.state with
  | queued =>
      constructor
      · intro h
        cases h
      · rintro ⟨_, h⟩
        cases h
  | inFlight active n =>
      by_cases ha : active = session_id
      · simp [ha]
      · simp [ha]

theorem mem_inFlightTags {s : BrokerState} {session_id : SessionId} {id : RequestId}
    {attempt : UInt32} :
    (id, attempt) ∈ inFlightTags s session_id ↔ InFlight s id session_id attempt := by
  rw [inFlightTags, List.mem_toFinset, List.mem_filterMap]
  constructor
  · rintro ⟨⟨j, p⟩, he, htag⟩
    obtain ⟨rfl, hs⟩ := flightTag_eq.mp htag
    exact ⟨p, (mem_entries_iff _ _ _).mp he, hs⟩
  · rintro ⟨p, hp, hs⟩
    exact ⟨(id, p), (mem_entries_iff _ _ _).mpr hp, flightTag_eq.mpr ⟨rfl, hs⟩⟩

theorem card_inFlightTags (s : BrokerState) (session_id : SessionId) :
    (inFlightTags s session_id).card ≤ s.in_flight_for session_id := by
  have hcount : ∀ l : List (RequestId × PendingRequest),
      (l.filterMap (flightTag session_id)).length
        = l.countP (fun e => e.2.inFlightFor session_id) := by
    intro l
    rw [List.length_filterMap_eq_countP]
    congr 1
    funext e
    rw [flightTag, PendingRequest.inFlightFor]
    cases e.2.state with
    | queued => rfl
    | inFlight active attempt =>
        by_cases ha : active = session_id
        · simp [ha]
        · simp [ha]
  have hle := List.toFinset_card_le (s.pending.entries.filterMap (flightTag session_id))
  rw [hcount] at hle
  exact hle

/-- The set in flight to the connected session is within its capacity. -/
theorem inFlightTags_bounded {s : BrokerState} (h : Consistent s) {session_id : SessionId}
    {capacity : Nat} (hc : s.connected_remote = some (session_id, capacity)) :
    (inFlightTags s session_id).card ≤ capacity :=
  Nat.le_trans (card_inFlightTags s session_id) (h.in_capacity session_id capacity hc)

/-! ## Cancels and dispatches -/

/-- The tags a list of effects cancels at a session. -/
def cancelledTags (session_id : SessionId) (effects : List Effect) : List Tag :=
  effects.filterMap (fun
    | .cancel active request_id attempt =>
        if active = session_id then some (request_id, attempt) else none
    | _ => none)

/-- The tags a list of effects dispatches to a session. -/
def dispatchedTags (session_id : SessionId) (effects : List Effect) : List Tag :=
  effects.filterMap (fun
    | .dispatch active request_id attempt _ _ _ _ =>
        if active = session_id then some (request_id, attempt) else none
    | _ => none)

theorem changesTo_append (session_id : SessionId) (a b : List Effect) :
    changesTo session_id (a ++ b) = changesTo session_id a ++ changesTo session_id b := by
  rw [changesTo, List.filterMap_append, List.map_append]
  rfl

/-- Effects without dispatches announce removals only. -/
theorem changesTo_cancels {session_id : SessionId} {effects : List Effect}
    (h : ∀ e ∈ effects, dispatchSession e = none) :
    changesTo session_id effects = (cancelledTags session_id effects).map .remove := by
  rw [changesTo, cancelledTags, List.map_filterMap, List.map_filterMap]
  refine List.filterMap_congr ?_
  intro e he
  cases e with
  | dispatch => cases h _ he
  | cancel active request_id attempt =>
      by_cases ha : active = session_id
      · simp [commandTo, outgoing, ha, changeOf]
      · simp [commandTo, outgoing, ha]
  | wakeRequired | complete => rfl

/-- Effects without cancels announce additions only. -/
theorem changesTo_dispatches {session_id : SessionId} {effects : List Effect}
    (h : ∀ e ∈ effects, dispatchSession e ≠ none ∨ ∃ w, e = .wakeRequired w) :
    changesTo session_id effects = (dispatchedTags session_id effects).map .add := by
  rw [changesTo, dispatchedTags, List.map_filterMap, List.map_filterMap]
  refine List.filterMap_congr ?_
  intro e he
  cases e with
  | dispatch active request_id attempt =>
      by_cases ha : active = session_id
      · simp [commandTo, outgoing, ha, changeOf]
      · simp [commandTo, outgoing, ha]
  | wakeRequired => rfl
  | cancel | complete =>
      rcases h _ he with hd | ⟨w, hw⟩
      · exact absurd rfl hd
      · cases hw

theorem mem_cancelledTags {session_id : SessionId} {effects : List Effect} {tag : Tag}
    (h : .cancel session_id tag.1 tag.2 ∈ effects) : tag ∈ cancelledTags session_id effects :=
  List.mem_filterMap.mpr ⟨_, h, if_pos rfl⟩

/-! ## One call -/

/-- What expiry takes from the set it cancels. -/
theorem expire_kept {s : BrokerState} (now : Instant) {id : RequestId} {session_id : SessionId}
    {attempt : UInt32} (h : InFlight s id session_id attempt) :
    InFlight (s.expire now).1 id session_id attempt ∨
      .cancel session_id id attempt ∈ (s.expire now).2 := by
  obtain ⟨p, hp, hs⟩ := h
  by_cases hd : p.deadline ≤ now
  · obtain ⟨before, after, heq, _, _⟩ := expire_effects_split hp hd
    refine Or.inr ?_
    rw [heq, drop_in_flight hs]
    exact List.mem_append_left _ (List.mem_append_right _ (List.mem_cons_self ..))
  · exact Or.inl ⟨p, expire_get?_some.mpr ⟨hp, Nat.lt_of_not_le hd⟩, hs⟩

/-- What the event's own arm takes from the set of a session that stays it
    cancels, unless it is the answer. -/
theorem handle_kept {s t : BrokerState} {event : Event} {own : List Effect}
    (ht : s.handle event = .ok (t, own))
    (hfresh : ∀ id, submittedId event = some id → s.pending.get? id = none)
    {id : RequestId} {session_id : SessionId} {attempt : UInt32}
    (hsession : t.agent.session = some session_id) (h : InFlight s id session_id attempt) :
    InFlight t id session_id attempt ∨ .cancel session_id id attempt ∈ own ∨
      ∃ packet, event = .response session_id id attempt packet := by
  obtain ⟨p, hp, hs⟩ := h
  cases handle_cases ht with
  | full _ | connected _ | ready _ | locked _ | ignored _ => exact Or.inl ⟨p, hp, hs⟩
  | @admitted request_id _ _ _ _ _ _ =>
      have hne : id ≠ request_id := by
        rintro rfl
        rw [hfresh id rfl] at hp
        cases hp
      exact Or.inl ⟨p, (get?_insert_of_ne _ _ hne).trans hp, hs⟩
  | disconnected _ => cases hsession
  | @answered active request_id n packet q hq hqs =>
      by_cases hid : id = request_id
      · subst hid
        obtain rfl := Option.some.inj (hp.symm.trans hq)
        obtain ⟨rfl, rfl⟩ := PendingState.inFlight.inj (hs.symm.trans hqs)
        exact Or.inr (Or.inr ⟨packet, rfl⟩)
      · exact Or.inl ⟨p, (get?_erase_of_ne _ hid).trans hp, hs⟩
  | @cancelled request_id q hq =>
      by_cases hid : id = request_id
      · subst hid
        obtain rfl := Option.some.inj (hp.symm.trans hq)
        refine Or.inr (Or.inl ?_)
        rw [drop_in_flight hs]
        exact List.mem_cons_self ..
      · exact Or.inl ⟨p, (get?_erase_of_ne _ hid).trans hp, hs⟩

/-- While the session stays, only a submission puts a request into the queue. -/
theorem handle_queued {s t : BrokerState} {event : Event} {own : List Effect}
    (ht : s.handle event = .ok (t, own)) {session_id : SessionId}
    (hsession : t.agent.session = some session_id) {id : RequestId} (h : Queued t id) :
    Queued s id ∨ submittedId event = some id := by
  obtain ⟨p, hp, hs⟩ := h
  cases handle_cases ht with
  | full _ | connected _ | ready _ | locked _ | ignored _ => exact Or.inl ⟨p, hp, hs⟩
  | @admitted request_id _ _ _ _ _ _ =>
      by_cases hid : id = request_id
      · subst hid
        exact Or.inr rfl
      · exact Or.inl ⟨p, (get?_insert_of_ne _ _ hid).symm.trans hp, hs⟩
  | disconnected _ => cases hsession
  | answered _ _ => exact Or.inl ⟨p, (get?_of_erase hp).2, hs⟩
  | cancelled _ => exact Or.inl ⟨p, (get?_of_erase hp).2, hs⟩

theorem reconcile_kept {s : BrokerState} (h : Consistent s) {id : RequestId}
    {session_id : SessionId} {attempt : UInt32} (hf : InFlight s id session_id attempt) :
    InFlight s.reconcile.1 id session_id attempt := by
  obtain ⟨p, hp, hs⟩ := hf
  refine ⟨p, ?_, hs⟩
  rw [reconcile_get? h, if_neg]
  · exact hp
  · intro hd
    obtain ⟨q, hq, hqs⟩ := mem_dispatchable_queued h hd
    obtain rfl := Option.some.inj (hp.symm.trans hq)
    cases hs.symm.trans hqs

theorem reconcile_queued {s : BrokerState} (h : Consistent s) {id : RequestId}
    (hq : Queued s.reconcile.1 id) : Queued s id := by
  refine (h.mem_queue id).mp ?_
  rw [← dispatchable_append_queue h]
  exact List.mem_append_right _ (((consistent_reconcile h).mem_queue id).mpr hq)

/-- Reconciliation dispatches what was queued, and has it in flight. -/
theorem reconcile_dispatchedTags {s : BrokerState} (h : Consistent s) {session_id : SessionId}
    {tag : Tag} (ht : tag ∈ dispatchedTags session_id s.reconcile.2) :
    Queued s tag.1 ∧ InFlight s.reconcile.1 tag.1 session_id tag.2 := by
  obtain ⟨e, he, htag⟩ := List.mem_filterMap.mp ht
  rcases mem_reconcile_effects h he with ⟨id, p, active, hid, hp, hsession, rfl⟩ | ⟨w, rfl⟩
  · simp only [PendingRequest.dispatchEffect] at htag
    split at htag
    · rename_i hactive
      subst hactive
      obtain rfl := Option.some.inj htag
      refine ⟨mem_dispatchable_queued h hid, p.dispatched active, ?_, rfl⟩
      rw [reconcile_get? h, if_pos hid, hp, hsession]
      rfl
    · cases htag
  · cases htag

theorem reconcile_dispatchedTags_nodup {s : BrokerState} (h : Consistent s)
    (session_id : SessionId) : (dispatchedTags session_id s.reconcile.2).Nodup := by
  have hnodup : s.dispatchable.Nodup := by
    have hq := h.queue_nodup
    rw [← dispatchable_append_queue h] at hq
    exact (List.nodup_append.mp hq).1
  have hwake : dispatchedTags session_id s.dispatchQueued.1.announceWake.2 = [] := by
    rcases announceWake_effects s.dispatchQueued.1 with hnil | ⟨w, hone⟩
    · rw [hnil]
      rfl
    · rw [hone]
      rfl
  rw [dispatchedTags] at hwake
  rw [reconcile_effects h, dispatchedTags, List.filterMap_append, hwake, List.append_nil,
    List.filterMap_filterMap]
  refine List.Nodup.filterMap ?_ hnodup
  -- a tag names the request it was made from
  have hnames : ∀ (id : RequestId) (tag : Tag), tag ∈ ((s.pending.get? id).bind (fun p =>
      s.agent.session.map (fun active => (p.dispatched active).dispatchEffect active id))).bind
        (fun
          | .dispatch active request_id attempt _ _ _ _ =>
              if active = session_id then some (request_id, attempt) else none
          | _ => none) → tag.1 = id := by
    intro id tag htag
    obtain ⟨e, he, htag⟩ := Option.bind_eq_some_iff.mp htag
    obtain ⟨p, _, he⟩ := Option.bind_eq_some_iff.mp he
    obtain ⟨active, _, rfl⟩ := Option.map_eq_some_iff.mp he
    simp only [PendingRequest.dispatchEffect] at htag
    split at htag
    · rw [← Option.some.inj htag]
    · cases htag
  intro id id' tag hid hid'
  exact (hnames id tag hid).symm.trans (hnames id' tag hid')

/-- How a call changes the set in flight to the session connected after it. -/
structure Update (s : BrokerState) (event : Event) (s' : BrokerState) (session_id : SessionId)
    (removed fresh : List Tag) : Prop where
  kept : ∀ tag ∈ inFlightTags s session_id, tag ∉ removed →
    tag ∈ inFlightTags s' session_id ∨
      ∃ packet, event = .response session_id tag.1 tag.2 packet
  dispatched : ∀ tag ∈ fresh, tag ∈ inFlightTags s' session_id
  distinct : fresh.Nodup
  waited : ∀ tag ∈ fresh, Queued s tag.1 ∨ submittedId event = some tag.1
  queued : ∀ id, Queued s' id → Queued s id ∨ submittedId event = some id

/-- **A call announces its update**, cancels first. -/
theorem apply_update {s s' : BrokerState} {event : Event} {now : Instant}
    {effects : List Effect} (h : Consistent s)
    (hfresh : ∀ id, submittedId event = some id → s.pending.get? id = none)
    (ha : s.apply event now = (s', .ok effects)) {session_id : SessionId}
    (hsession : s'.agent.session = some session_id) :
    ∃ removed fresh, changesTo session_id effects = removed.map .remove ++ fresh.map .add ∧
      Update s event s' session_id removed fresh := by
  obtain ⟨t, own, hh, hcons, hfresh', rfl, rfl⟩ := apply_stages h hfresh ha
  rw [reconcile_agent] at hsession
  have hexpired : ∀ id, Queued (s.expire now).1 id → Queued s id := by
    rintro id ⟨p, hp, hs⟩
    exact ⟨p, (expire_get?_some.mp hp).1, hs⟩
  have hbefore : ∀ id, Queued t id → Queued s id ∨ submittedId event = some id := by
    intro id hq
    rcases handle_queued hh hsession hq with hold | hnew
    · exact Or.inl (hexpired id hold)
    · exact Or.inr hnew
  refine ⟨cancelledTags session_id ((s.expire now).2 ++ own),
    dispatchedTags session_id t.reconcile.2, ?_, ?_, ?_, ?_, ?_, ?_⟩
  · rw [changesTo_append, changesTo_cancels (fun e he => stages_no_dispatch hh he),
      changesTo_dispatches (fun e he => reconcile_kind he)]
  · rintro ⟨id, attempt⟩ htag hnot
    rw [mem_inFlightTags] at htag ⊢
    -- the three stages in turn; a cancel of either of the first two is announced
    rcases expire_kept now htag with hflight | hcancel
    · rcases handle_kept hh hfresh' hsession hflight with hflight | hcancel | hanswer
      · exact Or.inl (reconcile_kept hcons hflight)
      · exact absurd (mem_cancelledTags (List.mem_append_right _ hcancel)) hnot
      · exact Or.inr hanswer
    · exact absurd (mem_cancelledTags (List.mem_append_left _ hcancel)) hnot
  · rintro ⟨id, attempt⟩ htag
    rw [mem_inFlightTags]
    exact (reconcile_dispatchedTags hcons htag).2
  · exact reconcile_dispatchedTags_nodup hcons session_id
  · intro tag htag
    exact hbefore tag.1 (reconcile_dispatchedTags hcons htag).1
  · intro id hq
    exact hbefore id (reconcile_queued hcons hq)

/-- The capacity a connect offers. -/
def connectedCapacity : Event → Option Nat
  | .connected _ capacity => some capacity
  | _ => none

/-- A call grants the capacity of its connect, or keeps the one granted. -/
theorem apply_capacity {s s' : BrokerState} {event : Event} {now : Instant}
    {result : Except ModelError (List Effect)} (ha : s.apply event now = (s', result))
    {session_id : SessionId} {capacity : Nat}
    (hc : s'.connected_remote = some (session_id, capacity)) :
    s.connected_remote = some (session_id, capacity) ∨ connectedCapacity event = some capacity := by
  cases result with
  | error e =>
      rw [(apply_error ha).1] at hc
      exact Or.inl hc
  | ok effects =>
      obtain ⟨t, own, hh, rfl, _⟩ := apply_ok ha
      rw [reconcile_connected] at hc
      cases handle_cases hh with
      | connected _ =>
          obtain ⟨_, rfl⟩ := Prod.mk.inj (Option.some.inj hc)
          exact Or.inr rfl
      | ready hr => exact Or.inl (hr.trans hc)
      | locked hr => exact Or.inl (hr.trans hc)
      | disconnected _ => cases hc
      | full _ | admitted _ | answered _ _ | cancelled _ | ignored _ => exact Or.inl hc

/-- A session's capacity is one that a connect offered. -/
theorem run_capacity {max_pending_requests : Nat} {h : List Call} {s : BrokerState}
    (hr : BrokerRun max_pending_requests h s) {session_id : SessionId} {capacity : Nat}
    (hc : s.connected_remote = some (session_id, capacity)) :
    capacity ∈ recorded connectedCapacity h := by
  induction hr with
  | nil => cases hc
  | @snoc h s s' c _ hap ih =>
      rw [recorded_snoc, List.mem_append]
      rcases apply_capacity hap hc with hold | hnew
      · exact Or.inl (ih hold)
      · rw [hnew]
        exact Or.inr (List.mem_singleton.mpr rfl)

/-! ## One turn -/

/-- What effects put on a link's channel when `remote` is the active session. -/
def heardOn (remote : Option (SessionId × ChannelId)) (link : LinkId)
    (effects : List Effect) : List RemoteCommand :=
  match remote with
  | some (session_id, outbound) =>
      if outbound = link then effects.filterMap (commandTo session_id) else []
  | none => []

/-- A link that is not the active one hears nothing. -/
theorem heardOn_elsewhere {remote : Option (SessionId × ChannelId)} {link : LinkId}
    (h : ∀ session_id, remote ≠ some (session_id, link)) (effects : List Effect) :
    heardOn remote link effects = [] := by
  cases remote with
  | none => rfl
  | some r =>
      refine if_neg ?_
      rintro rfl
      exact h r.1 rfl

theorem heardOn_append (remote : Option (SessionId × ChannelId)) (link : LinkId)
    (a b : List Effect) :
    heardOn remote link (a ++ b) = heardOn remote link a ++ heardOn remote link b := by
  cases remote with
  | none => rfl
  | some r =>
      by_cases hl : r.2 = link
      · simp only [heardOn, if_pos hl, List.filterMap_append]
      · simp only [heardOn, if_neg hl, List.append_nil]

/-- Executing effects does not touch the model, and all they send arrives. -/
structure Delivered (x : Exec) (effects : List Effect) (y : Exec) : Prop where
  sends : y.sends = none
  state : y.actor.state = x.actor.state
  remote : y.actor.remote = x.actor.remote
  calls : y.actor.calls = x.actor.calls
  sent : ∀ link, sentTo link y.outputs
    = sentTo link x.outputs ++ heardOn x.actor.remote link effects

/-- A send while the receiver is there. -/
theorem send_delivered {x : Exec} (hx : x.sends = none) {e : Effect} {session_id : SessionId}
    {command : RemoteCommand} (he : outgoing e = some (session_id, command)) :
    Delivered x [e] (x.send session_id command).1 ∧
      ((x.send session_id command).2 = true ↔ x.actor.remote.map Prod.fst = some session_id) := by
  rw [Exec.send]
  cases hr : x.actor.remote with
  | none =>
      refine ⟨⟨hx, rfl, rfl, rfl, fun link => ?_⟩, ?_⟩
      · rw [hr]
        exact (List.append_nil _).symm
      · constructor
        · intro h
          cases h
        · intro h
          cases h
  | some r =>
      obtain ⟨active, outbound⟩ := r
      dsimp only
      by_cases ha : active = session_id
      · subst ha
        rw [if_pos rfl, hx]
        refine ⟨⟨hx, rfl, rfl, rfl, fun link => ?_⟩, fun _ => rfl, fun _ => rfl⟩
        show sentTo link (x.outputs ++ [.sent outbound command]) = _
        rw [sentTo_append, hr]
        by_cases hl : outbound = link
        · simp [sentTo, heardOn, commandTo, he, hl]
        · simp [sentTo, heardOn, hl]
      · rw [if_neg ha]
        refine ⟨⟨hx, rfl, rfl, rfl, fun link => ?_⟩, ?_⟩
        · rw [hr]
          have hnot : commandTo active e = none := by
            simp [commandTo, he, Ne.symm ha]
          by_cases hl : outbound = link
          · simp [heardOn, hnot, hl]
          · simp [heardOn, hl]
        · constructor
          · intro h
            cases h
          · exact fun h => absurd (Option.some.inj h) ha

/-- Effects whose dispatches go to the active session push nothing. -/
theorem executeEffect_delivered (now : Instant) {x : Exec} (hx : x.sends = none) {e : Effect}
    (hlinked : ∀ session_id, dispatchSession e = some session_id →
      x.actor.remote.map Prod.fst = some session_id) :
    (x.executeEffect now e).2 = [] ∧ Delivered x [e] (x.executeEffect now e).1 := by
  have hsilent : outgoing e = none → ∀ link, heardOn x.actor.remote link [e] = [] := by
    intro he link
    cases x.actor.remote with
    | none => rfl
    | some r =>
        have hnot : commandTo r.1 e = none := by simp [commandTo, he]
        by_cases hl : r.2 = link
        · simp [heardOn, hl, hnot]
        · simp [heardOn, hl]
  cases e with
  | dispatch session_id request_id attempt requested_at deadline packet context =>
      obtain ⟨hdelivered, hfound⟩ := send_delivered hx (e := .dispatch session_id request_id
        attempt requested_at deadline packet context) rfl
      have hsent := hfound.mpr (hlinked session_id rfl)
      simp only [Exec.executeEffect, hsent, if_true]
      exact ⟨trivial, hdelivered⟩
  | cancel session_id request_id attempt =>
      exact ⟨rfl, (send_delivered hx (e := .cancel session_id request_id attempt) rfl).1⟩
  | wakeRequired request =>
      refine ⟨rfl, hx, rfl, rfl, rfl, fun link => ?_⟩
      show sentTo link (x.outputs ++ [.woke request]) = _
      rw [sentTo_append, hsilent rfl]
      rfl
  | complete request_id result =>
      cases hw : x.actor.waiters.get? request_id with
      | none =>
          simp only [Exec.executeEffect, hw]
          refine ⟨trivial, hx, rfl, rfl, rfl, fun link => ?_⟩
          rw [hsilent rfl, List.append_nil]
      | some response =>
          simp only [Exec.executeEffect, hw]
          refine ⟨trivial, hx, rfl, rfl, rfl, fun link => ?_⟩
          show sentTo link (x.outputs ++ [.answered response result]) = _
          rw [sentTo_append, hsilent rfl]
          rfl

theorem batch_delivered (now : Instant) {x : Exec} (hx : x.sends = none) {effects : List Effect}
    (hlinked : ∀ e ∈ effects, ∀ session_id, dispatchSession e = some session_id →
      x.actor.remote.map Prod.fst = some session_id) :
    (batch (Exec.executeEffect now) x effects).2 = [] ∧
      Delivered x effects (batch (Exec.executeEffect now) x effects).1 := by
  induction effects generalizing x with
  | nil =>
      refine ⟨rfl, hx, rfl, rfl, rfl, fun link => ?_⟩
      have hnone : heardOn x.actor.remote link [] = [] := by
        cases x.actor.remote with
        | none => rfl
        | some r => simp [heardOn]
      rw [hnone, List.append_nil]
      rfl
  | cons e rest ih =>
      obtain ⟨hpushed, hfirst⟩ := executeEffect_delivered now hx (hlinked e (List.mem_cons_self ..))
      have hrest := ih hfirst.sends (fun d hd session_id hs => by
        rw [hfirst.remote]
        exact hlinked d (List.mem_cons_of_mem _ hd) session_id hs)
      obtain ⟨hnone, hdelivered⟩ := hrest
      constructor
      · show (x.executeEffect now e).2 ++ _ = []
        rw [hpushed, hnone]
        rfl
      · refine ⟨hdelivered.sends, hdelivered.state.trans hfirst.state,
          hdelivered.remote.trans hfirst.remote, hdelivered.calls.trans hfirst.calls,
          fun link => ?_⟩
        show sentTo link (batch _ (x.executeEffect now e).1 rest).1.outputs
          = sentTo link x.outputs ++ heardOn x.actor.remote link ([e] ++ rest)
        rw [hdelivered.sent, hfirst.sent, hfirst.remote, heardOn_append, List.append_assoc]

theorem execute_delivered (now : Instant) {x : Exec} (hx : x.sends = none)
    {effects : List Effect}
    (hlinked : ∀ e ∈ effects, ∀ session_id, dispatchSession e = some session_id →
      x.actor.remote.map Prod.fst = some session_id) :
    Delivered x effects (x.execute effects now) := by
  obtain ⟨hnone, hdelivered⟩ := batch_delivered now hx hlinked
  show Delivered x effects (rounds _ 2 (batch _ x effects).1 (batch _ x effects).2).1
  rw [hnone]
  exact hdelivered

/-- What a turn of the broker announces while the receivers of its channels are
    there. -/
inductive Announced (b : Broker) (t : Turn) (b' : Broker) (outputs : List Output) : Prop where
  | silent : eventFor b t = none → b'.actor.state = b.actor.state →
      b'.actor.remote = b.actor.remote → (∀ link, sentTo link outputs = []) →
      Announced b t b' outputs
  | applied {event effects} : eventFor b t = some event →
      b.actor.state.apply event t.now = (b'.actor.state, .ok effects) →
      b'.actor.remote.map Prod.fst = b'.actor.state.agent.session →
      (∀ link, sentTo link outputs = heardOn b'.actor.remote link effects) →
      Announced b t b' outputs

/-- The dispatches of a call go to the session that the model then has. -/
theorem linked_of_session {s s' : BrokerState} {event : Event} {now : Instant}
    {effects : List Effect} (hap : s.apply event now = (s', .ok effects))
    {remote : Option (SessionId × ChannelId)} (hlinked : remote.map Prod.fst = s'.agent.session) :
    ∀ e ∈ effects, ∀ session_id, dispatchSession e = some session_id →
      remote.map Prod.fst = some session_id :=
  fun _ he _ hd => hlinked.trans (apply_dispatchSession hap he hd)

theorem Delivered.announced {b b' : Broker} {t : Turn} {x y : Exec} {event : Event}
    {effects : List Effect} (h : Delivered x effects y) (he : eventFor b t = some event)
    (hap : b.actor.state.apply event t.now = (x.actor.state, .ok effects))
    (hlinked : x.actor.remote.map Prod.fst = x.actor.state.agent.session)
    (hout : ∀ link, sentTo link x.outputs = []) (hb' : b'.actor = y.actor) :
    Announced b t b' y.outputs := by
  have hstate : b.actor.state.apply event t.now = (b'.actor.state, .ok effects) := by
    rw [hb', h.state]
    exact hap
  refine .applied he hstate ?_ ?_
  · rw [hb', h.remote, h.state]
    exact hlinked
  · intro link
    rw [h.sent, hb', h.remote, hout, List.nil_append]

/-- A call for any event but a connect, on an actor that is linked. -/
theorem apply_announced {b b' : Broker} {t : Turn} {x : Exec} {event : Event}
    (hx : x.sends = none) (hout : ∀ link, sentTo link x.outputs = [])
    (hstate : x.actor.state = b.actor.state)
    (hlinked : x.actor.remote.map Prod.fst = sessionAfter x.actor.state.agent.session event)
    (hev : ∀ session_id capacity, event ≠ .connected session_id capacity)
    (he : eventFor b t = some event) (hb' : b'.actor = (x.apply event t.now).actor) :
    Announced b t b' (x.apply event t.now).outputs := by
  cases hres : (x.actor.state.apply event t.now).2 with
  | error e =>
      obtain ⟨_, hh⟩ := apply_error (Prod.ext rfl hres)
      obtain ⟨session_id, capacity, heq, _⟩ := handle_error hh
      exact absurd heq (hev session_id capacity)
  | ok effects =>
      have hap : x.actor.state.apply event t.now
          = ((x.actor.state.apply event t.now).1, .ok effects) := Prod.ext rfl hres
      simp only [Exec.apply, BrokerActor.call, hres] at hb' ⊢
      rw [← apply_session hap] at hlinked
      refine Delivered.announced (execute_delivered t.now ?_ ?_) he ?_ ?_ ?_ hb'
      · exact hx
      · exact linked_of_session hap hlinked
      · rw [← hstate]
        exact hap
      · exact hlinked
      · exact hout

theorem stop_silent (x : Exec) (hout : ∀ link, sentTo link x.outputs = []) (link : LinkId) :
    sentTo link x.stop.outputs = [] := by
  have hnone : sentTo link (x.actor.waiters.values.map
      (fun response => Output.answered response (.error .unavailable))) = [] := by
    rw [sentTo, List.filterMap_map]
    exact List.filterMap_eq_nil_iff.mpr (fun _ _ => rfl)
  rw [Exec.stop, sentTo_append, hout, hnone]
  rfl

/-- A refused connect is recorded. -/
theorem refusal_recorded {b : Broker} {sends : Option Nat} {now : Instant} {capacity : Nat}
    {outbound : ChannelId} {response : ResponseId} {session_id : SessionId} {e : ModelError}
    (hres : (b.actor.state.apply (.connected session_id capacity) now).2 = .error e) :
    ¬ AllOk ((b.exec sends).handle session_id now
      (.connect capacity outbound response)).1.actor.calls := by
  intro hok
  have hcall : (⟨.connected session_id capacity, now, .error e⟩ : Call)
      ∈ ((b.exec sends).handle session_id now
        (.connect capacity outbound response)).1.actor.calls := by
    simp only [Exec.handle, Broker.exec, BrokerActor.call, hres]
    exact List.mem_append_right _ (List.mem_singleton.mpr rfl)
  cases hok _ hcall

/-- While no connect is refused, a connect finds no session. -/
theorem connect_accepted {b b' : Broker} {t : Turn} {outputs : List Output}
    (hb : b.step t = some (b', outputs)) (hok : AllOk b'.actor.calls) {capacity : Nat}
    {outbound : ChannelId} {response : ResponseId} {session_id : SessionId}
    (hin : t.input = .command (.connect capacity outbound response) session_id) :
    b.actor.state.agent = .disconnected := by
  by_contra hagent
  rcases apply_connected_result b.actor.state session_id capacity t.now with
    ⟨hd, _⟩ | ⟨_, hres⟩
  · exact hagent hd
  · rw [Broker.step] at hb
    split at hb
    · cases hb
    · simp only [hin] at hb
      obtain ⟨rfl, _⟩ := Prod.mk.inj (Option.some.inj hb)
      exact refusal_recorded hres hok

/-- A mailbox command, with no connect refused. -/
theorem handle_announced {b b' : Broker} {t : Turn} {command : Command} {session_id : SessionId}
    (h : Settled b.actor) (hin : t.input = .command command session_id)
    (hsends : t.sends = none)
    (hb' : b'.actor = ((b.exec t.sends).handle session_id t.now command).1.actor)
    (hok : AllOk b'.actor.calls) :
    Announced b t b' ((b.exec t.sends).handle session_id t.now command).1.outputs := by
  have hnone : ∀ link, sentTo link (b.exec t.sends).outputs = [] := fun _ => rfl
  cases command with
  | ready active =>
      exact apply_announced hsends hnone rfl h.linked (by rintro _ _ ⟨⟩) (by rw [eventFor, hin]) hb'
  | locked active =>
      exact apply_announced hsends hnone rfl h.linked (by rintro _ _ ⟨⟩) (by rw [eventFor, hin]) hb'
  | response active request_id attempt packet =>
      exact apply_announced hsends hnone rfl h.linked (by rintro _ _ ⟨⟩) (by rw [eventFor, hin]) hb'
  | disconnected active =>
      exact apply_announced hsends hnone rfl (linked_disconnect h.linked active) (by rintro _ _ ⟨⟩)
        (by rw [eventFor, hin]) hb'
  | shutdown response =>
      refine .silent (by rw [eventFor, hin]) ?_ ?_ ?_
      · rw [hb']
        rfl
      · rw [hb']
        rfl
      · intro link
        show sentTo link ((b.exec t.sends).stop.outputs ++ [.stopped response]) = []
        rw [sentTo_append, stop_silent _ hnone]
        rfl
  | connect capacity outbound response =>
      cases hres : (b.actor.state.apply (.connected session_id capacity) t.now).2 with
      | error e =>
          rw [hb'] at hok
          exact absurd hok (refusal_recorded hres)
      | ok effects =>
          have hap : b.actor.state.apply (.connected session_id capacity) t.now
              = ((b.actor.state.apply (.connected session_id capacity) t.now).1, .ok effects) :=
            Prod.ext rfl hres
          simp only [Exec.handle, Broker.exec, BrokerActor.call, hres] at hb' ⊢
          refine Delivered.announced (execute_delivered t.now ?_ ?_)
            (by rw [eventFor, hin]) ?_ ?_ ?_ hb'
          · exact hsends
          · exact linked_of_session hap (apply_session hap).symm
          · exact hap
          · exact (apply_session hap).symm
          · exact fun _ => rfl

/-- **A turn announces what its call changes**, in order, while the receiver of
    the channel is there and no connect is refused. -/
theorem step_announced {b b' : Broker} {t : Turn} {outputs : List Output}
    (h : Settled b.actor) (hb : b.step t = some (b', outputs)) (hok : AllOk b'.actor.calls)
    (hsends : t.sends = none) : Announced b t b' outputs := by
  have hnone : ∀ link, sentTo link (b.exec t.sends).outputs = [] := fun _ => rfl
  rw [Broker.step] at hb
  split at hb
  · cases hb
  · cases hin : t.input with
    | localRequest request request_id requested_at =>
        simp only [hin] at hb
        split at hb
        · obtain ⟨rfl, rfl⟩ := Prod.mk.inj (Option.some.inj hb)
          exact apply_announced hsends (fun _ => rfl) rfl h.linked (by rintro _ _ ⟨⟩)
            (by rw [eventFor, hin]; rfl) rfl
        · cases hb
    | localClosed =>
        simp only [hin] at hb
        split at hb
        · obtain ⟨rfl, rfl⟩ := Prod.mk.inj (Option.some.inj hb)
          exact .silent (by rw [eventFor, hin]) rfl rfl (fun _ => rfl)
        · cases hb
    | cancelled request_id =>
        simp only [hin] at hb
        obtain ⟨rfl, rfl⟩ := Prod.mk.inj (Option.some.inj hb)
        exact apply_announced hsends hnone rfl h.linked (by rintro _ _ ⟨⟩) (by rw [eventFor, hin]) rfl
    | command command session_id =>
        simp only [hin] at hb
        obtain ⟨rfl, rfl⟩ := Prod.mk.inj (Option.some.inj hb)
        exact handle_announced h hin hsends rfl hok
    | commandsClosed =>
        simp only [hin] at hb
        obtain ⟨rfl, rfl⟩ := Prod.mk.inj (Option.some.inj hb)
        exact .silent (by rw [eventFor, hin]) rfl rfl (stop_silent _ hnone)
    | deadline =>
        simp only [hin] at hb
        split at hb
        · obtain ⟨rfl, rfl⟩ := Prod.mk.inj (Option.some.inj hb)
          exact apply_announced hsends hnone rfl h.linked (by rintro _ _ ⟨⟩) (by rw [eventFor, hin]) rfl
        · cases hb

end BrokerChannel
