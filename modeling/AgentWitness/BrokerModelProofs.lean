import AgentWitness.PacketProofs
import Mathlib.Data.List.Sort

/-! # The broker state machine

    `broker/model.rs`: queued and in-flight requests, the single remote agent,
    and the one function `apply` that turns an event into effects.  `apply`
    first expires overdue work, then changes the facts, then reconciles; it
    mutates the state in place, so the state after the call is returned next to
    the result, also when the result is an error.

    `u64` and `u32` counters are Lean's fixed-width types, whose addition wraps
    as release builds do.  `sort_by_key` is the stable insertion sort. -/

namespace BrokerModel

open Packet KeyedMap

/-- Availability facts for the single remote agent. -/
inductive RemoteAgentState where
  | disconnected
  | locked (session_id : SessionId) (capacity : Nat)
  | ready (session_id : SessionId) (capacity : Nat)
  deriving DecidableEq, Repr

/-- The session bound to the agent, if any. -/
def RemoteAgentState.session : RemoteAgentState → Option SessionId
  | .disconnected => none
  | .locked session_id _ => some session_id
  | .ready session_id _ => some session_id

/-- Where a pending request stands. -/
inductive PendingState where
  | queued
  | inFlight (session_id : SessionId) (attempt : UInt32)
  deriving DecidableEq, Repr

/-- One admitted request. -/
structure PendingRequest where
  packet : Bytes
  context : Option RequestContext
  deadline : Instant
  requested_at : UInt64
  deadline_timestamp : UInt64
  sequence : UInt64
  attempt : UInt32
  state : PendingState
  deriving DecidableEq, Repr

/-- Facts that can change broker state. -/
inductive Event where
  | submit (request_id : RequestId) (packet : Bytes) (context : Option RequestContext)
      (deadline : Instant) (requested_at deadline_timestamp : UInt64)
  | connected (session_id : SessionId) (capacity : Nat)
  | ready (session_id : SessionId)
  | locked (session_id : SessionId)
  | disconnected (session_id : SessionId)
  | response (session_id : SessionId) (request_id : RequestId) (attempt : UInt32)
      (packet : Bytes)
  | cancelled (request_id : RequestId)
  | tick
  deriving DecidableEq, Repr

/-- Side effects produced by reconciliation and executed by the actor. -/
inductive Effect where
  | dispatch (session_id : SessionId) (request_id : RequestId) (attempt : UInt32)
      (requested_at deadline : UInt64) (packet : Bytes) (context : Option RequestContext)
  | cancel (session_id : SessionId) (request_id : RequestId) (attempt : UInt32)
  | wakeRequired (request : WakeRequest)
  | complete (request_id : RequestId) (result : Except RequestError Bytes)
  deriving DecidableEq

/-- Why `apply` refused an event. -/
inductive ModelError where
  | remoteAlreadyConnected
  deriving DecidableEq, Repr

/-- Pure request state and reconciliation rules. -/
structure BrokerState where
  agent : RemoteAgentState
  /-- Authoritative set of all queued and in-flight requests. -/
  pending : Map RequestId PendingRequest
  /-- FIFO subset of pending requests that have not been dispatched. -/
  queue : List RequestId
  max_pending_requests : Nat
  next_sequence : UInt64
  wake_announced : Bool
  deriving DecidableEq

/-- The broker before any event. -/
def BrokerState.new (max_pending_requests : Nat) : BrokerState where
  agent := .disconnected
  pending := .empty
  queue := []
  max_pending_requests := max_pending_requests
  next_sequence := 0
  wake_announced := false

/-- The earliest deadline among pending requests. -/
def BrokerState.next_deadline (s : BrokerState) : Option Instant :=
  (s.pending.values.map PendingRequest.deadline).min?

/-- `sort_by_key(|(_, sequence)| *sequence)`. -/
def sortBySequence (l : List (RequestId × UInt64)) : List (RequestId × UInt64) :=
  l.insertionSort (fun a b => a.2 ≤ b.2)

/-- The effects of dropping one request: stop remote work that is in flight,
    then answer the caller. -/
def dropEffects (request_id : RequestId) (p : PendingRequest) (error : RequestError) :
    List Effect :=
  (match p.state with
    | .inFlight session_id attempt => [.cancel session_id request_id attempt]
    | .queued => [])
  ++ [.complete request_id (.error error)]

/-- Remove the collected requests one by one, gathering their effects. -/
def removeExpired (pending : Map RequestId PendingRequest) :
    List RequestId → Map RequestId PendingRequest × List Effect
  | [] => (pending, [])
  | request_id :: rest =>
      match pending.get? request_id with
      | none => removeExpired pending rest
      | some p =>
          let r := removeExpired (pending.erase request_id) rest
          (r.1, dropEffects request_id p .timedOut ++ r.2)

/-- The overdue requests with their sequence numbers, in sequence order. -/
def BrokerState.overdue (s : BrokerState) (now : Instant) : List (RequestId × UInt64) :=
  sortBySequence ((s.pending.entries.filter (fun e => e.2.deadline ≤ now)).map
    (fun e => (e.1, e.2.sequence)))

/-- Remove every expired request before considering new dispatches. -/
def BrokerState.expire (s : BrokerState) (now : Instant) : BrokerState × List Effect :=
  let expired_ids := (s.overdue now).map Prod.fst
  let r := removeExpired s.pending expired_ids
  ({ s with pending := r.1, queue := s.queue.filter (fun id => id ∉ expired_ids) }, r.2)

/-- The connected session and its capacity. -/
def BrokerState.connected_remote (s : BrokerState) : Option (SessionId × Nat) :=
  match s.agent with
  | .disconnected => none
  | .locked session_id capacity => some (session_id, capacity)
  | .ready session_id capacity => some (session_id, capacity)

/-- Whether a request is in flight to a session. -/
def PendingRequest.inFlightFor (p : PendingRequest) (session_id : SessionId) : Bool :=
  match p.state with
  | .inFlight active _ => active = session_id
  | .queued => false

/-- How many requests are in flight to a session. -/
def BrokerState.in_flight_for (s : BrokerState) (session_id : SessionId) : Nat :=
  s.pending.count (fun e => e.2.inFlightFor session_id)

/-- A request as its next dispatch leaves it. -/
def PendingRequest.dispatched (p : PendingRequest) (session_id : SessionId) :
    PendingRequest :=
  { p with attempt := p.attempt + 1, state := .inFlight session_id (p.attempt + 1) }

/-- The dispatch effect for a request that has just been marked in flight. -/
def PendingRequest.dispatchEffect (p : PendingRequest) (session_id : SessionId)
    (request_id : RequestId) : Effect :=
  .dispatch session_id request_id p.attempt p.requested_at p.deadline_timestamp
    p.packet p.context

/-- The loop of `reconcile`: pop the queue while the session has capacity. -/
def dispatchLoop (session_id : SessionId) (capacity : Nat) :
    List RequestId → Map RequestId PendingRequest → Nat →
      Map RequestId PendingRequest × List RequestId × List Effect
  | [], pending, _ => (pending, [], [])
  | request_id :: rest, pending, in_flight =>
      if in_flight < capacity then
        match pending.get? request_id with
        | none => dispatchLoop session_id capacity rest pending in_flight
        | some p =>
            let p' := p.dispatched session_id
            let r := dispatchLoop session_id capacity rest
              (pending.insert request_id p') (in_flight + 1)
            (r.1, r.2.1, p'.dispatchEffect session_id request_id :: r.2.2)
      else (pending, request_id :: rest, [])

/-- Dispatch queued requests to the connected worker, if there is one. -/
def BrokerState.dispatchQueued (s : BrokerState) : BrokerState × List Effect :=
  match s.connected_remote with
  | none => (s, [])
  | some (session_id, capacity) =>
      let r := dispatchLoop session_id capacity s.queue s.pending
        (s.in_flight_for session_id)
      ({ s with pending := r.1, queue := r.2.1 }, r.2.2)

/-- `filter(|reason| seen.insert(*reason))`: first occurrences, in order. -/
def distinctReasons (seen : List String) : List String → List String
  | [] => []
  | reason :: rest =>
      if reason ∈ seen then distinctReasons seen rest
      else reason :: distinctReasons (reason :: seen) rest

/-- The distinct reasons of the queued requests' contexts. -/
def BrokerState.wakeReasons (s : BrokerState) : List String :=
  distinctReasons [] (s.queue.filterMap
    (fun id => ((s.pending.get? id).bind PendingRequest.context).map RequestContext.reason))

/-- Announce that an offline worker is needed, once per batch of new work. -/
def BrokerState.announceWake (s : BrokerState) : BrokerState × List Effect :=
  if s.queue.isEmpty || s.agent.session.isSome then
    ({ s with wake_announced := false }, [])
  else if !s.wake_announced then
    ({ s with wake_announced := true }, [.wakeRequired ⟨s.wakeReasons⟩])
  else (s, [])

/-- Dispatch to any connected worker, or announce that an offline worker is
    needed. -/
def BrokerState.reconcile (s : BrokerState) : BrokerState × List Effect :=
  let d := s.dispatchQueued
  let w := d.1.announceWake
  (w.1, d.2 ++ w.2)

/-- A request as losing its session leaves it. -/
def PendingRequest.requeued (session_id : SessionId) (p : PendingRequest) :
    PendingRequest :=
  if p.inFlightFor session_id then { p with state := .queued } else p

/-- Return one session's unfinished work to the front of the FIFO queue. -/
def BrokerState.requeue_session (s : BrokerState) (session_id : SessionId) : BrokerState :=
  let requeued := sortBySequence ((s.pending.entries.filter
    (fun e => e.2.inFlightFor session_id)).map (fun e => (e.1, e.2.sequence)))
  { s with
    pending := s.pending.mapValues (fun _ p => p.requeued session_id)
    queue := requeued.map Prod.fst ++ s.queue }

/-- The event's own change of the facts, after expiry and before
    reconciliation. -/
def BrokerState.handle (s : BrokerState) :
    Event → Except ModelError (BrokerState × List Effect)
  | .submit request_id packet context deadline requested_at deadline_timestamp =>
      if s.pending.len ≥ s.max_pending_requests then
        .ok (s, [.complete request_id (.error .queueFull)])
      else
        .ok ({ s with
          next_sequence := s.next_sequence + 1
          pending := s.pending.insert request_id
            { packet, context, deadline, requested_at, deadline_timestamp
              sequence := s.next_sequence, attempt := 0, state := .queued }
          queue := s.queue ++ [request_id]
          -- New work should remind the user even when its reason is unchanged.
          wake_announced := false }, [])
  | .connected session_id capacity =>
      if s.agent ≠ .disconnected then .error .remoteAlreadyConnected
      else .ok ({ s with agent := .locked session_id capacity, wake_announced := false }, [])
  | .ready session_id =>
      match s.agent with
      | .locked active capacity | .ready active capacity =>
          if active = session_id then .ok ({ s with agent := .ready session_id capacity }, [])
          else .ok (s, [])
      | .disconnected => .ok (s, [])
  | .locked session_id =>
      match s.agent with
      | .locked active capacity | .ready active capacity =>
          if active = session_id then .ok ({ s with agent := .locked session_id capacity }, [])
          else .ok (s, [])
      | .disconnected => .ok (s, [])
  | .disconnected session_id =>
      if s.agent.session = some session_id then
        .ok ({ s.requeue_session session_id with
          agent := .disconnected, wake_announced := false }, [])
      else .ok (s, [])
  | .response session_id request_id attempt packet =>
      match s.pending.get? request_id with
      | some p =>
          if p.state = .inFlight session_id attempt then
            .ok ({ s with pending := s.pending.erase request_id },
              [.complete request_id (.ok packet)])
          else .ok (s, [])
      | none => .ok (s, [])
  | .cancelled request_id =>
      match s.pending.get? request_id with
      | some p =>
          .ok ({ s with
            pending := s.pending.erase request_id
            queue := s.queue.filter (fun queued => queued ≠ request_id) },
            dropEffects request_id p .cancelled)
      | none => .ok (s, [])
  | .tick => .ok (s, [])

/-- Apply one fact change, expire overdue work, then reconcile all gates.  An
    early return leaves the expiry in the state and its effects behind. -/
def BrokerState.apply (s : BrokerState) (event : Event) (now : Instant) :
    BrokerState × Except ModelError (List Effect) :=
  let x := s.expire now
  match x.1.handle event with
  | .error e => (x.1, .error e)
  | .ok (t, effects) =>
      let r := t.reconcile
      (r.1, .ok (x.2 ++ effects ++ r.2))

/-! ## Sorting by sequence only permutes -/

theorem sortBySequence_perm (l : List (RequestId × UInt64)) :
    (sortBySequence l).Perm l :=
  List.perm_insertionSort _ l

/-- Selecting entries by their value, numbering and sorting them keeps exactly
    the selected keys. -/
theorem mem_sorted_ids (m : Map RequestId PendingRequest) (f : PendingRequest → Bool)
    (id : RequestId) :
    id ∈ (sortBySequence ((m.entries.filter (fun e => f e.2)).map
        (fun e => (e.1, e.2.sequence)))).map Prod.fst
      ↔ ∃ p, m.get? id = some p ∧ f p = true := by
  rw [((sortBySequence_perm _).map Prod.fst).mem_iff, List.map_map]
  constructor
  · intro h
    obtain ⟨⟨k, p⟩, he, rfl⟩ := List.mem_map.mp h
    obtain ⟨hm, hf⟩ := List.mem_filter.mp he
    exact ⟨p, (mem_entries_iff m k p).mp hm, hf⟩
  · rintro ⟨p, hp, hf⟩
    refine List.mem_map.mpr ⟨(id, p), List.mem_filter.mpr ⟨?_, hf⟩, rfl⟩
    exact (mem_entries_iff m id p).mpr hp

theorem sorted_ids_nodup (m : Map RequestId PendingRequest) (f : PendingRequest → Bool) :
    ((sortBySequence ((m.entries.filter (fun e => f e.2)).map
        (fun e => (e.1, e.2.sequence)))).map Prod.fst).Nodup := by
  rw [((sortBySequence_perm _).map Prod.fst).nodup_iff, List.map_map]
  exact (List.Sublist.map Prod.fst List.filter_sublist).nodup m.nodup

theorem mem_overdue (s : BrokerState) (now : Instant) (id : RequestId) :
    id ∈ (s.overdue now).map Prod.fst
      ↔ ∃ p, s.pending.get? id = some p ∧ p.deadline ≤ now := by
  have h := mem_sorted_ids s.pending (fun p => p.deadline ≤ now) id
  simpa only [BrokerState.overdue, decide_eq_true_eq] using h

theorem overdue_nodup (s : BrokerState) (now : Instant) :
    ((s.overdue now).map Prod.fst).Nodup :=
  sorted_ids_nodup s.pending (fun p => p.deadline ≤ now)

/-! ## Expiry -/

theorem removeExpired_get? (ids : List RequestId) (m : Map RequestId PendingRequest)
    (id : RequestId) :
    (removeExpired m ids).1.get? id = if id ∈ ids then none else m.get? id := by
  induction ids generalizing m with
  | nil => simp [removeExpired]
  | cons hd tl ih =>
      cases hm : m.get? hd with
      | none =>
          simp only [removeExpired, hm, ih, List.mem_cons]
          by_cases h : id = hd
          · subst h; simp [hm]
          · simp [h]
      | some p =>
          simp only [removeExpired, hm, ih, List.mem_cons, get?_erase]
          by_cases h : id = hd
          · simp [h]
          · simp [h]

/-- The effects of expiry are those of dropping each request, in the order in
    which they were collected. -/
theorem removeExpired_effects {ids : List RequestId} {m : Map RequestId PendingRequest}
    (hn : ids.Nodup) :
    (removeExpired m ids).2 = ids.flatMap (fun id =>
      match m.get? id with
      | none => []
      | some p => dropEffects id p .timedOut) := by
  induction ids generalizing m with
  | nil => rfl
  | cons hd tl ih =>
      obtain ⟨hnot, hn'⟩ := List.nodup_cons.mp hn
      cases hm : m.get? hd with
      | none => simp only [removeExpired, hm, ih hn', List.flatMap_cons, List.nil_append]
      | some p =>
          simp only [removeExpired, hm, ih hn', List.flatMap_cons]
          congr 1
          apply List.flatMap_congr
          intro id hid
          have hne : id ≠ hd := by rintro rfl; exact hnot hid
          rw [get?_erase_of_ne m hne]

theorem removeExpired_len_le (ids : List RequestId) (m : Map RequestId PendingRequest) :
    (removeExpired m ids).1.len ≤ m.len := by
  induction ids generalizing m with
  | nil => exact Nat.le_refl _
  | cons hd tl ih =>
      cases hm : m.get? hd with
      | none => simp only [removeExpired, hm]; exact ih m
      | some p =>
          simp only [removeExpired, hm]
          exact Nat.le_trans (ih _) (len_filter_le m _)

theorem removeExpired_count_le (ids : List RequestId) (m : Map RequestId PendingRequest)
    (f : RequestId × PendingRequest → Bool) :
    (removeExpired m ids).1.count f ≤ m.count f := by
  induction ids generalizing m with
  | nil => exact Nat.le_refl _
  | cons hd tl ih =>
      cases hm : m.get? hd with
      | none => simp only [removeExpired, hm]; exact ih m
      | some p =>
          simp only [removeExpired, hm]
          exact Nat.le_trans (ih _) (count_filter_le m _ f)

@[simp] theorem expire_agent (s : BrokerState) (now : Instant) :
    (s.expire now).1.agent = s.agent := rfl
@[simp] theorem expire_max (s : BrokerState) (now : Instant) :
    (s.expire now).1.max_pending_requests = s.max_pending_requests := rfl

/-- After expiry exactly the requests with a later deadline are left. -/
theorem expire_get? (s : BrokerState) (now : Instant) (id : RequestId) :
    (s.expire now).1.pending.get? id
      = (s.pending.get? id).filter (fun p => now < p.deadline) := by
  show (removeExpired s.pending ((s.overdue now).map Prod.fst)).1.get? id = _
  rw [removeExpired_get?]
  cases hp : s.pending.get? id with
  | none => simp
  | some p =>
      by_cases hd : p.deadline ≤ now
      · have hin : id ∈ (s.overdue now).map Prod.fst :=
          (mem_overdue s now id).mpr ⟨p, hp, hd⟩
        rw [if_pos hin]
        simp [Option.filter, hd]
      · have hout : id ∉ (s.overdue now).map Prod.fst := by
          intro hin
          obtain ⟨q, hq, hle⟩ := (mem_overdue s now id).mp hin
          obtain rfl := Option.some.inj (hp.symm.trans hq)
          exact hd hle
        rw [if_neg hout]
        simp [Option.filter, Nat.lt_of_not_le hd]

theorem expire_get?_some {s : BrokerState} {now : Instant} {id : RequestId}
    {p : PendingRequest} :
    (s.expire now).1.pending.get? id = some p
      ↔ s.pending.get? id = some p ∧ now < p.deadline := by
  rw [expire_get?, Option.filter_eq_some_iff]
  simp

theorem mem_expire_queue {s : BrokerState} {now : Instant} {id : RequestId} :
    id ∈ (s.expire now).1.queue
      ↔ id ∈ s.queue ∧ ∀ p, s.pending.get? id = some p → now < p.deadline := by
  show id ∈ s.queue.filter (fun id => id ∉ (s.overdue now).map Prod.fst) ↔ _
  rw [List.mem_filter, decide_eq_true_eq, mem_overdue]
  constructor
  · rintro ⟨hq, hnot⟩
    refine ⟨hq, fun p hp => ?_⟩
    by_contra hd
    exact hnot ⟨p, hp, Nat.le_of_not_lt hd⟩
  · rintro ⟨hq, hall⟩
    refine ⟨hq, ?_⟩
    rintro ⟨p, hp, hle⟩
    exact Nat.not_lt.mpr hle (hall p hp)

/-- The effects of expiry, request by request in sequence order. -/
theorem expire_effects (s : BrokerState) (now : Instant) :
    (s.expire now).2 = ((s.overdue now).map Prod.fst).flatMap (fun id =>
      match s.pending.get? id with
      | none => []
      | some p => dropEffects id p .timedOut) :=
  removeExpired_effects (overdue_nodup s now)

/-- Expiry with nothing overdue changes nothing. -/
theorem expire_of_none_overdue {s : BrokerState} {now : Instant}
    (h : ∀ id p, s.pending.get? id = some p → now < p.deadline) :
    s.expire now = (s, []) := by
  have hnil : (s.overdue now).map Prod.fst = [] := by
    rw [List.eq_nil_iff_forall_not_mem]
    intro id hid
    obtain ⟨p, hp, hle⟩ := (mem_overdue s now id).mp hid
    exact Nat.not_lt.mpr hle (h id p hp)
  simp [BrokerState.expire, hnil, removeExpired]

/-! ## The dispatch loop -/

section DispatchLoop

variable {session_id : SessionId} {capacity : Nat}

theorem dispatchLoop_full {q : List RequestId} {m : Map RequestId PendingRequest} {n : Nat}
    (h : ¬ n < capacity) : dispatchLoop session_id capacity q m n = (m, q, []) := by
  cases q with
  | nil => rfl
  | cons hd tl => rw [dispatchLoop, if_neg h]

theorem dispatchLoop_cons {hd : RequestId} {tl : List RequestId}
    {m : Map RequestId PendingRequest} {n : Nat} {p : PendingRequest}
    (h : n < capacity) (hp : m.get? hd = some p) :
    dispatchLoop session_id capacity (hd :: tl) m n
      = ((dispatchLoop session_id capacity tl (m.insert hd (p.dispatched session_id)) (n + 1)).1,
         (dispatchLoop session_id capacity tl (m.insert hd (p.dispatched session_id)) (n + 1)).2.1,
         (p.dispatched session_id).dispatchEffect session_id hd ::
         (dispatchLoop session_id capacity tl (m.insert hd (p.dispatched session_id)) (n + 1)).2.2) := by
  rw [dispatchLoop, if_pos h, hp]

/-- With capacity left, the loop dispatches one element more than it does from
    the next counter value on. -/
theorem take_capacity_cons {hd : RequestId} {tl : List RequestId} {n : Nat}
    (h : n < capacity) :
    (hd :: tl).take (capacity - n) = hd :: tl.take (capacity - (n + 1)) := by
  rw [show capacity - n = (capacity - (n + 1)) + 1 by omega, List.take_succ_cons]

theorem dispatchLoop_queue {q : List RequestId} {m : Map RequestId PendingRequest} {n : Nat}
    (hp : ∀ id ∈ q, ∃ p, m.get? id = some p) :
    (dispatchLoop session_id capacity q m n).2.1 = q.drop (capacity - n) := by
  induction q generalizing m n with
  | nil => simp [dispatchLoop]
  | cons hd tl ih =>
      by_cases h : n < capacity
      · obtain ⟨p, hm⟩ := hp hd List.mem_cons_self
        rw [dispatchLoop_cons h hm]
        show (dispatchLoop session_id capacity tl _ (n + 1)).2.1 = _
        rw [ih, show capacity - n = (capacity - (n + 1)) + 1 by omega, List.drop_succ_cons]
        intro id hid
        rw [get?_insert]
        by_cases he : id = hd
        · exact ⟨_, if_pos he⟩
        · rw [if_neg he]; exact hp id (List.mem_cons_of_mem _ hid)
      · rw [dispatchLoop_full h, show capacity - n = 0 by omega, List.drop_zero]

theorem dispatchLoop_get? {q : List RequestId} {m : Map RequestId PendingRequest} {n : Nat}
    (hn : q.Nodup) (hp : ∀ id ∈ q, ∃ p, m.get? id = some p) (id : RequestId) :
    (dispatchLoop session_id capacity q m n).1.get? id
      = if id ∈ q.take (capacity - n)
        then (m.get? id).map (fun p => p.dispatched session_id) else m.get? id := by
  induction q generalizing m n with
  | nil => simp [dispatchLoop]
  | cons hd tl ih =>
      by_cases h : n < capacity
      · obtain ⟨p, hm⟩ := hp hd List.mem_cons_self
        obtain ⟨hnot, hn'⟩ := List.nodup_cons.mp hn
        rw [dispatchLoop_cons h hm]
        show (dispatchLoop session_id capacity tl _ (n + 1)).1.get? id = _
        have hp' : ∀ j ∈ tl, ∃ p', (m.insert hd (p.dispatched session_id)).get? j = some p' := by
          intro j hj
          have hne : j ≠ hd := by rintro rfl; exact hnot hj
          rw [get?_insert_of_ne m _ hne]
          exact hp j (List.mem_cons_of_mem _ hj)
        rw [ih hn' hp', take_capacity_cons h, get?_insert]
        by_cases he : id = hd
        · subst he
          have hout : id ∉ tl.take (capacity - (n + 1)) := fun hin =>
            hnot (List.mem_of_mem_take hin)
          simp [hout, hm]
        · simp [he]
      · rw [dispatchLoop_full h, show capacity - n = 0 by omega]
        simp

theorem dispatchLoop_effects {q : List RequestId} {m : Map RequestId PendingRequest} {n : Nat}
    (hn : q.Nodup) (hp : ∀ id ∈ q, ∃ p, m.get? id = some p) :
    (dispatchLoop session_id capacity q m n).2.2
      = (q.take (capacity - n)).filterMap (fun id => (m.get? id).map
          (fun p => (p.dispatched session_id).dispatchEffect session_id id)) := by
  induction q generalizing m n with
  | nil => simp [dispatchLoop]
  | cons hd tl ih =>
      by_cases h : n < capacity
      · obtain ⟨p, hm⟩ := hp hd List.mem_cons_self
        obtain ⟨hnot, hn'⟩ := List.nodup_cons.mp hn
        have hframe : ∀ j ∈ tl, (m.insert hd (p.dispatched session_id)).get? j = m.get? j := by
          intro j hj
          have hne : j ≠ hd := by rintro rfl; exact hnot hj
          exact get?_insert_of_ne m _ hne
        rw [dispatchLoop_cons h hm, take_capacity_cons h]
        show _ :: (dispatchLoop session_id capacity tl _ (n + 1)).2.2 = _
        rw [ih hn' (fun j hj => by
          rw [hframe j hj]; exact hp j (List.mem_cons_of_mem _ hj))]
        rw [List.filterMap_cons_some (b := (p.dispatched session_id).dispatchEffect session_id hd)
          (by rw [hm]; rfl)]
        congr 1
        apply List.filterMap_congr
        intro j hj
        rw [hframe j (List.mem_of_mem_take hj)]
      · rw [dispatchLoop_full h, show capacity - n = 0 by omega]
        simp

theorem dispatchLoop_len {q : List RequestId} {m : Map RequestId PendingRequest} {n : Nat}
    (hp : ∀ id ∈ q, ∃ p, m.get? id = some p) :
    (dispatchLoop session_id capacity q m n).1.len = m.len := by
  induction q generalizing m n with
  | nil => rfl
  | cons hd tl ih =>
      by_cases h : n < capacity
      · obtain ⟨p, hm⟩ := hp hd List.mem_cons_self
        rw [dispatchLoop_cons h hm]
        show (dispatchLoop session_id capacity tl _ (n + 1)).1.len = m.len
        rw [ih, len_insert_present m hm]
        intro id hid
        rw [get?_insert]
        by_cases he : id = hd
        · exact ⟨_, if_pos he⟩
        · rw [if_neg he]; exact hp id (List.mem_cons_of_mem _ hid)
      · rw [dispatchLoop_full h]

theorem inFlightFor_dispatched (p : PendingRequest) (session_id : SessionId) :
    (p.dispatched session_id).inFlightFor session_id = true := by
  simp [PendingRequest.dispatched, PendingRequest.inFlightFor]

/-- Each dispatched request was queued before, so the loop raises the in-flight
    count by exactly the number of dispatches. -/
theorem dispatchLoop_count {q : List RequestId} {m : Map RequestId PendingRequest} {n : Nat}
    (hn : q.Nodup) (hp : ∀ id ∈ q, ∃ p, m.get? id = some p ∧ p.state = .queued) :
    (dispatchLoop session_id capacity q m n).1.count (fun e => e.2.inFlightFor session_id)
      = m.count (fun e => e.2.inFlightFor session_id) + (q.take (capacity - n)).length := by
  induction q generalizing m n with
  | nil => simp [dispatchLoop]
  | cons hd tl ih =>
      by_cases h : n < capacity
      · obtain ⟨p, hm, hq⟩ := hp hd List.mem_cons_self
        obtain ⟨hnot, hn'⟩ := List.nodup_cons.mp hn
        have hstep := count_insert_present m (v := p.dispatched session_id)
          (fun e => e.2.inFlightFor session_id) hm
        have hbefore : p.inFlightFor session_id = false := by
          simp [PendingRequest.inFlightFor, hq]
        rw [dispatchLoop_cons h hm, take_capacity_cons h]
        show (dispatchLoop session_id capacity tl _ (n + 1)).1.count _ = _
        rw [ih hn' ?_]
        · simp only [hbefore, inFlightFor_dispatched] at hstep
          simp only [List.length_cons]
          simp at hstep
          omega
        · intro j hj
          have hne : j ≠ hd := by rintro rfl; exact hnot hj
          rw [get?_insert_of_ne m _ hne]
          exact hp j (List.mem_cons_of_mem _ hj)
      · rw [dispatchLoop_full h, show capacity - n = 0 by omega]
        simp

/-- **Invariant rule of the loop**: what one dispatch keeps the loop keeps, and each of
    its effects dispatches an entry that was pending on the way.  The queue may name a
    request twice, or one that is not pending. -/
theorem dispatchLoop_invariant {P : Map RequestId PendingRequest → Nat → Prop}
    (hstep : ∀ m n id p, P m n → n < capacity → m.get? id = some p →
      P (m.insert id (p.dispatched session_id)) (n + 1))
    {q : List RequestId} {m : Map RequestId PendingRequest} {n : Nat} (h : P m n) :
    (∃ n', P (dispatchLoop session_id capacity q m n).1 n') ∧
      ∀ e ∈ (dispatchLoop session_id capacity q m n).2.2, ∃ m' n' id p, P m' n' ∧
        m'.get? id = some p ∧ e = (p.dispatched session_id).dispatchEffect session_id id := by
  induction q generalizing m n with
  | nil => exact ⟨⟨n, h⟩, fun e he => by cases he⟩
  | cons hd tl ih =>
      by_cases hn : n < capacity
      · cases hp : m.get? hd with
        | none =>
            rw [dispatchLoop, if_pos hn, hp]
            exact ih h
        | some p =>
            rw [dispatchLoop_cons hn hp]
            obtain ⟨hend, heffects⟩ := ih (hstep m n hd p h hn hp)
            refine ⟨hend, ?_⟩
            intro e he
            rcases List.mem_cons.mp he with rfl | he
            · exact ⟨m, n, hd, p, h, hp, rfl⟩
            · exact heffects e he
      · rw [dispatchLoop_full hn]
        exact ⟨⟨n, h⟩, fun e he => by cases he⟩

end DispatchLoop

/-! ## Reconciliation and requeueing -/

theorem session_eq_connected (s : BrokerState) :
    s.agent.session = s.connected_remote.map Prod.fst := by
  unfold BrokerState.connected_remote
  cases s.agent <;> rfl

@[simp] theorem announceWake_agent (s : BrokerState) : s.announceWake.1.agent = s.agent := by
  unfold BrokerState.announceWake
  split
  · rfl
  · split <;> rfl

@[simp] theorem announceWake_pending (s : BrokerState) :
    s.announceWake.1.pending = s.pending := by
  unfold BrokerState.announceWake
  split
  · rfl
  · split <;> rfl

@[simp] theorem announceWake_queue (s : BrokerState) : s.announceWake.1.queue = s.queue := by
  unfold BrokerState.announceWake
  split
  · rfl
  · split <;> rfl

@[simp] theorem announceWake_max (s : BrokerState) :
    s.announceWake.1.max_pending_requests = s.max_pending_requests := by
  unfold BrokerState.announceWake
  split
  · rfl
  · split <;> rfl

/-- Waking emits nothing or a single wake request. -/
theorem announceWake_effects (s : BrokerState) :
    s.announceWake.2 = [] ∨ ∃ w, s.announceWake.2 = [.wakeRequired w] := by
  unfold BrokerState.announceWake
  split
  · exact Or.inl rfl
  · split
    · exact Or.inr ⟨_, rfl⟩
    · exact Or.inl rfl

@[simp] theorem dispatchQueued_agent (s : BrokerState) :
    s.dispatchQueued.1.agent = s.agent := by
  unfold BrokerState.dispatchQueued
  split <;> rfl

@[simp] theorem dispatchQueued_max (s : BrokerState) :
    s.dispatchQueued.1.max_pending_requests = s.max_pending_requests := by
  unfold BrokerState.dispatchQueued
  split <;> rfl

@[simp] theorem reconcile_agent (s : BrokerState) : s.reconcile.1.agent = s.agent := by
  simp [BrokerState.reconcile]

@[simp] theorem reconcile_pending (s : BrokerState) :
    s.reconcile.1.pending = s.dispatchQueued.1.pending := by
  simp [BrokerState.reconcile]

@[simp] theorem reconcile_queue (s : BrokerState) :
    s.reconcile.1.queue = s.dispatchQueued.1.queue := by
  simp [BrokerState.reconcile]

@[simp] theorem reconcile_max (s : BrokerState) :
    s.reconcile.1.max_pending_requests = s.max_pending_requests := by
  simp [BrokerState.reconcile]

theorem dispatchQueued_none {s : BrokerState} (h : s.connected_remote = none) :
    s.dispatchQueued = (s, []) := by
  rw [BrokerState.dispatchQueued, h]

/-- The queued requests the next reconciliation hands out. -/
def BrokerState.dispatchable (s : BrokerState) : List RequestId :=
  match s.connected_remote with
  | none => []
  | some (session_id, capacity) => s.queue.take (capacity - s.in_flight_for session_id)

theorem dispatchQueued_some {s : BrokerState} {session_id : SessionId} {capacity : Nat}
    (h : s.connected_remote = some (session_id, capacity)) :
    s.dispatchQueued =
      ({ s with
        pending := (dispatchLoop session_id capacity s.queue s.pending
          (s.in_flight_for session_id)).1
        queue := (dispatchLoop session_id capacity s.queue s.pending
          (s.in_flight_for session_id)).2.1 },
       (dispatchLoop session_id capacity s.queue s.pending
          (s.in_flight_for session_id)).2.2) := by
  rw [BrokerState.dispatchQueued, h]

theorem requeue_get? (s : BrokerState) (session_id : SessionId) (id : RequestId) :
    (s.requeue_session session_id).pending.get? id
      = (s.pending.get? id).map (PendingRequest.requeued session_id) :=
  get?_mapValues s.pending _ id

theorem mem_requeue_queue (s : BrokerState) (session_id : SessionId) (id : RequestId) :
    id ∈ (s.requeue_session session_id).queue
      ↔ (∃ p, s.pending.get? id = some p ∧ p.inFlightFor session_id = true)
        ∨ id ∈ s.queue := by
  show id ∈ (sortBySequence _).map Prod.fst ++ s.queue ↔ _
  rw [List.mem_append]
  rw [mem_sorted_ids s.pending (fun p => p.inFlightFor session_id) id]

/-! ## What an event can do -/

/-- The events that change nothing in a state: those naming a session that is
    not connected, an attempt that is not in flight or a request that is not
    pending, and the tick. -/
def Ignored (s : BrokerState) : Event → Prop
  | .submit .. => False
  | .connected .. => False
  | .ready session_id => s.agent.session ≠ some session_id
  | .locked session_id => s.agent.session ≠ some session_id
  | .disconnected session_id => s.agent.session ≠ some session_id
  | .response session_id request_id attempt _ =>
      ∀ p, s.pending.get? request_id = some p → p.state ≠ .inFlight session_id attempt
  | .cancelled request_id => s.pending.get? request_id = none
  | .tick => True

/-- Every way an event can be handled, with its guard. -/
inductive Handled (s : BrokerState) : Event → BrokerState → List Effect → Prop where
  | full {request_id packet context deadline requested_at deadline_timestamp} :
      s.pending.len ≥ s.max_pending_requests →
      Handled s (.submit request_id packet context deadline requested_at deadline_timestamp)
        s [.complete request_id (.error .queueFull)]
  | admitted {request_id packet context deadline requested_at deadline_timestamp} :
      s.pending.len < s.max_pending_requests →
      Handled s (.submit request_id packet context deadline requested_at deadline_timestamp)
        { s with
          next_sequence := s.next_sequence + 1
          pending := s.pending.insert request_id
            { packet, context, deadline, requested_at, deadline_timestamp
              sequence := s.next_sequence, attempt := 0, state := .queued }
          queue := s.queue ++ [request_id]
          wake_announced := false } []
  | connected {session_id capacity} : s.agent = .disconnected →
      Handled s (.connected session_id capacity)
        { s with agent := .locked session_id capacity, wake_announced := false } []
  | ready {session_id capacity} : s.connected_remote = some (session_id, capacity) →
      Handled s (.ready session_id) { s with agent := .ready session_id capacity } []
  | locked {session_id capacity} : s.connected_remote = some (session_id, capacity) →
      Handled s (.locked session_id) { s with agent := .locked session_id capacity } []
  | disconnected {session_id} : s.agent.session = some session_id →
      Handled s (.disconnected session_id)
        { s.requeue_session session_id with
          agent := .disconnected, wake_announced := false } []
  | answered {session_id request_id attempt packet p} :
      s.pending.get? request_id = some p → p.state = .inFlight session_id attempt →
      Handled s (.response session_id request_id attempt packet)
        { s with pending := s.pending.erase request_id }
        [.complete request_id (.ok packet)]
  | cancelled {request_id p} : s.pending.get? request_id = some p →
      Handled s (.cancelled request_id)
        { s with
          pending := s.pending.erase request_id
          queue := s.queue.filter (fun queued => queued ≠ request_id) }
        (dropEffects request_id p .cancelled)
  | ignored {event} : Ignored s event → Handled s event s []

/-- A session is the connected one, locked or ready, or it is not current. -/
theorem connected_cases (s : BrokerState) (session_id : SessionId) :
    (∃ capacity, s.connected_remote = some (session_id, capacity)) ∨
      s.agent.session ≠ some session_id := by
  rw [session_eq_connected]
  cases hc : s.connected_remote with
  | none => exact Or.inr (Option.some_ne_none session_id).symm
  | some remote =>
      obtain ⟨active, capacity⟩ := remote
      by_cases hactive : active = session_id
      · exact Or.inl ⟨capacity, by rw [hactive]⟩
      · exact Or.inr (fun he => hactive (Option.some.inj he))

section Sessions

variable {s : BrokerState} {session_id : SessionId} {capacity : Nat}

theorem handle_ready (h : s.connected_remote = some (session_id, capacity)) :
    s.handle (.ready session_id) = .ok ({ s with agent := .ready session_id capacity }, []) := by
  unfold BrokerState.connected_remote at h
  simp only [BrokerState.handle]
  cases ha : s.agent with
  | disconnected => rw [ha] at h; cases h
  | locked | ready =>
      rw [ha] at h
      obtain ⟨rfl, rfl⟩ := Prod.mk.inj (Option.some.inj h)
      exact if_pos rfl

theorem handle_locked (h : s.connected_remote = some (session_id, capacity)) :
    s.handle (.locked session_id) = .ok ({ s with agent := .locked session_id capacity }, []) := by
  unfold BrokerState.connected_remote at h
  simp only [BrokerState.handle]
  cases ha : s.agent with
  | disconnected => rw [ha] at h; cases h
  | locked | ready =>
      rw [ha] at h
      obtain ⟨rfl, rfl⟩ := Prod.mk.inj (Option.some.inj h)
      exact if_pos rfl

end Sessions

/-- An ignored event is handled like a tick. -/
theorem handle_ignored {s : BrokerState} {event : Event} (h : Ignored s event) :
    s.handle event = .ok (s, []) := by
  cases event with
  | submit => exact h.elim
  | connected => exact h.elim
  | ready session_id | locked session_id =>
      simp only [BrokerState.handle]
      cases ha : s.agent with
      | disconnected => rfl
      | locked active capacity | ready active capacity =>
          exact if_neg (fun he => h (by rw [ha]; exact congrArg some he))
  | disconnected session_id =>
      simp only [BrokerState.handle]
      exact if_neg h
  | response session_id request_id attempt packet =>
      simp only [BrokerState.handle]
      cases hp : s.pending.get? request_id with
      | none => rfl
      | some p => exact if_neg (h p hp)
  | cancelled request_id =>
      simp only [BrokerState.handle]
      rw [show s.pending.get? request_id = none from h]
  | tick => rfl

/-- **Inversion of the event arms**: every successful call is one of the listed
    cases. -/
theorem handle_cases {s t : BrokerState} {event : Event} {own : List Effect}
    (h : s.handle event = .ok (t, own)) : Handled s event t own := by
  cases event with
  | submit request_id packet context deadline requested_at deadline_timestamp =>
      simp only [BrokerState.handle] at h
      split at h
      · rename_i hfull
        obtain ⟨rfl, rfl⟩ := Prod.mk.inj (Except.ok.inj h)
        exact .full hfull
      · rename_i hroom
        obtain ⟨rfl, rfl⟩ := Prod.mk.inj (Except.ok.inj h)
        exact .admitted (Nat.lt_of_not_le hroom)
  | connected session_id capacity =>
      simp only [BrokerState.handle] at h
      split at h
      · cases h
      · rename_i hd
        obtain ⟨rfl, rfl⟩ := Prod.mk.inj (Except.ok.inj h)
        exact .connected (not_not.mp hd)
  | ready session_id =>
      rcases connected_cases s session_id with ⟨capacity, hc⟩ | hother
      · rw [handle_ready hc] at h
        obtain ⟨rfl, rfl⟩ := Prod.mk.inj (Except.ok.inj h)
        exact .ready hc
      · have hign : Ignored s (.ready session_id) := hother
        rw [handle_ignored hign] at h
        obtain ⟨rfl, rfl⟩ := Prod.mk.inj (Except.ok.inj h)
        exact .ignored hign
  | locked session_id =>
      rcases connected_cases s session_id with ⟨capacity, hc⟩ | hother
      · rw [handle_locked hc] at h
        obtain ⟨rfl, rfl⟩ := Prod.mk.inj (Except.ok.inj h)
        exact .locked hc
      · have hign : Ignored s (.locked session_id) := hother
        rw [handle_ignored hign] at h
        obtain ⟨rfl, rfl⟩ := Prod.mk.inj (Except.ok.inj h)
        exact .ignored hign
  | disconnected session_id =>
      simp only [BrokerState.handle] at h
      split at h
      · rename_i hs
        obtain ⟨rfl, rfl⟩ := Prod.mk.inj (Except.ok.inj h)
        exact .disconnected hs
      · rename_i hs
        obtain ⟨rfl, rfl⟩ := Prod.mk.inj (Except.ok.inj h)
        exact .ignored hs
  | response session_id request_id attempt packet =>
      simp only [BrokerState.handle] at h
      split at h
      · rename_i p hp
        split at h
        · rename_i hs
          obtain ⟨rfl, rfl⟩ := Prod.mk.inj (Except.ok.inj h)
          exact .answered hp hs
        · rename_i hs
          obtain ⟨rfl, rfl⟩ := Prod.mk.inj (Except.ok.inj h)
          refine .ignored ?_
          intro q hq
          obtain rfl := Option.some.inj (hp.symm.trans hq)
          exact hs
      · rename_i hp
        obtain ⟨rfl, rfl⟩ := Prod.mk.inj (Except.ok.inj h)
        refine .ignored ?_
        intro q hq
        rw [hp] at hq
        cases hq
  | cancelled request_id =>
      simp only [BrokerState.handle] at h
      split at h
      · rename_i p hp
        obtain ⟨rfl, rfl⟩ := Prod.mk.inj (Except.ok.inj h)
        exact .cancelled hp
      · rename_i hp
        obtain ⟨rfl, rfl⟩ := Prod.mk.inj (Except.ok.inj h)
        exact .ignored hp
  | tick =>
      obtain ⟨rfl, rfl⟩ := Prod.mk.inj (Except.ok.inj h)
      exact .ignored trivial

/-- Only a connection that finds the agent bound is refused. -/
theorem handle_error {s : BrokerState} {event : Event} {e : ModelError}
    (h : s.handle event = .error e) :
    ∃ session_id capacity, event = .connected session_id capacity ∧
      s.agent ≠ .disconnected := by
  cases event with
  | connected session_id capacity =>
      simp only [BrokerState.handle] at h
      split at h
      · exact ⟨session_id, capacity, rfl, ‹_›⟩
      · cases h
  | submit | ready | locked | disconnected | response | cancelled | tick =>
      simp only [BrokerState.handle] at h
      all_goals repeat' split at h
      all_goals cases h

end BrokerModel
