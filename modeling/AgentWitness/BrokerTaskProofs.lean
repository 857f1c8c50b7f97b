import AgentWitness.BrokerCorrelationProofs
import Mathlib.Algebra.Order.Ring.Nat

/-! # The broker actor

    `broker/task.rs`: the I/O-owning wrapper around the model.  One actor step
    translates an input (a local request, a cancellation, a mailbox command, the
    deadline timer) into a model event and executes the effects on channels.
    Channels are names; what a step puts on them is its list of outputs.

    The receiver of a remote's outbound channel may be dropped at any moment, so
    a step carries how many more sends still find it.  A failed send feeds a
    disconnect back into the model while the worklist of effects drains.

    The loop invariant of `execute` is an EQUATION: for every id, completions
    still on the worklist plus whether it is pending equal whether a caller
    waits for it.  At the end of a step the worklist is empty, so exactly the
    pending requests have a waiter. -/

namespace BrokerTask

open Packet KeyedMap BrokerModel BrokerInvariant BrokerCompletion BrokerCorrelation Transition

/-- An outbound channel to a remote session. -/
abbrev ChannelId := Nat

/-- A oneshot channel on which one caller waits. -/
abbrev ResponseId := Nat

/-- Wall-clock time in nanoseconds since the Unix epoch. -/
abbrev SystemTime := Int

/-- Runtime limits enforced by the request broker. -/
structure BrokerConfig where
  request_timeout : Nat
  max_pending_requests : Nat

/-- Message emitted by the broker for the active remote session. -/
inductive RemoteCommand where
  | request (request_id : RequestId) (attempt : UInt32) (requested_at deadline : UInt64)
      (packet : Bytes) (context : Option RequestContext)
  | cancel (request_id : RequestId) (attempt : UInt32)
  deriving DecidableEq

/-- Failure to perform a broker control operation. -/
inductive BrokerError where
  | unavailable
  | remoteAlreadyConnected
  | invalidRemoteCapacity
  deriving DecidableEq, Repr

/-- One request received from a local transport. -/
structure PacketRequest where
  packet : Bytes
  context : Option RequestContext
  response : ResponseId

/-- Internal messages serialized through the broker actor's mailbox. -/
inductive Command where
  | connect (capacity : Nat) (outbound : ChannelId) (response : ResponseId)
  | ready (session_id : SessionId)
  | locked (session_id : SessionId)
  | disconnected (session_id : SessionId)
  | response (session_id : SessionId) (request_id : RequestId) (attempt : UInt32)
      (packet : Bytes)
  | shutdown (response : ResponseId)
  deriving DecidableEq

/-- What the actor puts on its channels. -/
inductive Output where
  | sent (outbound : ChannelId) (command : RemoteCommand)
  | woke (request : WakeRequest)
  | answered (response : ResponseId) (result : Except RequestError Bytes)
  | registered (response : ResponseId) (result : Except BrokerError SessionId)
  | stopped (response : ResponseId)
  deriving DecidableEq

/-- I/O-owning wrapper around the deterministic broker model.  Removing a
    waiter also aborts its cancellation.  `calls` is a ghost record of the
    model calls made so far. -/
structure BrokerActor where
  config : BrokerConfig
  state : BrokerState
  waiters : Map RequestId ResponseId
  remote : Option (SessionId × ChannelId)
  calls : List Call

/-- What a step works on: the actor, the number of sends that still find the
    receiver of the outbound channel (`none` if it is not dropped during the
    step), and the outputs so far. -/
structure Exec where
  actor : BrokerActor
  sends : Option Nat
  outputs : List Output

/-- `self.state.apply(event, now)`. -/
def BrokerActor.call (a : BrokerActor) (event : Event) (now : Instant) :
    BrokerActor × Except ModelError (List Effect) :=
  let r := a.state.apply event now
  ({ a with state := r.1, calls := a.calls ++ [⟨event, now, r.2⟩] }, r.2)

def Exec.emit (x : Exec) (output : Output) : Exec :=
  { x with outputs := x.outputs ++ [output] }

/-- Send a command on the session's outbound channel, if it is the active one
    and its receiver is still there. -/
def Exec.send (x : Exec) (session_id : SessionId) (command : RemoteCommand) : Exec × Bool :=
  match x.actor.remote with
  | none => (x, false)
  | some (active, outbound) =>
      if active = session_id then
        match x.sends with
        | none => (x.emit (.sent outbound command), true)
        | some 0 => (x, false)
        | some (n + 1) => ({ x.emit (.sent outbound command) with sends := some n }, true)
      else (x, false)

/-- The body of the loop in `execute`: the effects it returns are appended to
    the worklist. -/
def Exec.executeEffect (now : Instant) (x : Exec) : Effect → Exec × List Effect
  | .dispatch session_id request_id attempt requested_at deadline packet context =>
      let sent := x.send session_id
        (.request request_id attempt requested_at deadline packet context)
      if sent.2 then (sent.1, [])
      else
        let r := { sent.1.actor with remote := none }.call (.disconnected session_id) now
        ({ sent.1 with actor := r.1 },
          match r.2 with
          | .ok reconciled => reconciled
          | .error _ => [])
  | .cancel session_id request_id attempt =>
      ((x.send session_id (.cancel request_id attempt)).1, [])
  | .wakeRequired request => (x.emit (.woke request), [])
  | .complete request_id result =>
      match x.actor.waiters.get? request_id with
      | some response =>
          ({ x with actor.waiters := x.actor.waiters.erase request_id }.emit
            (.answered response result), [])
      | none => (x, [])

/-- Execute model effects and feed transport failure back into reconciliation.
    Three rounds of the worklist always drain it. -/
def Exec.execute (x : Exec) (initial : List Effect) (now : Instant) : Exec :=
  (rounds (Exec.executeEffect now) 3 x initial).1

/-- Apply an event and execute its effects; a refusal has none. -/
def Exec.apply (x : Exec) (event : Event) (now : Instant) : Exec :=
  let r := x.actor.call event now
  match r.2 with
  | .ok effects => { x with actor := r.1 }.execute effects now
  | .error _ => { x with actor := r.1 }

/-- Milliseconds since the epoch: zero before it, saturating at `u64::MAX`. -/
def unix_milliseconds (time : SystemTime) : UInt64 :=
  UInt64.ofNat (min (time.toNat / 1000000) (2 ^ 64 - 1))

/-- Admit one request received from a local transport. -/
def Exec.handle_local (x : Exec) (request : PacketRequest) (request_id : RequestId)
    (now : Instant) (requested_at : SystemTime) : Exec :=
  let timeout := x.actor.config.request_timeout
  { x with actor.waiters := x.actor.waiters.insert request_id request.response }.apply
    (.submit request_id request.packet request.context (now + timeout)
      (unix_milliseconds requested_at) (unix_milliseconds (requested_at + timeout))) now

/-- Fail all waiters. -/
def Exec.stop (x : Exec) : Exec :=
  { x with
    actor.waiters := .empty
    outputs := x.outputs
      ++ x.actor.waiters.values.map (fun response => .answered response (.error .unavailable)) }

/-- Translate one mailbox command into a model event or lifecycle action; true
    ends the actor.  `session_id` is the identity drawn for a new session. -/
def Exec.handle (x : Exec) (session_id : SessionId) (now : Instant) : Command → Exec × Bool
  | .connect capacity outbound response =>
      let r := x.actor.call (.connected session_id capacity) now
      match r.2 with
      | .ok effects =>
          (({ x with actor := { r.1 with remote := some (session_id, outbound) } }.emit
            (.registered response (.ok session_id))).execute effects now, false)
      | .error .remoteAlreadyConnected =>
          ({ x with actor := r.1 }.emit
            (.registered response (.error .remoteAlreadyConnected)), false)
  | .ready session_id => (x.apply (.ready session_id) now, false)
  | .locked session_id => (x.apply (.locked session_id) now, false)
  | .disconnected session_id =>
      let remote :=
        if x.actor.remote.any (fun remote => remote.1 = session_id) then none
        else x.actor.remote
      ({ x with actor.remote := remote }.apply (.disconnected session_id) now, false)
  | .response session_id request_id attempt packet =>
      (x.apply (.response session_id request_id attempt packet) now, false)
  | .shutdown response => (x.stop.emit (.stopped response), true)

/-- What wakes the loop of `run_broker`. -/
inductive Input where
  | localRequest (request : PacketRequest) (request_id : RequestId) (requested_at : SystemTime)
  | localClosed
  | cancelled (request_id : RequestId)
  | command (command : Command) (session_id : SessionId)
  | commandsClosed
  | deadline

/-- The broker task: the actor and the two flags of its loop. -/
structure Broker where
  actor : BrokerActor
  local_requests_open : Bool
  stopped : Bool

def Broker.new (config : BrokerConfig) : Broker where
  actor := ⟨config, .new config.max_pending_requests, .empty, none, []⟩
  local_requests_open := true
  stopped := false

/-- Run one actor method from the state of the task. -/
def Broker.exec (b : Broker) (sends : Option Nat) : Exec := ⟨b.actor, sends, []⟩

/-- The task after one actor method. -/
def Broker.after (b : Broker) (x : Exec) : Broker × List Output :=
  ({ b with actor := x.actor }, x.outputs)

/-- One turn of the loop: what wakes it, when, and how many sends on the
    outbound channel still find its receiver. -/
structure Turn where
  input : Input
  now : Instant
  sends : Option Nat

/-- One turn of `run_broker`, if that branch of its `select!` is enabled. -/
def Broker.step (b : Broker) (t : Turn) : Option (Broker × List Output) :=
  if b.stopped then none
  else
    match t.input with
    | .localRequest request request_id requested_at =>
        if b.local_requests_open then
          some (b.after
            ((b.exec t.sends).handle_local request request_id t.now requested_at))
        else none
    | .localClosed =>
        if b.local_requests_open then some ({ b with local_requests_open := false }, [])
        else none
    | .cancelled request_id =>
        some (b.after ((b.exec t.sends).apply (.cancelled request_id) t.now))
    | .command command session_id =>
        let r := (b.exec t.sends).handle session_id t.now command
        some ({ b with actor := r.1.actor, stopped := r.2 }, r.1.outputs)
    | .commandsClosed =>
        some ({ b with actor := (b.exec t.sends).stop.actor, stopped := true },
          (b.exec t.sends).stop.outputs)
    | .deadline =>
        if b.actor.state.next_deadline.any (fun deadline => deadline ≤ t.now) then
          some (b.after ((b.exec t.sends).apply .tick t.now))
        else none

theorem step_running {b b' : Broker} {t : Turn} {outputs : List Output}
    (h : b.step t = some (b', outputs)) : b.stopped = false := by
  rw [Broker.step] at h
  split at h
  · cases h
  · exact Bool.eq_false_iff.mpr ‹_›

/-! ## What one effect can do to the actor -/

/-- Sending touches only the outputs and the channel. -/
@[simp] theorem send_actor (x : Exec) (session_id : SessionId) (command : RemoteCommand) :
    (x.send session_id command).1.actor = x.actor := by
  unfold Exec.send
  repeat' split
  all_goals rfl

/-- A disconnect is never refused. -/
theorem apply_disconnected_ok (s : BrokerState) (session_id : SessionId) (now : Instant) :
    ∃ s' effects, s.apply (.disconnected session_id) now = (s', .ok effects) := by
  cases hr : (s.apply (.disconnected session_id) now).2 with
  | ok effects => exact ⟨_, effects, Prod.ext rfl hr⟩
  | error e =>
      obtain ⟨_, hh⟩ := apply_error (Prod.ext rfl hr)
      obtain ⟨_, _, heq, _⟩ := handle_error hh
      cases heq

/-- The ways an effect can be executed, as seen on the actor. -/
inductive Executed (now : Instant) (a : BrokerActor) :
    Effect → BrokerActor → List Effect → Prop where
  | sent {session_id request_id attempt requested_at deadline packet context} :
      Executed now a
        (.dispatch session_id request_id attempt requested_at deadline packet context) a []
  | lost {session_id request_id attempt requested_at deadline packet context s' pushed} :
      a.state.apply (.disconnected session_id) now = (s', .ok pushed) →
      Executed now a
        (.dispatch session_id request_id attempt requested_at deadline packet context)
        { a with
          state := s', remote := none
          calls := a.calls ++ [⟨.disconnected session_id, now, .ok pushed⟩] } pushed
  | stopped {session_id request_id attempt} :
      Executed now a (.cancel session_id request_id attempt) a []
  | woke {request} : Executed now a (.wakeRequired request) a []
  | answered {request_id result response} : a.waiters.get? request_id = some response →
      Executed now a (.complete request_id result)
        { a with waiters := a.waiters.erase request_id } []
  | unknown {request_id result} : a.waiters.get? request_id = none →
      Executed now a (.complete request_id result) a []

/-- **Inversion of the loop body.** -/
theorem executeEffect_cases (now : Instant) (x : Exec) (e : Effect) :
    Executed now x.actor e (x.executeEffect now e).1.actor (x.executeEffect now e).2 := by
  cases e with
  | dispatch session_id request_id attempt requested_at deadline packet context =>
      obtain ⟨s', pushed, hap⟩ := apply_disconnected_ok x.actor.state session_id now
      simp only [Exec.executeEffect]
      split
      · rw [send_actor]
        exact .sent
      · simp only [BrokerActor.call, send_actor, hap]
        exact .lost hap
  | cancel session_id request_id attempt =>
      simp only [Exec.executeEffect, send_actor]
      exact .stopped
  | wakeRequired request => exact .woke
  | complete request_id result =>
      cases hw : x.actor.waiters.get? request_id with
      | none =>
          simp only [Exec.executeEffect, hw]
          exact .unknown hw
      | some response =>
          simp only [Exec.executeEffect, hw]
          exact .answered hw

/-! ## The worklist drains -/

/-- The session an effect dispatches to. -/
def dispatchSession : Effect → Option SessionId
  | .dispatch session_id _ _ _ _ _ _ => some session_id
  | _ => none

theorem dispatchLoop_session {session_id : SessionId} {capacity : Nat} {q : List RequestId}
    {m : Map RequestId PendingRequest} {n : Nat} {e : Effect}
    (he : e ∈ (dispatchLoop session_id capacity q m n).2.2) :
    dispatchSession e = some session_id := by
  induction q generalizing m n with
  | nil => cases he
  | cons hd tl ih =>
      unfold dispatchLoop at he
      split at he
      · split at he
        · exact ih he
        · rcases List.mem_cons.mp he with rfl | he
          · rfl
          · exact ih he
      · cases he

/-- Neither expiry nor the event's own arm dispatches. -/
theorem stages_no_dispatch {s t : BrokerState} {event : Event} {now : Instant}
    {own : List Effect} (hh : (s.expire now).1.handle event = .ok (t, own)) {e : Effect}
    (he : e ∈ (s.expire now).2 ++ own) : dispatchSession e = none := by
  cases e with
  | cancel | wakeRequired | complete => rfl
  | dispatch active request_id attempt requested_at deadline packet context =>
      have hentry : Entry.Dispatches request_id active attempt (.emitted
        (.dispatch active request_id attempt requested_at deadline packet context)) :=
        ⟨rfl, rfl, rfl⟩
      rcases List.mem_append.mp he with he | he
      · exact absurd hentry (expire_no_dispatch _ (List.mem_map_of_mem he))
      · exact absurd hentry (handle_no_dispatch hh request_id active attempt _
          (List.mem_cons_of_mem _ (List.mem_map_of_mem he)))

/-- Reconciliation dispatches and wakes, and nothing else. -/
theorem reconcile_kind {s : BrokerState} {e : Effect} (he : e ∈ s.reconcile.2) :
    dispatchSession e ≠ none ∨ ∃ w, e = .wakeRequired w := by
  rcases List.mem_append.mp he with he | he
  · refine Or.inl ?_
    cases hc : s.connected_remote with
    | none =>
        rw [dispatchQueued_none hc] at he
        cases he
    | some r =>
        rw [dispatchQueued_some hc] at he
        rw [dispatchLoop_session he]
        exact Option.some_ne_none _
  · rcases announceWake_effects s.dispatchQueued.1 with hw | ⟨w, hw⟩
    · rw [hw] at he
      cases he
    · rw [hw] at he
      exact Or.inr ⟨w, List.mem_singleton.mp he⟩

/-- Whatever `apply` dispatches goes to the session connected afterwards. -/
theorem apply_dispatchSession {s s' : BrokerState} {event : Event} {now : Instant}
    {effects : List Effect} (h : s.apply event now = (s', .ok effects)) {e : Effect}
    (he : e ∈ effects) {session_id : SessionId} (hd : dispatchSession e = some session_id) :
    s'.agent.session = some session_id := by
  obtain ⟨t, own, hh, rfl, rfl⟩ := apply_ok h
  rw [reconcile_agent]
  rcases List.mem_append.mp he with he | he
  · rw [stages_no_dispatch hh he] at hd
    cases hd
  · rcases List.mem_append.mp he with he | he
    · cases hc : t.connected_remote with
      | none =>
          rw [dispatchQueued_none hc] at he
          cases he
      | some r =>
          obtain ⟨active, capacity⟩ := r
          rw [dispatchQueued_some hc] at he
          rw [session_eq_connected, hc, ← hd, dispatchLoop_session he]
          rfl
    · rcases announceWake_effects t.dispatchQueued.1 with hw | ⟨w, hw⟩
      · rw [hw] at he
        cases he
      · rw [hw] at he
        obtain rfl := List.mem_singleton.mp he
        cases hd

/-- The session connected after an event that is not refused. -/
def sessionAfter (session : Option SessionId) : Event → Option SessionId
  | .connected session_id _ => some session_id
  | .disconnected session_id => if session = some session_id then none else session
  | _ => session

theorem apply_session {s s' : BrokerState} {event : Event} {now : Instant}
    {effects : List Effect} (h : s.apply event now = (s', .ok effects)) :
    s'.agent.session = sessionAfter s.agent.session event := by
  obtain ⟨t, own, hh, rfl, _⟩ := apply_ok h
  rw [reconcile_agent, ← expire_agent s now]
  cases handle_cases hh with
  | full _ => rfl
  | admitted _ => rfl
  | connected _ => rfl
  | ready hc =>
      show _ = (s.expire now).1.agent.session
      rw [session_eq_connected (s.expire now).1, hc]
      rfl
  | locked hc =>
      show _ = (s.expire now).1.agent.session
      rw [session_eq_connected (s.expire now).1, hc]
      rfl
  | disconnected hact => rw [sessionAfter, if_pos hact]; rfl
  | answered _ _ => rfl
  | cancelled _ => rfl
  | ignored hign =>
      cases event with
      | disconnected session_id => rw [sessionAfter, if_neg hign]
      | submit | connected => exact hign.elim
      | ready | locked | response | cancelled | tick => rfl

/-- Every dispatch on the worklist is to the connected session, unless none is
    connected. -/
def Current (a : BrokerActor) (work : List Effect) : Prop :=
  ∀ e ∈ work, ∀ session_id, dispatchSession e = some session_id →
    a.state.agent.session = none ∨ a.state.agent.session = some session_id

/-- Executing an effect keeps the connected session or loses it, and pushes
    dispatches only to the one it keeps; losing it pushes none. -/
theorem executed_session {now : Instant} {a a' : BrokerActor} {e : Effect}
    {pushed : List Effect} (h : Executed now a e a' pushed) :
    (a'.state.agent.session = a.state.agent.session ∨ a'.state.agent.session = none) ∧
      Current a' pushed := by
  have hnil : ∀ b, Current b [] := fun b e he => by cases he
  cases h with
  | sent => exact ⟨Or.inl rfl, hnil a⟩
  | stopped => exact ⟨Or.inl rfl, hnil a⟩
  | woke => exact ⟨Or.inl rfl, hnil a⟩
  | answered _ => exact ⟨Or.inl rfl, hnil _⟩
  | unknown _ => exact ⟨Or.inl rfl, hnil a⟩
  | @lost session_id _ _ _ _ _ _ s' pushed hap =>
      constructor
      · show s'.agent.session = _ ∨ s'.agent.session = none
        rw [apply_session hap, sessionAfter]
        split
        · exact Or.inr rfl
        · exact Or.inl rfl
      · intro e he active hd
        exact Or.inr (apply_dispatchSession hap he hd)

/-- A dispatch that is current and fails pushes no further dispatch. -/
theorem executed_no_dispatch {now : Instant} {a a' : BrokerActor} {e : Effect}
    {pushed rest : List Effect} (h : Executed now a e a' pushed)
    (hc : Current a (e :: rest)) : ∀ d ∈ pushed, dispatchSession d = none := by
  cases h with
  | sent | stopped | woke | answered _ | unknown _ =>
      intro d hd
      cases hd
  | @lost session_id _ _ _ _ _ _ s' pushed hap =>
      intro d hd
      cases hs : dispatchSession d with
      | none => rfl
      | some active =>
          have hact := apply_dispatchSession hap hd hs
          rw [apply_session hap, sessionAfter] at hact
          rcases hc _ (List.mem_cons_self ..) session_id rfl with hn | hn
          · rw [hn] at hact
            cases hact
          · rw [if_pos hn] at hact
            cases hact

theorem Current.mono {a a' : BrokerActor} {work : List Effect} (h : Current a work)
    (hs : a'.state.agent.session = a.state.agent.session ∨ a'.state.agent.session = none) :
    Current a' work := by
  intro e he session_id hd
  rcases hs with hs | hs
  · rw [hs]
    exact h e he session_id hd
  · exact Or.inl hs

section Drain

variable (now : Instant)

theorem batch_session (x : Exec) (work : List Effect) :
    (batch (Exec.executeEffect now) x work).1.actor.state.agent.session
        = x.actor.state.agent.session
      ∨ (batch (Exec.executeEffect now) x work).1.actor.state.agent.session = none := by
  induction work generalizing x with
  | nil => exact Or.inl rfl
  | cons e rest ih =>
      have hone := (executed_session (executeEffect_cases now x e)).1
      rcases ih (x.executeEffect now e).1 with hrest | hrest
      · rcases hone with hone | hone
        · exact Or.inl (hrest.trans hone)
        · exact Or.inr (hrest.trans hone)
      · exact Or.inr hrest

/-- The first batch pushes only current dispatches. -/
theorem batch_current (x : Exec) (work : List Effect) :
    Current (batch (Exec.executeEffect now) x work).1.actor
      (batch (Exec.executeEffect now) x work).2 := by
  induction work generalizing x with
  | nil =>
      intro e he
      cases he
  | cons e rest ih =>
      have hpushed := (executed_session (executeEffect_cases now x e)).2
      intro d hd
      rcases List.mem_append.mp hd with hd | hd
      · exact hpushed.mono (batch_session now _ rest) d hd
      · exact ih _ d hd

/-- A batch of current dispatches pushes none. -/
theorem batch_no_dispatch (x : Exec) (work : List Effect) (hc : Current x.actor work) :
    ∀ d ∈ (batch (Exec.executeEffect now) x work).2, dispatchSession d = none := by
  induction work generalizing x with
  | nil =>
      intro d hd
      cases hd
  | cons e rest ih =>
      have hex := executeEffect_cases now x e
      have hrest : Current (x.executeEffect now e).1.actor rest :=
        Current.mono (fun d hd => hc d (List.mem_cons_of_mem _ hd)) (executed_session hex).1
      intro d hd
      rcases List.mem_append.mp hd with hd | hd
      · exact executed_no_dispatch hex hc d hd
      · exact ih _ hrest d hd

/-- Only a dispatch can push. -/
theorem executed_pushes {a a' : BrokerActor} {e : Effect} {pushed : List Effect}
    (h : Executed now a e a' pushed) (he : dispatchSession e = none) : pushed = [] := by
  cases h with
  | lost _ => cases he
  | sent | stopped | woke | answered _ | unknown _ => rfl

/-- A batch without dispatches pushes nothing. -/
theorem batch_pushes_nothing (x : Exec) (work : List Effect)
    (h : ∀ d ∈ work, dispatchSession d = none) :
    (batch (Exec.executeEffect now) x work).2 = [] := by
  induction work generalizing x with
  | nil => rfl
  | cons e rest ih =>
      have hnil : (x.executeEffect now e).2 = [] :=
        executed_pushes now (executeEffect_cases now x e) (h e (List.mem_cons_self ..))
      show (x.executeEffect now e).2 ++ _ = []
      rw [hnil, List.nil_append]
      exact ih _ (fun d hd => h d (List.mem_cons_of_mem _ hd))

theorem rounds_drained (x : Exec) (initial : List Effect) :
    (rounds (Exec.executeEffect now) 3 x initial).2 = [] :=
  batch_pushes_nothing now _ _ (batch_no_dispatch now _ _ (batch_current now x initial))

/-- **The worklist terminates**: enough turns of the loop in `execute` drain it,
    and leave what the three rounds leave. -/
theorem execute_terminates (x : Exec) (initial : List Effect) :
    ∃ fuel, drain (Exec.executeEffect now) fuel x initial = some (x.execute initial now) := by
  obtain ⟨fuel, hfuel⟩ := drain_rounds (Exec.executeEffect now) 3 x initial
  refine ⟨fuel + 0, ?_⟩
  rw [hfuel 0, rounds_drained]
  rfl

/-- **Rule of the worklist for the actor**: what every executed effect keeps, `execute`
    keeps. -/
theorem execute_invariant {P : BrokerActor → Prop}
    (hstep : ∀ {a e a' pushed}, Executed now a e a' pushed → P a → P a') {x : Exec}
    (h : P x.actor) (effects : List Effect) : P (x.execute effects now).actor :=
  rounds_invariant (Exec.executeEffect now) (fun y _ => P y.actor)
    (fun y e _ hy => hstep (executeEffect_cases now y e) hy) 3 x effects h

end Drain

/-! ## What a step puts on its channels -/

/-- The reply to a connect, if the output is one. -/
def registration : Output → Option (ResponseId × Except BrokerError SessionId)
  | .registered response result => some (response, result)
  | _ => none

/-- Executing effects replies to no connect. -/
theorem execute_registrations (x : Exec) (effects : List Effect) (now : Instant) :
    (x.execute effects now).outputs.filterMap registration
      = x.outputs.filterMap registration := by
  have hsend : ∀ (y : Exec) (session_id : SessionId) (command : RemoteCommand),
      (y.send session_id command).1.outputs.filterMap registration
        = y.outputs.filterMap registration := by
    intro y session_id command
    unfold Exec.send
    repeat' split
    all_goals simp [Exec.emit, registration]
  refine rounds_invariant (Exec.executeEffect now)
    (fun y _ => y.outputs.filterMap registration = x.outputs.filterMap registration)
    ?_ 3 x effects rfl
  intro y e rest hy
  cases e with
  | dispatch session_id request_id attempt requested_at deadline packet context =>
      simp only [Exec.executeEffect]
      split
      · exact (hsend y _ _).trans hy
      · exact (hsend y _ _).trans hy
  | cancel session_id request_id attempt => exact (hsend y _ _).trans hy
  | wakeRequired request =>
      simp only [Exec.executeEffect, Exec.emit, List.filterMap_append, hy]
      exact List.append_nil _
  | complete request_id result =>
      simp only [Exec.executeEffect]
      split
      · simp only [Exec.emit, List.filterMap_append, hy]
        exact List.append_nil _
      · exact hy

theorem apply_registrations (x : Exec) (event : Event) (now : Instant) :
    (x.apply event now).outputs.filterMap registration
      = x.outputs.filterMap registration := by
  simp only [Exec.apply]
  split
  · exact execute_registrations _ _ _
  · rfl

theorem stop_registrations (x : Exec) :
    x.stop.outputs.filterMap registration = x.outputs.filterMap registration := by
  simp only [Exec.stop, List.filterMap_append, List.filterMap_map]
  refine (congrArg (x.outputs.filterMap registration ++ ·) ?_).trans (List.append_nil _)
  exact List.filterMap_eq_nil_iff.mpr (fun _ _ => rfl)

/-- The reply a command asks for, and what the broker answers. -/
def replyOf (s : BrokerState) (session_id : SessionId) :
    Command → Option (ResponseId × Except BrokerError SessionId)
  | .connect _ _ response =>
      some (response, if s.agent = .disconnected then .ok session_id
        else .error .remoteAlreadyConnected)
  | _ => none

theorem apply_connected_result (s : BrokerState) (session_id : SessionId) (capacity : Nat)
    (now : Instant) :
    (s.agent = .disconnected ∧
        ∃ effects, (s.apply (.connected session_id capacity) now).2 = .ok effects) ∨
      (s.agent ≠ .disconnected ∧
        (s.apply (.connected session_id capacity) now).2 = .error .remoteAlreadyConnected) := by
  by_cases ha : s.agent = .disconnected
  · have hh : (s.expire now).1.handle (.connected session_id capacity)
        = .ok ({ (s.expire now).1 with
            agent := .locked session_id capacity, wake_announced := false }, []) :=
      if_neg (not_not.mpr ha)
    exact Or.inl ⟨ha, _, congrArg Prod.snd (apply_of_handle hh)⟩
  · have hh : (s.expire now).1.handle (.connected session_id capacity)
        = .error .remoteAlreadyConnected := if_pos ha
    refine Or.inr ⟨ha, ?_⟩
    simp only [BrokerState.apply, hh]

/-- A command is replied to exactly as the state before it says. -/
theorem handle_registrations (a : BrokerActor) (sends : Option Nat) (session_id : SessionId)
    (now : Instant) (command : Command) :
    (Exec.handle ⟨a, sends, []⟩ session_id now command).1.outputs.filterMap registration
      = (replyOf a.state session_id command).toList := by
  cases command with
  | connect capacity outbound response =>
      rcases apply_connected_result a.state session_id capacity now with
        ⟨ha, effects, hr⟩ | ⟨ha, hr⟩
      · simp only [Exec.handle, BrokerActor.call, hr, execute_registrations, replyOf, ha]
        rfl
      · simp only [Exec.handle, BrokerActor.call, hr, replyOf, if_neg ha]
        rfl
  | ready active => exact apply_registrations _ _ _
  | locked active => exact apply_registrations _ _ _
  | disconnected active => exact apply_registrations _ _ _
  | response active request_id attempt packet => exact apply_registrations _ _ _
  | shutdown response =>
      simp only [Exec.handle, Exec.emit, List.filterMap_append, stop_registrations]
      rfl

/-- The replies of one turn. -/
theorem step_registrations {b b' : Broker} {t : Turn} {outputs : List Output}
    (h : b.step t = some (b', outputs)) :
    outputs.filterMap registration
      = match t.input with
        | .command command session_id => (replyOf b.actor.state session_id command).toList
        | _ => [] := by
  rw [Broker.step] at h
  split at h
  · cases h
  · cases hin : t.input with
    | localRequest request request_id requested_at =>
        simp only [hin] at h
        split at h
        · obtain ⟨_, rfl⟩ := Prod.mk.inj (Option.some.inj h)
          exact apply_registrations _ _ _
        · cases h
    | localClosed =>
        simp only [hin] at h
        split at h
        · obtain ⟨_, rfl⟩ := Prod.mk.inj (Option.some.inj h)
          rfl
        · cases h
    | cancelled request_id =>
        simp only [hin] at h
        obtain ⟨_, rfl⟩ := Prod.mk.inj (Option.some.inj h)
        exact apply_registrations _ _ _
    | command command session_id =>
        simp only [hin] at h
        obtain ⟨_, rfl⟩ := Prod.mk.inj (Option.some.inj h)
        exact handle_registrations _ _ _ _ _
    | commandsClosed =>
        simp only [hin] at h
        obtain ⟨_, rfl⟩ := Prod.mk.inj (Option.some.inj h)
        exact stop_registrations _
    | deadline =>
        simp only [hin] at h
        split at h
        · obtain ⟨_, rfl⟩ := Prod.mk.inj (Option.some.inj h)
          exact apply_registrations _ _ _
        · cases h

/-! ## The record of calls -/

/-- The event a turn hands to the model first. -/
def eventFor (b : Broker) (t : Turn) : Option Event :=
  match t.input with
  | .localRequest request request_id requested_at =>
      some (.submit request_id request.packet request.context
        (t.now + b.actor.config.request_timeout) (unix_milliseconds requested_at)
        (unix_milliseconds (requested_at + b.actor.config.request_timeout)))
  | .cancelled request_id => some (.cancelled request_id)
  | .command (.connect capacity _ _) session_id => some (.connected session_id capacity)
  | .command (.ready session_id) _ => some (.ready session_id)
  | .command (.locked session_id) _ => some (.locked session_id)
  | .command (.disconnected session_id) _ => some (.disconnected session_id)
  | .command (.response session_id request_id attempt packet) _ =>
      some (.response session_id request_id attempt packet)
  | .deadline => some .tick
  | .localClosed | .commandsClosed | .command (.shutdown _) _ => none

/-- What an observer of the events sees in a record of calls. -/
def recorded {α : Type} (f : Event → Option α) (calls : List Call) : List α :=
  calls.filterMap (fun c => f c.event)

section Record

variable {α : Type} {f : Event → Option α}

theorem recorded_snoc (calls : List Call) (c : Call) :
    recorded f (calls ++ [c]) = recorded f calls ++ (f c.event).toList := by
  cases hc : f c.event <;> simp [recorded, List.filterMap_append, hc]

/-- Executing effects records nothing but disconnects. -/
theorem execute_recorded (hf : ∀ session_id, f (.disconnected session_id) = none) (x : Exec)
    (effects : List Effect) (now : Instant) :
    recorded f (x.execute effects now).actor.calls = recorded f x.actor.calls := by
  have hstep : ∀ {a e a' pushed}, Executed now a e a' pushed →
      recorded f a.calls = recorded f x.actor.calls →
      recorded f a'.calls = recorded f x.actor.calls := by
    intro a e a' pushed hex ha
    cases hex with
    | lost _ =>
        rw [recorded_snoc, hf]
        exact (List.append_nil _).trans ha
    | sent | stopped | woke | answered _ | unknown _ => exact ha
  exact execute_invariant now hstep rfl effects

theorem apply_recorded (hf : ∀ session_id, f (.disconnected session_id) = none) (x : Exec)
    (event : Event) (now : Instant) :
    recorded f (x.apply event now).actor.calls = recorded f x.actor.calls ++ (f event).toList := by
  cases hres : (x.actor.state.apply event now).2 with
  | ok effects =>
      simp only [Exec.apply, BrokerActor.call, hres]
      rw [execute_recorded hf]
      exact recorded_snoc _ _
  | error e =>
      simp only [Exec.apply, BrokerActor.call, hres]
      exact recorded_snoc _ _

theorem handle_recorded (hf : ∀ session_id, f (.disconnected session_id) = none) {b : Broker}
    {t : Turn} {command : Command} {session_id : SessionId}
    (hin : t.input = .command command session_id) (x : Exec) :
    recorded f (x.handle session_id t.now command).1.actor.calls
      = recorded f x.actor.calls ++ ((eventFor b t).bind f).toList := by
  rw [eventFor, hin]
  cases command with
  | connect capacity outbound response =>
      simp only [Exec.handle, BrokerActor.call]
      split
      · rw [execute_recorded hf]
        exact recorded_snoc _ _
      · exact recorded_snoc _ _
  | ready active => exact apply_recorded hf _ _ _
  | locked active => exact apply_recorded hf _ _ _
  | disconnected active => exact apply_recorded hf _ _ _
  | response active request_id attempt packet => exact apply_recorded hf _ _ _
  | shutdown response => exact (List.append_nil _).symm

/-- **A turn records its own event**, and otherwise disconnects only. -/
theorem step_recorded (hf : ∀ session_id, f (.disconnected session_id) = none) {b b' : Broker}
    {t : Turn} {outputs : List Output} (h : b.step t = some (b', outputs)) :
    recorded f b'.actor.calls = recorded f b.actor.calls ++ ((eventFor b t).bind f).toList := by
  rw [Broker.step] at h
  split at h
  · cases h
  · cases hin : t.input with
    | localRequest request request_id requested_at =>
        simp only [hin] at h
        split at h
        · obtain ⟨rfl, _⟩ := Prod.mk.inj (Option.some.inj h)
          rw [eventFor, hin]
          exact apply_recorded hf _ _ _
        · cases h
    | localClosed =>
        simp only [hin] at h
        split at h
        · obtain ⟨rfl, _⟩ := Prod.mk.inj (Option.some.inj h)
          rw [eventFor, hin]
          exact (List.append_nil _).symm
        · cases h
    | cancelled request_id =>
        simp only [hin] at h
        obtain ⟨rfl, _⟩ := Prod.mk.inj (Option.some.inj h)
        rw [eventFor, hin]
        exact apply_recorded hf _ _ _
    | command command session_id =>
        simp only [hin] at h
        obtain ⟨rfl, _⟩ := Prod.mk.inj (Option.some.inj h)
        exact handle_recorded hf hin _
    | commandsClosed =>
        simp only [hin] at h
        obtain ⟨rfl, _⟩ := Prod.mk.inj (Option.some.inj h)
        rw [eventFor, hin]
        exact (List.append_nil _).symm
    | deadline =>
        simp only [hin] at h
        split at h
        · obtain ⟨rfl, _⟩ := Prod.mk.inj (Option.some.inj h)
          rw [eventFor, hin]
          exact apply_recorded hf _ _ _
        · cases h

end Record

end BrokerTask
