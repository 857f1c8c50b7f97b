import AgentWitness.AgentRequestProofs
import AgentWitness.LockingProofs

/-! # What the worker records about settled requests

    `worker/index.ts` with its session: `#handleRequest` serves a request in the vault
    state that it captured, `#tryProcess` sends whatever packet that resolves to, and
    `#recordSettledAuthorization` notes how the request was settled.

    The outcome `signed` means RESPONDED.  Only a response settles a request so, but the
    session never looks at the response, and a failure to sign is an ordinary response.
    Each record therefore goes back to one turn that served the request, and says what
    its response says exactly when the vault state and the store of that turn sign. -/

namespace Settled

open Packet KeyedMap RemoteProtocol VaultModel RemoteClient Lifecycle ClientFlow Worker
open AgentRequest Transition

/-! ## Only a response settles a request as signed -/

/-- Any output but the settlement of a request as signed. -/
def unsigned : ClientOutput → Bool
  | .settled _ .signed => false
  | _ => true

/-- Nothing is settled as signed. -/
def Unsigned (outputs : List ClientOutput) : Prop := ∀ o ∈ outputs, unsigned o = true

theorem Unsigned.nil : Unsigned [] := fun _ ho => (by cases ho)

theorem Unsigned.one {o : ClientOutput} (h : unsigned o = true) : Unsigned [o] := by
  intro o' ho
  rw [List.mem_singleton.mp ho]
  exact h

theorem Unsigned.append {a b : List ClientOutput} (ha : Unsigned a) (hb : Unsigned b) :
    Unsigned (a ++ b) := by
  intro o ho
  rcases List.mem_append.mp ho with ho | ho
  · exact ha o ho
  · exact hb o ho

section Session

variable {env : Environment}

end Session

section Worker

variable {env : Environment}

/-- A stretch of the worker that settles nothing as signed. -/
def UnsignedTurn (t : Turn) : Prop := ∀ o, .remote o ∈ t.events → unsigned o = true

theorem UnsignedTurn.done (c : Core) : UnsignedTurn c.done := fun _ ho => (by cases ho)

theorem UnsignedTurn.throw (c : Core) (rejection : Rejection) : UnsignedTurn (c.throw rejection) :=
  fun _ ho => (by cases ho)

theorem UnsignedTurn.andThen {t : Turn} {next : Core → Turn} (h : UnsignedTurn t)
    (hnext : ∀ c, UnsignedTurn (next c)) : UnsignedTurn (t.andThen next) := by
  rw [Turn.andThen]
  cases t.thrown with
  | some rejection => exact h
  | none =>
      intro o ho
      rcases List.mem_append.mp ho with ho | ho
      · exact h o ho
      · exact hnext _ o ho

/-- What a handler settles with. -/
def isAnswer : Action → Bool
  | .remote (.resolved _ _) | .remote (.rejected _ _) => true
  | _ => false

end Worker

/-! ## The record -/

/-- How many settled requests are remembered. -/
def MAX_SETTLED_AUTHORIZATIONS : Nat := 64

structure SettledAuthorizationView where
  id : RequestId
  attempt : UInt32
  status : RemoteRequestOutcome
  settledAt : Nat
  deriving DecidableEq

/-- `#settledAuthorizations`, in the order of their first settlement. -/
abbrev SettledAuthorizations := Map Key SettledAuthorizationView

/-- The view of a request that is settled now. -/
def viewOf (now : Nat) (request : RemoteRequest) (status : RemoteRequestOutcome) :
    SettledAuthorizationView :=
  ⟨request.request_id, request.attempt, status, now⟩

/-- `#recordSettledAuthorization`. -/
def recordSettledAuthorization (now : Nat) (settled : SettledAuthorizations)
    (request : RemoteRequest) (status : RemoteRequestOutcome) : SettledAuthorizations :=
  if (signingRequest request.packet).isNone then settled
  else
    let settled := settled.insert (requestKey request) (viewOf now request status)
    if settled.len ≤ MAX_SETTLED_AUTHORIZATIONS then settled
    else
      match settled.keys.head? with
      | some oldest => settled.erase oldest
      | none => settled

/-- The callbacks of a turn, in order. -/
def recordAll (now : Nat) (settled : SettledAuthorizations) (events : List Event) :
    SettledAuthorizations :=
  events.foldl
    (fun settled event =>
      match event with
      | .remote (.settled request status) =>
          recordSettledAuthorization now settled request status
      | _ => settled)
    settled

/-- What an unfinished `#handleRequest` has come to. -/
inductive Serving where
  /-- `#current` opens the vault. -/
  | opening
  | opened (state : VaultState)
  /-- `#current` has returned a state. -/
  | holding (state : VaultState)
  /-- The backend of that state has read the store. -/
  | read (state : VaultState) (store : Store)

/-- The worker, its unfinished handlers and its record. -/
structure ServingWorker where
  worker : WorkerSession
  serving : Map Nat Serving
  settledAuthorizations : SettledAuthorizations

/-- A new worker over a store. -/
def ServingWorker.new (store : Store) : ServingWorker := ⟨.new store, .empty, .empty⟩

/-- What happens next. -/
inductive ServingAction where
  /-- A turn that settles no handler. -/
  | worker (action : Action)
  /-- The vault that `#current` opens is loaded. -/
  | load (token : Nat)
  /-- `#current` keeps it and returns it. -/
  | keep (token : Nat)
  | read (token : Nat)
  /-- The handler settles. -/
  | respond (token : Nat)

/-- A turn and its time. -/
structure ServingTurn where
  action : ServingAction
  now : Nat

/-- What an observer sees of a turn. -/
inductive Observation where
  | event (event : Event)
  /-- The request was served in this vault state from this store. -/
  | served (request : RemoteRequest) (state : VaultState) (store : Store)

/-- `#current`, for the handlers that a turn has started: the state is taken in the same
    turn.  Nothing after the start of a handler changes it in that turn, unless the
    session is given up, and then the answer is dropped. -/
def capture (w : WorkerSession) (serving : Map Nat Serving) : Map Nat Serving :=
  w.core.remote.handlers.entries.foldl
    (fun serving entry =>
      if entry.2.thrown.isSome ∨ (serving.get? entry.1).isSome then serving
      else
        serving.insert entry.1
          (match w.core.state with
            | some state => .holding state
            | none => .opening))
    serving

/-- What a turn of the worker leaves behind. -/
def ServingWorker.after (a : ServingWorker) (now : Nat) (r : WorkerSession × List Event) :
    ServingWorker where
  worker := r.1
  serving := capture r.1 a.serving
  settledAuthorizations := recordAll now a.settledAuthorizations r.2

/-- The text of a failure. -/
def messageOf : Failure → String
  | .vaultError message | .wrongPasskey message | .duplicateKey message | .error message
  | .platform message => message
  | .sshKey (.invalidKeyFormat message) | .sshKey (.unsupportedKey message) => message

/-- What `#handleRequest` settles with. -/
def settlement (p : Platform) (store : Store) (state : VaultState) (token : Nat) (packet : Bytes) :
    ClientAction :=
  match handleRequest p store state packet with
  | .ok served => .resolved token served.response
  | .error failure => .rejected token (messageOf failure)

/-- One turn, if it can happen. -/
def ServingWorker.step (env : Environment) (p : Platform) (a : ServingWorker)
    (t : ServingTurn) : Option (ServingWorker × List Observation) :=
  match t.action with
  | .worker action =>
      if isAnswer action then none
      else
        (a.worker.step env p action).map (fun r => (a.after t.now r, r.2.map .event))
  | .load token =>
      match a.serving.get? token with
      | some .opening =>
          some ({ a with
            serving := a.serving.insert token (.opened (openVault a.worker.store)) }, [])
      | _ => none
  | .keep token =>
      match a.serving.get? token with
      | some (.opened state) =>
          some ({ a with
            worker.core.state := some state
            serving := a.serving.insert token (.holding state) }, [])
      | _ => none
  | .read token =>
      match a.serving.get? token with
      | some (.holding state) =>
          some ({ a with serving := a.serving.insert token (.read state a.worker.store) }, [])
      | _ => none
  | .respond token =>
      match a.serving.get? token, a.worker.core.remote.handlers.get? token with
      | some (.read state store), some ⟨_, pending, none⟩ =>
          (a.worker.step env p (.remote (settlement p store state token
            pending.request.packet))).map (fun r =>
              ({ a with serving := a.serving.erase token }.after t.now r,
                .served pending.request state store :: r.2.map .event))
      | _, _ => none

/-! ## What a record says -/

section Runs

variable {env : Environment} {p : Platform} {a a' : ServingWorker} {t : ServingTurn}
  {observed : List Observation} {key : Key} {view : SettledAuthorizationView}

/-- Any turn. -/
def AnyTurn (_ : ServingWorker) (_ : ServingTurn) : Prop := True

instance (a : ServingWorker) (t : ServingTurn) : Decidable (AnyTurn a t) :=
  inferInstanceAs (Decidable True)

end Runs

/-! ## The phone is asked for a signature -/

abbrev phoneStep :=
  ServingWorker.step (workerEnvironment plainBrowser) VaultDrift.plainPlatform

end Settled
