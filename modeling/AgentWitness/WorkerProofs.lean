import AgentWitness.LifecycleProofs
import AgentWitness.VaultModelProofs

/-! # The worker

    `worker/index.ts`: the vault state and the remote session behind one flat API.  A
    call runs from one await to the next in a single turn; what it awaits, and the vault
    state it CAPTURED on the way, is its `Stage`.  A promise settles in one action and
    the call goes on in another, so that anything may happen in between.

    The session calls back into the worker during its own turns.  `onDisconnect` locks
    the vault at once; the session has given its socket up by then, so the lock may as
    well run at the end of that turn.  The other callbacks, `onChange` and
    `handleRequest`, only start another reader of the vault state: they are the call
    `background`, which may begin at any time. -/

namespace Worker

open Packet KeyedMap RemoteProtocol RemoteClient Lifecycle VaultModel Transition

/-! ## Calls -/

/-- What can be called: the API of the worker, and the reads its callbacks start. -/
inductive Call where
  /-- `getState` and `subscribe`. -/
  | getState
  | connect (endpoint label : String)
  | setConnectionActive (active : Bool)
  | forgetPairing (endpoint : String)
  | registerPushSubscription (subscription : PushSubscription)
  | createVault (params : CreateVaultParams)
  | unlock (prfOutput : Bytes)
  | lock
  | addKey (pem : String) (comment : Option String)
  | removeKey (keyId : String)
  | destroy
  /-- `#publish` after a change, and `#handleRequest`. -/
  | background
  deriving DecidableEq

/-- `VaultState['status']`. -/
inductive VaultStatus where
  | noVault
  | locked
  | unlocked
  deriving DecidableEq

/-- The text of a status. -/
def VaultStatus.text : VaultStatus → String
  | .noVault => "no-vault"
  | .locked => "locked"
  | .unlocked => "unlocked"

/-- The status of a state. -/
def statusOf : VaultState → VaultStatus
  | .noVault => .noVault
  | .lockedVault _ => .locked
  | .unlockedVault _ _ => .unlocked

/-- `assertVaultStatus`: the error it throws, if it does. -/
def assertVaultStatus (state : VaultState) (statuses : List VaultStatus) : Option Failure :=
  if statusOf state ∈ statuses then none
  else some (.vaultError ("vault is " ++ (statusOf state).text ++ ", expected "
    ++ " or ".intercalate (statuses.map VaultStatus.text)))

/-- What the methods that change the vault have in common: the operation they await, the
    states they accept, whether they then sync the identities, and the readiness they
    then announce. -/
structure VaultCall where
  operation : Operation
  expected : List VaultStatus
  syncs : Bool
  ready : Option Bool
  deriving DecidableEq

def createVault (params : CreateVaultParams) : VaultCall :=
  ⟨.createVault params, [.noVault], true, some true⟩

def unlock (prfOutput : Bytes) : VaultCall := ⟨.unlock prfOutput, [.locked], false, some true⟩

def addKey (pem : String) (comment : Option String) : VaultCall :=
  ⟨.addKey pem comment, [.unlocked], true, none⟩

def removeKey (keyId : String) : VaultCall :=
  ⟨.removeKey keyId, [.locked, .unlocked], true, none⟩

def destroy : VaultCall := ⟨.destroy, [.locked, .unlocked], true, some false⟩

/-- The methods that change the vault. -/
def Call.vaultCall : Call → Option VaultCall
  | .createVault params => some (Worker.createVault params)
  | .unlock prfOutput => some (Worker.unlock prfOutput)
  | .addKey pem comment => some (Worker.addKey pem comment)
  | .removeKey keyId => some (Worker.removeKey keyId)
  | .destroy => some Worker.destroy
  | _ => none

/-! ## Awaiting -/

/-- What follows `await this.#current()`: the rest of the method, or the snapshot it
    answers with. -/
inductive Next where
  | body
  | answer
  deriving DecidableEq

/-- What a call awaits. -/
inductive Stage where
  /-- `openVault`, inside `#current`. -/
  | loading (next : Next)
  /-- It has resolved; `#current` goes on by storing it. -/
  | loaded (state : VaultState) (next : Next)
  /-- `#current` has returned a state. -/
  | holding (state : VaultState) (next : Next)
  /-- The vault operation, on the state it was called on. -/
  | operating (state : VaultState)
  | operated (state : VaultState) (result : Except Failure VaultState)
  /-- `RemoteSession.connect` or `forgetPairing`. -/
  | remote
  deriving DecidableEq

/-- An unfinished call. -/
structure Task where
  call : Call
  stage : Stage
  deriving DecidableEq

/-- What a call rejects with. -/
inductive Rejection where
  | vault (failure : Failure)
  | remote (cause : Cause)
  deriving DecidableEq

/-- What an observer sees of a turn. -/
inductive Event where
  | remote (output : ClientOutput)
  /-- `#lock` has run. -/
  | locked
  | started (token : Nat) (call : Call)
  /-- The result of the call's vault operation has become the vault state. -/
  | stored (token : Nat) (call : Call)
  | rejected (token : Nat) (rejection : Rejection)
  | answered (token : Nat)
  deriving DecidableEq

/-- What the worker's methods work on. -/
structure Core where
  state : Option VaultState
  remote : RemoteSession

/-- The vault state is `unlocked`. -/
def Core.isUnlocked (c : Core) : Bool := c.state.any VaultState.isUnlocked

/-- What a stretch of a method did, and what it threw. -/
structure Turn where
  core : Core
  events : List Event
  thrown : Option Rejection

def Core.done (c : Core) : Turn := ⟨c, [], none⟩

def Core.throw (c : Core) (rejection : Rejection) : Turn := ⟨c, [], some rejection⟩

/-- Go on unless something was thrown. -/
def Turn.andThen (t : Turn) (next : Core → Turn) : Turn :=
  match t.thrown with
  | some _ => t
  | none => { next t.core with events := t.events ++ (next t.core).events }

/-- Await something, unless something was thrown; `none` if the call is over. -/
def Turn.awaiting (t : Turn) (stage : Core → Stage) : Turn × Option Stage :=
  match t.thrown with
  | some _ => (t, none)
  | none => (t, some (stage t.core))

/-- Where a call is once it has called `#current`. -/
def Core.current (c : Core) (next : Next) : Stage :=
  match c.state with
  | some state => .holding state next
  | none => .loading next

/-! ## The remote session's methods and callbacks -/

/-- What a method of the session throws to the worker. -/
def thrownBy (outputs : List ClientOutput) : Option Rejection :=
  outputs.findSome? (fun output =>
    match output with
    | .threw cause => some (.remote cause)
    | _ => none)

variable (env : Environment)

/-- `#lock`. -/
def Core.lock (c : Core) : Turn :=
  match c.state with
  | some (.unlockedVault vault _) =>
      let r := c.remote.setReady env false
      ⟨⟨some (.lockedVault vault), r.1⟩, .locked :: r.2.map .remote, thrownBy r.2⟩
  | _ => ⟨c, [.locked], none⟩

/-- The session's part of a turn is over; `onDisconnect` locks. -/
def Core.returned (c : Core) (r : RemoteSession × List ClientOutput) : Turn :=
  let c := { c with remote := r.1 }
  if .disconnected ∈ r.2 then
    -- what `#handleDisconnect` throws is the rejection of a promise nobody awaits
    ⟨(c.lock env).core, r.2.map .remote ++ (c.lock env).events, thrownBy r.2⟩
  else ⟨c, r.2.map .remote, thrownBy r.2⟩

/-- The public identities of a state. -/
def identitiesOf (state : VaultState) : List AgentIdentity :=
  match state.vault with
  | none => []
  | some vault => vault.keys.map (fun key => ⟨key.publicKey, key.comment⟩)

/-- `#syncIdentities`. -/
def Core.syncIdentities (c : Core) (state : VaultState) : Turn :=
  c.returned env (c.remote.setIdentities env (identitiesOf state))

/-- `this.#remote.setReady(ready)`. -/
def Core.setReady (c : Core) (ready : Bool) : Turn :=
  c.returned env (c.remote.setReady env ready)

/-! ## The stretches of the methods -/

/-- From the call to its first await. -/
def Core.start (c : Core) : Call → Turn × Option Stage
  | .setConnectionActive active =>
      ((if active then c.done else c.lock env).andThen
        (fun c => c.returned env (c.remote.setActive active))).awaiting (Core.current · .answer)
  | .forgetPairing endpoint =>
      (c.returned env (c.remote.forgetPairing env endpoint)).awaiting (fun _ => .remote)
  | .registerPushSubscription subscription =>
      (c.returned env (c.remote.registerPushSubscription env subscription)).awaiting
        (Core.current · .answer)
  | .getState | .background => c.done.awaiting (Core.current · .answer)
  | .connect _ _ | .createVault _ | .unlock _ | .lock | .addKey _ _ | .removeKey _ | .destroy =>
      c.done.awaiting (Core.current · .body)

/-- From the state `#current` returned to the next await. -/
def Core.body (c : Core) (state : VaultState) : Call → Turn × Option Stage
  | .connect endpoint label =>
      (((c.syncIdentities env state).andThen
        (fun c => c.setReady env state.isUnlocked)).andThen
        (fun c => c.returned env (c.remote.connect env endpoint label))).awaiting (fun _ => .remote)
  | .lock => (c.lock env).awaiting (Core.current · .answer)
  | call =>
      match call.vaultCall with
      | none => c.done.awaiting (Core.current · .answer)
      | some vaultCall =>
          match assertVaultStatus state vaultCall.expected with
          | some failure => (c.throw (.vault failure)).awaiting (fun _ => .operating state)
          | none => c.done.awaiting (fun _ => .operating state)

/-- From the result of the vault operation to the snapshot. -/
def Core.store (c : Core) (vaultCall : VaultCall) (state : VaultState) : Turn :=
  let c := { c with state := some state }
  (if vaultCall.syncs then c.syncIdentities env state else c.done).andThen
    (fun c =>
      match vaultCall.ready with
      | none => c.done
      | some ready => c.setReady env ready)

/-- A call goes on after what it awaited has settled. -/
def Core.resume (c : Core) (token : Nat) (call : Call) : Stage → Option (Turn × Option Stage)
  | .loaded state next =>
      some (({ c with state := some state } : Core).done.awaiting (fun _ => .holding state next))
  | .holding state .body => some (c.body env state call)
  | .holding _ .answer => some (c.done, none)
  | .operated _ (.error failure) => some (c.throw (.vault failure), none)
  | .operated _ (.ok state) =>
      call.vaultCall.map (fun vaultCall =>
        let t := c.store env vaultCall state
        { t with events := .stored token call :: t.events }.awaiting (Core.current · .answer))
  | .loading _ | .operating _ | .remote => none

/-! ## The worker -/

/-- The worker, the store behind it and its unfinished calls. -/
structure WorkerSession where
  core : Core
  store : Store
  tasks : Map Nat Task
  /-- How many calls have been started. -/
  started : Nat

/-- A new worker over a store. -/
def WorkerSession.new (store : Store) : WorkerSession := ⟨⟨none, .new⟩, store, .empty, 0⟩

/-- What happens next. -/
inductive Action where
  | start (call : Call)
  /-- What a call awaits settles, with what it draws. -/
  | settle (token : Nat) (d : Draws)
  | resume (token : Nat)
  /-- A turn of the session that no method of the worker starts. -/
  | remote (action : ClientAction)

/-- The methods of the session; only the worker calls them. -/
def isMethod : ClientAction → Bool
  | .connect _ _ | .setActive _ | .forgetPairing _ | .setReady _ | .registerPushSubscription _
  | .setIdentities _ => true
  | _ => false

/-- What becomes of a call after one of its stretches. -/
def WorkerSession.advance (w : WorkerSession) (token : Nat) (call : Call)
    (r : Turn × Option Stage) : WorkerSession × List Event :=
  match r.2 with
  | some stage =>
      ({ w with core := r.1.core, tasks := w.tasks.insert token ⟨call, stage⟩ }, r.1.events)
  | none =>
      ({ w with core := r.1.core, tasks := w.tasks.erase token },
        r.1.events ++
          match r.1.thrown with
          | some rejection => [.rejected token rejection]
          | none => [.answered token])

/-- What a call awaits settles. -/
def WorkerSession.settle (p : Platform) (w : WorkerSession) (token : Nat) (task : Task)
    (d : Draws) : Option (WorkerSession × List Event) :=
  match task.stage with
  | .loading next =>
      match d.aborted with
      | some message =>
          -- `openVaultStore` or `openVault` rejects, and `#current` with it
          some ({ w with tasks := w.tasks.erase token },
            [.rejected token (.vault (.platform message))])
      | none =>
          some ({ w with
            tasks := w.tasks.insert token ⟨task.call, .loaded (openVault w.store) next⟩ }, [])
  | .operating state =>
      match task.call.vaultCall.bind (fun vaultCall => state.call p d vaultCall.operation) with
      | none => none
      | some m =>
          some ({ w with
            store := (m w.store).2
            tasks := w.tasks.insert token ⟨task.call, .operated state (m w.store).1⟩ }, [])
  | .remote =>
      -- the session settles the promise in a turn of its own
      match d.aborted with
      | some message =>
          some ({ w with tasks := w.tasks.erase token },
            [.rejected token (.remote (.store message))])
      | none =>
          some ({ w with tasks := w.tasks.insert token ⟨task.call, w.core.current .answer⟩ }, [])
  | .loaded _ _ | .holding _ _ | .operated _ _ => none

/-- One turn of the worker, if it can happen. -/
def WorkerSession.step (p : Platform) (w : WorkerSession) :
    Action → Option (WorkerSession × List Event)
  | .start call =>
      let r := { w with started := w.started + 1 }.advance w.started call (w.core.start env call)
      some (r.1, .started w.started call :: r.2)
  | .settle token d => (w.tasks.get? token).bind (fun task => w.settle p token task d)
  | .resume token =>
      (w.tasks.get? token).bind (fun task =>
        (w.core.resume env token task.call task.stage).map (w.advance token task.call))
  | .remote action =>
      if isMethod action then none
      else
        (w.core.remote.step env action).map (fun r =>
          ({ w with core := (w.core.returned env r).core }, (w.core.returned env r).events))

/-! ## What a turn can do to the vault state -/

variable {env}

/-- A stretch that stores no state of its own: it leaves the vault state alone or locks
    it. -/
structure Sinks (c : Core) (t : Turn) : Prop where
  state : t.core.state = c.state ∨ t.core.isUnlocked = false
  locked : .locked ∈ t.events → t.core.isUnlocked = false

theorem Sinks.done (c : Core) : Sinks c c.done := ⟨Or.inl rfl, fun h => (by cases h)⟩

theorem Sinks.throw (c : Core) (rejection : Rejection) : Sinks c (c.throw rejection) :=
  ⟨Or.inl rfl, fun h => (by cases h)⟩

theorem Sinks.isUnlocked {c : Core} {t : Turn} (h : Sinks c t) (hc : c.isUnlocked = false) :
    t.core.isUnlocked = false := by
  rcases h.state with hstate | hlocked
  · rw [Core.isUnlocked, hstate]
    exact hc
  · exact hlocked

theorem Sinks.andThen {c : Core} {t : Turn} {next : Core → Turn} (h : Sinks c t)
    (hnext : Sinks t.core (next t.core)) : Sinks c (t.andThen next) := by
  rw [Turn.andThen]
  cases t.thrown with
  | some rejection => exact h
  | none =>
      refine ⟨?_, ?_⟩
      · rcases hnext.state with hstate | hlocked
        · rcases h.state with hfirst | hfirst
          · exact Or.inl (hstate.trans hfirst)
          · exact Or.inr (hnext.isUnlocked hfirst)
        · exact Or.inr hlocked
      · intro hmem
        rcases List.mem_append.mp hmem with hmem | hmem
        · exact hnext.isUnlocked (h.locked hmem)
        · exact hnext.locked hmem

/-- After `#lock` the vault is not unlocked. -/
theorem lock_isUnlocked (c : Core) : (c.lock env).core.isUnlocked = false := by
  rw [Core.lock]
  split
  · rfl
  · rename_i hstate
    rw [Core.isUnlocked]
    cases hs : c.state with
    | none => rfl
    | some state =>
        cases state with
        | noVault => rfl
        | lockedVault vault => rfl
        | unlockedVault vault masterKey => exact absurd hs (hstate vault masterKey)

theorem lock_sinks (c : Core) : Sinks c (c.lock env) :=
  ⟨Or.inr (lock_isUnlocked c), fun _ => lock_isUnlocked c⟩

theorem locked_not_mem_outputs (outputs : List ClientOutput) :
    .locked ∉ outputs.map Event.remote := by
  intro h
  obtain ⟨_, _, heq⟩ := List.mem_map.mp h
  cases heq

theorem returned_sinks (c : Core) (r : RemoteSession × List ClientOutput) :
    Sinks c (c.returned env r) := by
  rw [Core.returned]
  split
  · exact ⟨Or.inr (lock_isUnlocked _), fun _ => lock_isUnlocked _⟩
  · exact ⟨Or.inl rfl, fun h => absurd h (locked_not_mem_outputs r.2)⟩

theorem awaiting_fst (t : Turn) (stage : Core → Stage) : (t.awaiting stage).1 = t := by
  rw [Turn.awaiting]
  cases t.thrown <;> rfl

theorem awaiting_snd {t : Turn} {stage : Core → Stage} {s : Stage}
    (h : (t.awaiting stage).2 = some s) : s = stage t.core := by
  rw [Turn.awaiting] at h
  cases ht : t.thrown with
  | some rejection =>
      rw [ht] at h
      cases h
  | none =>
      rw [ht] at h
      exact (Option.some.inj h).symm

theorem start_sinks (c : Core) (call : Call) : Sinks c (c.start env call).1 := by
  cases call with
  | setConnectionActive active =>
      rw [Core.start, awaiting_fst]
      refine Sinks.andThen ?_ (returned_sinks _ _)
      split
      · exact .done c
      · exact lock_sinks c
  | forgetPairing endpoint =>
      rw [Core.start, awaiting_fst]
      exact returned_sinks _ _
  | registerPushSubscription subscription =>
      rw [Core.start, awaiting_fst]
      exact returned_sinks _ _
  | _ => exact .done c

/-- A method that changes the vault awaits its operation, unless the vault is in the
    wrong state for it. -/
theorem body_vault {c : Core} {state : VaultState} {call : Call} {vaultCall : VaultCall}
    (h : call.vaultCall = some vaultCall) :
    c.body env state call = c.done.awaiting (fun _ => .operating state) ∨
      ∃ failure, c.body env state call
        = (c.throw (.vault failure)).awaiting (fun _ => .operating state) := by
  cases call with
  | createVault | unlock | addKey | removeKey | destroy =>
      rw [Core.body, h]
      · dsimp only
        cases assertVaultStatus state vaultCall.expected with
        | none => exact Or.inl rfl
        | some failure => exact Or.inr ⟨failure, rfl⟩
      · rintro _ _ ⟨⟩
      · rintro ⟨⟩
  | _ => cases h

theorem body_sinks (c : Core) (state : VaultState) (call : Call) :
    Sinks c (c.body env state call).1 := by
  cases hcall : call.vaultCall with
  | some vaultCall =>
      rcases body_vault hcall with hbody | ⟨failure, hbody⟩
      · rw [hbody, awaiting_fst]
        exact .done c
      · rw [hbody, awaiting_fst]
        exact .throw c _
  | none =>
      cases call with
      | connect endpoint label =>
          rw [Core.body, awaiting_fst]
          exact ((returned_sinks _ _).andThen (returned_sinks _ _)).andThen (returned_sinks _ _)
      | lock =>
          rw [Core.body, awaiting_fst]
          exact lock_sinks c
      | createVault | unlock | addKey | removeKey | destroy => cases hcall
      | _ => exact .done c

/-! ## Announcing readiness and identities -/

theorem exposed_not_disconnected {s : RemoteSession} {r : Outcome} (h : Carried env s r) :
    .disconnected ∉ r.exposed.2 := by
  intro hmem
  rw [Outcome.exposed] at hmem
  cases ht : r.thrown with
  | none =>
      rw [ht] at hmem
      exact h.plain _ hmem
  | some cause =>
      rw [ht] at hmem
      rcases List.mem_append.mp hmem with hmem | hmem
      · exact h.plain _ hmem
      · cases List.mem_singleton.mp hmem

/-- What `setReady` sends and starts is no matter of the connection. -/
theorem announced_carried {s : RemoteSession} {socket : SocketId} (hs : s.socket = some socket)
    (ready : Bool) :
    Carried env s ((s.send env socket (availability ready)).andThen
      (fun s => if ready then s.drain env socket else s.done)) := by
  refine (send_carried s socket (answers_availability ready)).andThen ?_
  intro t ht
  split
  · exact drain_carried (ht.socket.trans hs)
  · exact .silent (.refl t) none

theorem setReady_not_disconnected (s : RemoteSession) (ready : Bool) :
    .disconnected ∉ (s.setReady env ready).2 := by
  rw [RemoteSession.setReady]
  dsimp only
  split
  · exact List.not_mem_nil
  · rename_i socket hs
    split
    · exact exposed_not_disconnected (announced_carried (s := { s with ready := ready }) hs ready)
    · exact List.not_mem_nil

theorem setIdentities_not_disconnected (s : RemoteSession) (identities : List AgentIdentity) :
    .disconnected ∉ (s.setIdentities env identities).2 := by
  rw [RemoteSession.setIdentities]
  dsimp only
  split
  · exact List.not_mem_nil
  · split
    · exact exposed_not_disconnected (send_carried _ _ rfl)
    · exact List.not_mem_nil

theorem returned_connected (c : Core) {r : RemoteSession × List ClientOutput}
    (h : .disconnected ∉ r.2) :
    c.returned env r = ⟨{ c with remote := r.1 }, r.2.map .remote, thrownBy r.2⟩ := by
  rw [Core.returned, if_neg h]

/-- A stretch that leaves the vault state alone and does not lock. -/
structure Spares (c : Core) (t : Turn) : Prop where
  state : t.core.state = c.state
  locked : .locked ∉ t.events

theorem Spares.done (c : Core) : Spares c c.done := ⟨rfl, List.not_mem_nil⟩

theorem Spares.andThen {c : Core} {t : Turn} {next : Core → Turn} (h : Spares c t)
    (hnext : ∀ c', Spares c' (next c')) : Spares c (t.andThen next) := by
  rw [Turn.andThen]
  cases t.thrown with
  | some rejection => exact h
  | none =>
      refine ⟨(hnext _).state.trans h.state, ?_⟩
      intro hmem
      rcases List.mem_append.mp hmem with hmem | hmem
      · exact h.locked hmem
      · exact (hnext _).locked hmem

theorem setReady_spares (c : Core) (ready : Bool) : Spares c (c.setReady env ready) := by
  rw [Core.setReady, returned_connected c (setReady_not_disconnected _ _)]
  exact ⟨rfl, locked_not_mem_outputs _⟩

theorem syncIdentities_spares (c : Core) (state : VaultState) :
    Spares c (c.syncIdentities env state) := by
  rw [Core.syncIdentities, returned_connected c (setIdentities_not_disconnected _ _)]
  exact ⟨rfl, locked_not_mem_outputs _⟩

/-- The result of a vault operation becomes the vault state. -/
theorem store_spares (c : Core) (vaultCall : VaultCall) (state : VaultState) :
    Spares { c with state := some state } (c.store env vaultCall state) := by
  rw [Core.store]
  refine Spares.andThen ?_ ?_
  · split
    · exact syncIdentities_spares _ _
    · exact .done _
  · intro c'
    split
    · exact .done c'
    · exact setReady_spares c' _

/-! ## What becomes of the calls -/

theorem advance_core (w : WorkerSession) (token : Nat) (call : Call) (r : Turn × Option Stage) :
    (w.advance token call r).1.core = r.1.core := by
  rw [WorkerSession.advance]
  cases r.2 <;> rfl

theorem advance_store (w : WorkerSession) (token : Nat) (call : Call) (r : Turn × Option Stage) :
    (w.advance token call r).1.store = w.store := by
  rw [WorkerSession.advance]
  cases r.2 <;> rfl

theorem advance_tasks {w : WorkerSession} {token : Nat} {call : Call} {r : Turn × Option Stage}
    {token' : Nat} {task : Task} (h : (w.advance token call r).1.tasks.get? token' = some task) :
    (token' = token ∧ ∃ stage, r.2 = some stage ∧ task = ⟨call, stage⟩) ∨
      w.tasks.get? token' = some task := by
  rw [WorkerSession.advance] at h
  cases hr : r.2 with
  | none =>
      rw [hr] at h
      exact Or.inr (get?_of_erase h).2
  | some stage =>
      rw [hr] at h
      rcases get?_of_insert h with ⟨heq, htask⟩ | ⟨_, hold⟩
      · exact Or.inl ⟨heq, stage, rfl, htask⟩
      · exact Or.inr hold

theorem mem_advance_events {w : WorkerSession} {token : Nat} {call : Call}
    {r : Turn × Option Stage} (event : Event) (h : event ∈ r.1.events) :
    event ∈ (w.advance token call r).2 := by
  rw [WorkerSession.advance]
  cases r.2 with
  | none => exact List.mem_append_left _ h
  | some stage => exact h

theorem locked_of_advance {w : WorkerSession} {token : Nat} {call : Call} {r : Turn × Option Stage}
    (h : .locked ∈ (w.advance token call r).2) : .locked ∈ r.1.events := by
  rw [WorkerSession.advance] at h
  cases hr : r.2 with
  | some stage =>
      rw [hr] at h
      exact h
  | none =>
      rw [hr] at h
      rcases List.mem_append.mp h with h | h
      · exact h
      · cases ht : r.1.thrown with
        | none =>
            rw [ht] at h
            cases List.mem_singleton.mp h
        | some rejection =>
            rw [ht] at h
            cases List.mem_singleton.mp h

/-- What settling changes: one call goes on to its next stage, or is over. -/
inductive Settles (p : Platform) (w : WorkerSession) (token : Nat) (task : Task) (d : Draws) :
    WorkerSession → List Event → Prop where
  | loaded {next} : task.stage = .loading next →
      Settles p w token task d { w with
        tasks := w.tasks.insert token ⟨task.call, .loaded (openVault w.store) next⟩ } []
  | operated {state vaultCall m} : task.stage = .operating state →
      task.call.vaultCall = some vaultCall → state.call p d vaultCall.operation = some m →
      Settles p w token task d { w with
        store := (m w.store).2
        tasks := w.tasks.insert token ⟨task.call, .operated state (m w.store).1⟩ } []
  | refused {rejection} : (∃ next, task.stage = .loading next) ∨ task.stage = .remote →
      Settles p w token task d { w with tasks := w.tasks.erase token } [.rejected token rejection]
  | returned : task.stage = .remote →
      Settles p w token task d { w with
        tasks := w.tasks.insert token ⟨task.call, w.core.current .answer⟩ } []

theorem settle_settles {p : Platform} {w w' : WorkerSession} {token : Nat} {task : Task} {d : Draws}
    {events : List Event} (h : w.settle p token task d = some (w', events)) :
    Settles p w token task d w' events := by
  obtain ⟨call, stage⟩ := task
  cases stage with
  | loading next =>
      simp only [WorkerSession.settle] at h
      split at h
      · obtain ⟨rfl, rfl⟩ := Prod.mk.inj (Option.some.inj h)
        exact .refused (Or.inl ⟨next, rfl⟩)
      · obtain ⟨rfl, rfl⟩ := Prod.mk.inj (Option.some.inj h)
        exact .loaded rfl
  | operating state =>
      simp only [WorkerSession.settle] at h
      split at h
      · cases h
      · rename_i m hm
        obtain ⟨vaultCall, hv, hcall⟩ := Option.bind_eq_some_iff.mp hm
        obtain ⟨rfl, rfl⟩ := Prod.mk.inj (Option.some.inj h)
        exact .operated rfl hv hcall
  | remote =>
      simp only [WorkerSession.settle] at h
      split at h
      · obtain ⟨rfl, rfl⟩ := Prod.mk.inj (Option.some.inj h)
        exact .refused (Or.inr rfl)
      · obtain ⟨rfl, rfl⟩ := Prod.mk.inj (Option.some.inj h)
        exact .returned rfl
  | _ => cases h

/-- What a call awaits after its first stretch.  A method with a body has done nothing
    yet. -/
theorem start_stage {c : Core} {call : Call} {stage : Stage}
    (h : (c.start env call).2 = some stage) :
    stage = .remote ∨ stage = (c.start env call).1.core.current .answer ∨
      (stage = c.current .body ∧ (c.start env call).1 = c.done) := by
  cases call with
  | setConnectionActive active =>
      refine Or.inr (Or.inl ?_)
      rw [Core.start, awaiting_fst]
      exact awaiting_snd h
  | registerPushSubscription subscription =>
      refine Or.inr (Or.inl ?_)
      rw [Core.start, awaiting_fst]
      exact awaiting_snd h
  | forgetPairing endpoint => exact Or.inl (awaiting_snd h)
  | getState => exact Or.inr (Or.inl (awaiting_snd h))
  | background => exact Or.inr (Or.inl (awaiting_snd h))
  | _ => exact Or.inr (Or.inr ⟨awaiting_snd h, rfl⟩)

/-- What a call awaits after the body of its method.  Before a vault operation the body
    has done nothing yet. -/
theorem body_stage {c : Core} {state : VaultState} {call : Call} {stage : Stage}
    (h : (c.body env state call).2 = some stage) :
    stage = .remote ∨ stage = (c.body env state call).1.core.current .answer ∨
      (stage = .operating state ∧ (c.body env state call).1 = c.done) := by
  cases hcall : call.vaultCall with
  | some vaultCall =>
      refine Or.inr (Or.inr ?_)
      rcases body_vault hcall with hbody | ⟨failure, hbody⟩
      · rw [hbody] at h ⊢
        exact ⟨awaiting_snd h, awaiting_fst _ _⟩
      · rw [hbody] at h
        cases h
  | none =>
      cases call with
      | connect endpoint label => exact Or.inl (awaiting_snd h)
      | lock =>
          refine Or.inr (Or.inl ?_)
          rw [Core.body, awaiting_fst]
          exact awaiting_snd h
      | createVault | unlock | addKey | removeKey | destroy => cases hcall
      | _ => exact Or.inr (Or.inl (awaiting_snd h))

/-- `#current` returns the vault state, or has to load it. -/
theorem current_cases (c : Core) (next : Next) :
    (c.state = none ∧ c.current next = .loading next) ∨
      ∃ state, c.state = some state ∧ c.current next = .holding state next := by
  rw [Core.current]
  cases c.state with
  | none => exact Or.inl ⟨rfl, rfl⟩
  | some state => exact Or.inr ⟨state, rfl, rfl⟩

/-- How a call goes on. -/
inductive Resumes (env : Environment) (c : Core) (token : Nat) (call : Call) :
    Stage → Turn × Option Stage → Prop where
  | loaded {state next} : Resumes env c token call (.loaded state next)
      (({ c with state := some state } : Core).done, some (.holding state next))
  | body {state} : Resumes env c token call (.holding state .body) (c.body env state call)
  | answered {state} : Resumes env c token call (.holding state .answer) (c.done, none)
  | failed {state failure} : Resumes env c token call (.operated state (.error failure))
      (c.throw (.vault failure), none)
  | stored {state state' vaultCall t} : call.vaultCall = some vaultCall →
      t = { c.store env vaultCall state' with
        events := .stored token call :: (c.store env vaultCall state').events } →
      Resumes env c token call (.operated state (.ok state'))
        (t.awaiting (Core.current · .answer))

theorem resume_resumes {c : Core} {token : Nat} {call : Call} {stage : Stage}
    {r : Turn × Option Stage} (h : c.resume env token call stage = some r) :
    Resumes env c token call stage r := by
  cases stage with
  | loaded state next =>
      obtain rfl := Option.some.inj h
      exact .loaded
  | holding state next =>
      cases next with
      | body =>
          obtain rfl := Option.some.inj h
          exact .body
      | answer =>
          obtain rfl := Option.some.inj h
          exact .answered
  | operated state result =>
      cases result with
      | error failure =>
          obtain rfl := Option.some.inj h
          exact .failed
      | ok state' =>
          obtain ⟨vaultCall, hv, rfl⟩ := Option.map_eq_some_iff.mp h
          exact .stored hv rfl
  | _ => cases h

/-- **What one turn of the worker does.** -/
inductive Stepped (env : Environment) (p : Platform) (w : WorkerSession) :
    Action → WorkerSession → List Event → Prop where
  | started {call} : Stepped env p w (.start call)
      ({ w with started := w.started + 1 }.advance w.started call (w.core.start env call)).1
      (.started w.started call ::
        ({ w with started := w.started + 1 }.advance w.started call (w.core.start env call)).2)
  | settled {token task d w' events} : w.tasks.get? token = some task →
      Settles p w token task d w' events → Stepped env p w (.settle token d) w' events
  | resumed {token task r} : w.tasks.get? token = some task →
      Resumes env w.core token task.call task.stage r →
      Stepped env p w (.resume token) (w.advance token task.call r).1
        (w.advance token task.call r).2
  | remote {action r} : isMethod action = false → w.core.remote.step env action = some r →
      Stepped env p w (.remote action) { w with core := (w.core.returned env r).core }
        (w.core.returned env r).events

theorem step_stepped {p : Platform} {w w' : WorkerSession} {action : Action} {events : List Event}
    (h : w.step env p action = some (w', events)) : Stepped env p w action w' events := by
  cases action with
  | start call =>
      obtain ⟨rfl, rfl⟩ := Prod.mk.inj (Option.some.inj h)
      exact .started
  | settle token d =>
      obtain ⟨task, htask, hsettle⟩ := Option.bind_eq_some_iff.mp h
      exact .settled htask (settle_settles hsettle)
  | resume token =>
      obtain ⟨task, htask, hresume⟩ := Option.bind_eq_some_iff.mp h
      obtain ⟨r, hr, heq⟩ := Option.map_eq_some_iff.mp hresume
      obtain ⟨rfl, rfl⟩ := Prod.mk.inj heq
      exact .resumed htask (resume_resumes hr)
  | remote action =>
      rw [WorkerSession.step] at h
      split at h
      · cases h
      · rename_i hmethod
        obtain ⟨r, hr, heq⟩ := Option.map_eq_some_iff.mp h
        obtain ⟨rfl, rfl⟩ := Prod.mk.inj heq
        exact .remote (Bool.eq_false_of_not_eq_true hmethod) hr

/-! ## What a settled promise brings -/

/-- Whether the result of a call's vault operation is unlocked. -/
def Yields (state state' : VaultState) : Call → Prop
  | .createVault _ | .unlock _ => state'.isUnlocked = true
  | .addKey _ _ | .removeKey _ => state'.isUnlocked = state.isUnlocked
  | .destroy => state'.isUnlocked = false
  | _ => True

theorem called_yields {p : Platform} {d : Draws} {store store' : Store} {state state' : VaultState}
    {call : Call} {vaultCall : VaultCall} (hv : call.vaultCall = some vaultCall)
    (h : Called p d store state vaultCall.operation (.ok state') store') :
    Yields state state' call := by
  cases call with
  | createVault params =>
      obtain rfl := Option.some.inj hv
      change Called p d store state (.createVault params) (.ok state') store' at h
      cases h
      rfl
  | unlock prfOutput =>
      obtain rfl := Option.some.inj hv
      change Called p d store state (.unlock prfOutput) (.ok state') store' at h
      cases h
      rfl
  | addKey pem comment =>
      obtain rfl := Option.some.inj hv
      change Called p d store state (.addKey pem comment) (.ok state') store' at h
      cases h
      rfl
  | removeKey keyId =>
      obtain rfl := Option.some.inj hv
      change Called p d store state (.removeKey keyId) (.ok state') store' at h
      cases h with
      | absent _ _ => rfl
      | removed _ _ =>
          cases state with
          | noVault => rfl
          | lockedVault vault => rfl
          | unlockedVault vault masterKey => rfl
  | destroy =>
      obtain rfl := Option.some.inj hv
      change Called p d store state .destroy (.ok state') store' at h
      cases h
      rfl
  | _ => trivial

theorem openVault_not_unlocked (store : Store) : (openVault store).isUnlocked = false := by
  rw [openVault]
  cases store.vault with
  | none => rfl
  | some vault => rfl

/-- A call has been brought what it awaited. -/
def Task.Sound (task : Task) : Prop :=
  match task.stage with
  | .loaded state _ => state.isUnlocked = false
  | .operated state (.ok state') => Yields state state' task.call
  | _ => True

/-- All calls have. -/
def Sound (w : WorkerSession) : Prop :=
  ∀ token task, w.tasks.get? token = some task → task.Sound

theorem sound_current (c : Core) (call : Call) (next : Next) :
    Task.Sound ⟨call, c.current next⟩ := by
  rcases current_cases c next with ⟨_, heq⟩ | ⟨_, _, heq⟩
  · rw [heq]
    trivial
  · rw [heq]
    trivial

theorem sound_resumed {c : Core} {token : Nat} {call : Call} {stage stage' : Stage}
    {r : Turn × Option Stage} (hr : Resumes env c token call stage r) (hs : r.2 = some stage') :
    Task.Sound ⟨call, stage'⟩ := by
  cases hr with
  | loaded =>
      obtain rfl := Option.some.inj hs
      trivial
  | body =>
      rcases body_stage hs with rfl | rfl | ⟨rfl, _⟩
      · trivial
      · exact sound_current _ _ _
      · trivial
  | answered => cases hs
  | failed => cases hs
  | stored _ _ =>
      obtain rfl := awaiting_snd hs
      exact sound_current _ _ _

theorem insert_tasks {m : Map Nat Task} {token token' : Nat} {task task' : Task}
    (h : (m.insert token task).get? token' = some task') :
    (token' = token ∧ task' = task) ∨ m.get? token' = some task' := by
  rcases get?_of_insert h with hnew | ⟨_, hold⟩
  · exact Or.inl hnew
  · exact Or.inr hold

theorem sound_settled {p : Platform} {w w' : WorkerSession} {token : Nat} {task : Task} {d : Draws}
    {events : List Event} (hw : Sound w) (hs : Settles p w token task d w' events) : Sound w' := by
  intro token' task' htask'
  cases hs with
  | loaded _ =>
      rcases insert_tasks htask' with ⟨_, rfl⟩ | hold
      · exact openVault_not_unlocked w.store
      · exact hw token' task' hold
  | @operated state _ m _ hv hcall =>
      rcases insert_tasks htask' with ⟨_, rfl⟩ | hold
      · have hcalled := call_called p hcall w.store
        generalize (m w.store).2 = store' at hcalled
        cases hresult : (m w.store).1 with
        | error failure => trivial
        | ok state' =>
            rw [hresult] at hcalled
            exact called_yields hv hcalled
      · exact hw token' task' hold
  | refused _ => exact hw token' task' (get?_of_erase htask').2
  | returned _ =>
      rcases insert_tasks htask' with ⟨_, rfl⟩ | hold
      · exact sound_current _ _ _
      · exact hw token' task' hold

theorem step_sound {p : Platform} {w w' : WorkerSession} {action : Action} {events : List Event}
    (hw : Sound w) (hs : Stepped env p w action w' events) : Sound w' := by
  cases hs with
  | started =>
      intro token' task' htask'
      rcases advance_tasks htask' with ⟨_, stage, hnew, rfl⟩ | hold
      · rcases start_stage hnew with rfl | rfl | ⟨rfl, _⟩
        · trivial
        · exact sound_current _ _ _
        · exact sound_current _ _ _
      · exact hw token' task' hold
  | settled _ hsettles => exact sound_settled hw hsettles
  | resumed _ hresumes =>
      intro token' task' htask'
      rcases advance_tasks htask' with ⟨_, stage, hnew, rfl⟩ | hold
      · exact sound_resumed hresumes hnew
      · exact hw token' task' hold
  | remote _ _ => exact hw

theorem sound_new (store : Store) : Sound (.new store) := by
  intro token task htask
  cases htask

/-! ## Runs -/

/-- The actions and events of a run, oldest first. -/
abbrev History := List (Action × List Event)

/-- Any turn at all. -/
def AnyTurn (_ : WorkerSession) (_ : Action) : Prop := True

instance (w : WorkerSession) (action : Action) : Decidable (AnyTurn w action) :=
  inferInstanceAs (Decidable True)

theorem run_sound {p : Platform} {ok : WorkerSession → Action → Prop} {store : Store}
    {h : History} {w : WorkerSession}
    (hr : Run (Fires (WorkerSession.step env p) ok) (.new store) h w) : Sound w := by
  refine hr.invariant Sound (sound_new store) ?_
  rintro w ⟨action, events⟩ w' hw ⟨_, hstep⟩
  exact step_sound hw (step_stepped hstep)

end Worker
