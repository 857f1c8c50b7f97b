import AgentWitness.LockingProofs
import AgentWitness.SessionSettingsProofs

/-! # When the announced readiness matches the vault

    The worker keeps the vault state, and the remote session keeps a flag that says
    whether the vault is unlocked.  Nothing but `setReady` touches the flag, so each of the
    worker's stretches that changes the one has to see to the other itself.

    `#lock` writes BOTH at once.  The other stretches do so only under a condition on the
    moment they run in: that the vault state is still what the call captured, or that the
    identities they send first can be sent. -/

namespace Readiness

open Packet KeyedMap RemoteProtocol RemoteClient Lifecycle VaultModel Worker SessionSettings
open Transition
open Locking (plainStep lockDuringAdd lockedTwice secondLock unlockFifth run_lockedTwice runsLock)

/-! ## Flag and vault agree -/

/-- The ready flag is set exactly when the vault is unlocked. -/
def Aligned (c : Core) : Prop := c.remote.ready = c.isUnlocked

variable {env : Environment}

/-- `#lock` writes both. -/
theorem lock_aligned {c : Core} (hc : Aligned c) : Aligned (c.lock env).core := by
  rw [Core.lock]
  split
  · exact congrArg Prod.fst (setReady_settings _ _)
  · exact hc

/-- What leaves flag and vault state alone, up to a lock. -/
theorem returned_aligned {c : Core} {r : RemoteSession × List ClientOutput} (hc : Aligned c)
    (hr : r.1.ready = c.remote.ready) : Aligned (c.returned env r).core := by
  have hsame : Aligned { c with remote := r.1 } := hr.trans hc
  rw [Core.returned]
  split
  · exact lock_aligned hsame
  · exact hsame

/-- A second part keeps what the first established, and is not run if the first threw. -/
theorem andThen_core {P : Core → Prop} {t : Turn} {next : Core → Turn}
    (hthrown : t.thrown ≠ none → P t.core) (hnext : t.thrown = none → P (next t.core).core) :
    P (t.andThen next).core := by
  rw [Turn.andThen]
  cases ht : t.thrown with
  | some rejection => exact hthrown (by rw [ht]; rintro ⟨⟩)
  | none => exact hnext ht

theorem syncIdentities_aligned {c : Core} (hc : Aligned c) (state : VaultState) :
    Aligned (c.syncIdentities env state).core :=
  returned_aligned hc (congrArg Prod.fst (setIdentities_settings _ _))

/-- `setReady` is right for the state in force. -/
theorem setReady_aligned {c : Core} {ready : Bool} (hready : ready = c.isUnlocked) :
    Aligned (c.setReady env ready).core := by
  have hspares := @setReady_spares env c ready
  have hflag : (c.setReady env ready).core.remote.ready = ready := by
    rw [Core.setReady, returned_connected c (setReady_not_disconnected _ _)]
    exact congrArg Prod.fst (setReady_settings _ _)
  rw [Aligned, hflag, Core.isUnlocked, hspares.state]
  exact hready

/-- The first stretch of every call. -/
theorem start_aligned {c : Core} (hc : Aligned c) (call : Call) :
    Aligned (c.start env call).1.core := by
  cases call with
  | setConnectionActive active =>
      rw [Core.start, awaiting_fst]
      have hfirst : Aligned (if active then c.done else c.lock env).core := by
        split
        · exact hc
        · exact lock_aligned hc
      exact andThen_core (fun _ => hfirst)
        (fun _ => returned_aligned hfirst (congrArg Prod.fst (setActive_settings _ _)))
  | forgetPairing endpoint =>
      rw [Core.start, awaiting_fst]
      exact returned_aligned hc (congrArg Prod.fst (forgetPairing_settings _ _))
  | registerPushSubscription subscription =>
      rw [Core.start, awaiting_fst]
      exact returned_aligned hc (congrArg Prod.fst (registerPushSubscription_settings _ _))
  | _ => exact hc

/-! ## Announcing the identities and the readiness -/

/-- The identities can be announced: there is no connection, or they can be encoded and
    its socket is open. -/
def canSync (env : Environment) (s : RemoteSession) (identities : List AgentIdentity) : Bool :=
  match s.socket with
  | none => true
  | some socket =>
      s.snapshot.status ≠ .connected ∨
        (s.isOpen socket = true ∧ env.encodeError (.setIdentities identities) = none)

theorem setIdentities_of_canSync {s : RemoteSession} {identities : List AgentIdentity}
    (h : canSync env s identities = true) :
    thrownBy (s.setIdentities env identities).2 = none := by
  simp only [RemoteSession.setIdentities]
  split
  · rfl
  · rename_i socket hs
    change s.socket = some socket at hs
    rw [canSync, hs] at h
    split
    · rename_i hstatus
      obtain ⟨hopen, hencode⟩ := (of_decide_eq_true h).resolve_left (fun hne => hne hstatus)
      rw [RemoteSession.sendIdentities, RemoteSession.send, if_pos ⟨hs, hopen⟩, hencode]
      rfl
    · rfl

theorem syncIdentities_of_canSync {c : Core} {state : VaultState}
    (h : canSync env c.remote (identitiesOf state) = true) :
    (c.syncIdentities env state).thrown = none := by
  rw [Core.syncIdentities, returned_connected c (setIdentities_not_disconnected _ _)]
  exact setIdentities_of_canSync h

/-- `connect` announces the state it captured, and then tears the old connection down. -/
theorem connect_aligned {c : Core} {state : VaultState}
    (hsame : c.isUnlocked = state.isUnlocked)
    (hsync : canSync env c.remote (identitiesOf state) = true ∨
      c.remote.ready = state.isUnlocked) (endpoint label : String) :
    Aligned (c.body env state (.connect endpoint label)).1.core := by
  have hready : Aligned (((c.syncIdentities env state).andThen
      (fun c => c.setReady env state.isUnlocked)).core) := by
    refine andThen_core ?_ ?_
    · intro hthrown
      rcases hsync with hcan | hflag
      · exact absurd (syncIdentities_of_canSync hcan) hthrown
      · exact syncIdentities_aligned (hflag.trans hsame.symm) state
    · intro _
      refine setReady_aligned ?_
      rw [Core.isUnlocked, (syncIdentities_spares c state).state]
      exact hsame.symm
  rw [Core.body, awaiting_fst]
  exact andThen_core (fun _ => hready)
    (fun _ => returned_aligned hready (congrArg Prod.fst (connect_settings _ _ _)))

/-- `connect` announces the state it captured; the other bodies announce nothing. -/
theorem body_aligned {c : Core} (hc : Aligned c) {state : VaultState} {call : Call}
    (hconnect : ∀ endpoint label, call = .connect endpoint label →
      c.isUnlocked = state.isUnlocked) : Aligned (c.body env state call).1.core := by
  cases hcall : call.vaultCall with
  | some vaultCall =>
      rcases body_vault hcall with hbody | ⟨failure, hbody⟩
      · rw [hbody, awaiting_fst]
        exact hc
      · rw [hbody, awaiting_fst]
        exact hc
  | none =>
      cases call with
      | connect endpoint label =>
          have hsame := hconnect endpoint label rfl
          exact connect_aligned hsame (Or.inr (hc.trans hsame)) endpoint label
      | lock =>
          rw [Core.body, awaiting_fst]
          exact lock_aligned hc
      | createVault | unlock | addKey | removeKey | destroy => cases hcall
      | _ => exact hc

/-- The identities are announced and then the readiness that goes with the new state. -/
theorem store_aligned {c : Core} {vaultCall : VaultCall} {state : VaultState}
    (hready : vaultCall.ready = none → c.remote.ready = state.isUnlocked)
    (hright : ∀ ready, vaultCall.ready = some ready → ready = state.isUnlocked)
    (hsync : vaultCall.syncs = true → canSync env c.remote (identitiesOf state) = true ∨
      c.remote.ready = state.isUnlocked) : Aligned (c.store env vaultCall state).core := by
  -- the stretch up to the announced identities: if it ends there, the flag is the old one
  have hsynced : ∀ t : Turn, t = (if vaultCall.syncs
        then ({ c with state := some state } : Core).syncIdentities env state
        else ({ c with state := some state } : Core).done) →
      t.core.state = some state ∧ (c.remote.ready = state.isUnlocked → Aligned t.core) ∧
        (t.thrown ≠ none → c.remote.ready = state.isUnlocked) := by
    rintro t rfl
    cases hsyncs : vaultCall.syncs with
    | false => exact ⟨rfl, fun hflag => hflag, fun ht => absurd rfl ht⟩
    | true =>
        refine ⟨(syncIdentities_spares _ _).state,
          fun hflag => syncIdentities_aligned (c := { c with state := some state }) hflag state, ?_⟩
        intro hthrown
        rcases hsync hsyncs with hcan | hflag
        · exact absurd (syncIdentities_of_canSync (c := { c with state := some state }) hcan)
            hthrown
        · exact hflag
  obtain ⟨hstate, haligned, hthrown⟩ := hsynced _ rfl
  rw [Core.store]
  refine andThen_core (fun ht => haligned (hthrown ht)) ?_
  intro _
  cases hr : vaultCall.ready with
  | none => exact haligned (hready hr)
  | some ready =>
      refine setReady_aligned ?_
      rw [hright ready hr, Core.isUnlocked, hstate]
      rfl

/-! ## What a stretch relies on -/

/-- The stretch a call is about to run finds what it relies on: the loaded state replaces
    none that is unlocked; `connect`, `addKey` and `removeKey` find the vault unlocked
    exactly if the state they captured was; and the identities that `createVault` and
    `destroy` announce before the readiness can be announced, unless the flag is right
    already. -/
def Timely (env : Environment) (c : Core) (task : Task) : Bool :=
  match task.stage with
  | .loaded _ _ => c.isUnlocked = false
  | .holding state .body =>
      match task.call with
      | .connect _ _ => c.isUnlocked = state.isUnlocked
      | _ => true
  | .operated state (.ok state') =>
      match task.call with
      | .addKey _ _ | .removeKey _ => c.isUnlocked = state.isUnlocked
      | .createVault _ => canSync env c.remote (identitiesOf state') ∨ c.isUnlocked = true
      | .destroy => canSync env c.remote (identitiesOf state') ∨ c.isUnlocked = false
      | _ => true
  | _ => true

/-- A call goes on only when its next stretch is timely. -/
def InTime (env : Environment) (w : WorkerSession) : Action → Prop
  | .resume token => (w.tasks.get? token).all (Timely env w.core) = true
  | _ => True

instance (w : WorkerSession) (action : Action) : Decidable (InTime env w action) := by
  unfold InTime
  split <;> infer_instance

/-- The stretch a call is about to run leaves flag and vault in agreement, whatever they
    were before: it writes both, or writes the one to what the other is already. -/
def Mends (env : Environment) (c : Core) (task : Task) : Bool :=
  match task.stage with
  | .loaded _ _ => c.remote.ready = false
  | .holding state .body =>
      match task.call with
      | .connect _ _ =>
          c.isUnlocked = state.isUnlocked ∧
            (canSync env c.remote (identitiesOf state) ∨ c.remote.ready = state.isUnlocked)
      | _ => false
  | .operated state (.ok state') =>
      match task.call with
      | .addKey _ _ | .removeKey _ => c.remote.ready = state.isUnlocked
      | .createVault _ => canSync env c.remote (identitiesOf state') ∨ c.remote.ready = true
      | .unlock _ => true
      | .destroy => canSync env c.remote (identitiesOf state') ∨ c.remote.ready = false
      | _ => false
  | _ => false

/-- A call that announces readiness last puts the flag right. -/
theorem store_ready_aligned {c : Core} {vaultCall : VaultCall} {state : VaultState}
    (hready : vaultCall.ready = some state.isUnlocked)
    (hsync : vaultCall.syncs = true → canSync env c.remote (identitiesOf state) = true ∨
      c.remote.ready = state.isUnlocked) : Aligned (c.store env vaultCall state).core := by
  refine store_aligned ?_ ?_ hsync
  · intro hnone
    rw [hready] at hnone
    cases hnone
  · intro ready heq
    rw [hready] at heq
    exact (Option.some.inj heq).symm

theorem stored_mends {c : Core} {call : Call} {vaultCall : VaultCall} {state state' : VaultState}
    (hv : call.vaultCall = some vaultCall) (hyields : Yields state state' call)
    (hmends : Mends env c ⟨call, .operated state (.ok state')⟩ = true) :
    Aligned (c.store env vaultCall state').core := by
  cases call with
  | createVault params =>
      obtain rfl := Option.some.inj hv
      have hunlocked : state'.isUnlocked = true := hyields
      refine store_ready_aligned (congrArg some hunlocked.symm) ?_
      intro _
      rw [hunlocked]
      exact of_decide_eq_true hmends
  | unlock prfOutput =>
      obtain rfl := Option.some.inj hv
      have hunlocked : state'.isUnlocked = true := hyields
      exact store_ready_aligned (congrArg some hunlocked.symm) (by rintro ⟨⟩)
  | addKey | removeKey =>
      obtain rfl := Option.some.inj hv
      have hflag : c.remote.ready = state'.isUnlocked :=
        (of_decide_eq_true hmends).trans hyields.symm
      exact store_aligned (fun _ => hflag) (by rintro _ ⟨⟩) (fun _ => Or.inr hflag)
  | destroy =>
      obtain rfl := Option.some.inj hv
      have hlocked : state'.isUnlocked = false := hyields
      refine store_ready_aligned (congrArg some hlocked.symm) ?_
      intro _
      rw [hlocked]
      exact of_decide_eq_true hmends
  | _ => cases hv

/-- While flag and vault agree, a timely result mends. -/
theorem mends_of_timely {c : Core} (hc : Aligned c) {call : Call} {vaultCall : VaultCall}
    {state state' : VaultState} (hv : call.vaultCall = some vaultCall)
    (htimely : Timely env c ⟨call, .operated state (.ok state')⟩ = true) :
    Mends env c ⟨call, .operated state (.ok state')⟩ = true := by
  have hflag : c.remote.ready = c.isUnlocked := hc
  cases call with
  | unlock prfOutput => rfl
  | createVault | addKey | removeKey | destroy =>
      dsimp only [Mends]
      rw [hflag]
      exact htimely
  | _ => cases hv

theorem resumes_aligned {c : Core} (hc : Aligned c) {token : Nat} {task : Task}
    {r : Turn × Option Stage} (hsound : task.Sound) (htimely : Timely env c task = true)
    (hr : Resumes env c token task.call task.stage r) : Aligned r.1.core := by
  obtain ⟨call, stage⟩ := task
  cases hr with
  | @loaded state next =>
      have hlocked : c.isUnlocked = false := of_decide_eq_true htimely
      show c.remote.ready = state.isUnlocked
      rw [show state.isUnlocked = false from hsound, ← hlocked]
      exact hc
  | body =>
      refine body_aligned hc ?_
      rintro endpoint label rfl
      exact of_decide_eq_true htimely
  | answered => exact hc
  | failed => exact hc
  | stored hv heq =>
      rw [awaiting_fst, heq]
      exact stored_mends hv hsound (mends_of_timely hc hv htimely)

/-- **Step lemma.** -/
theorem step_aligned {p : Platform} {w w' : WorkerSession} {action : Action} {events : List Event}
    (hw : Sound w) (hc : Aligned w.core) (hok : InTime env w action)
    (hs : Stepped env p w action w' events) : Aligned w'.core := by
  cases hs with
  | started =>
      rw [advance_core]
      exact start_aligned hc _
  | settled _ hsettles =>
      cases hsettles with
      | loaded _ => exact hc
      | operated _ _ _ => exact hc
      | refused _ => exact hc
      | returned _ => exact hc
  | @resumed token task r htask hresumes =>
      rw [advance_core]
      have htimely : Timely env w.core task = true := by
        have hall : (w.tasks.get? token).all (Timely env w.core) = true := hok
        rw [htask] at hall
        exact hall
      exact resumes_aligned hc (hw token task htask) htimely hresumes
  | remote hmethod hstep =>
      exact returned_aligned hc (congrArg Prod.fst (step_settings hmethod hstep))

/-! ## What puts the flag right again -/

/-- `#lock` on an unlocked vault writes flag and vault. -/
theorem lock_mends {c : Core} (hu : c.isUnlocked = true) : Aligned (c.lock env).core := by
  rw [Core.isUnlocked] at hu
  rw [Core.lock]
  cases hs : c.state with
  | none =>
      rw [hs] at hu
      cases hu
  | some state =>
      cases state with
      | unlockedVault vault masterKey => exact congrArg Prod.fst (setReady_settings _ _)
      | _ =>
          rw [hs] at hu
          cases hu

theorem returned_mends {c : Core} {r : RemoteSession × List ClientOutput}
    (hu : c.isUnlocked = true) (hl : .locked ∈ (c.returned env r).events) :
    Aligned (c.returned env r).core := by
  rw [Core.returned] at hl ⊢
  split
  · exact lock_mends hu
  · rename_i hconnected
    rw [if_neg hconnected] at hl
    exact absurd hl (locked_not_mem_outputs r.2)

/-- A lock in the second part of a stretch, after a first part that leaves the vault
    alone. -/
theorem andThen_mends {c : Core} {t : Turn} {next : Core → Turn} (ht : Spares c t)
    (hu : c.isUnlocked = true) (hl : .locked ∈ (t.andThen next).events)
    (hnext : t.core.isUnlocked = true → .locked ∈ (next t.core).events →
      Aligned (next t.core).core) : Aligned (t.andThen next).core := by
  have hsame : t.core.isUnlocked = true := by
    rw [Core.isUnlocked, ht.state]
    exact hu
  rw [Turn.andThen] at hl ⊢
  cases hthrown : t.thrown with
  | some rejection =>
      rw [hthrown] at hl
      exact absurd hl ht.locked
  | none =>
      rw [hthrown] at hl
      exact hnext hsame ((List.mem_append.mp hl).resolve_left ht.locked)

theorem start_mends {c : Core} (hu : c.isUnlocked = true) {call : Call}
    (hl : .locked ∈ (c.start env call).1.events) : Aligned (c.start env call).1.core := by
  cases call with
  | setConnectionActive active =>
      rw [Core.start, awaiting_fst] at hl ⊢
      cases active with
      | true => exact andThen_mends (.done c) hu hl (fun hu hl => returned_mends hu hl)
      | false =>
          have hlocked : Aligned (c.lock env).core := lock_mends hu
          exact andThen_core (fun _ => hlocked)
            (fun _ => returned_aligned hlocked (congrArg Prod.fst (setActive_settings _ _)))
  | forgetPairing endpoint =>
      rw [Core.start, awaiting_fst] at hl ⊢
      exact returned_mends hu hl
  | registerPushSubscription subscription =>
      rw [Core.start, awaiting_fst] at hl ⊢
      exact returned_mends hu hl
  | _ => cases hl

theorem body_mends {c : Core} (hu : c.isUnlocked = true) {state : VaultState} {call : Call}
    (hl : .locked ∈ (c.body env state call).1.events) :
    Aligned (c.body env state call).1.core := by
  cases hcall : call.vaultCall with
  | some vaultCall =>
      rcases body_vault hcall with hbody | ⟨failure, hbody⟩
      · rw [hbody, awaiting_fst] at hl
        cases hl
      · rw [hbody, awaiting_fst] at hl
        cases hl
  | none =>
      cases call with
      | connect endpoint label =>
          rw [Core.body, awaiting_fst] at hl ⊢
          have hspares : Spares c ((c.syncIdentities env state).andThen
              (fun c => c.setReady env state.isUnlocked)) :=
            (syncIdentities_spares c state).andThen (fun c' => setReady_spares c' _)
          exact andThen_mends hspares hu hl (fun hu hl => returned_mends hu hl)
      | lock =>
          rw [Core.body, awaiting_fst]
          exact lock_mends hu
      | createVault | unlock | addKey | removeKey | destroy => cases hcall
      | _ => cases hl

/-- **Lock lemma.**  A turn that runs `#lock` on an unlocked vault puts the flag right. -/
theorem step_locked_aligned {p : Platform} {w w' : WorkerSession} {action : Action}
    {events : List Event} (hu : w.core.isUnlocked = true)
    (hs : Stepped env p w action w' events) (hl : .locked ∈ events) : Aligned w'.core := by
  cases hs with
  | started =>
      rw [advance_core]
      rcases List.mem_cons.mp hl with hl | hl
      · cases hl
      · exact start_mends hu (locked_of_advance hl)
  | settled _ hsettles =>
      cases hsettles with
      | loaded _ => cases hl
      | operated _ _ _ => cases hl
      | refused _ => cases List.mem_singleton.mp hl
      | returned _ => cases hl
  | @resumed _ task _ _ hresumes =>
      rw [advance_core]
      have hlocked := locked_of_advance hl
      obtain ⟨call, stage⟩ := task
      cases hresumes with
      | loaded => cases hlocked
      | body => exact body_mends hu hlocked
      | answered => cases hlocked
      | failed => cases hlocked
      | stored _ heq =>
          rw [awaiting_fst, heq] at hlocked
          rcases List.mem_cons.mp hlocked with hlocked | hlocked
          · cases hlocked
          · exact absurd hlocked (store_spares _ _ _).locked
  | remote _ _ => exact returned_mends hu hl

theorem resumes_mends {c : Core} {token : Nat} {task : Task} {r : Turn × Option Stage}
    (hsound : task.Sound) (hmends : Mends env c task = true)
    (hr : Resumes env c token task.call task.stage r) : Aligned r.1.core := by
  obtain ⟨call, stage⟩ := task
  cases hr with
  | @loaded state next =>
      have hflag : c.remote.ready = false := of_decide_eq_true hmends
      exact hflag.trans (Eq.symm hsound)
  | body =>
      cases call with
      | connect endpoint label =>
          obtain ⟨hsame, hsync⟩ := of_decide_eq_true hmends
          exact connect_aligned hsame hsync endpoint label
      | _ => cases hmends
  | answered => cases hmends
  | failed => cases hmends
  | stored hv heq =>
      rw [awaiting_fst, heq]
      exact stored_mends hv hsound hmends

/-! ## Runs -/

/-- A turn after which flag and vault agree, whatever they were before. -/
def Repairs (env : Environment) (p : Platform) (w : WorkerSession) : Action → Prop
  | .resume token =>
      (runsLock env p w (.resume token) = true ∧ w.core.isUnlocked = true) ∨
        (w.tasks.get? token).any (Mends env w.core) = true
  | action => runsLock env p w action = true ∧ w.core.isUnlocked = true

theorem step_repaired {p : Platform} {w w' : WorkerSession} {action : Action}
    {events : List Event} (hw : Sound w) (hr : Repairs env p w action)
    (hstep : w.step env p action = some (w', events)) : Aligned w'.core := by
  have hlock : runsLock env p w action = true ∧ w.core.isUnlocked = true →
      Aligned w'.core := by
    rintro ⟨hruns, hu⟩
    rw [runsLock, hstep] at hruns
    exact step_locked_aligned hu (step_stepped hstep) (List.contains_iff_mem.mp hruns)
  cases action with
  | resume token =>
      rcases hr with hr | hmends
      · exact hlock hr
      · cases step_stepped hstep with
        | resumed htask hresumes =>
            rw [htask] at hmends
            rw [advance_core]
            exact resumes_mends (hw token _ htask) hmends hresumes
  | _ => exact hlock hr

/-- A state in which flag and vault have been put right: the new worker, or what a
    repairing turn left, after whatever came before. -/
inductive Mended (env : Environment) (p : Platform) (store : Store) : WorkerSession → Prop where
  | new : Mended env p store (.new store)
  | repaired {before : Worker.History} {l : Action × List Event} {s t : WorkerSession} :
      Run (Fires (WorkerSession.step env p) AnyTurn) (.new store) before s →
      Fires (WorkerSession.step env p) (Repairs env p) s l t → Mended env p store t

theorem Mended.aligned {p : Platform} {store : Store} {t : WorkerSession}
    (h : Mended env p store t) : Sound t ∧ Aligned t.core := by
  cases h with
  | new => exact ⟨sound_new store, rfl⟩
  | repaired hbefore hrepair =>
      have hs := run_sound hbefore
      exact ⟨step_sound hs (step_stepped hrepair.2), step_repaired hs hrepair.1 hrepair.2⟩

/-- **Readiness matches the vault.**  The session's ready flag is set exactly if the vault
    is unlocked, at every moment of every run of the worker in which each call that went on
    since flag and vault were last put right (or since the start) found what its next
    stretch relies on.  So it is also whenever no call is outstanding. -/
theorem ready_iff_unlocked {p : Platform} {store : Store} {t : WorkerSession}
    (ht : Mended env p store t) {h : Worker.History} {w : WorkerSession}
    (hr : Run (Fires (WorkerSession.step env p) (InTime env)) t h w) :
    w.core.remote.ready = true ↔ w.core.isUnlocked = true := by
  have hinv : Sound w ∧ Aligned w.core := by
    refine hr.invariant (fun w => Sound w ∧ Aligned w.core) ht.aligned ?_
    rintro w ⟨action, events⟩ w' ⟨hw, hc⟩ ⟨hok, hstep⟩
    have hstepped := step_stepped hstep
    exact ⟨step_sound hw hstepped, step_aligned hw hc hok hstepped⟩
  rw [hinv.2]

/-- The vault is unlocked after the second lock. -/
def mendedRun : Worker.History × WorkerSession :=
  outcome plainStep (InTime plainBrowser) secondLock.2 unlockFifth

/-- After a lock that an `addKey` undid, the second lock puts the flag right; the vault is
    unlocked by a later call, and the flag is set. -/
theorem ready_iff_unlocked_again :
    lockedTwice.2.core.isUnlocked = true ∧ lockedTwice.2.core.remote.ready = false ∧
      mendedRun.2.core.isUnlocked = true ∧ mendedRun.2.core.remote.ready = true := by
  have hrepair : Fires plainStep (Repairs plainBrowser VaultDrift.plainPlatform)
      lockedTwice.2 (.resume 3, [.locked]) secondLock.2 := ⟨Or.inl ⟨by decide, by decide⟩, rfl⟩
  have hrun : Run (Fires plainStep (InTime plainBrowser)) secondLock.2 mendedRun.1 mendedRun.2 :=
    run_outcome plainStep (InTime plainBrowser) unlockFifth (by decide)
  have hunlocked : mendedRun.2.core.isUnlocked = true := by decide
  exact ⟨by decide, by decide, hunlocked,
    (ready_iff_unlocked (.repaired run_lockedTwice hrepair) hrun).mpr hunlocked⟩

/-- **The flag is left behind.**  The vault is locked while a key is being added; when the
    key has been added and no call is outstanding, the vault is unlocked and the flag is
    not set. -/
theorem addKey_leaves_ready_behind :
    let r := outcome plainStep AnyTurn (.new .fresh) lockDuringAdd
    Run (Fires plainStep AnyTurn) (.new .fresh) r.1 r.2 ∧
      (∀ entry ∈ r.2.tasks.entries, entry.2.call = .background) ∧
      r.2.core.isUnlocked = true ∧ r.2.core.remote.ready = false :=
  ⟨run_outcome plainStep AnyTurn lockDuringAdd (by decide), by decide, by decide,
    by decide⟩

end Readiness
