import AgentWitness.ReadinessProofs
import AgentWitness.ContextSchemaProofs

/-! # When a vault can be advertised

    The worker sends the public identities of its vault to the server, and
    `encodeClientMessage` checks them against the schema of `remote/protocol.ts`.
    The limits stand in the schema ONLY: `addKey` stores a key first and learns
    from the encoder afterwards that the vault has become too large to announce.

    Within the limits nothing else goes wrong.  Every vault state the worker holds,
    captures or stores comes from another one by one vault operation, and only
    `addKey` brings in something new. -/

namespace Advertised

open Packet KeyedMap RemoteProtocol RemoteClient Lifecycle VaultModel Worker
open SessionSettings Readiness ContextSchema Transition

/-! ## The schema of `set_identities` -/

def MAX_IDENTITIES : Nat := 64

def MAX_IDENTITY_KEY_BLOB_LENGTH : Nat := 16 * 1024

def MAX_IDENTITY_COMMENT_LENGTH : Nat := 1024

/-- One step of the path to a value. -/
inductive PathItem where
  | key (name : String)
  | index (position : Nat)
  deriving DecidableEq, Repr

/-- An issue and where in the message it was found. -/
structure MessageIssue where
  path : List PathItem
  issue : Issue
  deriving DecidableEq, Repr

/-- The issues of a part of a value. -/
def within (path : List PathItem) (issues : List MessageIssue) : List MessageIssue :=
  issues.map (fun found => ⟨path ++ found.path, found.issue⟩)

def identityKeyBlobSchema (value : Bytes) : List Issue :=
  ContextSchema.refine
    (fun value => 0 < value.length && value.length ≤ MAX_IDENTITY_KEY_BLOB_LENGTH)
    ("key blob must contain between 1 and " ++ toString MAX_IDENTITY_KEY_BLOB_LENGTH ++ " bytes")
    value

def identityCommentSchema (value : String) : List Issue :=
  ContextSchema.refine (fun value => utf8Length value ≤ MAX_IDENTITY_COMMENT_LENGTH)
    ("identity comment cannot exceed " ++ toString MAX_IDENTITY_COMMENT_LENGTH ++ " UTF-8 bytes")
    value

/-- An identity with its key blob under the given key. -/
def identityUnder (keyBlob : String) (identity : AgentIdentity) : List MessageIssue :=
  (identityKeyBlobSchema identity.key_blob).map (MessageIssue.mk [.key keyBlob])
    ++ (identityCommentSchema identity.comment).map (MessageIssue.mk [.key "comment"])

def wireIdentitySchema : AgentIdentity → List MessageIssue := identityUnder "key_blob"

def identitySchema : AgentIdentity → List MessageIssue := identityUnder "keyBlob"

/-- The `identities` of a `set_identities` message: `z.array(..).max(..)`. -/
def identitiesSchema (schema : AgentIdentity → List MessageIssue)
    (identities : List AgentIdentity) : List MessageIssue :=
  within [.key "message", .key "identities"]
    (identities.zipIdx.flatMap (fun entry => within [.index entry.2] (schema entry.1))
      ++ if MAX_IDENTITIES < identities.length then [⟨[], .tooBig MAX_IDENTITIES⟩] else [])

/-- What `encodeClientMessage` finds in a `set_identities` message: the message is
    checked, renamed and checked again. -/
def encodeIssues (identities : List AgentIdentity) : List MessageIssue :=
  if identitiesSchema identitySchema identities ≠ [] then
    identitiesSchema identitySchema identities
  else identitiesSchema wireIdentitySchema identities

/-- A browser with this schema, and with this text for the error that lists the
    issues. -/
def browser (base : Environment) (text : List MessageIssue → String) : Environment where
  href := base.href
  encodeError
    | .setIdentities identities =>
        if encodeIssues identities = [] then none else some (text (encodeIssues identities))
    | message => base.encodeError message
  canProcessBeforeReady := base.canProcessBeforeReady

/-- What the schema asks of one identity. -/
structure Modest (identity : AgentIdentity) : Prop where
  blob : 0 < identity.key_blob.length
  blob_le : identity.key_blob.length ≤ MAX_IDENTITY_KEY_BLOB_LENGTH
  comment : utf8Length identity.comment ≤ MAX_IDENTITY_COMMENT_LENGTH

/-- What the schema asks of the identities. -/
structure Advertisable (identities : List AgentIdentity) : Prop where
  few : identities.length ≤ MAX_IDENTITIES
  modest : ∀ identity ∈ identities, Modest identity

theorem refine_eq_nil {α : Type} {check : α → Bool} {message : String} {value : α} :
    ContextSchema.refine check message value = [] ↔ check value = true := by
  rw [ContextSchema.refine]
  cases check value <;> simp

theorem identityUnder_eq_nil {keyBlob : String} {identity : AgentIdentity} :
    identityUnder keyBlob identity = [] ↔ Modest identity := by
  rw [identityUnder, List.append_eq_nil_iff, List.map_eq_nil_iff, List.map_eq_nil_iff,
    identityKeyBlobSchema, identityCommentSchema, refine_eq_nil, refine_eq_nil,
    Bool.and_eq_true_iff, decide_eq_true_eq, decide_eq_true_eq, decide_eq_true_eq]
  constructor
  · rintro ⟨⟨hblob, hle⟩, hcomment⟩
    exact ⟨hblob, hle, hcomment⟩
  · intro hm
    exact ⟨⟨hm.blob, hm.blob_le⟩, hm.comment⟩

theorem identitiesSchema_eq_nil {keyBlob : String} {identities : List AgentIdentity} :
    identitiesSchema (identityUnder keyBlob) identities = [] ↔ Advertisable identities := by
  rw [identitiesSchema, within, List.map_eq_nil_iff, List.append_eq_nil_iff,
    List.flatMap_eq_nil_iff]
  constructor
  · rintro ⟨heach, hfew⟩
    constructor
    · by_contra hmany
      rw [if_pos (Nat.lt_of_not_le hmany)] at hfew
      cases hfew
    · intro identity hidentity
      obtain ⟨i, hi, rfl⟩ := List.getElem_of_mem hidentity
      have hentry := heach (identities[i], i) (List.mem_zipIdx_iff_getElem?.mpr (by simp [hi]))
      exact identityUnder_eq_nil.mp (List.map_eq_nil_iff.mp hentry)
  · intro ha
    refine ⟨?_, if_neg (Nat.not_lt.mpr ha.few)⟩
    intro entry hentry
    have hmem : entry.1 ∈ identities := List.fst_mem_of_mem_zipIdx hentry
    exact List.map_eq_nil_iff.mpr (identityUnder_eq_nil.mpr (ha.modest entry.1 hmem))

/-- The encoder accepts exactly the identities within the limits. -/
theorem encodeIssues_eq_nil {identities : List AgentIdentity} :
    encodeIssues identities = [] ↔ Advertisable identities := by
  rw [encodeIssues]
  by_cases hissue : identitiesSchema identitySchema identities ≠ []
  · rw [if_pos hissue]
    exact identitiesSchema_eq_nil
  · rw [if_neg hissue]
    exact identitiesSchema_eq_nil

theorem encodeError_eq_none {base : Environment} {text : List MessageIssue → String}
    {identities : List AgentIdentity} (h : Advertisable identities) :
    (browser base text).encodeError (.setIdentities identities) = none :=
  if_pos (encodeIssues_eq_nil.mpr h)

/-! ## The states a worker deals with -/

/-- The vault states that an unfinished call has captured. -/
def captured : Stage → List VaultState
  | .loading _ | .remote => []
  | .loaded state _ | .holding state _ | .operating state | .operated state (.error _) => [state]
  | .operated state (.ok state') => [state, state']

/-- The worker holds and announces identities within the limits. -/
structure Presentable (c : Core) : Prop where
  state : ∀ state, c.state = some state → Advertisable (identitiesOf state)
  remote : Advertisable c.remote.identities

/-- So do the store and all unfinished calls. -/
structure Sized (w : WorkerSession) : Prop where
  core : Presentable w.core
  store : Advertisable (identitiesOf (openVault w.store))
  tasks : ∀ token task, w.tasks.get? token = some task →
    ∀ state ∈ captured task.stage, Advertisable (identitiesOf state)

/-- `addKey` adds an identity within the limits to a vault that has room for it. -/
def fits (p : Platform) (state : VaultState) : Call → Bool
  | .addKey pem comment =>
      (identitiesOf state).length < MAX_IDENTITIES &&
        match p.parseOpenSSHPrivateKey pem with
        | .error _ => true
        | .ok parsed =>
            0 < parsed.publicBlob.length &&
              parsed.publicBlob.length ≤ MAX_IDENTITY_KEY_BLOB_LENGTH &&
              utf8Length (comment.getD parsed.comment) ≤ MAX_IDENTITY_COMMENT_LENGTH
  | _ => true

/-- What an unfinished call is about to add fits. -/
def Task.fits (p : Platform) (task : Task) : Bool :=
  match task.stage with
  | .operating state => Advertised.fits p state task.call
  | _ => true

/-- Vault operations run only when what they add fits. -/
def Fitting (p : Platform) (w : WorkerSession) : Worker.Action → Prop
  | .settle token _ => (w.tasks.get? token).all (Task.fits p) = true
  | _ => True

instance (p : Platform) (w : WorkerSession) : (a : Worker.Action) → Decidable (Fitting p w a)
  | .settle token _ => inferInstanceAs (Decidable ((w.tasks.get? token).all (Task.fits p) = true))
  | .start _ | .resume _ | .remote _ => inferInstanceAs (Decidable True)

theorem advertisable_nil : Advertisable [] := by
  refine ⟨Nat.zero_le _, ?_⟩
  intro identity hidentity
  cases hidentity

theorem advertisable_snoc {identities : List AgentIdentity} {identity : AgentIdentity}
    (h : Advertisable identities) (hroom : identities.length < MAX_IDENTITIES)
    (hidentity : Modest identity) : Advertisable (identities ++ [identity]) := by
  constructor
  · rw [List.length_append]
    exact hroom
  · intro other hother
    rcases List.mem_append.mp hother with hold | hnew
    · exact h.modest other hold
    · rw [List.mem_singleton.mp hnew]
      exact hidentity

theorem advertisable_sublist {identities fewer : List AgentIdentity}
    (h : Advertisable identities) (hsub : fewer.Sublist identities) : Advertisable fewer :=
  ⟨Nat.le_trans hsub.length_le h.few, fun identity hidentity =>
    h.modest identity (hsub.subset hidentity)⟩

/-- A key that fits can be added. -/
theorem adding_advertisable {p : Platform} {vault : Vault} {masterKey : CryptoKey} {pem : String}
    {comment : Option String} {parsed : ParsedKey} (d : Draws)
    (hfits : fits p (.unlockedVault vault masterKey) (.addKey pem comment) = true)
    (hparse : p.parseOpenSSHPrivateKey pem = .ok parsed)
    (hstate : Advertisable (identitiesOf (.unlockedVault vault masterKey))) :
    Advertisable (identitiesOf
      (.lockedVault (vault.adding (newEntry p d parsed comment)))) := by
  rw [fits, hparse] at hfits
  simp only [Bool.and_eq_true, decide_eq_true_eq] at hfits
  obtain ⟨hroom, ⟨hblob, hle⟩, hcomment⟩ := hfits
  have hidentities : identitiesOf (.lockedVault (vault.adding (newEntry p d parsed comment)))
      = identitiesOf (.unlockedVault vault masterKey)
        ++ [⟨parsed.publicBlob, comment.getD parsed.comment⟩] := List.map_append
  rw [hidentities]
  exact advertisable_snoc hstate hroom ⟨hblob, hle, hcomment⟩

theorem without_advertisable {state : VaultState} {vault : Vault} (keyId : String)
    (hvault : state.vault = some vault) (hstate : Advertisable (identitiesOf state)) :
    Advertisable (identitiesOf (.lockedVault (vault.without keyId))) := by
  have hidentities : identitiesOf state = identitiesOf (.lockedVault vault) := by
    rw [identitiesOf, hvault]
    rfl
  rw [hidentities] at hstate
  exact advertisable_sublist hstate (List.filter_sublist.map _)

/-- **One vault operation.**  What a state within the limits becomes is within the limits,
    and so is what is stored. -/
theorem called_advertisable {p : Platform} {d : Draws} {store store' : Store}
    {state : VaultState} {call : Call} {vaultCall : VaultCall} {result : Except Failure VaultState}
    (hv : call.vaultCall = some vaultCall)
    (h : Called p d store state vaultCall.operation result store') (hfits : fits p state call = true)
    (hstate : Advertisable (identitiesOf state))
    (hstore : Advertisable (identitiesOf (openVault store))) :
    (∀ state', result = .ok state' → Advertisable (identitiesOf state'))
      ∧ Advertisable (identitiesOf (openVault store')) := by
  generalize hop : vaultCall.operation = op at h
  cases h with
  | rejected =>
      refine ⟨?_, hstore⟩
      rintro state' ⟨⟩
  | created _ _ =>
      refine ⟨?_, advertisable_nil⟩
      rintro state' ⟨⟩
      exact advertisable_nil
  | unlocked _ =>
      refine ⟨?_, hstore⟩
      rintro state' ⟨⟩
      exact hstate
  | @added vault masterKey pem comment parsed imported data hparse _ _ _ =>
      have hcall : call = .addKey pem comment := by
        cases call with
        | addKey pem' comment' =>
            obtain rfl := Option.some.inj hv
            cases hop
            rfl
        | createVault | unlock | removeKey | destroy =>
            obtain rfl := Option.some.inj hv
            cases hop
        | _ => cases hv
      rw [hcall] at hfits
      have hadding := adding_advertisable d hfits hparse hstate
      refine ⟨?_, hadding⟩
      rintro state' ⟨⟩
      exact hadding
  | absent _ _ =>
      refine ⟨?_, hstore⟩
      rintro state' ⟨⟩
      exact hstate
  | @removed state vault keyId hvault _ =>
      have hwithout := without_advertisable keyId hvault hstate
      refine ⟨?_, hwithout⟩
      rintro state' ⟨⟩
      cases state with
      | noVault => exact advertisable_nil
      | lockedVault _ => exact hwithout
      | unlockedVault _ _ => exact hwithout
  | locked =>
      refine ⟨?_, hstore⟩
      rintro state' ⟨⟩
      exact hstate
  | destroyed _ =>
      refine ⟨?_, advertisable_nil⟩
      rintro state' ⟨⟩
      exact advertisable_nil

/-! ## What each stretch keeps -/

variable {env : Environment}

theorem lock_presentable {c : Core} (hc : Presentable c) : Presentable (c.lock env).core := by
  rw [Core.lock]
  split
  · rename_i vault masterKey hstate
    refine ⟨?_, ?_⟩
    · rintro state ⟨⟩
      exact hc.state (.unlockedVault vault masterKey) hstate
    · have hidentities : (c.remote.setReady env false).1.identities = c.remote.identities :=
        congrArg Prod.snd (setReady_settings _ _)
      show Advertisable (c.remote.setReady env false).1.identities
      rw [hidentities]
      exact hc.remote
  · exact hc

theorem returned_presentable {c : Core} {r : RemoteSession × List ClientOutput}
    (hc : Presentable c) (hr : Advertisable r.1.identities) :
    Presentable (c.returned env r).core := by
  have hsame : Presentable { c with remote := r.1 } := ⟨hc.state, hr⟩
  rw [Core.returned]
  split
  · exact lock_presentable hsame
  · exact hsame

/-- A turn of the session that leaves the identities alone. -/
theorem kept_presentable {c : Core} {r : RemoteSession × List ClientOutput} (hc : Presentable c)
    (hr : settings r.1 = settings c.remote) : Presentable (c.returned env r).core := by
  have hidentities : r.1.identities = c.remote.identities := congrArg Prod.snd hr
  refine returned_presentable hc ?_
  rw [hidentities]
  exact hc.remote

theorem syncIdentities_presentable {c : Core} (hc : Presentable c) {state : VaultState}
    (hstate : Advertisable (identitiesOf state)) :
    Presentable (c.syncIdentities env state).core := by
  have hidentities : (c.remote.setIdentities env (identitiesOf state)).1.identities
      = identitiesOf state := congrArg Prod.snd (setIdentities_settings _ _)
  refine returned_presentable hc ?_
  rw [hidentities]
  exact hstate

theorem setReady_presentable {c : Core} (hc : Presentable c) (ready : Bool) :
    Presentable (c.setReady env ready).core := by
  have hidentities : (c.remote.setReady env ready).1.identities = c.remote.identities :=
    congrArg Prod.snd (setReady_settings _ _)
  refine returned_presentable hc ?_
  rw [hidentities]
  exact hc.remote

theorem start_presentable {c : Core} (hc : Presentable c) (call : Call) :
    Presentable (c.start env call).1.core := by
  cases call with
  | setConnectionActive active =>
      rw [Core.start, awaiting_fst]
      have hfirst : Presentable (if active then c.done else c.lock env).core := by
        split
        · exact hc
        · exact lock_presentable hc
      exact andThen_core (fun _ => hfirst)
        (fun _ => kept_presentable hfirst (setActive_settings _ _))
  | forgetPairing endpoint =>
      rw [Core.start, awaiting_fst]
      exact kept_presentable hc (forgetPairing_settings _ _)
  | registerPushSubscription subscription =>
      rw [Core.start, awaiting_fst]
      exact kept_presentable hc (registerPushSubscription_settings _ _)
  | _ => exact hc

theorem body_presentable {c : Core} (hc : Presentable c) {state : VaultState}
    (hstate : Advertisable (identitiesOf state)) (call : Call) :
    Presentable (c.body env state call).1.core := by
  cases hcall : call.vaultCall with
  | some vaultCall =>
      rcases body_vault hcall with hbody | ⟨failure, hbody⟩
      · rw [hbody, awaiting_fst]
        exact hc
      · rw [hbody, awaiting_fst]
        exact hc
  | none =>
      cases call with
      | connect endpoint label =>
          rw [Core.body, awaiting_fst]
          have hsync := @syncIdentities_presentable env c hc state hstate
          have hready : Presentable (((c.syncIdentities env state).andThen
              (fun c => c.setReady env state.isUnlocked)).core) :=
            andThen_core (fun _ => hsync) (fun _ => setReady_presentable hsync _)
          exact andThen_core (fun _ => hready)
            (fun _ => kept_presentable hready (connect_settings _ _ _))
      | lock =>
          rw [Core.body, awaiting_fst]
          exact lock_presentable hc
      | createVault | unlock | addKey | removeKey | destroy => cases hcall
      | _ => exact hc

theorem store_presentable {c : Core} (hc : Presentable c) (vaultCall : VaultCall)
    {state : VaultState} (hstate : Advertisable (identitiesOf state)) :
    Presentable (c.store env vaultCall state).core := by
  have hset : Presentable ({ c with state := some state } : Core) := by
    refine ⟨?_, hc.remote⟩
    rintro state' ⟨⟩
    exact hstate
  have hfirst : Presentable (if vaultCall.syncs
      then ({ c with state := some state } : Core).syncIdentities env state
      else ({ c with state := some state } : Core).done).core := by
    split
    · exact syncIdentities_presentable hset hstate
    · exact hset
  rw [Core.store]
  refine andThen_core (fun _ => hfirst) ?_
  intro _
  cases vaultCall.ready with
  | none => exact hfirst
  | some ready => exact setReady_presentable hfirst ready

theorem resumes_presentable {c : Core} (hc : Presentable c) {token : Nat} {task : Task}
    {r : Turn × Option Stage}
    (hcaptured : ∀ state ∈ captured task.stage, Advertisable (identitiesOf state))
    (hr : Resumes env c token task.call task.stage r) : Presentable r.1.core := by
  obtain ⟨call, stage⟩ := task
  cases hr with
  | @loaded state next =>
      refine ⟨?_, hc.remote⟩
      rintro state' ⟨⟩
      exact hcaptured state List.mem_cons_self
  | @body state => exact body_presentable hc (hcaptured state List.mem_cons_self) call
  | answered => exact hc
  | failed => exact hc
  | @stored state state' vaultCall t _ heq =>
      rw [awaiting_fst, heq]
      exact store_presentable hc vaultCall
        (hcaptured state' (List.mem_cons_of_mem _ List.mem_cons_self))

/-! ## What each call captures -/

theorem current_captured {c : Core} (hc : Presentable c) (next : Next) :
    ∀ state ∈ captured (c.current next), Advertisable (identitiesOf state) := by
  intro state hstate
  rcases current_cases c next with ⟨_, heq⟩ | ⟨held, hheld, heq⟩
  · rw [heq] at hstate
    cases hstate
  · rw [heq] at hstate
    rw [List.mem_singleton.mp hstate]
    exact hc.state held hheld

theorem start_captured {c : Core} (hc : Presentable c) {call : Call} {stage : Stage}
    (h : (c.start env call).2 = some stage) :
    ∀ state ∈ captured stage, Advertisable (identitiesOf state) := by
  rcases start_stage h with rfl | rfl | ⟨rfl, _⟩
  · intro state hstate
    cases hstate
  · exact current_captured (start_presentable hc call) .answer
  · exact current_captured hc .body

theorem resumes_captured {c : Core} (hc : Presentable c) {token : Nat} {task : Task}
    {r : Turn × Option Stage} {stage : Stage}
    (hcaptured : ∀ state ∈ captured task.stage, Advertisable (identitiesOf state))
    (hr : Resumes env c token task.call task.stage r) (hs : r.2 = some stage) :
    ∀ state ∈ captured stage, Advertisable (identitiesOf state) := by
  have hafter := resumes_presentable hc hcaptured hr
  obtain ⟨call, before⟩ := task
  cases hr with
  | loaded =>
      obtain rfl := Option.some.inj hs
      exact hcaptured
  | body =>
      rcases body_stage hs with rfl | rfl | ⟨rfl, _⟩
      · intro state hstate
        cases hstate
      · exact current_captured hafter .answer
      · exact hcaptured
  | answered => cases hs
  | failed => cases hs
  | stored _ _ =>
      obtain rfl := awaiting_snd hs
      rw [awaiting_fst] at hafter
      exact current_captured hafter .answer

theorem settles_sized {p : Platform} {w w' : WorkerSession} {token : Nat} {task : Task} {d : Draws}
    {events : List Event} (hw : Sized w) (htask : w.tasks.get? token = some task)
    (hfits : Task.fits p task = true) (hs : Settles p w token task d w' events) : Sized w' := by
  have hcaptured := hw.tasks token task htask
  cases hs with
  | loaded _ =>
      refine ⟨hw.core, hw.store, ?_⟩
      intro token' task' htask'
      rcases insert_tasks htask' with ⟨_, rfl⟩ | hold
      · intro state hstate
        rw [List.mem_singleton.mp hstate]
        exact hw.store
      · exact hw.tasks token' task' hold
  | @operated state vaultCall m hstage hv hcall =>
      rw [hstage] at hcaptured
      have hstate : Advertisable (identitiesOf state) := hcaptured state List.mem_cons_self
      rw [Task.fits, hstage] at hfits
      obtain ⟨hresult, hstore⟩ := called_advertisable hv (call_called p hcall w.store) hfits hstate
        hw.store
      refine ⟨hw.core, hstore, ?_⟩
      intro token' task' htask'
      rcases insert_tasks htask' with ⟨_, rfl⟩ | hold
      · cases hm : (m w.store).1 with
        | error failure => exact hcaptured
        | ok state' =>
            intro other hother
            rcases List.mem_cons.mp hother with rfl | hnew
            · exact hstate
            · rw [List.mem_singleton.mp hnew]
              exact hresult state' hm
      · exact hw.tasks token' task' hold
  | refused _ =>
      exact ⟨hw.core, hw.store, fun token' task' htask' =>
        hw.tasks token' task' (get?_of_erase htask').2⟩
  | returned _ =>
      refine ⟨hw.core, hw.store, ?_⟩
      intro token' task' htask'
      rcases insert_tasks htask' with ⟨_, rfl⟩ | hold
      · exact current_captured hw.core .answer
      · exact hw.tasks token' task' hold

/-- **Step lemma.** -/
theorem step_sized {p : Platform} {w w' : WorkerSession} {action : Worker.Action}
    {events : List Event} (hw : Sized w) (hok : Fitting p w action)
    (hs : Stepped env p w action w' events) : Sized w' := by
  cases hs with
  | @started call =>
      refine ⟨?_, ?_, ?_⟩
      · rw [advance_core]
        exact start_presentable hw.core call
      · rw [advance_store]
        exact hw.store
      · intro token' task' htask'
        rcases advance_tasks htask' with ⟨_, stage, hnew, rfl⟩ | hold
        · exact start_captured hw.core hnew
        · exact hw.tasks token' task' hold
  | @settled token task d w' events htask hsettles =>
      have hall : (w.tasks.get? token).all (Task.fits p) = true := hok
      rw [htask] at hall
      exact settles_sized hw htask hall hsettles
  | @resumed token task r htask hresumes =>
      have hcaptured := hw.tasks token task htask
      refine ⟨?_, ?_, ?_⟩
      · rw [advance_core]
        exact resumes_presentable hw.core hcaptured hresumes
      · rw [advance_store]
        exact hw.store
      · intro token' task' htask'
        rcases advance_tasks htask' with ⟨_, stage, hnew, rfl⟩ | hold
        · exact resumes_captured hw.core hcaptured hresumes hnew
        · exact hw.tasks token' task' hold
  | remote hmethod hstep =>
      exact ⟨kept_presentable hw.core (step_settings hmethod hstep), hw.store, hw.tasks⟩

theorem sized_new {store : Store} (h : Advertisable (identitiesOf (openVault store))) :
    Sized (.new store) := by
  refine ⟨⟨?_, advertisable_nil⟩, h, ?_⟩
  · rintro state ⟨⟩
  · intro token task htask
    cases htask

theorem run_sized {p : Platform} {store : Store} {h : Worker.History} {w : WorkerSession}
    (hstore : Advertisable (identitiesOf (openVault store)))
    (hr : Run (Fires (WorkerSession.step env p) (Fitting p)) (.new store) h w) : Sized w := by
  refine hr.invariant Sized (sized_new hstore) ?_
  rintro w ⟨action, events⟩ w' hw ⟨hok, hstep⟩
  exact step_sized hw hok (step_stepped hstep)

/-! ## What the encoder makes of it -/

variable {base : Environment} {text : List MessageIssue → String}

/-- The session is not connected, or its socket is open. -/
def reachable (s : RemoteSession) : Bool :=
  match s.socket with
  | none => true
  | some socket => s.snapshot.status ≠ .connected ∨ s.isOpen socket = true

/-- Identities within the limits can be announced to whoever is there. -/
theorem canSync_of_reachable {s : RemoteSession} {identities : List AgentIdentity}
    (hreach : reachable s = true) (h : Advertisable identities) :
    Readiness.canSync (browser base text) s identities = true := by
  rw [reachable] at hreach
  rw [Readiness.canSync]
  cases hs : s.socket with
  | none => rfl
  | some socket =>
      rw [hs] at hreach
      refine decide_eq_true ?_
      rcases of_decide_eq_true hreach with hstatus | hopen
      · exact Or.inl hstatus
      · exact Or.inr ⟨hopen, encodeError_eq_none h⟩

/-- Identities within the limits are sent over an open socket. -/
theorem send_advertisable {s : RemoteSession} {identities : List AgentIdentity}
    (h : Advertisable identities) {socket : SocketId} (hsocket : s.socket = some socket)
    (hopen : s.isOpen socket = true) :
    (s.send (browser base text) socket (.setIdentities identities)).thrown = none := by
  rw [RemoteSession.send, if_pos ⟨hsocket, hopen⟩, encodeError_eq_none h]

theorem andThen_done_thrown (t : Turn) : (t.andThen (fun c => c.done)).thrown = t.thrown := by
  rw [Turn.andThen]
  cases hthrown : t.thrown with
  | none => rfl
  | some rejection => exact hthrown

/-- A stretch that threw nothing goes on with the state it left. -/
theorem awaiting_current {t : Turn} {state : VaultState} {next : Next} {events : List Event}
    (hthrown : t.thrown = none) (hstate : t.core.state = some state) :
    (Turn.awaiting { t with events := events } (Core.current · next)).1.thrown = none
      ∧ (Turn.awaiting { t with events := events } (Core.current · next)).2
        = some (.holding state next) := by
  rw [Turn.awaiting]
  dsimp only
  rw [hthrown, Core.current, hstate]
  exact ⟨rfl, rfl⟩

/-- **A vault within the limits is advertised.**  In every run of the worker in which keys
    are added only where they fit, `encodeClientMessage` accepts the identities of the
    vault state, of the stored vault and of the session.  So `addKey`, once its key is
    stored, throws nothing and goes on to its answer, unless the session is connected over
    a socket that is no longer open; and a handshake on an open socket can send the
    identities. -/
theorem fitting_vault_advertised {p : Platform} {store : Store} {h : Worker.History}
    {w : WorkerSession} (hstore : encodeIssues (identitiesOf (openVault store)) = [])
    (hr : Run (Fires (WorkerSession.step (browser base text) p) (Fitting p)) (.new store) h w) :
    (∀ state, w.core.state = some state → encodeIssues (identitiesOf state) = [])
      ∧ encodeIssues (identitiesOf (openVault w.store)) = []
      ∧ encodeIssues w.core.remote.identities = []
      ∧ (∀ token pem comment state state' r,
          w.tasks.get? token = some ⟨.addKey pem comment, .operated state (.ok state')⟩ →
          reachable w.core.remote = true →
          w.core.resume (browser base text) token (.addKey pem comment)
            (.operated state (.ok state')) = some r →
          r.1.thrown = none ∧ r.2 = some (.holding state' .answer))
      ∧ (∀ update socket, w.core.remote.socket = some socket →
          w.core.remote.isOpen socket = true →
          ((w.core.remote.setSnapshot update).sendIdentities (browser base text) socket).thrown
            = none) := by
  have hw := run_sized (encodeIssues_eq_nil.mp hstore) hr
  refine ⟨?_, encodeIssues_eq_nil.mpr hw.store, encodeIssues_eq_nil.mpr hw.core.remote, ?_, ?_⟩
  · intro state hstate
    exact encodeIssues_eq_nil.mpr (hw.core.state state hstate)
  · intro token pem comment state state' r htask hreach hresume
    have hadvertisable := hw.tasks token _ htask state'
      (List.mem_cons_of_mem _ List.mem_cons_self)
    obtain rfl := Option.some.inj hresume
    -- `addKey` announces no readiness, so what it throws is what the sync throws
    have hthrown : (w.core.store (browser base text) (Worker.addKey pem comment) state').thrown
        = none :=
      (andThen_done_thrown _).trans (Readiness.syncIdentities_of_canSync
        (c := { w.core with state := some state' }) (canSync_of_reachable hreach hadvertisable))
    have hstate : (w.core.store (browser base text) (Worker.addKey pem comment) state').core.state
        = some state' := (store_spares _ _ _).state
    exact awaiting_current hthrown hstate
  · intro update socket hsocket hopen
    exact send_advertisable (s := w.core.remote.setSnapshot update) hw.core.remote hsocket hopen

/-- The worker of the fixed runs, over an empty store. -/
abbrev phoneStep :=
  WorkerSession.step (browser Lifecycle.plainBrowser (fun _ => "invalid")) VaultDrift.plainPlatform

/-- A vault is created, the phone connects and adds a key. -/
def addWhileConnected (comment : String) : List Worker.Action :=
  Locking.createFirst ++ [.start (.connect "wss://home/" "phone"), .resume 1,
    .remote (.loaded 2 (.ok (some ⟨"wss://home/", ⟨100⟩, ⟨1⟩, [7], "phone", 0⟩)) (.ok 0)),
    .remote (.opened 0), .remote (.message 0 (.message (.authenticated ⟨100⟩ ⟨5⟩ [9]))),
    .remote (.receive 0), .start (.addKey "A" (some comment)), .resume 2,
    .settle 2 (VaultDrift.drawing "a"), .resume 2]

/-- The key has been stored, and the call is about to go on. -/
def storedRun : Worker.History × WorkerSession :=
  outcome phoneStep (Fitting VaultDrift.plainPlatform) (.new .fresh)
    (addWhileConnected "laptop").dropLast

theorem fitting_vault_advertised_phone :
    storedRun.2.core.remote.snapshot.status = .connected
      ∧ storedRun.2.store.vault.map Vault.ids = some ["a"]
      ∧ ∃ state state' r,
          storedRun.2.tasks.get? 2
              = some ⟨.addKey "A" (some "laptop"), .operated state (.ok state')⟩
            ∧ storedRun.2.core.resume (browser Lifecycle.plainBrowser (fun _ => "invalid")) 2
                (.addKey "A" (some "laptop")) (.operated state (.ok state')) = some r
            ∧ r.1.thrown = none ∧ r.2 = some (.holding state' .answer) := by
  have hrun : Run (Fires phoneStep (Fitting VaultDrift.plainPlatform)) (.new .fresh)
      storedRun.1 storedRun.2 :=
    run_outcome phoneStep (Fitting VaultDrift.plainPlatform) _ (by decide +kernel)
  refine ⟨by decide +kernel, by decide +kernel, ?_⟩
  have htask : storedRun.2.tasks.get? 2
      = some ⟨.addKey "A" (some "laptop"), .operated _ (.ok _)⟩ := rfl
  have hadds := (fitting_vault_advertised rfl hrun).2.2.2.1
  exact ⟨_, _, _, htask, rfl, hadds 2 "A" (some "laptop") _ _ _ htask (by decide +kernel) rfl⟩

/-- A comment of one byte more than the schema allows. -/
def longComment : String := String.ofList (List.replicate 1025 'k')

/-- **A key is stored and then refused.**  The call is rejected by the encoder when the key
    is in the store already. -/
theorem stored_key_refused :
    let r := outcome phoneStep AnyTurn (.new .fresh) (addWhileConnected longComment)
    Run (Fires phoneStep AnyTurn) (.new .fresh) r.1 r.2
      ∧ r.1.getLast?.map Prod.snd = some [.stored 2 (.addKey "A" (some longComment)),
          .remote (.threw (.unencodable "invalid")), .rejected 2 (.remote (.unencodable "invalid"))]
      ∧ (r.2.store.vault.map Vault.ids) = some ["a"]
      ∧ encodeIssues (identitiesOf (openVault r.2.store)) ≠ [] :=
  ⟨run_outcome phoneStep AnyTurn (addWhileConnected longComment) (by decide +kernel),
    by decide +kernel, by decide +kernel, by decide +kernel⟩

end Advertised
