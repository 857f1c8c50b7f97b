import AgentWitness.PacketProofs
import Mathlib.Data.List.Basic

/-! # The vault and its store

    `vault/vault.ts`, `vault/storage.ts`, `vault/agent-backend.ts` and the envelope
    encryption of `crypto/`.  A vault is in one of three states, each with the calls
    its type offers; a state is immutable and holds its OWN copy of the vault record,
    which every call that writes rebuilds and stores whole.

    A call is a computation over the store that may reject (`StoreM`); the store keeps
    what was written before the rejection.  What a call draws (identifiers, times,
    nonces, keys, the fate of its transaction) comes with it as `Draws`.  WebCrypto and
    the SSH key formats are the fields of a `Platform`; in the browser that is
    `WebCrypto.Subtle.platform`, over the models of `ssh/key.ts` and `crypto/ssh.ts`. -/

namespace VaultModel

open Packet KeyedMap

/-! ## Keys and the platform -/

/-- `ParsedKey['type']`: the SSH key algorithms the vault supports. -/
inductive KeyType where
  | sshEd25519
  | sshRsa
  | ecdsaSha2Nistp256
  deriving DecidableEq

/-- A parsed, unencrypted OpenSSH private key. -/
inductive ParsedKey where
  | ed25519 (comment : String) (publicBlob publicKey seed : Bytes)
  | rsa (comment : String) (publicBlob n e d p q iqmp : Bytes)
  | ecdsa (comment : String) (publicBlob : Bytes) (curve : String) (point d : Bytes)
  deriving DecidableEq

/-- The discriminant. -/
def ParsedKey.type : ParsedKey → KeyType
  | .ed25519 .. => .sshEd25519
  | .rsa .. => .sshRsa
  | .ecdsa .. => .ecdsaSha2Nistp256

/-- The comment every variant carries. -/
def ParsedKey.comment : ParsedKey → String
  | .ed25519 comment .. | .rsa comment .. | .ecdsa comment .. => comment

/-- The public blob every variant carries. -/
def ParsedKey.publicBlob : ParsedKey → Bytes
  | .ed25519 _ publicBlob .. | .rsa _ publicBlob .. | .ecdsa _ publicBlob .. => publicBlob

/-- The hash an RSA key is imported for. -/
inductive RsaHash where
  | sha256
  | sha512
  deriving DecidableEq

/-- The RSA signature algorithm a signing request asks for. -/
inductive RsaFlavor where
  | rsaSha2_256
  | rsaSha2_512
  deriving DecidableEq

/-- The serialization a key is wrapped in. -/
inductive KeyFormat where
  | raw
  | pkcs8
  | jwk
  deriving DecidableEq

/-- What WebCrypto lets a key be used for. -/
inductive KeyUsage where
  | wrapKey
  | unwrapKey
  | sign
  deriving DecidableEq

/-- The import parameters a WebCrypto key is bound to. -/
inductive Algorithm where
  | aesGcm (length : Nat)
  | ed25519
  | ecdsa (namedCurve : String)
  | rsassaPkcs1v15 (hash : RsaHash)
  deriving DecidableEq

/-- A WebCrypto key: its secret and what the platform attaches to it. -/
structure CryptoKey where
  material : Bytes
  algorithm : Algorithm
  extractable : Bool
  usages : List KeyUsage
  deriving DecidableEq

/-- `SSHKeyError` and its two subclasses. -/
inductive SSHKeyError where
  | invalidKeyFormat (message : String)
  | unsupportedKey (message : String)
  deriving DecidableEq

/-- What a rejected call rejects with. -/
inductive Failure where
  | vaultError (message : String)
  | wrongPasskey (message : String)
  | duplicateKey (message : String)
  | sshKey (error : SSHKeyError)
  | error (message : String)
  | platform (message : String)
  deriving DecidableEq

/-- What the vault calls: WebCrypto, `btoa`, and the SSH key formats of `ssh/key.ts`
    and `crypto/ssh.ts`, which `WebCrypto.Subtle.platform` fills in. -/
structure Platform where
  hkdf : Bytes → Bytes → Bytes → Except String Bytes
  wrapKey : KeyFormat → CryptoKey → CryptoKey → Bytes → Option Bytes → Except String Bytes
  unwrapKey : KeyFormat → Bytes → CryptoKey → Bytes → Option Bytes → Algorithm → Bool →
    List KeyUsage → Except String CryptoKey
  digest : Bytes → Bytes
  btoa : Bytes → String
  parseOpenSSHPrivateKey : String → Except SSHKeyError ParsedKey
  importSSHKey : ParsedKey → Except String CryptoKey
  sshSign : CryptoKey → KeyType → Bytes → RsaFlavor → Except String Bytes

/-- `random(12)`. -/
structure Nonce where
  bytes : Bytes
  length_eq : bytes.length = 12

instance : DecidableEq Nonce := fun a b =>
  decidable_of_iff (a.bytes = b.bytes) (by cases a; cases b; simp)

/-- What one call draws from its surroundings: the nonce of a sealed key, a generated
    master key, a UUID, the clock, the error its transaction aborts with, and which of
    the fulfilled promises `Promise.any` sees first. -/
structure Draws where
  nonce : Nonce
  masterKey : Bytes
  uuid : String
  now : Nat
  aborted : Option String
  first : Nat
  deriving DecidableEq

/-- A rejection by the platform. -/
def platformResult {α : Type} : Except String α → Except Failure α
  | .ok a => .ok a
  | .error message => .error (.platform message)

/-- `TextEncoder.encode`. -/
def encodeText (text : String) : Bytes := text.toUTF8.data.toList

/-! ## Envelope encryption -/

variable (p : Platform)

/-- `seal`: wrap a key, with the nonce in front of the ciphertext. -/
def sealKey (format : KeyFormat) (key wrappingKey : CryptoKey) (additionalData : Option Bytes)
    (iv : Nonce) : Except Failure Bytes :=
  match p.wrapKey format key wrappingKey iv.bytes additionalData with
  | .ok ciphertext => .ok (iv.bytes ++ ciphertext)
  | .error message => .error (.platform message)

/-- `unseal`: unwrap what `seal` made into a key that cannot be exported. -/
def unsealKey (format : KeyFormat) (blob : Bytes) (wrappingKey : CryptoKey) (importParams : Algorithm)
    (usages : List KeyUsage) (additionalData : Option Bytes) : Except Failure CryptoKey :=
  platformResult (p.unwrapKey format (blob.drop 12) wrappingKey (blob.take 12) additionalData
    importParams false usages)

def deriveWrappingKey (prfOutput salt : Bytes) : Except Failure CryptoKey :=
  match p.hkdf prfOutput salt (encodeText "agent-witness/wrap") with
  | .ok material => .ok ⟨material, .aesGcm 256, false, [.wrapKey, .unwrapKey]⟩
  | .error message => .error (.platform message)

/-- `generateMasterKey`, with the drawn secret. -/
def generateMasterKey (material : Bytes) : CryptoKey :=
  ⟨material, .aesGcm 256, true, [.wrapKey, .unwrapKey]⟩

def wrapMasterKey (master wrappingKey : CryptoKey) (iv : Nonce) : Except Failure Bytes :=
  sealKey p .raw master wrappingKey none iv

def unwrapMasterKey (blob : Bytes) (wrappingKey : CryptoKey) : Except Failure CryptoKey :=
  unsealKey p .raw blob wrappingKey (.aesGcm 256) [.wrapKey, .unwrapKey] none

def keyFormat : KeyType → KeyFormat
  | .sshEd25519 => .pkcs8
  | .sshRsa | .ecdsaSha2Nistp256 => .jwk

def importParamsFor (type : KeyType) (rsaHash : RsaHash) : Algorithm :=
  match type with
  | .sshEd25519 => .ed25519
  | .ecdsaSha2Nistp256 => .ecdsa "P-256"
  | .sshRsa => .rsassaPkcs1v15 rsaHash

/-- `wrapSSHKey`: the key id is the associated data. -/
def wrapSSHKey (sshKey : CryptoKey) (type : KeyType) (master : CryptoKey) (keyId : String)
    (iv : Nonce) : Except Failure Bytes :=
  sealKey p (keyFormat type) sshKey master (some (encodeText keyId)) iv

def unwrapSSHKey (blob : Bytes) (type : KeyType) (master : CryptoKey) (keyId : String)
    (rsaHash : RsaHash) : Except Failure CryptoKey :=
  unsealKey p (keyFormat type) blob master (importParamsFor type rsaHash) [.sign]
    (some (encodeText keyId))

/-- Drop the trailing padding of a base64 text. -/
def stripPadding (text : String) : String :=
  String.ofList (text.toList.reverse.dropWhile (· == '=')).reverse

def sshFingerprint (publicBlob : Bytes) : String :=
  "SHA256:" ++ stripPadding (p.btoa (p.digest publicBlob))

/-! ## The store -/

/-- One passkey enrolled to unlock the vault. -/
structure EnrolledPasskey where
  label : String
  credentialId : Bytes
  salt : Bytes
  wrappedMasterKey : Bytes
  addedAt : Nat
  deriving DecidableEq

/-- Public metadata for one stored SSH key. -/
structure PrivateKeyMeta where
  id : String
  comment : String
  type : KeyType
  publicKey : Bytes
  fingerprint : String
  addedAt : Nat
  deriving DecidableEq

/-- The vault record. -/
structure Vault where
  id : String
  version : Nat
  passkeys : List EnrolledPasskey
  keys : List PrivateKeyMeta
  createdAt : Nat
  deriving DecidableEq

/-- The ids the record lists. -/
def Vault.ids (vault : Vault) : List String := vault.keys.map PrivateKeyMeta.id

/-- The record with one more key. -/
def Vault.adding (vault : Vault) (added : PrivateKeyMeta) : Vault :=
  { vault with keys := vault.keys ++ [added] }

/-- The record without a key. -/
def Vault.without (vault : Vault) (keyId : String) : Vault :=
  { vault with keys := vault.keys.filter (fun key => key.id != keyId) }

/-- An encrypted SSH private key. -/
structure EncryptedKey where
  keyId : String
  data : Bytes
  deriving DecidableEq

/-- The two object stores a vault lives in: the single record, and the key blobs. -/
structure Store where
  vault : Option Vault
  keys : Map String EncryptedKey
  deriving DecidableEq

/-- Nothing has been stored. -/
def Store.fresh : Store := ⟨none, .empty⟩

/-- A pending add or removal of an encrypted key. -/
inductive KeyChange where
  | put (key : EncryptedKey)
  | remove (keyId : String)
  deriving DecidableEq

/-- What a key change does to the blobs. -/
def KeyChange.apply (keys : Map String EncryptedKey) : KeyChange → Map String EncryptedKey
  | .put key => keys.insert key.keyId key
  | .remove keyId => keys.erase keyId

/-- A computation over the store that may reject. -/
abbrev StoreM (α : Type) := Store → Except Failure α × Store

/-- A step that leaves the store alone. -/
def StoreM.lift {α : Type} (result : Except Failure α) : StoreM α := fun store => (result, store)

/-- Continue with what a step returned, unless it rejected. -/
def StoreM.andThen {α β : Type} (x : StoreM α) (f : α → StoreM β) : StoreM β := fun store =>
  match x store with
  | (.ok a, store') => f a store'
  | (.error failure, store') => (.error failure, store')

instance : Monad StoreM where
  pure a := StoreM.lift (.ok a)
  bind := StoreM.andThen

/-- One read-write transaction, which aborts as a whole or commits as a whole. -/
def transaction (aborted : Option String) (change : Store → Store) : StoreM Unit := fun store =>
  match aborted with
  | some message => (.error (.platform message), store)
  | none => (.ok (), change store)

def save (aborted : Option String) (vault : Vault) (change : Option KeyChange) : StoreM Unit :=
  transaction aborted fun store =>
    ⟨some vault, (change.map (KeyChange.apply store.keys)).getD store.keys⟩

/-- `destroy`. -/
def destroyStore (aborted : Option String) : StoreM Unit :=
  transaction aborted fun _ => .fresh

/-! ## Vault operations -/

/-- The material a vault is created from. -/
structure CreateVaultParams where
  prfOutput : Bytes
  credentialId : Bytes
  salt : Bytes
  label : String
  deriving DecidableEq

/-- The record `createNewVault` builds. -/
def newVault (d : Draws) (params : CreateVaultParams) (wrappedMasterKey : Bytes) : Vault where
  id := d.uuid
  version := 1
  createdAt := d.now
  passkeys := [⟨params.label, params.credentialId, params.salt, wrappedMasterKey, d.now⟩]
  keys := []

def createNewVault (d : Draws) (params : CreateVaultParams) : StoreM (Vault × CryptoKey) := do
  let wrappingKey ← .lift (deriveWrappingKey p params.prfOutput params.salt)
  let masterKey := generateMasterKey d.masterKey
  let wrappedMasterKey ← .lift (wrapMasterKey p masterKey wrappingKey d.nonce)
  let vault := newVault d params wrappedMasterKey
  save d.aborted vault none
  return (vault, masterKey)

/-- What one enrolled passkey makes of a PRF output. -/
def tryPasskey (prfOutput : Bytes) (passkey : EnrolledPasskey) : Except Failure CryptoKey :=
  match deriveWrappingKey p prfOutput passkey.salt with
  | .ok wrappingKey => unwrapMasterKey p passkey.wrappedMasterKey wrappingKey
  | .error failure => .error failure

/-- `recoverMasterKey`: `Promise.any` over the enrolled passkeys. -/
def recoverMasterKey (first : Nat) (vault : Vault) (prfOutput : Bytes) : Except Failure CryptoKey :=
  let fulfilled := vault.passkeys.filterMap (fun passkey => (tryPasskey p prfOutput passkey).toOption)
  match fulfilled[first % fulfilled.length]? with
  | some masterKey => .ok masterKey
  | none => .error (.wrongPasskey "could not unlock with the provided passkey")

/-- The entry `storeAddKey` builds for a parsed key. -/
def newEntry (d : Draws) (parsed : ParsedKey) (comment : Option String) : PrivateKeyMeta where
  id := d.uuid
  comment := comment.getD parsed.comment
  type := parsed.type
  publicKey := parsed.publicBlob
  fingerprint := sshFingerprint p parsed.publicBlob
  addedAt := d.now

def storeAddKey (d : Draws) (vault : Vault) (masterKey : CryptoKey) (pem : String)
    (comment : Option String) : StoreM Vault := do
  let parsed ← .lift ((p.parseOpenSSHPrivateKey pem).mapError .sshKey)
  if vault.keys.any (fun key => key.fingerprint == sshFingerprint p parsed.publicBlob) then
    .lift (.error (.duplicateKey "this key is already in the vault"))
  else
    let imported ← .lift (platformResult (p.importSSHKey parsed))
    let data ← .lift (wrapSSHKey p imported parsed.type masterKey d.uuid d.nonce)
    let updated := vault.adding (newEntry p d parsed comment)
    save d.aborted updated (some (.put ⟨d.uuid, data⟩))
    return updated

def storeRemoveKey (d : Draws) (vault : Vault) (keyId : String) : StoreM Vault := do
  let updated := vault.without keyId
  if updated.keys.length = vault.keys.length then
    return vault
  else
    save d.aborted updated (some (.remove keyId))
    return updated

/-! ## Vault states -/

/-- Any vault state, with the copy of the record it was made from. -/
inductive VaultState where
  | noVault
  | lockedVault (vault : Vault)
  | unlockedVault (vault : Vault) (masterKey : CryptoKey)
  deriving DecidableEq

/-- The record a state holds. -/
def VaultState.vault : VaultState → Option Vault
  | .noVault => none
  | .lockedVault vault => some vault
  | .unlockedVault vault _ => some vault

/-- The same kind of state over another record. -/
def VaultState.withVault : VaultState → Vault → VaultState
  | .noVault, _ => .noVault
  | .lockedVault _, vault => .lockedVault vault
  | .unlockedVault _ masterKey, vault => .unlockedVault vault masterKey

/-- `status === 'unlocked'`. -/
def VaultState.isUnlocked : VaultState → Bool
  | .unlockedVault _ _ => true
  | .noVault | .lockedVault _ => false

/-- The calls the states offer. -/
inductive Operation where
  | createVault (params : CreateVaultParams)
  | unlock (prfOutput : Bytes)
  | addKey (pem : String) (comment : Option String)
  | removeKey (keyId : String)
  | lock
  | destroy
  deriving DecidableEq

/-- Call a method of a state; `none` if the state's type does not have it. -/
def VaultState.call (d : Draws) : VaultState → Operation → Option (StoreM VaultState)
  | .noVault, .createVault params => some do
      let (vault, masterKey) ← createNewVault p d params
      return .unlockedVault vault masterKey
  | .lockedVault vault, .unlock prfOutput => some do
      let masterKey ← .lift (recoverMasterKey p d.first vault prfOutput)
      return .unlockedVault vault masterKey
  | .lockedVault vault, .removeKey keyId => some do
      let updated ← storeRemoveKey d vault keyId
      return .lockedVault updated
  | .lockedVault _, .destroy | .unlockedVault _ _, .destroy => some do
      destroyStore d.aborted
      return .noVault
  | .unlockedVault vault masterKey, .addKey pem comment => some do
      let updated ← storeAddKey p d vault masterKey pem comment
      return .unlockedVault updated masterKey
  | .unlockedVault vault masterKey, .removeKey keyId => some do
      let updated ← storeRemoveKey d vault keyId
      return .unlockedVault updated masterKey
  | .unlockedVault vault _, .lock => some (return .lockedVault vault)
  | _, _ => none

def openVault (store : Store) : VaultState :=
  match store.vault with
  | some vault => .lockedVault vault
  | none => .noVault

/-! ## Signing -/

/-- A parsed signing request. -/
structure SignRequest where
  keyBlob : Bytes
  data : Bytes
  flags : UInt32
  deriving DecidableEq

def rsaFlavorFromFlags (flags : UInt32) : RsaFlavor :=
  if flags &&& 4 ≠ 0 then .rsaSha2_512 else .rsaSha2_256

/-- The hash `sign` imports an RSA key for. -/
def rsaHashFor : RsaFlavor → RsaHash
  | .rsaSha2_512 => .sha512
  | .rsaSha2_256 => .sha256

/-- What the unlocked backend's `sign` hands to `sshSign`: the recovered key, its type
    and the flavor. -/
def signingKey (store : Store) (vault : Vault) (masterKey : CryptoKey) (request : SignRequest) :
    Except Failure (CryptoKey × KeyType × RsaFlavor) :=
  match vault.keys.find? (fun candidate => candidate.publicKey == request.keyBlob) with
  | none => .error (.error "no matching identity")
  | some key =>
      match store.keys.get? key.id with
      | none => .error (.error "missing key material")
      | some encrypted =>
          let flavor := rsaFlavorFromFlags request.flags
          match unwrapSSHKey p encrypted.data key.type masterKey key.id (rsaHashFor flavor) with
          | .ok recovered => .ok (recovered, key.type, flavor)
          | .error failure => .error failure

/-- `createUnlockedAgentBackend(…).sign`. -/
def sign (store : Store) (vault : Vault) (masterKey : CryptoKey) (request : SignRequest) :
    Except Failure Bytes :=
  match signingKey p store vault masterKey request with
  | .ok (key, type, flavor) => platformResult (p.sshSign key type request.data flavor)
  | .error failure => .error failure

/-! ## What one call can do -/

/-- What a call on a state returns and leaves in the store.  Three of the cases write a
    record, each the state's OWN one changed, and touch at most one blob. -/
inductive Called (d : Draws) (store : Store) :
    VaultState → Operation → Except Failure VaultState → Store → Prop where
  | rejected {state op failure} : Called d store state op (.error failure) store
  | created {params wrappingKey wrapped} :
      deriveWrappingKey p params.prfOutput params.salt = .ok wrappingKey →
      wrapMasterKey p (generateMasterKey d.masterKey) wrappingKey d.nonce = .ok wrapped →
      Called d store .noVault (.createVault params)
        (.ok (.unlockedVault (newVault d params wrapped) (generateMasterKey d.masterKey)))
        ⟨some (newVault d params wrapped), store.keys⟩
  | unlocked {vault prfOutput masterKey} :
      recoverMasterKey p d.first vault prfOutput = .ok masterKey →
      Called d store (.lockedVault vault) (.unlock prfOutput)
        (.ok (.unlockedVault vault masterKey)) store
  | added {vault masterKey pem comment parsed imported data} :
      p.parseOpenSSHPrivateKey pem = .ok parsed →
      (∀ key ∈ vault.keys, key.fingerprint ≠ sshFingerprint p parsed.publicBlob) →
      p.importSSHKey parsed = .ok imported →
      wrapSSHKey p imported parsed.type masterKey d.uuid d.nonce = .ok data →
      Called d store (.unlockedVault vault masterKey) (.addKey pem comment)
        (.ok (.unlockedVault (vault.adding (newEntry p d parsed comment)) masterKey))
        ⟨some (vault.adding (newEntry p d parsed comment)),
          store.keys.insert d.uuid ⟨d.uuid, data⟩⟩
  | absent {state vault keyId} : state.vault = some vault → keyId ∉ vault.ids →
      Called d store state (.removeKey keyId) (.ok state) store
  | removed {state vault keyId} : state.vault = some vault → keyId ∈ vault.ids →
      Called d store state (.removeKey keyId) (.ok (state.withVault (vault.without keyId)))
        ⟨some (vault.without keyId), store.keys.erase keyId⟩
  | locked {vault masterKey} :
      Called d store (.unlockedVault vault masterKey) .lock (.ok (.lockedVault vault)) store
  | destroyed {state vault} : state.vault = some vault →
      Called d store state .destroy (.ok .noVault) .fresh

theorem bind_lift {α β : Type} (result : Except Failure α) (f : α → StoreM β) (store : Store) :
    (StoreM.lift result >>= f) store
      = match result with
        | .ok a => f a store
        | .error failure => (.error failure, store) := by
  cases result <;> rfl

theorem bind_transaction {β : Type} (aborted : Option String) (change : Store → Store)
    (f : Unit → StoreM β) (store : Store) :
    (transaction aborted change >>= f) store
      = match aborted with
        | some message => (.error (.platform message), store)
        | none => f () (change store) := by
  cases aborted <;> rfl

/-- A call's last step only builds the next state. -/
theorem bind_return {α β : Type} (x : StoreM α) (f : α → β) (store : Store) :
    (x >>= fun a => pure (f a)) store = ((x store).1.map f, (x store).2) := by
  show StoreM.andThen x _ store = _
  rw [StoreM.andThen]
  rcases x store with ⟨_ | _, _⟩ <;> rfl

theorem createNewVault_cases (d : Draws) (params : CreateVaultParams) (store : Store) :
    (∃ failure, createNewVault p d params store = (.error failure, store)) ∨
      ∃ wrappingKey wrapped,
        deriveWrappingKey p params.prfOutput params.salt = .ok wrappingKey ∧
        wrapMasterKey p (generateMasterKey d.masterKey) wrappingKey d.nonce = .ok wrapped ∧
        createNewVault p d params store
          = (.ok (newVault d params wrapped, generateMasterKey d.masterKey),
              ⟨some (newVault d params wrapped), store.keys⟩) := by
  rw [createNewVault, bind_lift]
  cases hderive : deriveWrappingKey p params.prfOutput params.salt with
  | error failure => exact Or.inl ⟨failure, rfl⟩
  | ok wrappingKey =>
      simp only [bind_lift]
      cases hwrap : wrapMasterKey p (generateMasterKey d.masterKey) wrappingKey d.nonce with
      | error failure => exact Or.inl ⟨failure, rfl⟩
      | ok wrapped =>
          simp only [save, bind_transaction]
          cases d.aborted with
          | some message => exact Or.inl ⟨.platform message, rfl⟩
          | none => exact Or.inr ⟨wrappingKey, wrapped, rfl, hwrap, rfl⟩

theorem storeAddKey_cases (d : Draws) (vault : Vault) (masterKey : CryptoKey) (pem : String)
    (comment : Option String) (store : Store) :
    (∃ failure, storeAddKey p d vault masterKey pem comment store = (.error failure, store)) ∨
      ∃ parsed imported data, p.parseOpenSSHPrivateKey pem = .ok parsed ∧
        (∀ key ∈ vault.keys, key.fingerprint ≠ sshFingerprint p parsed.publicBlob) ∧
        p.importSSHKey parsed = .ok imported ∧
        wrapSSHKey p imported parsed.type masterKey d.uuid d.nonce = .ok data ∧
        storeAddKey p d vault masterKey pem comment store
          = (.ok (vault.adding (newEntry p d parsed comment)),
              ⟨some (vault.adding (newEntry p d parsed comment)),
                store.keys.insert d.uuid ⟨d.uuid, data⟩⟩) := by
  rw [storeAddKey, bind_lift]
  cases hparse : p.parseOpenSSHPrivateKey pem with
  | error failure => exact Or.inl ⟨.sshKey failure, rfl⟩
  | ok parsed =>
      simp only [Except.mapError]
      split
      · exact Or.inl ⟨_, rfl⟩
      · rename_i hnew
        rw [bind_lift]
        cases himport : p.importSSHKey parsed with
        | error message => exact Or.inl ⟨.platform message, rfl⟩
        | ok imported =>
            simp only [platformResult, bind_lift]
            cases hwrap : wrapSSHKey p imported parsed.type masterKey d.uuid d.nonce with
            | error failure => exact Or.inl ⟨failure, rfl⟩
            | ok data =>
                simp only [save, bind_transaction]
                cases d.aborted with
                | some message => exact Or.inl ⟨.platform message, rfl⟩
                | none =>
                    refine Or.inr ⟨parsed, imported, data, rfl, ?_, himport, hwrap, rfl⟩
                    intro key hkey heq
                    exact hnew (List.any_eq_true.mpr ⟨key, hkey, beq_iff_eq.mpr heq⟩)

theorem without_length {vault : Vault} {keyId : String} :
    (vault.without keyId).keys.length = vault.keys.length ↔ keyId ∉ vault.ids := by
  rw [Vault.without, List.length_filter_eq_length_iff, Vault.ids, List.mem_map]
  constructor
  · rintro hall ⟨key, hkey, rfl⟩
    exact bne_iff_ne.mp (hall key hkey) rfl
  · intro habsent key hkey
    refine bne_iff_ne.mpr ?_
    rintro rfl
    exact habsent ⟨key, hkey, rfl⟩

theorem storeRemoveKey_cases (d : Draws) (vault : Vault) (keyId : String) (store : Store) :
    (∃ failure, storeRemoveKey d vault keyId store = (.error failure, store)) ∨
      (keyId ∉ vault.ids ∧ storeRemoveKey d vault keyId store = (.ok vault, store)) ∨
      (keyId ∈ vault.ids ∧ storeRemoveKey d vault keyId store
        = (.ok (vault.without keyId),
            ⟨some (vault.without keyId), store.keys.erase keyId⟩)) := by
  rw [storeRemoveKey]
  split
  · rename_i hlen
    exact Or.inr (Or.inl ⟨without_length.mp hlen, rfl⟩)
  · rename_i hlen
    simp only [save, bind_transaction]
    cases d.aborted with
    | some message => exact Or.inl ⟨.platform message, rfl⟩
    | none =>
        refine Or.inr (Or.inr ⟨?_, rfl⟩)
        by_contra habsent
        exact hlen (without_length.mpr habsent)

/-- `removeKey` works the same on both loaded states. -/
theorem removeKey_called (d : Draws) {state : VaultState} {vault : Vault} (keyId : String)
    (store : Store) (hvault : state.vault = some vault)
    (hsame : state.withVault vault = state) :
    Called p d store state (.removeKey keyId)
      ((storeRemoveKey d vault keyId store).1.map state.withVault)
      (storeRemoveKey d vault keyId store).2 := by
  rcases storeRemoveKey_cases d vault keyId store with
    ⟨failure, heq⟩ | ⟨habsent, heq⟩ | ⟨hlisted, heq⟩
  · rw [heq]
    exact .rejected
  · rw [heq]
    show Called p d store state _ (.ok (state.withVault vault)) store
    rw [hsame]
    exact .absent hvault habsent
  · rw [heq]
    exact .removed hvault hlisted

theorem destroy_called (d : Draws) {state : VaultState} {vault : Vault} (store : Store)
    (hvault : state.vault = some vault) :
    Called p d store state .destroy
      ((destroyStore d.aborted >>= fun _ => pure VaultState.noVault) store).1
      ((destroyStore d.aborted >>= fun _ => pure VaultState.noVault) store).2 := by
  rw [destroyStore, bind_transaction]
  cases d.aborted with
  | some message => exact .rejected
  | none => exact .destroyed hvault

/-- **What one call can do.** -/
theorem call_called {d : Draws} {state : VaultState} {op : Operation} {m : StoreM VaultState}
    (h : state.call p d op = some m) (store : Store) :
    Called p d store state op (m store).1 (m store).2 := by
  cases state with
  | noVault =>
      cases op with
      | createVault params =>
          obtain rfl := Option.some.inj h
          rw [bind_return]
          rcases createNewVault_cases p d params store with
            ⟨failure, heq⟩ | ⟨wrappingKey, wrapped, hderive, hwrap, heq⟩
          · rw [heq]
            exact .rejected
          · rw [heq]
            exact .created hderive hwrap
      | _ => cases h
  | lockedVault vault =>
      cases op with
      | unlock prfOutput =>
          obtain rfl := Option.some.inj h
          rw [bind_lift]
          cases hrecover : recoverMasterKey p d.first vault prfOutput with
          | error failure => exact .rejected
          | ok masterKey => exact .unlocked hrecover
      | removeKey keyId =>
          obtain rfl := Option.some.inj h
          rw [bind_return]
          exact removeKey_called p d keyId store rfl rfl
      | destroy =>
          obtain rfl := Option.some.inj h
          exact destroy_called p d store rfl
      | _ => cases h
  | unlockedVault vault masterKey =>
      cases op with
      | addKey pem comment =>
          obtain rfl := Option.some.inj h
          rw [bind_return]
          rcases storeAddKey_cases p d vault masterKey pem comment store with
            ⟨failure, heq⟩ | ⟨parsed, imported, data, hparse, hnew, himport, hwrap, heq⟩
          · rw [heq]
            exact .rejected
          · rw [heq]
            exact .added hparse hnew himport hwrap
      | removeKey keyId =>
          obtain rfl := Option.some.inj h
          rw [bind_return]
          exact removeKey_called p d keyId store rfl rfl
      | lock =>
          obtain rfl := Option.some.inj h
          exact .locked
      | destroy =>
          obtain rfl := Option.some.inj h
          exact destroy_called p d store rfl
      | _ => cases h

variable {p}

/-- A call that rejects leaves the store as it was. -/
theorem Called.store_of_rejected {d : Draws} {store store' : Store} {state : VaultState}
    {op : Operation} {failure : Failure}
    (h : Called p d store state op (.error failure) store') : store' = store := by
  cases h
  rfl

end VaultModel
