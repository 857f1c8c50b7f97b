import AgentWitness.VaultDriftProofs

/-! # What a listed key rests on

    One window, each call made on the state the call before it returned.  A key's entry
    and its blob are bound by ONE id: it names the entry, keys the blob and is the
    associated data the blob is sealed with.  Ids are drawn fresh, so the call that drew
    an entry's id is the only one that ever wrote its blob, and signing unseals what
    that call imported.

    The master key is sealed once, at creation, and every unlocked state holds that one:
    the cipher opens a sealed key for no other. -/

namespace VaultKeys

open Packet KeyedMap Transition VaultModel VaultDrift

/-! ## The envelope -/

/-- An authenticated cipher: a wrapped key is unwrapped, for the algorithm and the usages it
    has, by the same wrapping key with the same associated data, and by nothing else. -/
structure Aead (p : Platform) : Prop where
  restores : ∀ {format key wrapping wrapping' iv additionalData ciphertext},
    p.wrapKey format key wrapping iv additionalData = .ok ciphertext →
    wrapping'.material = wrapping.material →
    p.unwrapKey format ciphertext wrapping' iv additionalData key.algorithm false key.usages
      = .ok { key with extractable := false }
  refuses : ∀ {format key wrapping wrapping' iv additionalData additionalData' ciphertext
    importParams extractable usages recovered},
    p.wrapKey format key wrapping iv additionalData = .ok ciphertext →
    p.unwrapKey format ciphertext wrapping' iv additionalData' importParams extractable usages
      = .ok recovered →
    wrapping'.material = wrapping.material ∧ additionalData' = additionalData

variable {p : Platform}

theorem sealKey_ok {format : KeyFormat} {key wrapping : CryptoKey} {additionalData : Option Bytes}
    {iv : Nonce} {blob : Bytes} (h : sealKey p format key wrapping additionalData iv = .ok blob) :
    ∃ ciphertext, p.wrapKey format key wrapping iv.bytes additionalData = .ok ciphertext ∧
      blob.take 12 = iv.bytes ∧ blob.drop 12 = ciphertext := by
  rw [sealKey] at h
  split at h
  · rename_i ciphertext hwrap
    obtain rfl := Except.ok.inj h
    exact ⟨ciphertext, hwrap, List.take_left' iv.length_eq, List.drop_left' iv.length_eq⟩
  · cases h

/-- What was sealed is unsealed by the same key with the same associated data. -/
theorem unsealKey_sealed (hc : Aead p) {format : KeyFormat} {key wrapping wrapping' : CryptoKey}
    {additionalData : Option Bytes} {iv : Nonce} {blob : Bytes}
    (h : sealKey p format key wrapping additionalData iv = .ok blob)
    (hsame : wrapping'.material = wrapping.material) :
    unsealKey p format blob wrapping' key.algorithm key.usages additionalData
      = .ok { key with extractable := false } := by
  obtain ⟨ciphertext, hwrap, htake, hdrop⟩ := sealKey_ok h
  rw [unsealKey, htake, hdrop, hc.restores hwrap hsame]
  rfl

/-- Nothing else unseals it. -/
theorem unsealKey_only (hc : Aead p) {format : KeyFormat} {key wrapping wrapping' : CryptoKey}
    {additionalData additionalData' : Option Bytes} {iv : Nonce} {blob : Bytes}
    {importParams : Algorithm} {usages : List KeyUsage} {recovered : CryptoKey}
    (h : sealKey p format key wrapping additionalData iv = .ok blob)
    (hopen : unsealKey p format blob wrapping' importParams usages additionalData' = .ok recovered) :
    wrapping'.material = wrapping.material := by
  obtain ⟨ciphertext, hwrap, htake, hdrop⟩ := sealKey_ok h
  rw [unsealKey, htake, hdrop] at hopen
  cases hunwrap : p.unwrapKey format ciphertext wrapping' iv.bytes additionalData' importParams false
      usages with
  | error message =>
      rw [hunwrap] at hopen
      cases hopen
  | ok recovered' => exact (hc.refuses hwrap hunwrap).1

/-! ## What a history says -/

/-- The keys a state lists. -/
def keysOf (state : VaultState) : List PrivateKeyMeta := (state.vault.map Vault.keys).getD []

/-- A completed `addKey` of this PEM created the entry: it drew the entry's id and
    returned a record that lists the entry. -/
def Creates (pem : String) (key : PrivateKeyMeta) (l : Action × Reply) : Prop :=
  ∃ state comment d state', l = (.call state (.addKey pem comment) d, .ok state') ∧
    key ∈ keysOf state' ∧ key.id = d.uuid

/-- A completed `createVault` with these parameters returned this master key. -/
def Founds (params : CreateVaultParams) (masterKey : CryptoKey) (l : Action × Reply) : Prop :=
  ∃ state d vault, l = (.call state (.createVault params) d, .ok (.unlockedVault vault masterKey))

/-- Anything but a completed `destroy`. -/
def Survives (l : Action × Reply) : Prop :=
  ∀ state d state', l ≠ (.call state .destroy d, .ok state')

/-- The UUID a call draws. -/
def drawn (l : Action × Reply) : Option String :=
  match l.1 with
  | .call _ (.createVault _) d | .call _ (.addKey _ _) d => some d.uuid
  | _ => none

/-- Each call is made on the state the call before it returned. -/
def InTurn (w : Windows) : Action → Prop
  | .openVault => True
  | .call state _ _ => w.states.head? = some state

instance (w : Windows) (action : Action) : Decidable (InTurn w action) := by
  unfold InTurn
  split <;> infer_instance

/-- A run of one window, in which every id that is drawn is a fresh one. -/
structure OneWindow (p : Platform) (h : History) (w : Windows) : Prop where
  run : Run (Fires (next p) InTurn) .start h w
  fresh : (h.filterMap drawn).Nodup

/-- The vault in force was founded with these parameters and this master key. -/
def Founded (h : History) (params : CreateVaultParams) (masterKey : CryptoKey) : Prop :=
  Since (Founds params masterKey) Survives h

/-! ## What a loaded vault rests on -/

/-- The entry has the type and the public blob of the key parsed from this PEM, and its
    blob seals the key imported from it, under this master secret and bound to the entry's
    id. -/
def SealedFrom (p : Platform) (store : Store) (master : Bytes) (key : PrivateKeyMeta)
    (pem : String) : Prop :=
  ∃ parsed imported masterKey nonce data, p.parseOpenSSHPrivateKey pem = .ok parsed ∧
    key.type = parsed.type ∧ key.publicKey = parsed.publicBlob ∧
    p.importSSHKey parsed = .ok imported ∧ masterKey.material = master ∧
    wrapSSHKey p imported key.type masterKey key.id nonce = .ok data ∧
    store.keys.get? key.id = some ⟨key.id, data⟩

/-- An entry is what the call that created it made of its PEM. -/
structure Backed (p : Platform) (h : History) (store : Store) (master : Bytes)
    (key : PrivateKeyMeta) : Prop where
  fingerprint : key.fingerprint = sshFingerprint p key.publicKey
  origin : ∃ pem, ∃ l ∈ h, Creates pem key l
  blob : ∀ pem, ∀ l ∈ h, Creates pem key l → SealedFrom p store master key pem

/-- The only passkey seals the master secret under the key its parameters derive. -/
def Enrolled (p : Platform) (vault : Vault) (master : Bytes) (params : CreateVaultParams) : Prop :=
  ∃ passkey wrappingKey nonce, vault.passkeys = [passkey] ∧ passkey.salt = params.salt ∧
    deriveWrappingKey p params.prfOutput params.salt = .ok wrappingKey ∧
    wrapMasterKey p (generateMasterKey master) wrappingKey nonce = .ok passkey.wrappedMasterKey

/-- What is known of a loaded vault with this master secret. -/
structure Loaded (p : Platform) (h : History) (store : Store) (vault : Vault) (master : Bytes) :
    Prop where
  record : store.vault = some vault
  ids : vault.ids.Nodup
  fingerprints : (vault.keys.map PrivateKeyMeta.fingerprint).Nodup
  backed : ∀ key ∈ vault.keys, Backed p h store master key
  founded : ∃ params masterKey, Founded h params masterKey
  enrolled : ∀ params masterKey, Founded h params masterKey →
    masterKey = generateMasterKey master ∧ Enrolled p vault master params

/-- What is known of the state in use. -/
inductive Held (p : Platform) (h : History) (store : Store) : Option VaultState → Prop where
  | absent {state} : state = none ∨ state = some .noVault → store.vault = none →
      (∀ params masterKey, ¬ Founded h params masterKey) → Held p h store state
  | locked {vault master} : Loaded p h store vault master →
      Held p h store (some (.lockedVault vault))
  | unlocked {vault masterKey} : Loaded p h store vault masterKey.material →
      Held p h store (some (.unlockedVault vault masterKey))

/-! ## How knowledge is carried over a call -/

/-- A label that neither creates an entry, nor founds a vault, nor destroys one. -/
structure Quiet (l : Action × Reply) : Prop where
  creates : ∀ pem key, ¬ Creates pem key l
  founds : ∀ params masterKey, ¬ Founds params masterKey l
  survives : Survives l

theorem quiet_openVault (reply : Reply) : Quiet (.openVault, reply) := by
  refine ⟨?_, ?_, ?_⟩
  · rintro pem key ⟨_, _, _, _, heq, _⟩
    cases heq
  · rintro params masterKey ⟨_, _, _, heq⟩
    cases heq
  · intro _ _ _ heq
    cases heq

theorem quiet_rejected (action : Action) (failure : Failure) : Quiet (action, .error failure) := by
  refine ⟨?_, ?_, ?_⟩
  · rintro pem key ⟨_, _, _, _, heq, _⟩
    cases heq
  · rintro params masterKey ⟨_, _, _, heq⟩
    cases heq
  · intro _ _ _ heq
    cases heq

/-- The calls that make or end something. -/
def marks : Operation → Bool
  | .createVault _ | .addKey _ _ | .destroy => true
  | .unlock _ | .removeKey _ | .lock => false

theorem quiet_call (state : VaultState) {op : Operation} (d : Draws) (reply : Reply)
    (h : marks op = false) : Quiet (.call state op d, reply) := by
  refine ⟨?_, ?_, ?_⟩
  · rintro pem key ⟨_, _, _, _, heq, _⟩
    obtain ⟨_, rfl, _⟩ := Action.call.inj (Prod.mk.inj heq).1
    cases h
  · rintro params masterKey ⟨_, _, _, heq⟩
    obtain ⟨_, rfl, _⟩ := Action.call.inj (Prod.mk.inj heq).1
    cases h
  · intro _ _ _ heq
    obtain ⟨_, rfl, _⟩ := Action.call.inj (Prod.mk.inj heq).1
    cases h

/-- Whoever creates an entry draws its id. -/
theorem Creates.drawn {pem : String} {key : PrivateKeyMeta} {l : Action × Reply}
    (h : Creates pem key l) : drawn l = some key.id := by
  obtain ⟨_, _, _, _, rfl, _, hid⟩ := h
  exact congrArg some hid.symm

/-- A fresh id was not drawn before. -/
theorem not_drawn_before {h : History} {l : Action × Reply} {id : String}
    (hn : ((h ++ [l]).filterMap drawn).Nodup) (hl : drawn l = some id) :
    ∀ l' ∈ h, drawn l' ≠ some id := by
  intro l' hl' hdrawn
  rw [List.filterMap_append, List.nodup_append] at hn
  refine hn.2.2 id (List.mem_filterMap.mpr ⟨l', hl', hdrawn⟩) id ?_ rfl
  exact List.mem_filterMap.mpr ⟨l, List.mem_singleton.mpr rfl, hl⟩

/-- An entry whose blob a call leaves alone stays backed, if the call did not create
    it. -/
theorem Backed.carry {h : History} {l : Action × Reply} {store store' : Store} {master : Bytes}
    {key : PrivateKeyMeta} (hb : Backed p h store master key) (hl : ∀ pem, ¬ Creates pem key l)
    (hkeep : store'.keys.get? key.id = store.keys.get? key.id) :
    Backed p (h ++ [l]) store' master key := by
  obtain ⟨pem, origin, horigin, hcreates⟩ := hb.origin
  refine ⟨hb.fingerprint, ⟨pem, origin, List.mem_append_left _ horigin, hcreates⟩, ?_⟩
  intro pem' l' hl' hcreates'
  rcases List.mem_append.mp hl' with hl' | hl'
  · obtain ⟨parsed, imported, masterKey, nonce, data, hparse, htype, hblob, himport, hmaster,
      hwrap, hget⟩ := hb.blob pem' l' hl' hcreates'
    exact ⟨parsed, imported, masterKey, nonce, data, hparse, htype, hblob, himport, hmaster, hwrap,
      hkeep.trans hget⟩
  · obtain rfl := List.mem_singleton.mp hl'
    exact absurd hcreates' (hl pem')

/-- A call that founds and destroys nothing keeps what is known of the passkey. -/
theorem Loaded.carry {h : History} {l : Action × Reply} {store store' : Store}
    {vault vault' : Vault} {master : Bytes} (hl : Loaded p h store vault master)
    (hfounds : ∀ params masterKey, ¬ Founds params masterKey l) (hsurvives : Survives l)
    (hpasskeys : vault'.passkeys = vault.passkeys) (hrecord : store'.vault = some vault')
    (hids : vault'.ids.Nodup)
    (hfingerprints : (vault'.keys.map PrivateKeyMeta.fingerprint).Nodup)
    (hbacked : ∀ key ∈ vault'.keys, Backed p (h ++ [l]) store' master key) :
    Loaded p (h ++ [l]) store' vault' master := by
  obtain ⟨params, masterKey, hfounded⟩ := hl.founded
  refine ⟨hrecord, hids, hfingerprints, hbacked, ⟨params, masterKey, ?_⟩, ?_⟩
  · exact since_snoc.mpr (Or.inr ⟨hsurvives, hfounded⟩)
  · intro params' masterKey' hfounded'
    rcases since_snoc.mp hfounded' with hnew | ⟨_, hold⟩
    · exact absurd hnew (hfounds params' masterKey')
    · obtain ⟨heq, passkey, wrappingKey, nonce, hlist, hrest⟩ := hl.enrolled params' masterKey' hold
      exact ⟨heq, passkey, wrappingKey, nonce, hpasskeys.trans hlist, hrest⟩

/-- A quiet call on an unchanged store. -/
theorem Loaded.quiet {h : History} {l : Action × Reply} {store : Store} {vault : Vault}
    {master : Bytes} (hl : Loaded p h store vault master) (hq : Quiet l) :
    Loaded p (h ++ [l]) store vault master := by
  refine hl.carry hq.founds hq.survives rfl hl.record hl.ids hl.fingerprints ?_
  intro key hkey
  exact (hl.backed key hkey).carry (fun pem => hq.creates pem key) rfl

/-- Without a vault in force, a call that founds none leaves none. -/
theorem not_founded_snoc {h : History} {l : Action × Reply}
    (hnone : ∀ params masterKey, ¬ Founded h params masterKey)
    (hl : ∀ params masterKey, ¬ Founds params masterKey l) :
    ∀ params masterKey, ¬ Founded (h ++ [l]) params masterKey := by
  intro params masterKey hfounded
  rcases since_snoc.mp hfounded with hnew | ⟨_, hold⟩
  · exact hl params masterKey hnew
  · exact hnone params masterKey hold

theorem Held.quiet {h : History} {l : Action × Reply} {store : Store} {state : Option VaultState}
    (hh : Held p h store state) (hq : Quiet l) : Held p (h ++ [l]) store state := by
  cases hh with
  | absent hstate hvault hnone =>
      exact .absent hstate hvault (not_founded_snoc hnone hq.founds)
  | locked hl => exact .locked (hl.quiet hq)
  | unlocked hl => exact .unlocked (hl.quiet hq)

/-! ## The calls, one by one -/

section Calls

variable {h : History} {store : Store} {d : Draws}

theorem opened_held {state : Option VaultState} (hh : Held p h store state) (reply : Reply) :
    Held p (h ++ [(.openVault, reply)]) store (some (VaultModel.openVault store)) := by
  have hq := quiet_openVault reply
  cases hh with
  | absent _ hvault hnone =>
      rw [VaultModel.openVault, hvault]
      exact .absent (Or.inr rfl) hvault (not_founded_snoc hnone hq.founds)
  | locked hl =>
      rw [VaultModel.openVault, hl.record]
      exact .locked (hl.quiet hq)
  | unlocked hl =>
      rw [VaultModel.openVault, hl.record]
      exact .locked (hl.quiet hq)

/-- A new vault lists nothing, and its passkey seals the new master key. -/
theorem created_loaded {params : CreateVaultParams} {wrappingKey : CryptoKey} {wrapped : Bytes}
    (hnone : ∀ params masterKey, ¬ Founded h params masterKey)
    (hderive : deriveWrappingKey p params.prfOutput params.salt = .ok wrappingKey)
    (hwrap : wrapMasterKey p (generateMasterKey d.masterKey) wrappingKey d.nonce = .ok wrapped) :
    Loaded p
      (h ++ [(.call .noVault (.createVault params) d,
        .ok (.unlockedVault (newVault d params wrapped) (generateMasterKey d.masterKey)))])
      ⟨some (newVault d params wrapped), store.keys⟩ (newVault d params wrapped) d.masterKey := by
  refine ⟨rfl, List.nodup_nil, List.nodup_nil, ?_, ?_, ?_⟩
  · intro key hkey
    exact (List.not_mem_nil hkey).elim
  · exact ⟨params, _, since_snoc.mpr (Or.inl ⟨_, _, _, rfl⟩)⟩
  · intro params' masterKey' hfounded
    rcases since_snoc.mp hfounded with ⟨_, _, _, heq⟩ | ⟨_, hold⟩
    · obtain ⟨hcall, hreply⟩ := Prod.mk.inj heq
      obtain ⟨_, hop, _⟩ := Action.call.inj hcall
      obtain rfl := Operation.createVault.inj hop
      obtain ⟨_, rfl⟩ := VaultState.unlockedVault.inj (Except.ok.inj hreply)
      exact ⟨rfl, _, wrappingKey, d.nonce, rfl, rfl, hderive, hwrap⟩
    · exact absurd hold (hnone params' masterKey')

/-- A PRF output that unlocks at all recovers the master secret. -/
theorem recovered_material (hc : Aead p) {vault : Vault} {master prfOutput : Bytes}
    {params : CreateVaultParams} {first : Nat} {masterKey : CryptoKey}
    (he : Enrolled p vault master params)
    (hrecover : recoverMasterKey p first vault prfOutput = .ok masterKey) :
    masterKey.material = master := by
  obtain ⟨passkey, wrappingKey, nonce, hlist, _, _, hwrap⟩ := he
  rw [recoverMasterKey, hlist] at hrecover
  cases htry : tryPasskey p prfOutput passkey with
  | error failure =>
      rw [List.filterMap_cons_none (by rw [htry]; rfl)] at hrecover
      cases hrecover
  | ok recovered =>
      rw [List.filterMap_cons_some (by rw [htry]; rfl), List.filterMap_nil] at hrecover
      simp only [List.length_singleton, Nat.mod_one, List.getElem?_cons_zero] at hrecover
      obtain rfl := Except.ok.inj hrecover
      rw [tryPasskey] at htry
      split at htry
      · rename_i wrappingKey' _
        have hsame := unsealKey_only hc hwrap htry
        have hopened : unwrapMasterKey p passkey.wrappedMasterKey wrappingKey'
            = .ok ⟨master, .aesGcm 256, false, [.wrapKey, .unwrapKey]⟩ :=
          unsealKey_sealed hc hwrap hsame
        rw [hopened] at htry
        rw [← Except.ok.inj htry]
      · cases htry

/-- The new entry is backed by its own blob; its id is fresh, so no other blob is
    overwritten. -/
theorem added_loaded {vault : Vault} {masterKey imported : CryptoKey} {pem : String}
    {comment : Option String} {parsed : ParsedKey} {data : Bytes}
    (hl : Loaded p h store vault masterKey.material)
    (hn : ((h ++ [(.call (.unlockedVault vault masterKey) (.addKey pem comment) d,
      .ok (.unlockedVault (vault.adding (newEntry p d parsed comment)) masterKey))] :
        History).filterMap drawn).Nodup)
    (hparse : p.parseOpenSSHPrivateKey pem = .ok parsed)
    (hnew : ∀ key ∈ vault.keys, key.fingerprint ≠ sshFingerprint p parsed.publicBlob)
    (himport : p.importSSHKey parsed = .ok imported)
    (hwrap : wrapSSHKey p imported parsed.type masterKey d.uuid d.nonce = .ok data) :
    Loaded p
      (h ++ [(.call (.unlockedVault vault masterKey) (.addKey pem comment) d,
        .ok (.unlockedVault (vault.adding (newEntry p d parsed comment)) masterKey))])
      ⟨some (vault.adding (newEntry p d parsed comment)),
        store.keys.insert d.uuid ⟨d.uuid, data⟩⟩
      (vault.adding (newEntry p d parsed comment)) masterKey.material := by
  have hfresh := not_drawn_before hn rfl
  have hother : ∀ key ∈ vault.keys, key.id ≠ d.uuid := by
    intro key hkey hid
    obtain ⟨_, l, hmem, hcreates⟩ := (hl.backed key hkey).origin
    exact hfresh l hmem (hid ▸ hcreates.drawn)
  refine hl.carry ?_ ?_ rfl rfl ?_ ?_ ?_
  · rintro params masterKey' ⟨_, _, _, heq⟩
    cases heq
  · intro _ _ _ heq
    cases heq
  · show (vault.keys ++ [newEntry p d parsed comment]).map PrivateKeyMeta.id |>.Nodup
    rw [List.map_append, List.nodup_append]
    refine ⟨hl.ids, List.nodup_singleton _, ?_⟩
    intro id hid id' hid'
    obtain ⟨key, hkey, rfl⟩ := List.mem_map.mp hid
    obtain rfl := List.mem_singleton.mp hid'
    exact hother key hkey
  · show (vault.keys ++ [newEntry p d parsed comment]).map PrivateKeyMeta.fingerprint |>.Nodup
    rw [List.map_append, List.nodup_append]
    refine ⟨hl.fingerprints, List.nodup_singleton _, ?_⟩
    intro fingerprint hf fingerprint' hf'
    obtain ⟨key, hkey, rfl⟩ := List.mem_map.mp hf
    obtain rfl := List.mem_singleton.mp hf'
    exact hnew key hkey
  · intro key hkey
    rcases List.mem_append.mp hkey with hkey | hkey
    · refine (hl.backed key hkey).carry ?_ (get?_insert_of_ne _ _ (hother key hkey))
      intro pem' hcreates
      exact hother key hkey (Option.some.inj hcreates.drawn).symm
    · obtain rfl := List.mem_singleton.mp hkey
      refine ⟨rfl, ⟨pem, _, List.mem_append_right _ (List.mem_singleton.mpr rfl), ?_⟩, ?_⟩
      · exact ⟨_, comment, d, _, rfl, List.mem_append_right vault.keys hkey, rfl⟩
      · intro pem' l hmem hcreates
        rcases List.mem_append.mp hmem with hmem | hmem
        · exact absurd hcreates.drawn (hfresh l hmem)
        · obtain rfl := List.mem_singleton.mp hmem
          obtain ⟨_, _, _, _, heq, _⟩ := hcreates
          obtain ⟨_, hop, _⟩ := Action.call.inj (Prod.mk.inj heq).1
          obtain ⟨rfl, _⟩ := Operation.addKey.inj hop
          exact ⟨parsed, imported, masterKey, d.nonce, data, hparse, rfl, rfl, himport, rfl, hwrap,
            get?_insert_self _ _ _⟩

theorem removed_loaded {vault : Vault} {master : Bytes} {keyId : String}
    (hl : Loaded p h store vault master) (state : VaultState) (reply : Reply) :
    Loaded p (h ++ [(.call state (.removeKey keyId) d, reply)])
      ⟨some (vault.without keyId), store.keys.erase keyId⟩ (vault.without keyId) master := by
  have hq := quiet_call state d reply (show marks (.removeKey keyId) = false from rfl)
  have hsub : (vault.without keyId).keys.Sublist vault.keys := List.filter_sublist
  refine hl.carry hq.founds hq.survives rfl rfl ?_ ?_ ?_
  · exact (hsub.map _).nodup hl.ids
  · exact (hsub.map _).nodup hl.fingerprints
  · intro key hkey
    refine (hl.backed key (hsub.subset hkey)).carry (fun pem => hq.creates pem key) ?_
    refine get?_erase_of_ne _ ?_
    exact bne_iff_ne.mp (List.mem_filter.mp hkey).2

/-- **Call lemma.**  What is known of the state a call is made on is known of the state
    it returns. -/
theorem called_held (hc : Aead p) {state state' : VaultState} {op : Operation} {store' : Store}
    (hh : Held p h store (some state)) (hcalled : Called p d store state op (.ok state') store')
    (hn : ((h ++ [(.call state op d, .ok state')] : History).filterMap drawn).Nodup) :
    Held p (h ++ [(.call state op d, .ok state')]) store' (some state') := by
  cases hcalled with
  | created hderive hwrap =>
      cases hh with
      | absent _ _ hnone => exact .unlocked (created_loaded hnone hderive hwrap)
  | unlocked hrecover =>
      cases hh with
      | absent hstate _ _ => exact hstate.elim (by rintro ⟨⟩) (by rintro ⟨⟩)
      | locked hl =>
          obtain ⟨params, masterKey, hfounded⟩ := hl.founded
          have hmaterial := recovered_material hc (hl.enrolled params masterKey hfounded).2 hrecover
          refine .unlocked ?_
          rw [hmaterial]
          exact hl.quiet (quiet_call _ _ _ rfl)
  | added hparse hnew himport hwrap =>
      cases hh with
      | absent hstate _ _ => exact hstate.elim (by rintro ⟨⟩) (by rintro ⟨⟩)
      | unlocked hl => exact .unlocked (added_loaded hl hn hparse hnew himport hwrap)
  | absent _ _ => exact hh.quiet (quiet_call _ _ _ rfl)
  | removed hvault _ =>
      cases hh with
      | absent hstate _ _ =>
          rcases hstate with hstate | hstate
          · cases hstate
          · obtain rfl := Option.some.inj hstate
            cases hvault
      | locked hl =>
          obtain rfl := Option.some.inj hvault
          exact .locked (removed_loaded hl _ _)
      | unlocked hl =>
          obtain rfl := Option.some.inj hvault
          exact .unlocked (removed_loaded hl _ _)
  | locked =>
      cases hh with
      | absent hstate _ _ => exact hstate.elim (by rintro ⟨⟩) (by rintro ⟨⟩)
      | unlocked hl => exact .locked (hl.quiet (quiet_call _ _ _ rfl))
  | destroyed _ =>
      refine .absent (Or.inr rfl) rfl ?_
      intro params masterKey hfounded
      rcases since_snoc.mp hfounded with ⟨_, _, _, heq⟩ | ⟨hsurvives, _⟩
      · cases heq
      · exact hsurvives _ _ _ rfl

end Calls

/-- **Step lemma.** -/
theorem next_held (hc : Aead p) {h : History} {w w' : Windows} {l : Action × Reply}
    (hh : Held p h w.store w.states.head?) (hn : ((h ++ [l]).filterMap drawn).Nodup)
    (hfires : Fires (next p) InTurn w l w') : Held p (h ++ [l]) w'.store w'.states.head? := by
  obtain ⟨action, reply⟩ := l
  obtain ⟨hturn, hnext⟩ := hfires
  cases action with
  | openVault =>
      obtain ⟨rfl, rfl⟩ := Prod.mk.inj (Option.some.inj hnext)
      exact opened_held hh _
  | call state op d =>
      obtain ⟨_, hcalled, hafter⟩ := next_called hnext
      have hhead : w.states.head? = some state := hturn
      cases reply with
      | error failure =>
          rw [hafter]
          show Held p _ w'.store w.states.head?
          rw [hcalled.store_of_rejected]
          exact hh.quiet (quiet_rejected _ _)
      | ok state' =>
          rw [hafter]
          show Held p _ w'.store (some state')
          rw [hhead] at hh
          exact called_held hc hh hcalled hn

theorem run_held (hc : Aead p) {h : History} {w : Windows} (hr : OneWindow p h w) :
    Held p h w.store w.states.head? := by
  refine hr.run.invariant_of_history (fun h => (h.filterMap drawn).Nodup)
    (fun h w => Held p h w.store w.states.head?) ?_ ?_ ?_ hr.fresh
  · intro h l hn
    rw [List.filterMap_append] at hn
    exact (List.nodup_append.mp hn).1
  · exact .absent (Or.inl rfl) rfl (fun _ _ hfounded => not_since_nil hfounded)
  · intro h w l w' hn hh hfires
    exact next_held hc hh hn hfires

/-! ## Unlocking and signing -/

/-- The PRF output a vault was created with recovers the master key it was created
    with, as a key that cannot be exported. -/
theorem recoverMasterKey_enrolled (hc : Aead p) {vault : Vault} {master : Bytes}
    {params : CreateVaultParams} (he : Enrolled p vault master params) (first : Nat) :
    recoverMasterKey p first vault params.prfOutput
      = .ok { generateMasterKey master with extractable := false } := by
  obtain ⟨passkey, wrappingKey, nonce, hlist, hsalt, hderive, hwrap⟩ := he
  have htry : tryPasskey p params.prfOutput passkey
      = .ok { generateMasterKey master with extractable := false } := by
    rw [tryPasskey, hsalt, hderive]
    exact unsealKey_sealed hc hwrap rfl
  rw [recoverMasterKey, hlist, List.filterMap_cons_some (by rw [htry]; rfl), List.filterMap_nil]
  simp only [List.length_singleton, Nat.mod_one, List.getElem?_cons_zero]

/-- Entries with the same public blob are the same entry. -/
theorem Loaded.publicKey_inj {h : History} {store : Store} {vault : Vault} {master : Bytes}
    (hl : Loaded p h store vault master) {key key' : PrivateKeyMeta} (hkey : key ∈ vault.keys)
    (hkey' : key' ∈ vault.keys) (heq : key.publicKey = key'.publicKey) : key = key' := by
  refine List.inj_on_of_nodup_map hl.fingerprints hkey hkey' ?_
  rw [(hl.backed key hkey).fingerprint, (hl.backed key' hkey').fingerprint, heq]

/-- Signing with an entry's public blob unseals the entry's own blob. -/
theorem signingKey_backed {h : History} {store : Store} {vault : Vault} {master : Bytes}
    {key : PrivateKeyMeta} {data : Bytes} (hl : Loaded p h store vault master)
    (hkey : key ∈ vault.keys) (hget : store.keys.get? key.id = some ⟨key.id, data⟩)
    (masterKey : CryptoKey) (message : Bytes) (flags : UInt32) :
    signingKey p store vault masterKey ⟨key.publicKey, message, flags⟩
      = (unwrapSSHKey p data key.type masterKey key.id
          (rsaHashFor (rsaFlavorFromFlags flags))).map
            (fun recovered => (recovered, key.type, rsaFlavorFromFlags flags)) := by
  have hfind : vault.keys.find? (fun candidate => candidate.publicKey == key.publicKey)
      = some key := by
    cases hf : vault.keys.find? (fun candidate => candidate.publicKey == key.publicKey) with
    | none => exact absurd (beq_self_eq_true _) (List.find?_eq_none.mp hf key hkey)
    | some candidate =>
        have heq : candidate.publicKey = key.publicKey := by simpa using List.find?_some hf
        rw [hl.publicKey_inj (List.mem_of_find?_eq_some hf) hkey heq]
  simp only [signingKey, hfind, hget]
  cases unwrapSSHKey p data key.type masterKey key.id (rsaHashFor (rsaFlavorFromFlags flags)) with
  | ok recovered => rfl
  | error failure => rfl

/-- The state in use has a vault: it is a loaded one. -/
theorem Held.loaded {h : History} {store : Store} {state : VaultState} {vault : Vault}
    (hh : Held p h store (some state)) (hvault : state.vault = some vault) :
    ∃ master, Loaded p h store vault master := by
  cases hh with
  | absent hnone _ _ =>
      rcases hnone with hnone | hnone
      · cases hnone
      · obtain rfl := Option.some.inj hnone
        cases hvault
  | locked hl =>
      obtain rfl := Option.some.inj hvault
      exact ⟨_, hl⟩
  | unlocked hl =>
      obtain rfl := Option.some.inj hvault
      exact ⟨_, hl⟩

/-- An unlocked state holds the master secret of its vault. -/
theorem Held.unlocked_loaded {h : History} {store : Store} {vault : Vault} {masterKey : CryptoKey}
    (hh : Held p h store (some (.unlockedVault vault masterKey))) :
    Loaded p h store vault masterKey.material := by
  cases hh with
  | absent hnone _ _ => exact hnone.elim (by rintro ⟨⟩) (by rintro ⟨⟩)
  | unlocked hl => exact hl

/-- A call that rejects leaves the store as it was. -/
theorem next_rejected {w w' : Windows} {action : Action} {failure : Failure}
    (h : next p w action = some (w', .error failure)) : w'.store = w.store := by
  cases action with
  | openVault => cases (Prod.mk.inj (Option.some.inj h)).2
  | call state op d => exact (next_called h).2.1.store_of_rejected

end VaultKeys
