import AgentWitness.JwkProofs
import AgentWitness.SshKeyProofs
import AgentWitness.VaultKeysProofs

/-! # The vault's platform over WebCrypto

    `crypto/ssh.ts` stands between the vault and `crypto.subtle`: it imports a parsed key
    as PKCS#8 or as a JSON Web Key, and signs under the name of an SSH algorithm.  With it
    and `ssh/key.ts` in place, `Subtle.platform` is the platform the vault has in the
    browser, and only `crypto.subtle` itself is a parameter.

    A key is BOUND TO THE ALGORITHM OF ITS IMPORT.  An RSA key is imported for SHA-256; its
    JSON Web Key names that hash, so what was wrapped cannot be unwrapped for SHA-512. -/

namespace WebCrypto

open Packet VaultModel Jwk SshWire AgentRequest

/-! ## Importing and signing -/

/-- What `importKey` reads a key from. -/
inductive KeyData where
  | pkcs8 (der : Bytes)
  | rsa (jwk : RsaJwk)
  | ec (jwk : EcJwk)
  deriving DecidableEq

/-- `crypto.subtle`, as far as the vault uses it. -/
structure Subtle where
  /-- `deriveKey` by HKDF with SHA-256. -/
  hkdf : Bytes → Bytes → Bytes → Except String Bytes
  wrapKey : KeyFormat → CryptoKey → CryptoKey → Bytes → Option Bytes → Except String Bytes
  unwrapKey : KeyFormat → Bytes → CryptoKey → Bytes → Option Bytes → Algorithm → Bool →
    List KeyUsage → Except String CryptoKey
  digest : Bytes → Bytes
  importKey : KeyData → Algorithm → Bool → List KeyUsage → Except String CryptoKey
  sign : SignAlgorithm → CryptoKey → Bytes → Except String Bytes

def ED25519_PKCS8_PREFIX : Bytes :=
  [0x30, 0x2e, 0x02, 0x01, 0x00, 0x30, 0x05, 0x06, 0x03, 0x2b, 0x65, 0x70, 0x04, 0x22, 0x04, 0x20]

def importSSHKey (s : Subtle) : ParsedKey → Except String CryptoKey
  | .ed25519 _ _ _ seed =>
      s.importKey (.pkcs8 (ED25519_PKCS8_PREFIX ++ seed)) .ed25519 true [.sign]
  | .rsa _ _ n e d p q iqmp => do
      let jwk ← rsaJwk n e d p q iqmp
      s.importKey (.rsa jwk) (importParamsFor .sshRsa .sha256) true [.sign]
  | .ecdsa _ _ _ point d =>
      s.importKey (.ec (ecdsaJwk point d)) (importParamsFor .ecdsaSha2Nistp256 .sha256) true [.sign]

/-- The platform of the vault: its SSH functions are those of `ssh/key.ts` and
    `crypto/ssh.ts`. -/
def Subtle.platform (s : Subtle) : Platform where
  hkdf := s.hkdf
  wrapKey := s.wrapKey
  unwrapKey := s.unwrapKey
  digest := s.digest
  btoa := fun bytes => String.ofList (b64encode bytes)
  parseOpenSSHPrivateKey := SshKey.parseOpenSSHPrivateKey
  importSSHKey := importSSHKey s
  sshSign := sshSign s.sign

theorem Subtle.platform_parse (s : Subtle) (pem : String) :
    s.platform.parseOpenSSHPrivateKey pem = SshKey.parseOpenSSHPrivateKey pem := rfl

/-- What is assumed of `crypto.subtle`. -/
structure Subtle.Lawful (s : Subtle) : Prop where
  aead : VaultKeys.Aead s.platform
  /-- A key is bound to what it was imported with. -/
  imported : ∀ {data params extractable usages key},
    s.importKey data params extractable usages = .ok key →
    key.algorithm = params ∧ key.extractable = extractable ∧ key.usages = usages
  /-- The JSON Web Key of an RSA key names its hash, and is unwrapped for no other. -/
  rehashed : ∀ {key wrapping wrapping' iv additionalData additionalData' ciphertext hash hash'
    extractable usages},
    s.wrapKey .jwk key wrapping iv additionalData = .ok ciphertext →
    key.algorithm = .rsassaPkcs1v15 hash → hash' ≠ hash →
    ∃ message, s.unwrapKey .jwk ciphertext wrapping' iv additionalData' (.rsassaPkcs1v15 hash')
      extractable usages = .error message

/-- The other side of a signature: the SSH blob of the public half of an algorithm's secret,
    and whether a server that trusts a blob accepts a signature of some data. -/
structure Verifier where
  publicHalf : Algorithm → Bytes → Bytes
  verify : Bytes → Bytes → Bytes → Bool

/-- What a key signs is accepted for its public half. -/
def Verifier.Accepts (v : Verifier) (s : Subtle) : Prop :=
  ∀ key {type data flavor signature}, key.algorithm = importParamsFor type (rsaHashFor flavor) →
    sshSign s.sign key type data flavor = .ok signature →
    v.verify (v.publicHalf key.algorithm key.material) data signature = true

/-! ## What becomes of an imported key -/

variable {s : Subtle}

theorem importSSHKey_ok (hs : s.Lawful) {parsed : ParsedKey} {key : CryptoKey}
    (h : importSSHKey s parsed = .ok key) :
    key = ⟨key.material, importParamsFor parsed.type .sha256, true, [.sign]⟩ := by
  have hbound : ∀ {data}, s.importKey data (importParamsFor parsed.type .sha256) true [.sign]
      = .ok key → key = ⟨key.material, importParamsFor parsed.type .sha256, true, [.sign]⟩ := by
    intro data himport
    obtain ⟨halgorithm, hextractable, husages⟩ := hs.imported himport
    rw [← halgorithm, ← hextractable, ← husages]
  cases parsed with
  | ed25519 comment publicBlob publicKey seed => exact hbound h
  | rsa comment publicBlob n e d p q iqmp =>
      obtain ⟨jwk, _, himport⟩ := Context.bind_eq_ok h
      exact hbound himport
  | ecdsa comment publicBlob curve point d => exact hbound h

/-- The flags that ask for SHA-512 matter to RSA keys only. -/
theorem importParams_sha256 {type : KeyType} {flags : UInt32}
    (h : type ≠ .sshRsa ∨ flags &&& 4 = 0) :
    importParamsFor type (rsaHashFor (rsaFlavorFromFlags flags)) = importParamsFor type .sha256 := by
  cases type with
  | sshEd25519 => rfl
  | ecdsaSha2Nistp256 => rfl
  | sshRsa =>
      have hflags : flags &&& 4 = 0 := h.resolve_left (fun hne => hne rfl)
      rw [rsaFlavorFromFlags, if_neg (not_not.mpr hflags)]
      rfl

section Unwrapping

variable {parsed : ParsedKey} {imported wrapping : CryptoKey} {keyId : String} {nonce : Nonce}
  {data : Bytes} {flags : UInt32}

/-- A stored key is recovered as it was imported, but for export. -/
theorem unwrapSSHKey_imported (hs : s.Lawful) (himport : importSSHKey s parsed = .ok imported)
    (hwrap : wrapSSHKey s.platform imported parsed.type wrapping keyId nonce = .ok data)
    {masterKey : CryptoKey} (hmaster : masterKey.material = wrapping.material)
    (hflags : parsed.type ≠ .sshRsa ∨ flags &&& 4 = 0) :
    unwrapSSHKey s.platform data parsed.type masterKey keyId
        (rsaHashFor (rsaFlavorFromFlags flags)) = .ok { imported with extractable := false } := by
  have hkey := importSSHKey_ok hs himport
  have hopened := VaultKeys.unsealKey_sealed hs.aead hwrap hmaster
  rw [hkey] at hopened ⊢
  rw [unwrapSSHKey, importParams_sha256 hflags]
  exact hopened

/-- An RSA key is not recovered for SHA-512. -/
theorem unwrapSSHKey_rehashed (hs : s.Lawful) (himport : importSSHKey s parsed = .ok imported)
    (hwrap : wrapSSHKey s.platform imported parsed.type wrapping keyId nonce = .ok data)
    (htype : parsed.type = .sshRsa) (hflags : flags &&& 4 ≠ 0) (masterKey : CryptoKey) :
    ∃ message, unwrapSSHKey s.platform data parsed.type masterKey keyId
        (rsaHashFor (rsaFlavorFromFlags flags)) = .error (.platform message) := by
  have halgorithm : imported.algorithm = .rsassaPkcs1v15 .sha256 := by
    rw [importSSHKey_ok hs himport, htype]
    rfl
  rw [htype] at hwrap ⊢
  obtain ⟨ciphertext, hcipher, htake, hdrop⟩ := VaultKeys.sealKey_ok hwrap
  obtain ⟨message, hrefused⟩ : ∃ message, s.unwrapKey .jwk ciphertext masterKey nonce.bytes
      (some (encodeText keyId)) (.rsassaPkcs1v15 .sha512) false [.sign] = .error message :=
    hs.rehashed hcipher halgorithm (by decide)
  refine ⟨message, ?_⟩
  rw [rsaFlavorFromFlags, if_pos hflags, unwrapSSHKey, unsealKey, htake, hdrop]
  exact congrArg platformResult hrefused

end Unwrapping

/-! ## A cipher to compute with -/

/-- Bytes that say where they end. -/
def framed : Bytes → Bytes
  | [] => [0]
  | byte :: rest => 1 :: byte :: framed rest

theorem framed_append_inj {a b x y : Bytes} (h : framed a ++ x = framed b ++ y) :
    a = b ∧ x = y := by
  induction a generalizing b with
  | nil =>
      cases b with
      | nil => exact ⟨rfl, (List.cons.inj h).2⟩
      | cons c b => cases (List.cons.inj h).1
  | cons c a ih =>
      cases b with
      | nil => cases (List.cons.inj h).1
      | cons c' b =>
          obtain ⟨rfl, hrest⟩ := List.cons.inj (List.cons.inj h).2
          obtain ⟨rfl, rfl⟩ := ih hrest
          exact ⟨rfl, rfl⟩

/-- What the cipher writes in front of a wrapped key. -/
def stamp (wrapping : CryptoKey) (additionalData : Option Bytes) : Bytes :=
  framed wrapping.material ++ framed ((additionalData.map (List.cons 0)).getD [])

theorem stamp_append_inj {wrapping wrapping' : CryptoKey} {data data' : Option Bytes} {x y : Bytes}
    (h : stamp wrapping data ++ x = stamp wrapping' data' ++ y) :
    wrapping.material = wrapping'.material ∧ data = data' ∧ x = y := by
  rw [stamp, stamp, List.append_assoc, List.append_assoc] at h
  obtain ⟨hmaterial, hrest⟩ := framed_append_inj h
  obtain ⟨hdata, hxy⟩ := framed_append_inj hrest
  refine ⟨hmaterial, ?_, hxy⟩
  cases data with
  | none =>
      cases data' with
      | none => rfl
      | some bytes => cases hdata
  | some bytes =>
      cases data' with
      | none => cases hdata
      | some bytes' => exact congrArg some (List.cons.inj hdata).2

/-- What follows a stamp. -/
def unstamp (wrapping : CryptoKey) (additionalData : Option Bytes) (ciphertext : Bytes) :
    Option Bytes :=
  if ciphertext.take (stamp wrapping additionalData).length = stamp wrapping additionalData then
    some (ciphertext.drop (stamp wrapping additionalData).length)
  else none

theorem unstamp_eq_some {wrapping : CryptoKey} {data : Option Bytes} {ciphertext rest : Bytes} :
    unstamp wrapping data ciphertext = some rest ↔ ciphertext = stamp wrapping data ++ rest := by
  rw [unstamp]
  constructor
  · intro h
    split at h
    · rename_i htake
      obtain rfl := Option.some.inj h
      nth_rewrite 1 [← List.take_append_drop (stamp wrapping data).length ciphertext]
      rw [htake]
    · cases h
  · rintro rfl
    rw [if_pos (List.take_left' rfl), List.drop_left' rfl]

/-- The byte an exported key names its algorithm by. -/
def algorithmByte : Algorithm → UInt8
  | .aesGcm _ => 0
  | .ed25519 => 1
  | .ecdsa _ => 2
  | .rsassaPkcs1v15 .sha256 => 3
  | .rsassaPkcs1v15 .sha512 => 4

/-- A field of a JSON Web Key. -/
def webField (text : List Char) : Bytes := (Base64.decodeUnpadded Base64.url text).getD []

/-- The secret a key is imported with; that of an RSA key is its public blob. -/
def secretOf : KeyData → Bytes
  | .pkcs8 der => der
  | .rsa jwk => writeString (encodeText "ssh-rsa") ++ (writeMpint (webField jwk.e) ++
      writeMpint (webField jwk.n))
  | .ec jwk => webField jwk.d

/-- The public half of an RSA secret is the secret, that of an ed25519 seed is the seed with
    each byte less one. -/
def publicHalfOf : Algorithm → Bytes → Bytes
  | .ed25519, der =>
      SshKey.ed25519PublicBlob ((der.drop ED25519_PKCS8_PREFIX.length).map (· - 1))
  | _, secret => secret

/-- A cipher that stamps what it wraps, and keys that sign with their public half. -/
def stampSubtle : Subtle where
  hkdf prfOutput _ _ := .ok prfOutput
  wrapKey _ key wrapping _ additionalData :=
    .ok (stamp wrapping additionalData ++ algorithmByte key.algorithm :: key.material)
  unwrapKey _ ciphertext wrapping _ additionalData params extractable usages :=
    match unstamp wrapping additionalData ciphertext with
    | some (byte :: material) =>
        if byte = algorithmByte params then .ok ⟨material, params, extractable, usages⟩
        else .error "DataError"
    | _ => .error "OperationError"
  digest bytes := bytes
  importKey data params extractable usages := .ok ⟨secretOf data, params, extractable, usages⟩
  sign algorithm key data :=
    match algorithm with
    | .ecdsaSha256 => .error "NotSupportedError"
    | .ed25519 | .rsassaPkcs1V15 => .ok (framed (publicHalfOf key.algorithm key.material) ++ data)

theorem stampSubtle_aead : VaultKeys.Aead stampSubtle.platform := by
  refine ⟨?_, ?_⟩
  · intro format key wrapping wrapping' iv data ciphertext hwrap hsame
    have hstamp : stamp wrapping' data = stamp wrapping data := by rw [stamp, stamp, hsame]
    have hrest : unstamp wrapping' data ciphertext
        = some (algorithmByte key.algorithm :: key.material) := by
      rw [unstamp_eq_some, hstamp]
      exact (Except.ok.inj hwrap).symm
    simp only [Subtle.platform, stampSubtle, hrest, if_true]
  · intro format key wrapping wrapping' iv data data' ciphertext params extractable usages
      recovered hwrap hunwrap
    obtain rfl := Except.ok.inj hwrap
    simp only [Subtle.platform, stampSubtle] at hunwrap
    split at hunwrap
    · rename_i byte material hrest
      obtain ⟨hmaterial, hdata, _⟩ := stamp_append_inj (unstamp_eq_some.mp hrest)
      exact ⟨hmaterial.symm, hdata.symm⟩
    · cases hunwrap

theorem stampSubtle_lawful : stampSubtle.Lawful := by
  refine ⟨stampSubtle_aead, ?_, ?_⟩
  · intro data params extractable usages key himport
    obtain rfl := Except.ok.inj himport
    exact ⟨rfl, rfl, rfl⟩
  · intro key wrapping wrapping' iv data data' ciphertext hash hash' extractable usages hwrap
      halgorithm hne
    have hbyte : algorithmByte (.rsassaPkcs1v15 hash) ≠ algorithmByte (.rsassaPkcs1v15 hash') := by
      cases hash <;> cases hash' <;> first | decide | exact absurd rfl hne
    obtain rfl := Except.ok.inj hwrap
    simp only [stampSubtle]
    split
    · rename_i byte material hrest
      obtain ⟨_, _, htail⟩ := stamp_append_inj (unstamp_eq_some.mp hrest)
      obtain ⟨rfl, _⟩ := List.cons.inj htail
      rw [halgorithm, if_neg hbyte]
      exact ⟨_, rfl⟩
    · exact ⟨_, rfl⟩

/-- A signature names its algorithm, and repeats the blob and the data. -/
def stampVerifier : Verifier where
  publicHalf := publicHalfOf
  verify blob data signature :=
    ["ssh-ed25519", "rsa-sha2-256", "rsa-sha2-512"].any (fun name =>
      signature == writeString (encodeText name) ++ writeString (framed blob ++ data))

theorem stampVerifier_accepts : stampVerifier.Accepts stampSubtle := by
  intro key type data flavor signature _ hsign
  cases type with
  | sshEd25519 =>
      obtain rfl := Except.ok.inj hsign
      simp [stampVerifier]
  | ecdsaSha2Nistp256 => cases hsign
  | sshRsa =>
      obtain rfl := Except.ok.inj hsign
      cases flavor <;> simp [stampVerifier, rsaFlavorName]

end WebCrypto
