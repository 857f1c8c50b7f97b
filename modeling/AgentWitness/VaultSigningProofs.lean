import AgentWitness.SshKeyReferenceProofs
import AgentWitness.WebCryptoProofs

/-! # Which listed keys sign, and for whom

    The vault of one window over `crypto.subtle`.  Signing recovers the key that was
    imported from the PEM an entry was created from, UNLESS the entry is an RSA key and the
    request asks for SHA-512: that key was wrapped for SHA-256.

    A signature is accepted for the public half of the imported secret.  The parser ties
    neither the public blob nor the stated public key to that secret, so whether a server
    that trusts the advertised blob accepts it is up to the PEM. -/

namespace VaultSigning

open Packet Transition VaultModel VaultDrift VaultKeys WebCrypto SshKey
open AgentRequest (writeString)
open SshWire (writeMpint sshSign)
open SshKeyReference (Container unitContainer decodeRaw_serialize verdict_wellFormed)

variable {s : Subtle}

/-! ## Signing with a listed key -/

/-- Signing with an entry uses this key; an RSA entry that is asked for SHA-512 is
    refused. -/
def SignsWith (s : Subtle) (store : Store) (vault : Vault) (masterKey : CryptoKey)
    (entry : PrivateKeyMeta) (key : CryptoKey) : Prop :=
  ∀ message flags,
    (entry.type ≠ .sshRsa ∨ flags &&& 4 = 0 →
      sign s.platform store vault masterKey ⟨entry.publicKey, message, flags⟩
        = platformResult (sshSign s.sign key entry.type message
            (rsaFlavorFromFlags flags))) ∧
    (entry.type = .sshRsa → flags &&& 4 ≠ 0 → ∃ error,
      sign s.platform store vault masterKey ⟨entry.publicKey, message, flags⟩
        = .error (.platform error))

theorem platformResult_ok {α : Type} {result : Except String α} {a : α}
    (h : platformResult result = .ok a) : result = .ok a := by
  cases result with
  | ok a' => exact congrArg Except.ok (Except.ok.inj h)
  | error message => cases h

section Listed

variable {h : History} {store : Store} {vault : Vault} {masterKey : CryptoKey}
  {key : PrivateKeyMeta} {pem : String}

/-- A sealed entry signs with the key that was imported. -/
theorem sign_sealed (hs : s.Lawful) (hl : Loaded s.platform h store vault masterKey.material)
    (hkey : key ∈ vault.keys) (hsealed : SealedFrom s.platform store masterKey.material key pem) :
    ∃ parsed imported, parseOpenSSHPrivateKey pem = .ok parsed ∧ key.type = parsed.type ∧
      key.publicKey = parsed.publicBlob ∧ importSSHKey s parsed = .ok imported ∧
      SignsWith s store vault masterKey key { imported with extractable := false } := by
  obtain ⟨parsed, imported, wrapping, nonce, data, hparse, htype, hblob, himport, hmaster, hwrap,
    hget⟩ := hsealed
  refine ⟨parsed, imported, hparse, htype, hblob, himport, ?_⟩
  intro message flags
  have hfound := signingKey_backed hl hkey hget masterKey message flags
  rw [htype] at hfound hwrap ⊢
  constructor
  · intro hflags
    rw [sign, hfound, unwrapSSHKey_imported hs himport hwrap hmaster.symm hflags]
    rfl
  · intro hrsa hflags
    obtain ⟨error, hrefused⟩ := unwrapSSHKey_rehashed hs himport hwrap hrsa hflags masterKey
    refine ⟨error, ?_⟩
    rw [sign, hfound, hrefused]
    rfl

/-- A signature is accepted for the public half of the secret that was imported. -/
theorem sign_verifies {v : Verifier} (hs : s.Lawful) (hv : v.Accepts s)
    (hl : Loaded s.platform h store vault masterKey.material) (hkey : key ∈ vault.keys)
    (hsealed : SealedFrom s.platform store masterKey.material key pem) :
    ∃ parsed imported, parseOpenSSHPrivateKey pem = .ok parsed ∧
      key.publicKey = parsed.publicBlob ∧ importSSHKey s parsed = .ok imported ∧
      ∀ message flags signature,
        sign s.platform store vault masterKey ⟨key.publicKey, message, flags⟩ = .ok signature →
        v.verify (v.publicHalf imported.algorithm imported.material) message signature = true := by
  obtain ⟨parsed, imported, hparse, htype, hblob, himport, hsign⟩ := sign_sealed hs hl hkey hsealed
  refine ⟨parsed, imported, hparse, hblob, himport, ?_⟩
  intro message flags signature hsigned
  -- a refused request has no signature, any other one is signed as the key was imported
  by_cases hflags : key.type ≠ .sshRsa ∨ flags &&& 4 = 0
  · rw [(hsign message flags).1 hflags] at hsigned
    have halgorithm : imported.algorithm
        = importParamsFor key.type (rsaHashFor (rsaFlavorFromFlags flags)) := by
      rw [importParams_sha256 hflags, htype, importSSHKey_ok hs himport]
    exact hv { imported with extractable := false } halgorithm (platformResult_ok hsigned)
  · obtain ⟨hrsa, hsha512⟩ := not_or.mp hflags
    obtain ⟨error, hrefused⟩ := (hsign message flags).2 (not_not.mp hrsa) hsha512
    rw [hrefused] at hsigned
    cases hsigned

end Listed

/-- **WHICH LISTED KEYS SIGN.**  Along every run of one window, with fresh ids: ids and
    fingerprints are distinct, the PRF output of the creation recovers the master key of the
    creation, and an entry signs with the key imported from the PEM it was created from,
    unless it is an RSA key and the request asks for SHA-512, which is refused.  A call that
    rejects leaves the store as it was. -/
theorem listed_keys_sign (hs : s.Lawful) {h : History} {w : Windows}
    (hr : OneWindow s.platform h w) :
    (∀ state vault, w.states.head? = some state → state.vault = some vault →
      vault.ids.Nodup ∧ (vault.keys.map PrivateKeyMeta.fingerprint).Nodup ∧
      (∃ params masterKey, Founded h params masterKey) ∧
      ∀ params masterKey, Founded h params masterKey → ∀ first,
        recoverMasterKey s.platform first vault params.prfOutput
          = .ok { masterKey with extractable := false }) ∧
    (∀ vault masterKey, w.states.head? = some (.unlockedVault vault masterKey) →
      ∀ key ∈ vault.keys, (∃ pem, ∃ l ∈ h, Creates pem key l) ∧
        ∀ pem, ∀ l ∈ h, Creates pem key l → ∃ parsed imported,
          parseOpenSSHPrivateKey pem = .ok parsed ∧ importSSHKey s parsed = .ok imported ∧
          SignsWith s w.store vault masterKey key { imported with extractable := false }) ∧
    ∀ action w' failure, next s.platform w action = some (w', .error failure) →
      w'.store = w.store := by
  have hheld := run_held hs.aead hr
  refine ⟨?_, ?_, ?_⟩
  · intro state vault hstate hvault
    rw [hstate] at hheld
    obtain ⟨master, hl⟩ := hheld.loaded hvault
    refine ⟨hl.ids, hl.fingerprints, hl.founded, ?_⟩
    intro params masterKey hfounded
    obtain ⟨rfl, he⟩ := hl.enrolled params masterKey hfounded
    exact recoverMasterKey_enrolled hs.aead he
  · intro vault masterKey hstate key hkey
    rw [hstate] at hheld
    have hl := hheld.unlocked_loaded
    refine ⟨(hl.backed key hkey).origin, ?_⟩
    intro pem l hmem hcreates
    obtain ⟨parsed, imported, hparse, _, _, himport, hsign⟩ :=
      sign_sealed hs hl hkey ((hl.backed key hkey).blob pem l hmem hcreates)
    exact ⟨parsed, imported, hparse, himport, hsign⟩
  · intro action w' failure hnext
    exact next_rejected hnext

/-! ## A vault of two keys -/

/-- An `addKey` that nothing stops. -/
theorem next_added {p : Platform} {w : Windows} {vault updated : Vault}
    {masterKey imported : CryptoKey} {pem : String} {comment : Option String} {d : Draws}
    {parsed : ParsedKey} {data : Bytes} (hstate : .unlockedVault vault masterKey ∈ w.states)
    (hparse : p.parseOpenSSHPrivateKey pem = .ok parsed)
    (hnew : vault.keys.any (fun key => key.fingerprint == sshFingerprint p parsed.publicBlob) = false)
    (himport : p.importSSHKey parsed = .ok imported)
    (hwrap : wrapSSHKey p imported parsed.type masterKey d.uuid d.nonce = .ok data)
    (hd : d.aborted = none) (hupdated : updated = vault.adding (newEntry p d parsed comment)) :
    next p w (.call (.unlockedVault vault masterKey) (.addKey pem comment) d)
      = some (w.after (.ok (.unlockedVault updated masterKey),
          ⟨some updated, w.store.keys.insert d.uuid ⟨d.uuid, data⟩⟩),
          .ok (.unlockedVault updated masterKey)) := by
  have hadd : storeAddKey p d vault masterKey pem comment w.store
      = (.ok updated, ⟨some updated, w.store.keys.insert d.uuid ⟨d.uuid, data⟩⟩) := by
    rw [storeAddKey, bind_lift, hparse, hupdated]
    simp only [Except.mapError, hnew, Bool.false_eq_true, if_false, himport, platformResult, hwrap,
      bind_lift, save, bind_transaction, hd]
    rfl
  rw [next, if_pos hstate]
  simp only [VaultState.call, Option.map_some, bind_return, hadd]
  rfl

/-- The blob of the RSA key with `e` 3 and `n` 33. -/
def rsaBlob : Bytes := writeString (encodeText "ssh-rsa") ++ (writeMpint [3] ++ writeMpint [33])

theorem rsaBlob_fits : rsaBlob.length < 2 ^ 32 := by decide

def rsaContainer : Container :=
  { unitContainer with
    publicBlob := ⟨rsaBlob, rsaBlob_fits⟩
    key := .rsa (.ofNat 33 (Nat.succ_pos _) (by decide)) (.ofNat 3 (Nat.succ_pos _) (by decide))
      (.ofNat 7 (Nat.succ_pos _) (by decide)) (.ofNat 4 (Nat.succ_pos _) (by decide))
      (.ofNat 11 (Nat.succ_pos _) (by decide)) (.ofNat 3 (Nat.succ_pos _) (by decide))
    fits := by decide +kernel }

def rsaPem : String := (Armor.plain rsaContainer.serialize).text

def rsaParsed : ParsedKey := .rsa "me" rsaBlob [33] [3] [7] [11] [3] [4]

theorem parse_rsaPem : parseOpenSSHPrivateKey rsaPem = .ok rsaParsed := by
  have hformed : rsaContainer.WellFormed := ⟨rfl, rfl, rfl, rfl, by decide⟩
  have hkey : rsaContainer.parsed = rsaParsed := by decide +kernel
  rw [← hkey]
  exact parse_text _ ((decodeRaw_serialize _).trans (verdict_wellFormed hformed))

/-- The key of 32 ones. -/
def onesParsed : ParsedKey :=
  .ed25519 "" (ed25519PublicBlob (List.replicate 32 1)) (List.replicate 32 1) (List.replicate 32 2)

theorem parse_honestPem : parseOpenSSHPrivateKey honestPem = .ok onesParsed :=
  parse_onesContainer _

/-- The two keys as they are imported. -/
def onesImported : CryptoKey :=
  ⟨ED25519_PKCS8_PREFIX ++ List.replicate 32 2, .ed25519, true, [.sign]⟩

def rsaImported : CryptoKey := ⟨rsaBlob, .rsassaPkcs1v15 .sha256, true, [.sign]⟩

/-- The master key as it is drawn, and as it is recovered. -/
def drawnKey : CryptoKey := generateMasterKey [7]

def recoveredKey : CryptoKey := { drawnKey with extractable := false }

/-- The platform all of this runs on. -/
abbrev platform : Platform := stampSubtle.platform

def onesEntry : PrivateKeyMeta := newEntry platform (drawing "a") onesParsed none

def rsaEntry : PrivateKeyMeta := newEntry platform (drawing "b") rsaParsed (some "second")

/-- The record as it was created, its passkey sealing the master key. -/
def stampedVault : Vault :=
  newVault (drawing "vault") phonePasskey
    (List.replicate 12 0 ++
      (stamp ⟨[1], .aesGcm 256, false, [.wrapKey, .unwrapKey]⟩ none ++ [0, 7]))

/-- The record with the first key, and with both. -/
def oneKey : Vault := stampedVault.adding onesEntry

def twoKeys : Vault := oneKey.adding rsaEntry

/-- The blobs of the two keys. -/
def onesData : Bytes :=
  List.replicate 12 0 ++ (stamp drawnKey (some (encodeText "a")) ++ 1 :: onesImported.material)

def rsaData : Bytes :=
  List.replicate 12 0 ++ (stamp recoveredKey (some (encodeText "b")) ++ 3 :: rsaImported.material)

/-- A vault is created, a key added, the vault reopened, unlocked and given another key. -/
def reopenAndAdd : History :=
  [(.openVault, .ok .noVault),
    (.call .noVault (.createVault phonePasskey) (drawing "vault"),
      .ok (.unlockedVault stampedVault drawnKey))] ++
  [(.call (.unlockedVault stampedVault drawnKey) (.addKey honestPem none) (drawing "a"),
      .ok (.unlockedVault oneKey drawnKey))] ++
  [(.openVault, .ok (.lockedVault oneKey))] ++
  [(.call (.lockedVault oneKey) (.unlock [1]) (drawing "u"),
      .ok (.unlockedVault oneKey recoveredKey))] ++
  [(.call (.unlockedVault oneKey recoveredKey) (.addKey rsaPem (some "second")) (drawing "b"),
      .ok (.unlockedVault twoKeys recoveredKey))]

/-- The windows of the new vault. -/
def createdWindows : Windows where
  store := ⟨some stampedVault, .empty⟩
  states := [.unlockedVault stampedVault drawnKey, .noVault]

/-- The windows with the first key; and after the vault was opened again, and unlocked. -/
def oneKeyWindows : Windows where
  store := ⟨some oneKey, KeyedMap.Map.empty.insert "a" ⟨"a", onesData⟩⟩
  states := .unlockedVault oneKey drawnKey :: createdWindows.states

def reopenedWindows : Windows where
  store := oneKeyWindows.store
  states := .lockedVault oneKey :: oneKeyWindows.states

def unlockedWindows : Windows where
  store := oneKeyWindows.store
  states := .unlockedVault oneKey recoveredKey :: reopenedWindows.states

/-- The windows in the end. -/
def twoKeyWindows : Windows where
  store := ⟨some twoKeys, oneKeyWindows.store.keys.insert "b" ⟨"b", rsaData⟩⟩
  states := .unlockedVault twoKeys recoveredKey :: unlockedWindows.states

theorem next_honestPem :
    next platform createdWindows
        (.call (.unlockedVault stampedVault drawnKey) (.addKey honestPem none) (drawing "a"))
      = some (oneKeyWindows, .ok (.unlockedVault oneKey drawnKey)) := by
  have himport : importSSHKey stampSubtle onesParsed = .ok onesImported := rfl
  have hwrap : wrapSSHKey platform onesImported .sshEd25519 drawnKey "a" (drawing "a").nonce
      = .ok onesData := rfl
  exact next_added (List.mem_cons_self ..) ((stampSubtle.platform_parse _).trans parse_honestPem) rfl
    himport hwrap rfl rfl

theorem next_rsaPem :
    next platform unlockedWindows
        (.call (.unlockedVault oneKey recoveredKey) (.addKey rsaPem (some "second")) (drawing "b"))
      = some (twoKeyWindows, .ok (.unlockedVault twoKeys recoveredKey)) := by
  have hnew : oneKey.keys.any (fun key =>
      key.fingerprint == sshFingerprint platform rsaParsed.publicBlob) = false := by decide +kernel
  have himport : importSSHKey stampSubtle rsaParsed = .ok rsaImported := by decide +kernel
  have hwrap : wrapSSHKey platform rsaImported .sshRsa recoveredKey "b" (drawing "b").nonce
      = .ok rsaData := rfl
  exact next_added (List.mem_cons_self ..) ((stampSubtle.platform_parse _).trans parse_rsaPem) hnew
    himport hwrap rfl rfl

theorem next_unlock :
    next platform reopenedWindows (.call (.lockedVault oneKey) (.unlock [1]) (drawing "u"))
      = some (unlockedWindows, .ok (.unlockedVault oneKey recoveredKey)) := by
  decide +kernel

theorem run_reopenAndAdd : OneWindow platform reopenAndAdd twoKeyWindows := by
  have hcreated : Run (Fires (next platform) InTurn) .start (reopenAndAdd.take 2) createdWindows :=
    run_outcome (next platform) InTurn
      [.openVault, .call .noVault (.createVault phonePasskey) (drawing "vault")] (by decide +kernel)
  have hadded : Run (Fires (next platform) InTurn) .start (reopenAndAdd.take 3) oneKeyWindows :=
    hcreated.snoc (show Fires _ _ _ (_, _) _ from ⟨rfl, next_honestPem⟩)
  have hreopened : Run (Fires (next platform) InTurn) .start (reopenAndAdd.take 4) reopenedWindows :=
    hadded.snoc (show Fires _ _ _ (_, _) _ from ⟨trivial, rfl⟩)
  have hunlocked : Run (Fires (next platform) InTurn) .start (reopenAndAdd.take 5) unlockedWindows :=
    hreopened.snoc (show Fires _ _ _ (_, _) _ from ⟨rfl, next_unlock⟩)
  exact ⟨hunlocked.snoc ⟨rfl, next_rsaPem⟩, by decide⟩

/-- The entry was created when the vault had been reopened. -/
theorem creates_rsaEntry : ∃ l ∈ reopenAndAdd, Creates rsaPem rsaEntry l := by
  refine ⟨_, List.mem_append_right _ (List.mem_singleton.mpr rfl), ?_⟩
  exact ⟨_, _, _, _, rfl, List.mem_append_right _ (List.mem_singleton.mpr rfl), rfl⟩

theorem creates_onesEntry : ∃ l ∈ reopenAndAdd, Creates honestPem onesEntry l := by
  refine ⟨reopenAndAdd.get ⟨2, by decide⟩, List.get_mem _ _, ?_⟩
  exact ⟨_, _, _, _, rfl, List.mem_append_right _ (List.mem_singleton.mpr rfl), rfl⟩

/-- Both keys sign for SHA-256, one added before the vault was reopened and one after. -/
theorem listed_keys_sign_reopened :
    (OneWindow platform reopenAndAdd twoKeyWindows ∧ twoKeys.keys = [onesEntry, rsaEntry]) ∧
    ∀ key ∈ twoKeys.keys, ∃ pem parsed imported, (∃ l ∈ reopenAndAdd, Creates pem key l) ∧
      parseOpenSSHPrivateKey pem = .ok parsed ∧ importSSHKey stampSubtle parsed = .ok imported ∧
      sign platform twoKeyWindows.store twoKeys recoveredKey ⟨key.publicKey, [9], 2⟩
        = platformResult (sshSign stampSubtle.sign { imported with extractable := false }
            key.type [9] .rsaSha2_256) := by
  refine ⟨⟨run_reopenAndAdd, rfl⟩, ?_⟩
  intro key hkey
  obtain ⟨⟨pem, l, hmem, hcreates⟩, hsign⟩ :=
    (listed_keys_sign stampSubtle_lawful run_reopenAndAdd).2.1 twoKeys recoveredKey rfl key hkey
  obtain ⟨parsed, imported, hparse, himport, heq⟩ := hsign pem l hmem hcreates
  exact ⟨pem, parsed, imported, ⟨l, hmem, hcreates⟩, hparse, himport, (heq [9] 2).1 (Or.inr rfl)⟩

/-- **A LISTED RSA KEY REFUSES SHA-512.**  The entry signs for SHA-256, and a request with
    the flag `rsa-sha2-512` fails to unwrap it. -/
theorem rsa_sha512_refused :
    (stampSubtle.Lawful ∧ OneWindow platform reopenAndAdd twoKeyWindows) ∧
    (twoKeyWindows.states.head? = some (.unlockedVault twoKeys recoveredKey) ∧
      rsaEntry ∈ twoKeys.keys ∧ ∃ l ∈ reopenAndAdd, Creates rsaPem rsaEntry l) ∧
    (sign platform twoKeyWindows.store twoKeys recoveredKey ⟨rsaEntry.publicKey, [9], 2⟩).isOk = true ∧
    sign platform twoKeyWindows.store twoKeys recoveredKey ⟨rsaEntry.publicKey, [9], 4⟩
      = .error (.platform "DataError") := by
  refine ⟨⟨stampSubtle_lawful, run_reopenAndAdd⟩,
    ⟨rfl, List.mem_append_right _ (List.mem_singleton.mpr rfl), creates_rsaEntry⟩, ?_, ?_⟩
  · decide +kernel
  · decide +kernel

/-! ## Whom a signature convinces -/

/-- **WHEN A KEY IS KEPT UNDER ITS OWN BLOB.**  An accepted text holds a layout, and the
    key returned for it is consistent with the private section exactly if the layout is
    honest.  If moreover the blob is the public half of the imported secret, then every
    entry made of the text, along every run of the vault, is advertised and fingerprinted
    under the blob rebuilt from the private section, and each of its signatures is accepted
    for that blob. -/
theorem accepted_key_verifies {v : Verifier} (hs : s.Lawful) (hv : v.Accepts s) {pem : String}
    {key : ParsedKey} (hparse : parseOpenSSHPrivateKey pem = .ok key) :
    ∃ (l : Layout) (trailing : Bytes), stripPem pem = .ok (l.write ++ trailing)
      ∧ key = l.priv.fields.read.parsed (decodeText l.priv.comment.val) l.publicBlob.val
      ∧ (l.priv.fields.read.Rebuilds key.publicBlob ↔ l.Honest)
      ∧ (l.Honest →
          (∀ imported, importSSHKey s key = .ok imported →
            v.publicHalf imported.algorithm imported.material = key.publicBlob) →
          ∀ h w, OneWindow s.platform h w →
          ∀ vault masterKey, w.states.head? = some (.unlockedVault vault masterKey) →
          ∀ entry ∈ vault.keys, (∃ l' ∈ h, Creates pem entry l') →
            l.priv.fields.read.Rebuilds entry.publicKey
              ∧ entry.fingerprint = sshFingerprint s.platform entry.publicKey
              ∧ ∀ message flags signature,
                  sign s.platform w.store vault masterKey ⟨entry.publicKey, message, flags⟩
                    = .ok signature →
                  v.verify entry.publicKey message signature = true) := by
  obtain ⟨l, trailing, hraw, hkey, hiff⟩ := accepted_rebuilds_iff hparse
  refine ⟨l, trailing, hraw, hkey, hiff, ?_⟩
  rintro hhonest hhalf h w hr vault masterKey hstate entry hentry ⟨l', hmem, hcreates⟩
  have hheld := run_held hs.aead hr
  rw [hstate] at hheld
  have hl := hheld.unlocked_loaded
  have hbacked := hl.backed entry hentry
  obtain ⟨parsed, imported, hparse', hblob, himport, hverify⟩ :=
    sign_verifies hs hv hl hentry (hbacked.blob pem l' hmem hcreates)
  obtain rfl := Except.ok.inj (hparse.symm.trans hparse')
  refine ⟨?_, hbacked.fingerprint, ?_⟩
  · rw [hblob]
    exact hiff.mpr hhonest
  · intro message flags signature hsigned
    have hverified := hverify message flags signature hsigned
    rw [hhalf imported himport, ← hblob] at hverified
    exact hverified

/-- The vault signs with the first key, and the signature is accepted for its blob. -/
theorem accepted_key_verifies_ones :
    parseOpenSSHPrivateKey honestPem = .ok onesParsed ∧
      OneWindow platform reopenAndAdd twoKeyWindows ∧
      ∃ signature, sign platform twoKeyWindows.store twoKeys recoveredKey
          ⟨onesEntry.publicKey, [9], 0⟩ = .ok signature ∧
        stampVerifier.verify onesEntry.publicKey [9] signature = true := by
  obtain ⟨l, trailing, hraw, hkey, hiff, hentries⟩ :=
    accepted_key_verifies stampSubtle_lawful stampVerifier_accepts parse_honestPem
  have hhonest : l.Honest := by
    obtain ⟨_, hfields⟩ := Layout.of_text _ hraw
    rw [hfields] at hiff
    exact hiff.mp ⟨by decide, by decide, by decide, rfl⟩
  have hhalf : ∀ imported, importSSHKey stampSubtle onesParsed = .ok imported →
      stampVerifier.publicHalf imported.algorithm imported.material = onesParsed.publicBlob := by
    intro imported himport
    obtain rfl := Except.ok.inj himport
    decide +kernel
  obtain ⟨_, _, hverify⟩ := hentries hhonest hhalf reopenAndAdd twoKeyWindows run_reopenAndAdd
    twoKeys recoveredKey rfl onesEntry (List.mem_cons_self ..) creates_onesEntry
  refine ⟨parse_honestPem, run_reopenAndAdd, _, rfl, hverify _ _ _ rfl⟩

end VaultSigning
