import AgentWitness.SshKeyProofs

/-! # The reference serialization of OpenSSH private keys

    The `openssh-key-v1` format as its writer sees it: names and comments are text,
    integers are positive numbers in their shortest two's-complement encoding, and the
    private section ends in padding.  Every container of the format is a `Layout` of the
    parser, so what the parser makes of it is read off the layout's checks.

    EVERY WELL-FORMED KEY IS RECOVERED, under any armor.  The faults are told apart as the
    format wants: another cipher or kdf is an unsupported key, everything else is invalid,
    and so is every container that is cut short. -/

namespace SshKeyReference

open Packet VaultModel AgentRequest Octets Reader SshWire SshKey

/-! ## Text and integers -/

/-- Text that can be written and does not start with a byte-order mark. -/
structure WireText where
  text : String
  fits : (encodeText text).length < 2 ^ 32
  unmarked : (encodeText text).take 3 ≠ [0xEF, 0xBB, 0xBF]

def WireText.bytes (t : WireText) : WireBytes := wireText t.text t.fits

theorem encodeText_eq (text : String) : encodeText text = Utf8.encode text := by
  have hbytes : text.toByteArray = (Utf8.encode text).toByteArray := by
    rw [Utf8.encode, ← List.utf8Encode, ← String.toByteArray_ofList, String.ofList_toList]
  show text.toByteArray.data.toList = Utf8.encode text
  rw [hbytes, List.toList_data_toByteArray]

/-- Text is read back. -/
theorem WireText.decode (t : WireText) : decodeText t.bytes.val = t.text := by
  show decodeText (encodeText t.text) = t.text
  rw [decodeText, if_neg t.unmarked, encodeText_eq, Utf8.lossy_encode]

/-- ASCII text has no byte-order mark. -/
theorem unmarked_of_ascii {text : String} (h : ∀ c ∈ text.toList, c.toNat < 128) :
    (encodeText text).take 3 ≠ [0xEF, 0xBB, 0xBF] := by
  rw [encodeText_eq, Utf8.encode]
  cases htext : text.toList with
  | nil =>
      intro hmark
      cases hmark
  | cons c rest =>
      rw [htext] at h
      have hc : c.val ≤ 127 := by
        have hlt := h c List.mem_cons_self
        exact UInt32.le_iff_toNat_le.mpr (by
          show c.toNat ≤ 127
          omega)
      have hone := String.utf8EncodeChar_eq_singleton (Char.utf8Size_eq_one_iff.mpr hc)
      rw [List.flatMap_cons, hone, List.singleton_append, List.take_succ_cons]
      intro hmark
      have hfirst : c.val.toUInt8 = 0xEF := (List.cons.inj hmark).1
      have hnat := congrArg UInt8.toNat hfirst
      rw [UInt32.toNat_toUInt8] at hnat
      have hle := UInt32.le_iff_toNat_le.mp hc
      have hmark : (0xEF : UInt8).toNat = 239 := rfl
      have hbound : (127 : UInt32).toNat = 127 := rfl
      omega

/-- ASCII text can be a name. -/
def WireText.ascii (text : String) (h : text.toList.all (fun c => c.toNat < 128) = true)
    (fits : (encodeText text).length < 2 ^ 32) : WireText :=
  ⟨text, fits, unmarked_of_ascii fun c hc => of_decide_eq_true (List.all_eq_true.mp h c hc)⟩

/-- A positive integer with its RFC 4251 encoding. -/
structure Mpint where
  value : Nat
  positive : 0 < value
  contents : Bytes
  shortest : Shortest contents value
  fits : contents.length < 2 ^ 32

def Mpint.bytes (m : Mpint) : WireBytes := ⟨m.contents, m.fits⟩

/-- A positive integer that is not too long for the format. -/
def Mpint.ofNat (n : Nat) (positive : 0 < n) (fits : (mpintContents (numeral n)).length < 2 ^ 32) :
    Mpint where
  value := n
  positive := positive
  contents := mpintContents (numeral n)
  shortest := by
    have hvalue := value_numeral n
    have hshortest := @shortest_contents (numeral n) (by rw [hvalue]; exact positive)
    rw [hvalue] at hshortest
    exact hshortest
  fits := fits

/-- An integer is read as its minimal numeral. -/
theorem Mpint.strip (m : Mpint) : stripLeadingZeros m.bytes.val = numeral m.value := by
  have hvalue : Octets.value m.contents = m.value := value_of_signed m.shortest.1
  have hpos : 0 < Octets.value m.contents := by
    rw [hvalue]
    exact m.positive
  rw [← hvalue]
  exact strip_eq_numeral hpos

/-! ## Containers -/

/-- A key of each supported type, with the integers of RSA and the scalar of ECDSA. -/
inductive ReferenceKey where
  | ed25519 (publicKey secret : WireBytes)
  | rsa (n e d iqmp p q : Mpint)
  | ecdsa (point : WireBytes) (d : Mpint)

def ReferenceKey.fields : ReferenceKey → WireFields
  | .ed25519 publicKey secret => .ed25519 publicKey secret
  | .rsa n e d iqmp p q => .rsa n.bytes e.bytes d.bytes iqmp.bytes p.bytes q.bytes
  | .ecdsa point d => .ecdsa (wireText "nistp256" (by decide)) point d.bytes

/-- The key as it is returned. -/
def ReferenceKey.parsed (comment : String) (publicBlob : Bytes) : ReferenceKey → ParsedKey
  | .ed25519 publicKey secret =>
      .ed25519 comment publicBlob publicKey.val (secret.val.take 32)
  | .rsa n e d iqmp p q =>
      .rsa comment publicBlob (numeral n.value) (numeral e.value) (numeral d.value)
        (numeral p.value) (numeral q.value) (numeral iqmp.value)
  | .ecdsa point d => .ecdsa comment publicBlob "nistp256" point.val (numeral d.value)

theorem typeName_fits (type : KeyType) : (encodeText (typeName type)).length < 2 ^ 32 := by
  cases type with
  | sshEd25519 => decide
  | sshRsa => decide
  | ecdsaSha2Nistp256 => decide

theorem decode_typeName (type : KeyType) : decodeText (encodeText (typeName type)) = typeName type := by
  cases type with
  | sshEd25519 => decide
  | sshRsa => decide
  | ecdsaSha2Nistp256 => decide

/-- The private section: check-ints, key type, fields, comment, padding. -/
def referenceSection (check1 check2 : UInt32) (key : ReferenceKey) (comment : WireText)
    (padding : Bytes) : Section where
  check1 := check1
  check2 := check2
  type := wireText (typeName key.fields.type) (typeName_fits _)
  fields := key.fields
  type_eq := decode_typeName _
  comment := comment.bytes
  padding := padding

/-- A container of the format, sound or not. -/
structure Container where
  cipher : WireText
  kdf : WireText
  kdfOptions : WireBytes
  nKeys : UInt32
  publicBlob : WireBytes
  check1 : UInt32
  check2 : UInt32
  key : ReferenceKey
  comment : WireText
  padding : Bytes
  fits : (referenceSection check1 check2 key comment padding).write.length < 2 ^ 32

def Container.layout (c : Container) : Layout where
  cipher := c.cipher.bytes
  kdf := c.kdf.bytes
  kdfOptions := c.kdfOptions
  nKeys := c.nKeys
  publicBlob := c.publicBlob
  priv := referenceSection c.check1 c.check2 c.key c.comment c.padding
  fits := c.fits

/-- The bytes of a container. -/
def Container.serialize (c : Container) : Bytes := c.layout.write

/-- An unencrypted container of one key, as a writer makes it. -/
structure Container.WellFormed (c : Container) : Prop where
  cipher : c.cipher.text = "none"
  kdf : c.kdf.text = "none"
  nKeys : c.nKeys = 1
  checks : c.check1 = c.check2
  padding : c.padding = goodPadding c.padding.length

/-- The key that a container holds. -/
def Container.parsed (c : Container) : ParsedKey := c.key.parsed c.comment.text c.publicBlob.val

/-! ## What the parser makes of them -/

theorem parsed_fields (key : ReferenceKey) (comment : String) (publicBlob : Bytes) :
    key.fields.read.parsed comment publicBlob = key.parsed comment publicBlob := by
  cases key with
  | ed25519 publicKey secret => rfl
  | rsa n e d iqmp p q =>
      simp only [ReferenceKey.fields, WireFields.read, PrivateFields.parsed, ReferenceKey.parsed,
        Mpint.strip]
  | ecdsa point d =>
      have hcurve : decodeText (wireText "nistp256" (by decide)).val = "nistp256" := by decide
      simp only [ReferenceKey.fields, WireFields.read, PrivateFields.parsed, ReferenceKey.parsed,
        Mpint.strip, hcurve]

/-- The checks of a container, in terms of its own fields. -/
theorem verdict_eq (c : Container) :
    c.layout.verdict
      = if c.cipher.text ≠ "none" ∨ c.kdf.text ≠ "none" then
          .error (.sshKey (.unsupportedKey ("encrypted keys are not supported (cipher="
            ++ c.cipher.text ++ " kdf=" ++ c.kdf.text ++ ")")))
        else if c.nKeys ≠ 1 then
          .error (.sshKey (.invalidKeyFormat
            ("expected exactly 1 key, got " ++ toString c.nKeys.toNat)))
        else if c.check1 ≠ c.check2 then
          .error (.sshKey (.invalidKeyFormat "check-int mismatch — corrupt key"))
        else if c.padding ≠ goodPadding c.padding.length then
          .error (.sshKey (.invalidKeyFormat "bad padding byte"))
        else .ok c.parsed := by
  have hcipher : decodeText c.layout.cipher.val = c.cipher.text := c.cipher.decode
  have hkdf : decodeText c.layout.kdf.val = c.kdf.text := c.kdf.decode
  have hcomment : decodeText c.layout.priv.comment.val = c.comment.text := c.comment.decode
  have hkey := parsed_fields c.key c.comment.text c.publicBlob.val
  rw [Layout.verdict, Section.verdict, hcipher, hkdf, hcomment]
  rw [← Container.parsed] at hkey
  rw [← hkey]
  rfl

variable {c : Container}

theorem verdict_wellFormed (h : c.WellFormed) : c.layout.verdict = .ok c.parsed := by
  have hnames : ¬ (c.cipher.text ≠ "none" ∨ c.kdf.text ≠ "none") :=
    not_or.mpr ⟨not_not.mpr h.cipher, not_not.mpr h.kdf⟩
  rw [verdict_eq, if_neg hnames, if_neg (not_not.mpr h.nKeys), if_neg (not_not.mpr h.checks),
    if_neg (not_not.mpr h.padding)]

theorem verdict_encrypted (h : c.cipher.text ≠ "none" ∨ c.kdf.text ≠ "none") :
    ∃ message, c.layout.verdict = .error (.sshKey (.unsupportedKey message)) := by
  rw [verdict_eq, if_pos h]
  exact ⟨_, rfl⟩

theorem verdict_faulty (hcipher : c.cipher.text = "none") (hkdf : c.kdf.text = "none")
    (h : c.nKeys ≠ 1 ∨ c.check1 ≠ c.check2 ∨ c.padding ≠ goodPadding c.padding.length) :
    ∃ message, c.layout.verdict = .error (.sshKey (.invalidKeyFormat message)) := by
  have hnames : ¬ (c.cipher.text ≠ "none" ∨ c.kdf.text ≠ "none") :=
    not_or.mpr ⟨not_not.mpr hcipher, not_not.mpr hkdf⟩
  rw [verdict_eq, if_neg hnames]
  by_cases hone : c.nKeys = 1
  · rw [if_neg (not_not.mpr hone)]
    by_cases hchecks : c.check1 = c.check2
    · obtain hcount | hmismatch | hpadding := h
      · exact absurd hone hcount
      · exact absurd hchecks hmismatch
      · rw [if_neg (not_not.mpr hchecks), if_pos hpadding]
        exact ⟨_, rfl⟩
    · rw [if_pos hchecks]
      exact ⟨_, rfl⟩
  · rw [if_pos hone]
    exact ⟨_, rfl⟩

theorem decodeRaw_serialize (c : Container) : decodeRaw c.serialize = c.layout.verdict := by
  have hdecoded := decodeRaw_layout c.layout []
  rw [List.append_nil] at hdecoded
  exact hdecoded

/-- Of a container that is cut short, the magic is wrong or a field is missing. -/
theorem decodeRaw_cut (h : c.WellFormed) {part : Bytes} (hpart : part <+: c.serialize)
    (hne : part ≠ c.serialize) :
    decodeRaw part = .error (.sshKey (.invalidKeyFormat "bad magic — not openssh-key-v1"))
      ∨ decodeRaw part = .error endOfBuffer := by
  obtain ⟨hmagic, hshort⟩ | ⟨rest, rfl, hrest, hshort⟩ := cut_append hpart hne
  · refine Or.inl ?_
    have hlength : part.take MAGIC.length ≠ MAGIC := by
      intro htake
      rw [List.take_of_length_le hmagic.length_le] at htake
      exact hshort htake
    rw [decodeRaw, if_pos hlength]
  · refine Or.inr ?_
    rw [decodeRaw, List.take_left, List.drop_left, if_neg (not_not.mpr rfl)]
    obtain ⟨hheader, hshort⟩ | ⟨left, rfl, hsections, hshort⟩ := cut_append hrest hshort
    · rw [(reads_header c.layout).cut rest hheader hshort]
      rfl
    · have hnames : ¬ (decodeText c.layout.cipher.val ≠ "none"
          ∨ decodeText c.layout.kdf.val ≠ "none") := by
        rw [not_or, not_not, not_not]
        exact ⟨c.cipher.decode.trans h.cipher, c.kdf.decode.trans h.kdf⟩
      have hone : c.layout.nKeys.toNat = 1 := congrArg UInt32.toNat h.nKeys
      rw [(reads_header c.layout).whole]
      dsimp only [bind, Except.bind]
      rw [if_neg hnames, if_neg (not_not.mpr hone),
        (reads_sections c.layout).cut left hsections hshort]

theorem parse_eof {raw : Bytes} (a : Armor raw) (h : decodeRaw raw = .error endOfBuffer) :
    parseOpenSSHPrivateKey a.text
      = .error (.invalidKeyFormat "malformed OpenSSH private key") := by
  rw [parseOpenSSHPrivateKey, decodeContainer_text, h]
  rfl

/-- **WELL-FORMED KEYS ARE RECOVERED, AND FAULTS ARE TOLD APART**, under every armor: a
    well-formed container gives exactly its key; another cipher or kdf name makes it
    unsupported; without that, a wrong number of keys, unequal check-ints or a wrong padding
    byte make it invalid; and so does any cut of a well-formed container. -/
theorem parse_container (c : Container) :
    (c.WellFormed → ∀ a : Armor c.serialize, parseOpenSSHPrivateKey a.text = .ok c.parsed)
      ∧ (c.cipher.text ≠ "none" ∨ c.kdf.text ≠ "none" → ∀ a : Armor c.serialize,
          ∃ message, parseOpenSSHPrivateKey a.text = .error (.unsupportedKey message))
      ∧ (c.cipher.text = "none" → c.kdf.text = "none" →
          (c.nKeys ≠ 1 ∨ c.check1 ≠ c.check2 ∨ c.padding ≠ goodPadding c.padding.length) →
          ∀ a : Armor c.serialize,
            ∃ message, parseOpenSSHPrivateKey a.text = .error (.invalidKeyFormat message))
      ∧ (c.WellFormed → ∀ part : Bytes, part <+: c.serialize → part ≠ c.serialize →
          ∀ a : Armor part,
            ∃ message, parseOpenSSHPrivateKey a.text = .error (.invalidKeyFormat message)) := by
  refine ⟨?_, ?_, ?_, ?_⟩
  · intro h a
    exact parse_text a ((decodeRaw_serialize c).trans (verdict_wellFormed h))
  · intro h a
    obtain ⟨message, hverdict⟩ := verdict_encrypted h
    exact ⟨message, parse_text_error a ((decodeRaw_serialize c).trans hverdict)⟩
  · intro hcipher hkdf h a
    obtain ⟨message, hverdict⟩ := verdict_faulty hcipher hkdf h
    exact ⟨message, parse_text_error a ((decodeRaw_serialize c).trans hverdict)⟩
  · intro h part hpart hne a
    obtain hmagic | heof := decodeRaw_cut h hpart hne
    · exact ⟨_, parse_text_error a hmagic⟩
    · exact ⟨_, parse_eof a heof⟩

/-- A container of an RSA key whose integers are all one, with three bytes of padding. -/
def unitContainer : Container where
  cipher := .ascii "none" (by decide) none_fits
  kdf := .ascii "none" (by decide) none_fits
  kdfOptions := .empty
  nKeys := 1
  publicBlob := .empty
  check1 := 5
  check2 := 5
  key :=
    let unit := Mpint.ofNat 1 Nat.one_pos (by decide)
    .rsa unit unit unit unit unit unit
  comment := .ascii "me" (by decide) (by decide)
  padding := [1, 2, 3]
  fits := by decide +kernel

theorem parse_unitContainer :
    parseOpenSSHPrivateKey (Armor.plain unitContainer.serialize).text
      = .ok (.rsa "me" [] [1] [1] [1] [1] [1] [1]) := by
  have hformed : unitContainer.WellFormed := ⟨rfl, rfl, rfl, rfl, by decide⟩
  have hparse := (parse_container unitContainer).1 hformed (Armor.plain unitContainer.serialize)
  have hkey : unitContainer.parsed = .rsa "me" [] [1] [1] [1] [1] [1] [1] := by decide +kernel
  rw [hkey] at hparse
  exact hparse

end SshKeyReference
