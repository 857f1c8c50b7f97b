import AgentWitness.AgentRequestProofs
import AgentWitness.ContextProofs
import AgentWitness.ReaderProofs

/-! # The SSH wire format

    `ssh/encoding.ts`, and the signature blob of `crypto/ssh.ts` that is written with
    it.  A `Reader` is modelled by the bytes it has not read yet, a `Writer` by the bytes
    it has written.

    Each field is read back from the front of whatever follows it and refused if it is cut
    short, so a LIST of fields is read back by induction.  An mpint goes through two normal forms: its magnitude loses
    its leading zeros, and gets one of them back exactly if its first bit is set, which
    makes what is written the shortest two's-complement encoding.

    A length is written modulo `2 ^ 32`, so a string or mpint field must be shorter than
    that to be read back. -/

namespace SshWire

open Packet VaultModel AgentRequest Octets Reader
open Context (bind_eq_ok)

def stripLeadingZeros (b : Bytes) : Bytes :=
  match b.findIdx? (fun x => x ≠ 0) with
  -- nothing is left of an empty array
  | none => b.drop (b.length - 1)
  | some firstNonZero => b.drop firstNonZero

/-- `Reader.mpint`. -/
def readMpint (unread : Bytes) : Except Failure (Bytes × Bytes) := do
  let (value, unread) ← readString unread
  return (stripLeadingZeros value, unread)

/-- `Writer.u8`. -/
def writeU8 (v : UInt8) : Bytes := [v]

/-- `Writer.u32`. -/
def writeU32 (v : UInt32) : Bytes := bigEndian 4 v.toNat

/-- What `Writer.mpint` hands to `string`. -/
def mpintContents (magnitude : Bytes) : Bytes :=
  let m := stripLeadingZeros magnitude
  let needsPad := m.length > 0 && (m.headD 0 &&& 0x80) ≠ 0
  if needsPad then 0x00 :: m else m

/-- `Writer.mpint`. -/
def writeMpint (magnitude : Bytes) : Bytes := writeString (mpintContents magnitude)

/-! ## Fields -/

/-- The kinds of field that both sides know. -/
inductive Kind where
  | u8
  | u32
  | string
  | mpint
  deriving DecidableEq, Repr

/-- A field with its value. -/
inductive Field where
  | u8 (value : UInt8)
  | u32 (value : UInt32)
  | string (value : Bytes)
  | mpint (magnitude : Bytes)
  deriving DecidableEq, Repr

def Field.kind : Field → Kind
  | .u8 _ => .u8
  | .u32 _ => .u32
  | .string _ => .string
  | .mpint _ => .mpint

/-- One call of the `Writer`. -/
def Field.write : Field → Bytes
  | .u8 value => writeU8 value
  | .u32 value => writeU32 value
  | .string value => writeString value
  | .mpint magnitude => writeMpint magnitude

/-- One call of the `Reader`. -/
def Kind.read (unread : Bytes) : Kind → Except Failure (Field × Bytes)
  | .u8 => do
      let (value, unread) ← readU8 unread
      return (.u8 value, unread)
  | .u32 => do
      let (value, unread) ← readU32 unread
      return (.u32 (UInt32.ofNat value), unread)
  | .string => do
      let (value, unread) ← readString unread
      return (.string value, unread)
  | .mpint => do
      let (magnitude, unread) ← readMpint unread
      return (.mpint magnitude, unread)

/-- A `Writer` over a list of fields, with `finish`. -/
def writeFields (fields : List Field) : Bytes := fields.flatMap Field.write

/-- A `Reader` over a list of kinds: the fields, and what remains. -/
def readFields : List Kind → Bytes → Except Failure (List Field × Bytes)
  | [], unread => .ok ([], unread)
  | kind :: kinds, unread => do
      let (field, unread) ← kind.read unread
      let (fields, unread) ← readFields kinds unread
      return (field :: fields, unread)

/-- The length of the field can be written. -/
def Field.Fits : Field → Prop
  | .u8 _ => True
  | .u32 _ => True
  | .string value => value.length < 2 ^ 32
  | .mpint magnitude => (mpintContents magnitude).length < 2 ^ 32

/-- A magnitude without leading zeros, where a zero that has any byte keeps one. -/
def canonical (magnitude : Bytes) : Bytes :=
  if magnitude ≠ [] ∧ value magnitude = 0 then [0] else numeral (value magnitude)

/-- The field as it is read back. -/
def Field.normal : Field → Field
  | .mpint magnitude => .mpint (canonical magnitude)
  | field => field

/-! ## Leading zeros -/

theorem strip_cons {byte : UInt8} (h : byte ≠ 0) (rest : Bytes) :
    stripLeadingZeros (byte :: rest) = byte :: rest := by
  simp [stripLeadingZeros, List.findIdx?_cons, h]

theorem strip_zero_cons (byte : UInt8) (rest : Bytes) :
    stripLeadingZeros (0 :: byte :: rest) = stripLeadingZeros (byte :: rest) := by
  rw [stripLeadingZeros, stripLeadingZeros, List.findIdx?_cons]
  cases hfirst : (byte :: rest).findIdx? (fun x => x ≠ 0) with
  | none => simp
  | some first => simp

/-- What is left without leading zeros: the same number, in as few bytes as it has or in
    the one byte of a zero. -/
theorem strip_spec (b : Bytes) :
    value (stripLeadingZeros b) = value b
      ∧ (Minimal (stripLeadingZeros b) ∨ stripLeadingZeros b = [0]) := by
  induction b with
  | nil => exact ⟨rfl, Or.inl (by decide)⟩
  | cons byte rest ih =>
      by_cases hbyte : byte = 0
      · rw [hbyte, value_zero_cons]
        cases rest with
        | nil => exact ⟨rfl, Or.inr rfl⟩
        | cons next rest =>
            rw [strip_zero_cons]
            exact ih
      · rw [strip_cons hbyte]
        refine ⟨rfl, Or.inl ?_⟩
        intro hzero
        exact hbyte (Option.some.inj hzero)

theorem strip_of_minimal {b : Bytes} (h : Minimal b) : stripLeadingZeros b = b := by
  cases b with
  | nil => rfl
  | cons byte rest =>
      refine strip_cons ?_ rest
      intro hzero
      exact h (congrArg some hzero)

theorem strip_strip (b : Bytes) :
    stripLeadingZeros (stripLeadingZeros b) = stripLeadingZeros b := by
  obtain hminimal | hzero := (strip_spec b).2
  · exact strip_of_minimal hminimal
  · rw [hzero]
    rfl

theorem strip_eq_nil {b : Bytes} (h : stripLeadingZeros b = []) : b = [] := by
  induction b with
  | nil => rfl
  | cons byte rest ih =>
      by_cases hbyte : byte = 0
      · rw [hbyte] at h
        cases rest with
        | nil => cases h
        | cons next rest =>
            rw [strip_zero_cons] at h
            cases ih h
      · rw [strip_cons hbyte] at h
        cases h

/-- Stripping leaves the canonical magnitude. -/
theorem strip_eq_canonical (b : Bytes) : stripLeadingZeros b = canonical b := by
  unfold canonical
  obtain ⟨hvalue, hform⟩ := strip_spec b
  split_ifs with hzero
  · obtain ⟨hne, hzero⟩ := hzero
    obtain hminimal | hone := hform
    · -- a minimal numeral of zero has no bytes, and then there was none to strip
      rw [hzero] at hvalue
      have hnil := hminimal.eq (by decide : Minimal []) hvalue
      exact absurd (strip_eq_nil hnil) hne
    · exact hone
  · obtain hminimal | hone := hform
    · rw [← hvalue, hminimal.numeral_value]
    · rw [hone] at hvalue
      refine absurd ⟨?_, hvalue.symm⟩ hzero
      intro hnil
      rw [hnil] at hone
      cases hone

theorem canonical_of_pos {b : Bytes} (h : 0 < value b) : canonical b = numeral (value b) := by
  rw [canonical, if_neg]
  rintro ⟨_, hzero⟩
  omega

/-- A number above zero is left with its minimal numeral. -/
theorem strip_eq_numeral {b : Bytes} (h : 0 < value b) :
    stripLeadingZeros b = numeral (value b) := by
  rw [strip_eq_canonical, canonical_of_pos h]

/-! ## The contents of an mpint -/

/-- The padding test looks at the first bit. -/
theorem and_sign_bit (byte : UInt8) : byte &&& 0x80 = 0 ↔ byte < 0x80 := by
  have hall : ∀ n < 256, UInt8.ofNat n &&& 0x80 = 0 ↔ UInt8.ofNat n < 0x80 := by
    decide +kernel
  have hbyte := hall byte.toNat byte.toNat_lt
  rw [UInt8.ofNat_toNat] at hbyte
  exact hbyte

theorem contents_of_clear {magnitude rest : Bytes} {byte : UInt8}
    (hstrip : stripLeadingZeros magnitude = byte :: rest) (hclear : byte < 0x80) :
    mpintContents magnitude = byte :: rest := by
  have hbit : byte &&& 0x80 = 0 := (and_sign_bit byte).mpr hclear
  simp [mpintContents, hstrip, hbit]

theorem contents_of_set {magnitude rest : Bytes} {byte : UInt8}
    (hstrip : stripLeadingZeros magnitude = byte :: rest) (hset : ¬ byte < 0x80) :
    mpintContents magnitude = 0 :: byte :: rest := by
  have hbit : byte &&& 0x80 ≠ 0 := fun h => hset ((and_sign_bit byte).mp h)
  simp [mpintContents, hstrip, hbit]

/-- Reading undoes the padding. -/
theorem strip_contents (magnitude : Bytes) :
    stripLeadingZeros (mpintContents magnitude) = stripLeadingZeros magnitude := by
  cases hstrip : stripLeadingZeros magnitude with
  | nil =>
      simp only [mpintContents, hstrip]
      rfl
  | cons byte rest =>
      have hsame : stripLeadingZeros (byte :: rest) = byte :: rest := by
        rw [← hstrip, strip_strip]
      by_cases hclear : byte < 0x80
      · rw [contents_of_clear hstrip hclear, hsame]
      · rw [contents_of_set hstrip hclear, strip_zero_cons, hsame]

/-- What is written for a number above zero is its shortest encoding. -/
theorem shortest_contents {magnitude : Bytes} (h : 0 < value magnitude) :
    Shortest (mpintContents magnitude) (value magnitude) := by
  have hstrip := strip_eq_numeral h
  have hvalue := value_numeral (value magnitude)
  cases hnumeral : numeral (value magnitude) with
  | nil => exact absurd hnumeral (numeral_ne_nil h)
  | cons byte rest =>
      rw [hnumeral] at hstrip hvalue
      rw [← hvalue]
      by_cases hclear : byte < 0x80
      · have hbyte : byte ≠ 0 := by
          intro hzero
          have hminimal := minimal_numeral (value magnitude)
          rw [hnumeral] at hminimal
          exact hminimal (congrArg some hzero)
        rw [contents_of_clear hstrip hclear]
        exact shortest_of_clear hclear hbyte rest
      · rw [contents_of_set hstrip hclear]
        exact shortest_of_set hclear rest

theorem length_contents_le (magnitude : Bytes) :
    (mpintContents magnitude).length ≤ magnitude.length + 1 := by
  have hstrip : (stripLeadingZeros magnitude).length ≤ magnitude.length := by
    unfold stripLeadingZeros
    split
    · exact (List.drop_sublist _ _).length_le
    · exact (List.drop_sublist _ _).length_le
  unfold mpintContents
  dsimp only
  split_ifs
  · rw [List.length_cons]
    omega
  · omega

/-! ## Reading back -/

/-- What every accessor throws that would read past the end. -/
def endOfBuffer : Failure := .error "unexpected end of SSH buffer"

theorem reads_bytes (bytes : Bytes) : Reads endOfBuffer (readBytes bytes.length) bytes bytes where
  whole rest := by
    have hlength : ¬ (bytes ++ rest).length < bytes.length := by
      rw [List.length_append]
      omega
    rw [readBytes, if_neg hlength, List.take_left, List.drop_left]
  cut part hpart hne := by
    have hlength : part.length < bytes.length := by
      have hle := hpart.length_le
      have hdiff : part.length ≠ bytes.length := fun h => hne (hpart.eq_of_length h)
      omega
    rw [readBytes, if_pos hlength]
    rfl

theorem reads_u8 (v : UInt8) : Reads endOfBuffer readU8 (writeU8 v) v :=
  (reads_bytes [v]).last (fun _ => rfl)

theorem reads_u32 {n : Nat} (h : n < 2 ^ 32) : Reads endOfBuffer readU32 (bigEndian 4 n) n := by
  have hbytes := reads_bytes (bigEndian 4 n)
  rw [length_bigEndian] at hbytes
  refine hbytes.last ?_
  intro unread
  show Except.ok (value (bigEndian 4 n), unread) = Except.ok (n, unread)
  rw [value_bigEndian h]

theorem reads_string {bytes : Bytes} (h : bytes.length < 2 ^ 32) :
    Reads endOfBuffer readString (writeString bytes) bytes :=
  (reads_u32 h).bind (reads_bytes bytes)

theorem reads_mpint {contents : Bytes} (h : contents.length < 2 ^ 32) :
    Reads endOfBuffer readMpint (writeString contents) (stripLeadingZeros contents) :=
  (reads_string h).last (fun _ => rfl)

/-- One field is read back. -/
theorem reads_field {field : Field} (h : field.Fits) :
    Reads endOfBuffer (fun unread => Kind.read unread field.kind) field.write field.normal := by
  cases field with
  | u8 value => exact (reads_u8 value).last (fun _ => rfl)
  | u32 value =>
      refine (reads_u32 value.toNat_lt).last ?_
      intro unread
      show Except.ok (Field.u32 (UInt32.ofNat value.toNat), unread)
        = Except.ok (Field.u32 value, unread)
      rw [UInt32.ofNat_toNat]
  | string value => exact (reads_string h).last (fun _ => rfl)
  | mpint magnitude =>
      refine (reads_mpint h).last ?_
      intro unread
      show Except.ok (Field.mpint (stripLeadingZeros (mpintContents magnitude)), unread)
        = Except.ok (Field.mpint (canonical magnitude), unread)
      rw [strip_contents, strip_eq_canonical]

/-- A LIST OF FIELDS IS READ BACK. -/
theorem reads_fields {fields : List Field} (h : ∀ field ∈ fields, field.Fits) :
    Reads endOfBuffer (readFields (fields.map Field.kind)) (writeFields fields)
      (fields.map Field.normal) := by
  induction fields with
  | nil => exact .known []
  | cons field fields ih =>
      have hfield := reads_field (h field List.mem_cons_self)
      have hfields := ih (fun f hf => h f (List.mem_cons_of_mem field hf))
      exact hfield.bind (hfields.last (fun _ => rfl))

theorem readFields_write {fields : List Field} (h : ∀ field ∈ fields, field.Fits) :
    readFields (fields.map Field.kind) (writeFields fields) = .ok (fields.map Field.normal, []) := by
  have hread := (reads_fields h).whole []
  rw [List.append_nil] at hread
  exact hread

/-! ## What was read -/

theorem readBytes_ok {size : Nat} {unread bytes rest : Bytes}
    (h : readBytes size unread = .ok (bytes, rest)) :
    bytes.length = size ∧ unread = bytes ++ rest := by
  unfold readBytes at h
  split_ifs at h with hshort
  obtain ⟨rfl, rfl⟩ := Prod.mk.inj (Except.ok.inj h)
  refine ⟨?_, (List.take_append_drop size unread).symm⟩
  rw [List.length_take]
  omega

theorem readU32_ok {unread rest : Bytes} {n : Nat} (h : readU32 unread = .ok (n, rest)) :
    n < 2 ^ 32 ∧ unread = bigEndian 4 n ++ rest := by
  obtain ⟨⟨bytes, after⟩, hbytes, hn⟩ := bind_eq_ok h
  obtain ⟨rfl, rfl⟩ := Prod.mk.inj (Except.ok.inj hn)
  obtain ⟨hlength, hunread⟩ := readBytes_ok hbytes
  have hlt := value_lt bytes
  have hwritten := bigEndian_value bytes
  rw [hlength] at hlt hwritten
  rw [hwritten]
  exact ⟨hlt, hunread⟩

theorem readString_ok {unread bytes rest : Bytes} (h : readString unread = .ok (bytes, rest)) :
    bytes.length < 2 ^ 32 ∧ unread = writeString bytes ++ rest := by
  obtain ⟨⟨size, after⟩, hsize, hbytes⟩ := bind_eq_ok h
  obtain ⟨hlt, hunread⟩ := readU32_ok hsize
  obtain ⟨hlength, hafter⟩ := readBytes_ok hbytes
  rw [hunread, hafter, writeString, hlength, List.append_assoc]
  exact ⟨hlt, rfl⟩

theorem readMpint_ok {unread magnitude rest : Bytes}
    (h : readMpint unread = .ok (magnitude, rest)) :
    ∃ contents, contents.length < 2 ^ 32 ∧ magnitude = stripLeadingZeros contents
      ∧ unread = writeString contents ++ rest := by
  obtain ⟨⟨contents, after⟩, hcontents, hstrip⟩ := bind_eq_ok h
  obtain ⟨rfl, rfl⟩ := Prod.mk.inj (Except.ok.inj hstrip)
  obtain ⟨hlt, hunread⟩ := readString_ok hcontents
  exact ⟨contents, hlt, rfl, hunread⟩

/-! ## Signatures -/

/-- The algorithm parameters that `sshSign` passes to `subtle.sign`. -/
inductive SignAlgorithm where
  | ed25519
  | ecdsaSha256
  | rsassaPkcs1V15
  deriving DecidableEq

/-- An `RsaFlavor` is its name. -/
def rsaFlavorName : RsaFlavor → String
  | .rsaSha2_256 => "rsa-sha2-256"
  | .rsaSha2_512 => "rsa-sha2-512"

/-- `sshSign`, over the platform's `subtle.sign`. -/
def sshSign (subtleSign : SignAlgorithm → CryptoKey → Bytes → Except String Bytes)
    (signingKey : CryptoKey) (type : KeyType) (data : Bytes) (rsaFlavor : RsaFlavor) :
    Except String Bytes :=
  match type with
  | .sshEd25519 => do
      let signature ← subtleSign .ed25519 signingKey data
      return writeString (encodeText "ssh-ed25519") ++ writeString signature
  | .ecdsaSha2Nistp256 => do
      let raw ← subtleSign .ecdsaSha256 signingKey data
      let inner := writeMpint (raw.take 32) ++ writeMpint ((raw.drop 32).take 32)
      return writeString (encodeText "ecdsa-sha2-nistp256") ++ writeString inner
  | .sshRsa => do
      let signature ← subtleSign .rsassaPkcs1V15 signingKey data
      return writeString (encodeText (rsaFlavorName rsaFlavor)) ++ writeString signature

/-- The two integers of a raw ECDSA signature. -/
def ecdsaFields (raw : Bytes) : List Field := [.mpint (raw.take 32), .mpint ((raw.drop 32).take 32)]

/-- The fields of an ECDSA signature blob. -/
def ecdsaBlobFields (raw : Bytes) : List Field :=
  [.string (encodeText "ecdsa-sha2-nistp256"), .string (writeFields (ecdsaFields raw))]

theorem sshSign_ecdsa {subtleSign : SignAlgorithm → CryptoKey → Bytes → Except String Bytes}
    {signingKey : CryptoKey} {data raw : Bytes}
    (hraw : subtleSign .ecdsaSha256 signingKey data = .ok raw) (rsaFlavor : RsaFlavor) :
    sshSign subtleSign signingKey .ecdsaSha2Nistp256 data rsaFlavor
      = .ok (writeFields (ecdsaBlobFields raw)) := by
  rw [sshSign, hraw]
  simp [bind, Except.bind, pure, Except.pure, writeFields, ecdsaFields, ecdsaBlobFields,
    Field.write]

/-- Half a raw signature is 32 bytes, so its mpint is at most 33. -/
theorem ecdsaFields_fit (raw : Bytes) : ∀ field ∈ ecdsaFields raw, field.Fits := by
  intro field hfield
  have hr := length_contents_le (raw.take 32)
  have hs := length_contents_le ((raw.drop 32).take 32)
  rw [List.length_take] at hr hs
  simp only [ecdsaFields, List.mem_cons, List.not_mem_nil, or_false] at hfield
  obtain rfl | rfl := hfield
  · show (mpintContents (raw.take 32)).length < 2 ^ 32
    omega
  · show (mpintContents ((raw.drop 32).take 32)).length < 2 ^ 32
    omega

theorem length_writeMpint_le (magnitude : Bytes) :
    (writeMpint magnitude).length ≤ magnitude.length + 5 := by
  have hcontents := length_contents_le magnitude
  rw [writeMpint, writeString, List.length_append, length_bigEndian]
  omega

theorem ecdsaBlobFields_fit (raw : Bytes) : ∀ field ∈ ecdsaBlobFields raw, field.Fits := by
  intro field hfield
  simp only [ecdsaBlobFields, List.mem_cons, List.not_mem_nil, or_false] at hfield
  obtain rfl | rfl := hfield
  · show (encodeText "ecdsa-sha2-nistp256").length < 2 ^ 32
    decide
  · have hr := length_writeMpint_le (raw.take 32)
    have hs := length_writeMpint_le ((raw.drop 32).take 32)
    rw [List.length_take] at hr hs
    show (writeFields (ecdsaFields raw)).length < 2 ^ 32
    simp only [writeFields, ecdsaFields, Field.write, List.flatMap_cons, List.flatMap_nil,
      List.append_nil, List.length_append]
    omega

/-- The integers of a raw signature are read in canonical form. -/
theorem ecdsaFields_normal {raw : Bytes} (hr : 0 < value (raw.take 32))
    (hs : 0 < value ((raw.drop 32).take 32)) :
    (ecdsaFields raw).map Field.normal
      = [.mpint (numeral (value (raw.take 32))), .mpint (numeral (value ((raw.drop 32).take 32)))] := by
  rw [← canonical_of_pos hr, ← canonical_of_pos hs]
  rfl

/-- On the wire an mpint is the string of its contents. -/
theorem readFields_ecdsaContents (raw : Bytes) :
    readFields [.string, .string] (writeFields (ecdsaFields raw))
      = .ok ([.string (mpintContents (raw.take 32)),
          .string (mpintContents ((raw.drop 32).take 32))], []) := by
  have hr32 := ecdsaFields_fit raw (.mpint (raw.take 32)) List.mem_cons_self
  have hs32 := ecdsaFields_fit raw (.mpint ((raw.drop 32).take 32))
    (List.mem_cons_of_mem _ List.mem_cons_self)
  have hread := @readFields_write [.string (mpintContents (raw.take 32)),
    .string (mpintContents ((raw.drop 32).take 32))] (by
      intro field hfield
      simp only [List.mem_cons, List.not_mem_nil, or_false] at hfield
      obtain rfl | rfl := hfield
      · exact hr32
      · exact hs32)
  exact hread

/-- **THE WIRE CODEC.**  Fields that fit are read back in their canonical form, with
    nothing left; the mpint of a number above zero is its shortest two's-complement
    encoding behind its length; and an ECDSA signature with two integers above zero is
    read as the algorithm name and these integers, each written in its shortest form and
    read without a leading zero. -/
theorem wire_codec :
    (∀ fields : List Field, (∀ field ∈ fields, field.Fits) →
        readFields (fields.map Field.kind) (writeFields fields) = .ok (fields.map Field.normal, []))
      ∧ (∀ magnitude : Bytes, 0 < value magnitude → (Field.mpint magnitude).Fits →
          ∃ contents, writeMpint magnitude = bigEndian 4 contents.length ++ contents
            ∧ contents.length < 2 ^ 32 ∧ Shortest contents (value magnitude))
      ∧ ∀ (subtleSign : SignAlgorithm → CryptoKey → Bytes → Except String Bytes)
          (signingKey : CryptoKey) (data raw : Bytes) (rsaFlavor : RsaFlavor),
          subtleSign .ecdsaSha256 signingKey data = .ok raw → raw.length = 64 →
          0 < value (raw.take 32) → 0 < value (raw.drop 32) →
          ∃ blob inner r s,
            sshSign subtleSign signingKey .ecdsaSha2Nistp256 data rsaFlavor = .ok blob
              ∧ readFields [.string, .string] blob
                  = .ok ([.string (encodeText "ecdsa-sha2-nistp256"), .string inner], [])
              ∧ readFields [.mpint, .mpint] inner
                  = .ok ([.mpint (numeral (value (raw.take 32))),
                      .mpint (numeral (value (raw.drop 32)))], [])
              ∧ readFields [.string, .string] inner = .ok ([.string r, .string s], [])
              ∧ Shortest r (value (raw.take 32)) ∧ Shortest s (value (raw.drop 32)) := by
  refine ⟨?_, ?_, ?_⟩
  · intro fields hfits
    exact readFields_write hfits
  · intro magnitude hpos hshort
    exact ⟨mpintContents magnitude, rfl, hshort, shortest_contents hpos⟩
  · intro subtleSign signingKey data raw rsaFlavor hraw hlength hr hs
    have htail : (raw.drop 32).take 32 = raw.drop 32 := by
      refine List.take_of_length_le ?_
      rw [List.length_drop, hlength]
    rw [← htail] at hs
    have hblob := readFields_write (ecdsaBlobFields_fit raw)
    have hinner := readFields_write (ecdsaFields_fit raw)
    have hcontents := readFields_ecdsaContents raw
    have hshortest := shortest_contents hs
    rw [ecdsaFields_normal hr hs, htail] at hinner
    rw [htail] at hcontents hshortest
    exact ⟨_, _, _, _, sshSign_ecdsa hraw rsaFlavor, hblob, hinner, hcontents,
      shortest_contents hr, hshortest⟩

/-- One field of each kind; the mpint has a leading zero and its first bit set. -/
def sampleFields : List Field := [.u8 7, .u32 9, .string [1, 2], .mpint [0, 0x80]]

theorem sampleFields_fit : ∀ field ∈ sampleFields, field.Fits := by
  intro field hfield
  simp only [sampleFields, List.mem_cons, List.not_mem_nil, or_false] at hfield
  obtain rfl | rfl | rfl | rfl := hfield
  · exact trivial
  · exact trivial
  · show 2 < 2 ^ 32
    decide
  · show 2 < 2 ^ 32
    decide

/-- A raw signature of two ones. -/
def onesSignature : Bytes := bigEndian 32 1 ++ bigEndian 32 1

theorem wire_codec_sample :
    readFields [.u8, .u32, .string, .mpint] (writeFields sampleFields)
        = .ok (sampleFields.map Field.normal, [])
      ∧ (∃ contents, writeMpint [0x80] = bigEndian 4 contents.length ++ contents
          ∧ contents.length < 2 ^ 32 ∧ Shortest contents 0x80)
      ∧ ∃ blob inner,
          sshSign (fun _ _ _ => .ok onesSignature) ⟨[], .ecdsa "P-256", false, [.sign]⟩
              .ecdsaSha2Nistp256 [] .rsaSha2_256 = .ok blob
            ∧ readFields [.string, .string] blob
                = .ok ([.string (encodeText "ecdsa-sha2-nistp256"), .string inner], [])
            ∧ readFields [.mpint, .mpint] inner = .ok ([.mpint [1], .mpint [1]], []) := by
  obtain ⟨hfields, hmpint, hsign⟩ := wire_codec
  obtain ⟨blob, inner, _, _, hblob, houter, hinner, _⟩ :=
    hsign (fun _ _ _ => .ok onesSignature) ⟨[], .ecdsa "P-256", false, [.sign]⟩ [] onesSignature
      .rsaSha2_256 rfl (by decide) (by decide) (by decide)
  have hr : numeral (value (onesSignature.take 32)) = [1] := by decide +kernel
  have hs : numeral (value (onesSignature.drop 32)) = [1] := by decide +kernel
  rw [hr, hs] at hinner
  exact ⟨hfields sampleFields sampleFields_fit,
    hmpint [0x80] (by decide) (show 2 < 2 ^ 32 by decide), blob, inner, hblob, houter, hinner⟩

/-! ## A field that is too long -/

/-- One byte fewer than fit a length, all of them set. -/
def longMagnitude : Bytes := List.replicate (2 ^ 32 - 1) 0xFF

/-- The zero byte in front makes the contents one byte too long, and the length that is
    written wraps around to zero. -/
theorem readMpint_wrapped {n : Nat} (h : n + 1 = 2 ^ 32) :
    readMpint (writeMpint (List.replicate n 0xFF)) = .ok ([], 0 :: List.replicate n 0xFF) := by
  have hn : n = (n - 1) + 1 := by omega
  have hstrip : stripLeadingZeros (List.replicate n 0xFF) = 0xFF :: List.replicate (n - 1) 0xFF := by
    rw [hn, List.replicate_succ]
    exact strip_cons (by decide) _
  have hcontents : mpintContents (List.replicate n 0xFF) = 0 :: List.replicate n 0xFF := by
    rw [contents_of_set hstrip (by decide), ← List.replicate_succ, ← hn]
  have hlength : (0 :: List.replicate n (0xFF : UInt8)).length = 2 ^ 32 := by
    rw [List.length_cons, List.length_replicate, h]
  have hwritten : writeMpint (List.replicate n 0xFF)
      = bigEndian 4 0 ++ (0 :: List.replicate n 0xFF) := by
    rw [writeMpint, hcontents, writeString, hlength]
    rfl
  rw [hwritten, readMpint, readString, (reads_u32 (by decide)).whole]
  rfl

/-- An mpint field of `2 ^ 32` bytes is read as an empty one, with all its bytes left. -/
theorem long_mpint_not_read_back :
    readFields ([Field.mpint longMagnitude].map Field.kind)
        (writeFields [Field.mpint longMagnitude])
      ≠ .ok ([Field.mpint longMagnitude].map Field.normal, []) := by
  intro hread
  have hwritten : writeFields [Field.mpint longMagnitude] = writeMpint longMagnitude :=
    List.append_nil _
  have hwrapped : readMpint (writeMpint longMagnitude) = .ok ([], 0 :: longMagnitude) :=
    readMpint_wrapped (by decide)
  have hkinds : [Field.mpint longMagnitude].map Field.kind = [Kind.mpint] := rfl
  rw [hwritten, hkinds, readFields, Kind.read, hwrapped] at hread
  have hrest : (0 :: longMagnitude) = ([] : Bytes) :=
    congrArg Prod.snd (Except.ok.inj hread)
  cases hrest

end SshWire
