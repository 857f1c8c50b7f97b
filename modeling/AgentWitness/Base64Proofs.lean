import AgentWitness.OctetsProofs

/-! # Base64

    Three bytes are four SEXTETS, and a last group of two bytes or one is three
    sextets or two.  Both layers are undone separately: sextets are packed into
    bytes again, and each digit of an alphabet is read as its sextet.

    The decoder is the forgiving one of the web platform: it takes padding or
    leaves it, and drops the bits that do not fill a byte. -/

namespace Base64

/-- Sixty-four digits, each read as itself, and none of them the padding. -/
structure Alphabet where
  digit : Fin 64 → Char
  value : Char → Option (Fin 64)
  value_digit : ∀ sextet, value (digit sextet) = some sextet
  digit_ne_padding : ∀ sextet, digit sextet ≠ '='

/-- The digits that all alphabets share, and the last two. -/
def digitOf (plus slash : Char) (sextet : Fin 64) : Char :=
  if sextet < 26 then Char.ofNat (sextet.val + 65)
  else if sextet < 52 then Char.ofNat (sextet.val - 26 + 97)
  else if sextet < 62 then Char.ofNat (sextet.val - 52 + 48)
  else if sextet = 62 then plus
  else slash

def valueOf (plus slash : Char) (c : Char) : Option (Fin 64) :=
  if 'A' ≤ c ∧ c ≤ 'Z' then some (Fin.ofNat 64 (c.toNat - 65))
  else if 'a' ≤ c ∧ c ≤ 'z' then some (Fin.ofNat 64 (c.toNat - 97 + 26))
  else if '0' ≤ c ∧ c ≤ '9' then some (Fin.ofNat 64 (c.toNat - 48 + 52))
  else if c = plus then some 62
  else if c = slash then some 63
  else none

/-- The alphabet of `btoa` and `atob`. -/
def standard : Alphabet := ⟨digitOf '+' '/', valueOf '+' '/', by decide, by decide⟩

/-- The alphabet that is safe in a URL. -/
def url : Alphabet := ⟨digitOf '-' '_', valueOf '-' '_', by decide, by decide⟩

/-- Bytes as sextets; the last one is filled up with zero bits. -/
def sextets : List UInt8 → List (Fin 64)
  | [] => []
  | [a] =>
      let bits := a.toNat * 16
      [Fin.ofNat 64 (bits / 64), Fin.ofNat 64 bits]
  | [a, b] =>
      let bits := (a.toNat * 256 + b.toNat) * 4
      [Fin.ofNat 64 (bits / 4096), Fin.ofNat 64 (bits / 64), Fin.ofNat 64 bits]
  | a :: b :: c :: rest =>
      let bits := (a.toNat * 256 + b.toNat) * 256 + c.toNat
      Fin.ofNat 64 (bits / 262144) :: Fin.ofNat 64 (bits / 4096) :: Fin.ofNat 64 (bits / 64)
        :: Fin.ofNat 64 bits :: sextets rest

/-- Sextets as bytes; bits that do not fill a byte are dropped, and a single
    sextet is too little for one. -/
def pack : List (Fin 64) → Option (List UInt8)
  | [] => some []
  | [_] => none
  | [p, q] =>
      let bits := p.val * 64 + q.val
      some [UInt8.ofNat (bits / 16)]
  | [p, q, r] =>
      let bits := (p.val * 64 + q.val) * 64 + r.val
      some [UInt8.ofNat (bits / 1024), UInt8.ofNat (bits / 4)]
  | p :: q :: r :: s :: rest =>
      let bits := ((p.val * 64 + q.val) * 64 + r.val) * 64 + s.val
      (pack rest).map (fun bytes =>
        UInt8.ofNat (bits / 65536) :: UInt8.ofNat (bits / 256) :: UInt8.ofNat bits :: bytes)

/-- Bytes as text, without padding. -/
def encodeUnpadded (alphabet : Alphabet) (bytes : List UInt8) : List Char :=
  (sextets bytes).map alphabet.digit

/-- How many characters of padding fill the last group of four. -/
def padding (bytes : List UInt8) : Nat := (3 - bytes.length % 3) % 3

/-- Bytes as text. -/
def encode (alphabet : Alphabet) (bytes : List UInt8) : List Char :=
  encodeUnpadded alphabet bytes ++ List.replicate (padding bytes) '='

/-- Text without padding as bytes. -/
def decodeUnpadded (alphabet : Alphabet) (text : List Char) : Option (List UInt8) :=
  (text.mapM alphabet.value).bind pack

/-- Up to two characters of padding go, if they fill the last group of four. -/
def dropPadding (text : List Char) : List Char :=
  if text.length % 4 = 0 then
    match text.reverse with
    | '=' :: '=' :: rest => rest.reverse
    | '=' :: rest => rest.reverse
    | _ => text
  else text

/-- Forgiving decoding, of text without whitespace. -/
def decode (alphabet : Alphabet) (text : List Char) : Option (List UInt8) :=
  decodeUnpadded alphabet (dropPadding text)

/-! ## Sextets -/

/-- Bytes are read back from their sextets. -/
theorem pack_sextets (bytes : List UInt8) : pack (sextets bytes) = some bytes := by
  induction bytes using sextets.induct with
  | case1 => rfl
  | case2 a =>
      have ha := a.toNat_lt
      simp only [sextets, pack, Fin.val_ofNat, Option.some.injEq, List.cons.injEq, and_true]
      refine UInt8.toNat_inj.mp ?_
      rw [UInt8.toNat_ofNat']
      omega
  | case3 a b =>
      have ha := a.toNat_lt
      have hb := b.toNat_lt
      simp only [sextets, pack, Fin.val_ofNat, Option.some.injEq, List.cons.injEq, and_true]
      refine ⟨UInt8.toNat_inj.mp ?_, UInt8.toNat_inj.mp ?_⟩
      · rw [UInt8.toNat_ofNat']
        omega
      · rw [UInt8.toNat_ofNat']
        omega
  | case4 a b c rest ih =>
      have ha := a.toNat_lt
      have hb := b.toNat_lt
      have hc := c.toNat_lt
      simp only [sextets, pack, Fin.val_ofNat, ih, Option.map_some, Option.some.injEq,
        List.cons.injEq, and_true]
      refine ⟨UInt8.toNat_inj.mp ?_, UInt8.toNat_inj.mp ?_, UInt8.toNat_inj.mp ?_⟩
      · rw [UInt8.toNat_ofNat']
        omega
      · rw [UInt8.toNat_ofNat']
        omega
      · rw [UInt8.toNat_ofNat']
        omega

theorem length_sextets (bytes : List UInt8) :
    (sextets bytes).length = (4 * bytes.length + 2) / 3 := by
  induction bytes using sextets.induct with
  | case1 => rfl
  | case2 a => simp [sextets]
  | case3 a b => simp [sextets]
  | case4 a b c rest ih =>
      simp only [sextets, List.length_cons, ih]
      omega

/-! ## Digits -/

variable (alphabet : Alphabet)

theorem mapM_value_digits (digits : List (Fin 64)) :
    (digits.map alphabet.digit).mapM alphabet.value = some digits := by
  induction digits with
  | nil => rfl
  | cons sextet rest ih =>
      rw [List.map_cons, List.mapM_cons, alphabet.value_digit, ih]
      rfl

/-- Text without padding is read back. -/
theorem decodeUnpadded_encodeUnpadded (bytes : List UInt8) :
    decodeUnpadded alphabet (encodeUnpadded alphabet bytes) = some bytes := by
  rw [decodeUnpadded, encodeUnpadded, mapM_value_digits, Option.bind_some, pack_sextets]

theorem padding_notMem_encodeUnpadded (bytes : List UInt8) :
    '=' ∉ encodeUnpadded alphabet bytes := by
  intro hmem
  obtain ⟨sextet, _, hdigit⟩ := List.mem_map.mp hmem
  exact alphabet.digit_ne_padding sextet hdigit

theorem encode_length_mod (bytes : List UInt8) : (encode alphabet bytes).length % 4 = 0 := by
  rw [encode, encodeUnpadded, List.length_append, List.length_map, length_sextets,
    List.length_replicate, padding]
  obtain hlast | hlast | hlast :
      bytes.length % 3 = 0 ∨ bytes.length % 3 = 1 ∨ bytes.length % 3 = 2 := by omega
  · rw [hlast]
    omega
  · rw [hlast]
    omega
  · rw [hlast]
    omega

/-- Padding that was added goes. -/
theorem dropPadding_replicate {body : List Char} (hbody : '=' ∉ body) {n : Nat} (hn : n ≤ 2)
    (hlength : (body ++ List.replicate n '=').length % 4 = 0) :
    dropPadding (body ++ List.replicate n '=') = body := by
  have hreverse : (body ++ List.replicate n '=').reverse
      = List.replicate n '=' ++ body.reverse := by
    rw [List.reverse_append, List.reverse_replicate]
  -- the body does not end in padding, so no more goes than was added
  have hends : ∀ rest, body.reverse ≠ '=' :: rest := by
    intro rest hlast
    have hmem : '=' ∈ body.reverse := by
      rw [hlast]
      exact List.mem_cons_self
    exact hbody (List.mem_reverse.mp hmem)
  rw [dropPadding, if_pos hlength, hreverse]
  obtain rfl | rfl | rfl : n = 0 ∨ n = 1 ∨ n = 2 := by omega
  · rw [List.replicate_zero, List.nil_append, List.append_nil]
    split
    · rename_i hlast
      exact absurd hlast (hends _)
    · rename_i hlast
      exact absurd hlast (hends _)
    · rfl
  · rw [List.replicate_one, List.singleton_append]
    split
    · rename_i hlast
      exact absurd (List.cons.inj hlast).2 (hends _)
    · rename_i hlast
      rw [← (List.cons.inj hlast).2, List.reverse_reverse]
    · rename_i hplain
      exact absurd rfl (hplain body.reverse)
  · exact List.reverse_reverse body

/-- ENCODED BYTES ARE DECODED. -/
theorem decode_encode (bytes : List UInt8) :
    decode alphabet (encode alphabet bytes) = some bytes := by
  have hpad : padding bytes ≤ 2 := by
    unfold padding
    omega
  have hdrop : dropPadding (encode alphabet bytes) = encodeUnpadded alphabet bytes :=
    dropPadding_replicate (padding_notMem_encodeUnpadded alphabet bytes) hpad
      (encode_length_mod alphabet bytes)
  rw [decode, hdrop, decodeUnpadded_encodeUnpadded]

end Base64
