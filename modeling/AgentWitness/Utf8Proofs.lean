import Mathlib.Algebra.Order.Ring.Nat

/-! # UTF-8 — strict and lossy decoding of arbitrary bytes

    A byte string is cut into pieces: encoded characters, and BROKEN SEQUENCES,
    each as long as a decoder would have read before it had to give up.  Strict
    decoding accepts when no piece is broken; lossy decoding puts one
    replacement character for each broken piece.

    A replacement character takes three bytes, so lossy text can be longer than
    what it was read from.  `lossySize` says exactly how long it is.

    The two character properties that decide whether a text is printable stand
    at the end of the definitions. -/

namespace Utf8

/-- The bytes that encode a text. -/
def encode (text : String) : List UInt8 := text.toList.flatMap String.utf8EncodeChar

/-- The character whose encoding a byte string starts with. -/
def decodeFirst (bytes : List UInt8) : Option Char := bytes.toByteArray.utf8DecodeChar? 0

/-- A byte that can only continue a sequence. -/
def isContinuation (byte : UInt8) : Bool := 0x80 ≤ byte && byte ≤ 0xBF

/-- Can the second byte follow the first one of a sequence of three bytes? -/
def isSecondOfThree (first second : UInt8) : Bool :=
  if first = 0xE0 then 0xA0 ≤ second && second ≤ 0xBF
  else if first = 0xED then 0x80 ≤ second && second ≤ 0x9F
  else isContinuation second

/-- Can the second byte follow the first one of a sequence of four bytes? -/
def isSecondOfFour (first second : UInt8) : Bool :=
  if first = 0xF0 then 0x90 ≤ second && second ≤ 0xBF
  else if first = 0xF4 then 0x80 ≤ second && second ≤ 0x8F
  else isContinuation second

/-- How many bytes after the first one belong to a broken sequence: those that
    could still have been part of a character. -/
def brokenTail (first : UInt8) (rest : List UInt8) : Nat :=
  match rest with
  | [] => 0
  | second :: rest =>
      if 0xE0 ≤ first && first ≤ 0xEF then
        if isSecondOfThree first second then 1 else 0
      else if 0xF0 ≤ first && first ≤ 0xF4 then
        if isSecondOfFour first second then
          if rest.head?.any isContinuation then 2 else 1
        else 0
      else 0

/-- An encoded character, or a maximal sequence that is none. -/
inductive Piece where
  | scalar (c : Char)
  | broken
  deriving DecidableEq

/-- The pieces of a byte string whose first `skip` bytes have been consumed. -/
def piecesFrom : Nat → List UInt8 → List Piece
  | _, [] => []
  | skip + 1, _ :: rest => piecesFrom skip rest
  | 0, first :: rest =>
      match decodeFirst (first :: rest) with
      | some c => .scalar c :: piecesFrom (c.utf8Size - 1) rest
      | none => .broken :: piecesFrom (brokenTail first rest) rest

/-- The pieces of a byte string. -/
def pieces (bytes : List UInt8) : List Piece := piecesFrom 0 bytes

/-- The character that stands for a piece in lossy text. -/
def Piece.char : Piece → Char
  | .scalar c => c
  | .broken => '�'

/-- The character of an unbroken piece. -/
def Piece.scalar? : Piece → Option Char
  | .scalar c => some c
  | .broken => none

/-- Lossy decoding: one replacement character for each broken sequence. -/
def lossy (bytes : List UInt8) : String := String.ofList ((pieces bytes).map Piece.char)

/-- Strict decoding: no broken sequence is accepted. -/
def strict (bytes : List UInt8) : Option String :=
  ((pieces bytes).mapM Piece.scalar?).map String.ofList

/-- The bytes of a text that lossy decoding returns: those of its characters,
    and three for each broken sequence. -/
def lossySize (bytes : List UInt8) : Nat :=
  ((pieces bytes).map (fun piece => piece.char.utf8Size)).sum

/-- The general category `Cc`. -/
def isControl (c : Char) : Bool := c.toNat ≤ 0x1F || (0x7F ≤ c.toNat && c.toNat ≤ 0x9F)

/-- The property `White_Space`. -/
def isWhiteSpace (c : Char) : Bool :=
  (0x09 ≤ c.toNat && c.toNat ≤ 0x0D)
    || [0x20, 0x85, 0xA0, 0x1680, 0x2028, 0x2029, 0x202F, 0x205F, 0x3000].contains c.toNat
    || (0x2000 ≤ c.toNat && c.toNat ≤ 0x200A)

/-! ## Texts and their bytes -/

theorem encode_ofList (chars : List Char) :
    encode (String.ofList chars) = chars.flatMap String.utf8EncodeChar := by
  rw [encode, String.toList_ofList]

/-- A text's size is the number of its bytes. -/
theorem length_encode (text : String) : (encode text).length = text.utf8ByteSize := by
  have hbytes : text.toByteArray = (encode text).toByteArray := by
    rw [encode, ← List.utf8Encode, ← String.toByteArray_ofList, String.ofList_toList]
  rw [String.utf8ByteSize, hbytes, List.size_toByteArray]

/-- The size of a text is the total of its characters. -/
theorem utf8ByteSize_ofList (chars : List Char) :
    (String.ofList chars).utf8ByteSize = (chars.map Char.utf8Size).sum := by
  rw [← length_encode, encode_ofList, List.length_flatMap]
  have hsize : (fun c => (String.utf8EncodeChar c).length) = Char.utf8Size := by
    ext c
    exact String.length_utf8EncodeChar c
  rw [hsize]

/-! ## Cutting bytes into pieces -/

theorem piecesFrom_eq_drop (skip : Nat) (bytes : List UInt8) :
    piecesFrom skip bytes = pieces (bytes.drop skip) := by
  induction bytes generalizing skip with
  | nil => cases skip <;> rfl
  | cons first rest ih =>
      cases skip with
      | zero => rfl
      | succ skip => exact ih skip

theorem decodeFirst_encoded (c : Char) (rest : List UInt8) :
    decodeFirst (String.utf8EncodeChar c ++ rest) = some c := by
  rw [decodeFirst, List.toByteArray_append]
  exact ByteArray.utf8DecodeChar?_utf8EncodeChar_append

/-- A byte string that starts with a character is its encoding and a rest. -/
theorem decodeFirst_eq_some {bytes : List UInt8} {c : Char} (h : decodeFirst bytes = some c) :
    ∃ rest, bytes = String.utf8EncodeChar c ++ rest := by
  obtain ⟨rest, hrest⟩ := ByteArray.exists_of_utf8DecodeChar?_eq_some h
  refine ⟨rest.data.toList, ?_⟩
  have hlist := congrArg (fun b => b.data.toList) hrest
  simpa using hlist

/-- A byte that can be nowhere first starts no character. -/
theorem decodeFirst_of_invalid {first : UInt8} (rest : List UInt8)
    (h : ByteArray.utf8DecodeChar?.parseFirstByte first = .invalid) :
    decodeFirst (first :: rest) = none := by
  have hfirst : ∀ hsize : 0 < (first :: rest).toByteArray.size,
      (first :: rest).toByteArray[0] = first := by
    intro hsize
    simp [ByteArray.getElem_eq_getElem_data]
  unfold decodeFirst ByteArray.utf8DecodeChar?
  split
  · next hsize =>
      rw [← hfirst hsize] at h
      split
      · rfl
      all_goals
        next hparse =>
          rw [h] at hparse
          cases hparse
  · rfl

theorem utf8EncodeChar_ne_nil (c : Char) : String.utf8EncodeChar c ≠ [] := by
  intro hnil
  have hlen := String.length_utf8EncodeChar c
  rw [hnil] at hlen
  have hpos := Char.utf8Size_pos c
  rw [← hlen] at hpos
  exact Nat.lt_irrefl 0 hpos

/-- The first piece of a byte string that starts with a character. -/
theorem pieces_encoded (c : Char) (rest : List UInt8) :
    pieces (String.utf8EncodeChar c ++ rest) = .scalar c :: pieces rest := by
  have hlen := String.length_utf8EncodeChar c
  have hfirst := decodeFirst_encoded c rest
  obtain ⟨first, tail, htail⟩ := List.exists_cons_of_ne_nil (utf8EncodeChar_ne_nil c)
  rw [htail] at hlen hfirst ⊢
  have htaken : c.utf8Size - 1 = tail.length := by
    rw [← hlen]
    rfl
  show piecesFrom 0 (first :: (tail ++ rest)) = _
  have hfirst' : decodeFirst (first :: (tail ++ rest)) = some c := hfirst
  rw [piecesFrom, hfirst']
  show _ :: piecesFrom (c.utf8Size - 1) (tail ++ rest) = _
  rw [piecesFrom_eq_drop, htaken, List.drop_left]

/-- A byte that starts no character is a piece with what it takes along. -/
theorem pieces_broken {first : UInt8} {rest : List UInt8}
    (h : decodeFirst (first :: rest) = none) :
    pieces (first :: rest) = .broken :: pieces (rest.drop (brokenTail first rest)) := by
  rw [pieces, piecesFrom, h]
  show _ :: piecesFrom (brokenTail first rest) rest = _
  rw [piecesFrom_eq_drop]

theorem pieces_encodedChars (chars : List Char) :
    pieces (chars.flatMap String.utf8EncodeChar) = chars.map Piece.scalar := by
  induction chars with
  | nil => rfl
  | cons c chars ih => rw [List.flatMap_cons, pieces_encoded, ih, List.map_cons]

/-- Bytes all of whose pieces are characters are the encoding of those. -/
theorem encoded_of_pieces (bytes : List UInt8) (chars : List Char)
    (h : pieces bytes = chars.map Piece.scalar) :
    bytes = chars.flatMap String.utf8EncodeChar := by
  induction chars generalizing bytes with
  | nil =>
      cases bytes with
      | nil => rfl
      | cons first rest =>
          -- A first byte always opens a piece.
          cases hfirst : decodeFirst (first :: rest) with
          | none =>
              rw [pieces_broken hfirst] at h
              cases h
          | some c =>
              rw [pieces, piecesFrom, hfirst] at h
              cases h
  | cons c chars ih =>
      cases bytes with
      | nil => cases h
      | cons first rest =>
          cases hfirst : decodeFirst (first :: rest) with
          | none =>
              rw [pieces_broken hfirst] at h
              cases h
          | some c' =>
              obtain ⟨tail, htail⟩ := decodeFirst_eq_some hfirst
              rw [htail, pieces_encoded, List.map_cons] at h
              obtain ⟨hc, hrest⟩ := List.cons.inj h
              obtain rfl : c' = c := Piece.scalar.inj hc
              rw [htail, List.flatMap_cons, ih tail hrest]

/-! ## Strict and lossy decoding -/

theorem mapM_scalar?_eq_some {cut : List Piece} {chars : List Char} :
    cut.mapM Piece.scalar? = some chars ↔ cut = chars.map Piece.scalar := by
  induction cut generalizing chars with
  | nil => cases chars <;> simp
  | cons piece cut ih =>
      cases piece with
      | broken => cases chars <;> simp [Piece.scalar?]
      | scalar c =>
          simp only [List.mapM_cons, Piece.scalar?, Option.bind_eq_bind, Option.bind_some,
            Option.pure_def, Option.bind_eq_some_iff, Option.some.injEq]
          constructor
          · rintro ⟨chars', hcut, rfl⟩
            rw [ih.mp hcut, List.map_cons]
          · intro hcut
            obtain ⟨c', chars', rfl, hc, hcut⟩ := List.map_eq_cons_iff.mp hcut.symm
            refine ⟨chars', ih.mpr hcut.symm, ?_⟩
            rw [Piece.scalar.inj hc]

/-- **Strict decoding accepts exactly the encodings.** -/
theorem strict_eq_some {bytes : List UInt8} {text : String} :
    strict bytes = some text ↔ bytes = encode text := by
  rw [strict, Option.map_eq_some_iff]
  constructor
  · rintro ⟨chars, hchars, rfl⟩
    rw [encode_ofList]
    exact encoded_of_pieces bytes chars (mapM_scalar?_eq_some.mp hchars)
  · rintro rfl
    refine ⟨text.toList, mapM_scalar?_eq_some.mpr ?_, String.ofList_toList⟩
    exact pieces_encodedChars text.toList

/-- Lossy decoding loses nothing of an encoded text. -/
theorem lossy_encode (text : String) : lossy (encode text) = text := by
  have hchar : Piece.char ∘ Piece.scalar = id := rfl
  rw [lossy, encode, pieces_encodedChars, List.map_map, hchar, List.map_id, String.ofList_toList]

/-- **What lossy text measures.** -/
theorem utf8ByteSize_lossy (bytes : List UInt8) :
    (lossy bytes).utf8ByteSize = lossySize bytes := by
  rw [lossy, utf8ByteSize_ofList, List.map_map]
  rfl

/-- Every byte of a run of bytes that no character contains costs three. -/
theorem lossySize_replicate_invalid (n : Nat) : lossySize (List.replicate n 0xFF) = 3 * n := by
  have hpieces : pieces (List.replicate n 0xFF) = List.replicate n Piece.broken := by
    induction n with
    | zero => rfl
    | succ n ih =>
        have hbroken : decodeFirst (0xFF :: List.replicate n 0xFF) = none :=
          decodeFirst_of_invalid _ rfl
        have htail : brokenTail 0xFF (List.replicate n 0xFF) = 0 := by
          cases n <;> rfl
        rw [List.replicate_succ, pieces_broken hbroken, htail, List.drop_zero, ih,
          List.replicate_succ]
  have hwide : Piece.broken.char.utf8Size = 3 := rfl
  rw [lossySize, hpieces, List.map_replicate, List.sum_replicate_nat, hwide, Nat.mul_comm]

end Utf8
