import AgentWitness.Base64Proofs
import AgentWitness.VaultModelProofs

/-! # JSON Web Keys of parsed keys

    `crypto/ssh.ts` imports a parsed RSA or ECDSA key into WebCrypto as a JSON Web Key.
    OpenSSH stores no CRT exponents, so two fields of an RSA key are computed: their
    bytes go through `bigint` arithmetic and back through hexadecimal text.

    NOTHING OF THE KEY IS LOST on the way: each field, read as a big-endian number, is
    the number of the parsed key, the computed fields are the exponents reduced modulo
    `p - 1` and `q - 1`, and the fields of fixed width have that width. -/

namespace Jwk

open Packet VaultModel Octets

/-! ## Bytes and text -/

/-- `b64encode`: `btoa` is standard base64. -/
def b64encode (b : Bytes) : List Char := Base64.encode Base64.standard b

def b64urlencode (b : Bytes) : List Char :=
  (((b64encode b).map (fun c => if c = '+' then '-' else c)).map
    (fun c => if c = '/' then '_' else c)).filter (fun c => c ≠ '=')

def fixedWidth (b : Bytes) (length : Nat) : Bytes :=
  if b.length ≥ length then b.drop (b.length - length)
  else List.replicate (length - b.length) 0 ++ b

def toBigInt (b : Bytes) : Nat := b.foldl (fun n x => (n <<< 8) ||| x.toNat) 0

/-- The value of a hexadecimal digit, as `parseInt` reads it. -/
def hexValue (c : Char) : Nat :=
  if '0' ≤ c ∧ c ≤ '9' then c.toNat - 48 else c.toNat - 97 + 10

/-- `padded.match(/../g)`, with each pair read by `parseInt`. -/
def hexPairs : List Char → Bytes
  | c :: d :: rest => UInt8.ofNat (16 * hexValue c + hexValue d) :: hexPairs rest
  | _ => []

/-- The text that `fromBigInt` cuts into pairs. -/
def paddedHex (n : Nat) : List Char :=
  let hex := Nat.toDigits 16 n
  if hex.length % 2 = 0 then hex else '0' :: hex

def fromBigInt (n : Nat) : Bytes := hexPairs (paddedHex n)

/-- The remainder of two `bigint`s. -/
def remainder (a b : Int) : Except String Int :=
  if b = 0 then .error "Division by zero" else .ok (a.tmod b)

/-! ## The two conversions -/

/-- A private RSA key as `JsonWebKey`. -/
structure RsaJwk where
  kty : String
  n : List Char
  e : List Char
  d : List Char
  p : List Char
  q : List Char
  dp : List Char
  dq : List Char
  qi : List Char
  ext : Bool
  deriving DecidableEq

/-- A private key on a curve as `JsonWebKey`. -/
structure EcJwk where
  kty : String
  crv : String
  x : List Char
  y : List Char
  d : List Char
  ext : Bool
  deriving DecidableEq

def rsaJwk (keyN keyE keyD keyP keyQ iqmp : Bytes) : Except String RsaJwk := do
  let d := toBigInt keyD
  let p := toBigInt keyP
  let q := toBigInt keyQ
  let dp ← remainder d (p - 1)
  let dq ← remainder d (q - 1)
  return {
    kty := "RSA"
    n := b64urlencode keyN
    e := b64urlencode keyE
    d := b64urlencode keyD
    p := b64urlencode keyP
    q := b64urlencode keyQ
    dp := b64urlencode (fromBigInt dp.toNat)
    dq := b64urlencode (fromBigInt dq.toNat)
    qi := b64urlencode iqmp
    ext := true }

def ecdsaJwk (point d : Bytes) : EcJwk where
  kty := "EC"
  crv := "P-256"
  x := b64urlencode ((point.take 33).drop 1)
  y := b64urlencode ((point.take 65).drop 33)
  d := b64urlencode (fixedWidth d 32)
  ext := true

/-! ## base64url -/

/-- The two symbols of the standard alphabet are replaced by those of the other. -/
theorem url_digit (sextet : Fin 64) :
    (fun c => if c = '/' then '_' else c)
        ((fun c => if c = '+' then '-' else c) (Base64.standard.digit sextet))
      = Base64.url.digit sextet := by
  revert sextet
  decide

theorem b64urlencode_eq (b : Bytes) :
    b64urlencode b = Base64.encodeUnpadded Base64.url b := by
  have hdigits : ((Base64.encodeUnpadded Base64.standard b).map
      (fun c => if c = '+' then '-' else c)).map (fun c => if c = '/' then '_' else c)
        = Base64.encodeUnpadded Base64.url b := by
    rw [Base64.encodeUnpadded, Base64.encodeUnpadded, List.map_map, List.map_map]
    refine List.map_congr_left ?_
    intro sextet _
    exact url_digit sextet
  rw [b64urlencode, b64encode, Base64.encode, List.map_append, List.map_append, hdigits,
    List.filter_append]
  have hkept : (Base64.encodeUnpadded Base64.url b).filter (fun c => c ≠ '=')
      = Base64.encodeUnpadded Base64.url b := by
    rw [List.filter_eq_self]
    intro c hc
    have hne : c ≠ '=' := by
      intro heq
      rw [heq] at hc
      exact Base64.padding_notMem_encodeUnpadded Base64.url b hc
    simp [hne]
  have hdropped : (((List.replicate (Base64.padding b) '=').map
      (fun c => if c = '+' then '-' else c)).map
        (fun c => if c = '/' then '_' else c)).filter (fun c => c ≠ '=') = [] := by
    simp [List.map_replicate]
  rw [hkept, hdropped, List.append_nil]

/-- Every field is read back. -/
theorem decode_b64urlencode (b : Bytes) :
    Base64.decodeUnpadded Base64.url (b64urlencode b) = some b := by
  rw [b64urlencode_eq, Base64.decodeUnpadded_encodeUnpadded]

/-! ## Numbers -/

theorem toBigInt_eq_value (b : Bytes) : toBigInt b = value b := by
  have hstep : (fun (n : Nat) (x : UInt8) => (n <<< 8) ||| x.toNat)
      = fun n x => 256 * n + x.toNat := by
    funext n x
    rw [← Nat.shiftLeft_add_eq_or_of_lt x.toNat_lt, Nat.shiftLeft_eq, Nat.mul_comm]
  rw [toBigInt, hstep, value]

theorem hexValue_digitChar {n : Nat} (h : n < 16) : hexValue n.digitChar = n := by
  have hall : ∀ n < 16, hexValue n.digitChar = n := by decide
  exact hall n h

/-- The pairs of a text of even length end where it ends. -/
theorem hexPairs_append {text : List Char} (heven : text.length % 2 = 0) (rest : List Char) :
    hexPairs (text ++ rest) = hexPairs text ++ hexPairs rest := by
  induction text using hexPairs.induct with
  | case1 c d text ih =>
      have htext : text.length % 2 = 0 := by
        rw [List.length_cons, List.length_cons] at heven
        omega
      rw [List.cons_append, List.cons_append, hexPairs, ih htext, hexPairs, List.cons_append]
  | case2 text hshort =>
      cases text with
      | nil => rfl
      | cons c text =>
          cases text with
          | nil => cases heven
          | cons d text => exact absurd rfl (hshort c d text)

theorem paddedHex_even (n : Nat) : (paddedHex n).length % 2 = 0 := by
  unfold paddedHex
  dsimp only
  split_ifs with heven
  · exact heven
  · rw [List.length_cons]
    omega

/-- From 256 on, the last two digits are those of the last byte. -/
theorem paddedHex_step {n : Nat} (h : 256 ≤ n) :
    paddedHex n = paddedHex (n / 256) ++ [(n / 16 % 16).digitChar, (n % 16).digitChar] := by
  have hdiv : n / 16 / 16 = n / 256 := Nat.div_div_eq_div_mul n 16 16
  have hdigits : Nat.toDigits 16 n
      = Nat.toDigits 16 (n / 256) ++ [(n / 16 % 16).digitChar, (n % 16).digitChar] := by
    rw [Nat.toDigits_of_base_le (by decide) (by omega),
      Nat.toDigits_of_base_le (by decide) (by omega : 16 ≤ n / 16), hdiv, List.append_assoc]
    rfl
  have hlength : (Nat.toDigits 16 n).length % 2 = (Nat.toDigits 16 (n / 256)).length % 2 := by
    rw [hdigits, List.length_append]
    simp
  unfold paddedHex
  dsimp only
  rw [hlength, hdigits]
  split_ifs
  · rfl
  · rw [List.cons_append]

theorem fromBigInt_step {n : Nat} (h : 256 ≤ n) :
    fromBigInt n = fromBigInt (n / 256) ++ [UInt8.ofNat n] := by
  have hbyte : hexPairs [(n / 16 % 16).digitChar, (n % 16).digitChar] = [UInt8.ofNat n] := by
    rw [hexPairs, hexValue_digitChar (by omega), hexValue_digitChar (by omega)]
    have hsame : UInt8.ofNat (16 * (n / 16 % 16) + n % 16) = UInt8.ofNat n := by
      refine UInt8.toNat_inj.mp ?_
      rw [UInt8.toNat_ofNat', UInt8.toNat_ofNat']
      omega
    rw [hsame]
    rfl
  rw [fromBigInt, paddedHex_step h, hexPairs_append (paddedHex_even _), hbyte]
  rfl

theorem fromBigInt_byte {n : Nat} (h : n < 256) : fromBigInt n = [UInt8.ofNat n] := by
  have hall : ∀ n < 256, fromBigInt n = [UInt8.ofNat n] := by decide +kernel
  exact hall n h

/-- `fromBigInt` writes the minimal numeral, and one zero byte for zero. -/
theorem fromBigInt_eq (n : Nat) : fromBigInt n = if n = 0 then [0] else numeral n := by
  -- the number and the absence of a leading zero go through the bytes together
  have hspec : ∀ n, fromBigInt n ≠ [] ∧ value (fromBigInt n) = n
      ∧ (n ≠ 0 → Minimal (fromBigInt n)) := by
    intro n
    induction n using Nat.strong_induction_on with
    | _ n ih =>
        by_cases hbyte : n < 256
        · rw [fromBigInt_byte hbyte]
          have hvalue : value [UInt8.ofNat n] = n := by
            simp only [value, List.foldl_cons, List.foldl_nil, UInt8.toNat_ofNat']
            omega
          refine ⟨List.cons_ne_nil _ _, hvalue, ?_⟩
          intro hne hzero
          rw [Option.some.inj hzero] at hvalue
          exact hne hvalue.symm
        · have hlarge : 256 ≤ n := by omega
          obtain ⟨hne, hvalue, hminimal⟩ := ih (n / 256) (by omega)
          rw [fromBigInt_step hlarge, value_concat, hvalue]
          refine ⟨List.append_ne_nil_of_left_ne_nil hne _, ?_, ?_⟩
          · rw [UInt8.toNat_ofNat']
            omega
          · intro _ hzero
            rw [List.head?_append_of_ne_nil _ hne] at hzero
            exact hminimal (by omega) hzero
  obtain ⟨_, hvalue, hminimal⟩ := hspec n
  split_ifs with hzero
  · rw [hzero]
    exact fromBigInt_byte (by decide)
  · exact (hminimal hzero).eq (minimal_numeral n) (hvalue.trans (value_numeral n).symm)

theorem value_fromBigInt (n : Nat) : value (fromBigInt n) = n := by
  rw [fromBigInt_eq]
  split_ifs with hzero
  · rw [hzero]
    rfl
  · exact value_numeral n

theorem remainder_nat (a : Nat) {b : Nat} (hb : 2 ≤ b) :
    remainder a ((b : Int) - 1) = .ok ((a % (b - 1) : Nat) : Int) := by
  have hcast : (b : Int) - 1 = ((b - 1 : Nat) : Int) := by omega
  have hne : ((b - 1 : Nat) : Int) ≠ 0 := by omega
  rw [remainder, hcast, if_neg hne]
  rfl

/-! ## Fixed width -/

theorem value_replicate_zero (n : Nat) (b : Bytes) : value (List.replicate n 0 ++ b) = value b := by
  induction n with
  | zero => rfl
  | succ n ih => rw [List.replicate_succ, List.cons_append, value_zero_cons, ih]

/-- A number that fits is written in the width. -/
theorem fixedWidth_eq {b : Bytes} {length : Nat} (h : value b < 256 ^ length) :
    fixedWidth b length = bigEndian length (value b) := by
  have hspec : (fixedWidth b length).length = length ∧ value (fixedWidth b length) = value b := by
    unfold fixedWidth
    split_ifs with hlong
    · have hkept : (b.drop (b.length - length)).length = length := by
        rw [List.length_drop]
        omega
      refine ⟨hkept, ?_⟩
      -- what is cut off on the left would make the number too large if it were not zero
      have hsplit := value_append (b.take (b.length - length)) (b.drop (b.length - length))
      rw [List.take_append_drop, hkept] at hsplit
      have hcut : value (b.take (b.length - length)) = 0 := by
        by_contra hne
        have hpos : 1 ≤ value (b.take (b.length - length)) := Nat.one_le_iff_ne_zero.mpr hne
        have hlarge := Nat.mul_le_mul_left (256 ^ length) hpos
        omega
      rw [hsplit, hcut, Nat.mul_zero, Nat.zero_add]
    · refine ⟨?_, value_replicate_zero _ _⟩
      rw [List.length_append, List.length_replicate]
      omega
  have hbytes := bigEndian_value (fixedWidth b length)
  rw [hspec.1, hspec.2] at hbytes
  exact hbytes.symm

/-! ## The key -/

/-- A field stands for a number. -/
def Carries (field : List Char) (n : Nat) : Prop :=
  ∃ bytes, Base64.decodeUnpadded Base64.url field = some bytes ∧ value bytes = n

theorem carries_bytes (b : Bytes) : Carries (b64urlencode b) (value b) :=
  ⟨b, decode_b64urlencode b, rfl⟩

theorem carries_number (n : Nat) : Carries (b64urlencode (fromBigInt n)) n :=
  ⟨fromBigInt n, decode_b64urlencode _, value_fromBigInt n⟩

/-- With both primes above one no division fails. -/
theorem rsaJwk_eq (n e d : Bytes) {p q : Bytes} (hp : 2 ≤ value p) (hq : 2 ≤ value q)
    (iqmp : Bytes) :
    rsaJwk n e d p q iqmp
      = .ok ⟨"RSA", b64urlencode n, b64urlencode e, b64urlencode d, b64urlencode p, b64urlencode q,
          b64urlencode (fromBigInt (value d % (value p - 1))),
          b64urlencode (fromBigInt (value d % (value q - 1))), b64urlencode iqmp, true⟩ := by
  rw [rsaJwk, toBigInt_eq_value, toBigInt_eq_value, toBigInt_eq_value, remainder_nat _ hp,
    remainder_nat _ hq]
  rfl

/-- The marker byte in front of the coordinates of a point is in neither of them. -/
theorem point_coordinates {point : Bytes} (hpoint : point.length = 65) :
    point.drop 1 = (point.take 33).drop 1 ++ (point.take 65).drop 33 := by
  have hwhole : point.take 65 = point := List.take_of_length_le hpoint.le
  have hcut : (point.take 33).drop 1 = (point.drop 1).take 32 := List.drop_take
  rw [hwhole, hcut, show point.drop 33 = (point.drop 1).drop 32 by rw [List.drop_drop],
    List.take_append_drop]

/-- **THE CONVERSION KEEPS THE KEY.**  The fields of an RSA key carry its numbers, with
    the exponents reduced and in as few bytes as they need; those of an ECDSA key are 32
    bytes each, the coordinates of its point and its scalar. -/
theorem jwk_keeps_key :
    (∀ n e d p q iqmp : Bytes, 2 ≤ value p → 2 ≤ value q →
      ∃ jwk, rsaJwk n e d p q iqmp = .ok jwk
        ∧ Carries jwk.n (value n) ∧ Carries jwk.e (value e) ∧ Carries jwk.d (value d)
        ∧ Carries jwk.p (value p) ∧ Carries jwk.q (value q)
        ∧ Carries jwk.dp (value d % (value p - 1)) ∧ Carries jwk.dq (value d % (value q - 1))
        ∧ Carries jwk.qi (value iqmp)
        ∧ Base64.decodeUnpadded Base64.url jwk.dp
            = some (if value d % (value p - 1) = 0 then [0] else numeral (value d % (value p - 1)))
        ∧ Base64.decodeUnpadded Base64.url jwk.dq
            = some (if value d % (value q - 1) = 0 then [0] else numeral (value d % (value q - 1))))
      ∧ ∀ point scalar : Bytes, point.length = 65 → value scalar < 2 ^ 256 →
        ∃ x y z : Bytes, x.length = 32 ∧ y.length = 32 ∧ z.length = 32
          ∧ Base64.decodeUnpadded Base64.url (ecdsaJwk point scalar).x = some x
          ∧ Base64.decodeUnpadded Base64.url (ecdsaJwk point scalar).y = some y
          ∧ Base64.decodeUnpadded Base64.url (ecdsaJwk point scalar).d = some z
          ∧ point.drop 1 = x ++ y ∧ value z = value scalar := by
  constructor
  · intro n e d p q iqmp hp hq
    refine ⟨_, rsaJwk_eq n e d hp hq iqmp, carries_bytes n, carries_bytes e, carries_bytes d,
      carries_bytes p, carries_bytes q, carries_number _, carries_number _, carries_bytes iqmp,
      ?_, ?_⟩
    · rw [← fromBigInt_eq]
      exact decode_b64urlencode _
    · rw [← fromBigInt_eq]
      exact decode_b64urlencode _
  · intro point scalar hpoint hscalar
    have hwidth : value scalar < 256 ^ 32 := by
      rw [show 256 ^ 32 = 2 ^ 256 by norm_num]
      exact hscalar
    have hx : ((point.take 33).drop 1).length = 32 := by
      rw [List.length_drop, List.length_take, hpoint]
      rfl
    have hy : ((point.take 65).drop 33).length = 32 := by
      rw [List.length_drop, List.length_take, hpoint]
      rfl
    have hz : (fixedWidth scalar 32).length = 32 := by
      rw [fixedWidth_eq hwidth, length_bigEndian]
    refine ⟨_, _, _, hx, hy, hz, decode_b64urlencode _, decode_b64urlencode _,
      decode_b64urlencode _, point_coordinates hpoint, ?_⟩
    rw [fixedWidth_eq hwidth, value_bigEndian hwidth]

/-- A tiny key of each kind: 33 as 3 times 11, and the point with all coordinates zero. -/
theorem jwk_keeps_key_tiny :
    (∃ jwk, rsaJwk [33] [3] [7] [3] [11] [2] = .ok jwk ∧ Carries jwk.dp 1 ∧ Carries jwk.dq 7)
      ∧ ∃ z : Bytes, z.length = 32 ∧ value z = 1
        ∧ Base64.decodeUnpadded Base64.url (ecdsaJwk (4 :: List.replicate 64 0) [1]).d = some z := by
  obtain ⟨hrsa, hecdsa⟩ := jwk_keeps_key
  obtain ⟨jwk, hjwk, _, _, _, _, _, hdp, hdq, _⟩ :=
    hrsa [33] [3] [7] [3] [11] [2] (by decide) (by decide)
  obtain ⟨_, _, z, _, _, hz, _, _, hd, _, hvalue⟩ :=
    hecdsa (4 :: List.replicate 64 0) [1] rfl (by decide)
  exact ⟨⟨jwk, hjwk, hdp, hdq⟩, z, hz, hvalue, hd⟩

end Jwk
