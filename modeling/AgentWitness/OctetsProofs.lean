import Mathlib.Algebra.Order.Ring.Nat
import Mathlib.Data.List.Induction
import Mathlib.Data.Nat.Log
import Mathlib.Tactic.Positivity
import Mathlib.Tactic.Ring

/-! # Octets — numbers as bytes

    Big-endian numerals of a fixed width.  WRITING AND READING ARE INVERSE on
    both sides: a number that fits is read back, and bytes that were read as a
    number are the ones it writes.

    A number has one numeral without a leading zero, its shortest one.  Read as
    two's complement, bytes whose first bit is clear stand for the same number. -/

namespace Octets

/-- The number that a byte string spells, most significant byte first. -/
def value (bytes : List UInt8) : Nat :=
  bytes.foldl (fun acc byte => 256 * acc + byte.toNat) 0

/-- The last `width` base-256 digits of a number, most significant first. -/
def bigEndian : Nat → Nat → List UInt8
  | 0, _ => []
  | width + 1, n => bigEndian width (n / 256) ++ [UInt8.ofNat n]

@[simp] theorem length_bigEndian (width n : Nat) : (bigEndian width n).length = width := by
  induction width generalizing n with
  | zero => rfl
  | succ width ih => simp only [bigEndian, List.length_append, ih, List.length_singleton]

theorem value_concat (bytes : List UInt8) (byte : UInt8) :
    value (bytes ++ [byte]) = 256 * value bytes + byte.toNat := by
  rw [value, List.foldl_append]
  rfl

/-- A number that fits its width is read back. -/
theorem value_bigEndian {width n : Nat} (h : n < 256 ^ width) :
    value (bigEndian width n) = n := by
  induction width generalizing n with
  | zero =>
      have hn : n = 0 := by simpa using h
      rw [hn]
      rfl
  | succ width ih =>
      have hhigh : n / 256 < 256 ^ width := by
        rw [Nat.div_lt_iff_lt_mul (by decide), ← pow_succ]
        exact h
      rw [bigEndian, value_concat, ih hhigh, UInt8.toNat_ofNat']
      omega

/-- Bytes that were read as a number are what the number writes. -/
theorem bigEndian_value (bytes : List UInt8) : bigEndian bytes.length (value bytes) = bytes := by
  induction bytes using List.reverseRecOn with
  | nil => rfl
  | append_singleton bytes byte ih =>
      have hbyte : byte.toNat < 256 := byte.toNat_lt
      have hhigh : (256 * value bytes + byte.toNat) / 256 = value bytes := by omega
      have hlow : UInt8.ofNat (256 * value bytes + byte.toNat) = byte := by
        apply UInt8.toNat_inj.mp
        rw [UInt8.toNat_ofNat']
        omega
      rw [List.length_append, List.length_singleton, bigEndian, value_concat, hhigh, ih, hlow]

theorem value_lt (bytes : List UInt8) : value bytes < 256 ^ bytes.length := by
  induction bytes using List.reverseRecOn with
  | nil => exact Nat.one_pos
  | append_singleton bytes byte ih =>
      have hbyte : byte.toNat < 256 := byte.toNat_lt
      rw [value_concat, List.length_append, List.length_singleton, pow_succ]
      omega

/-! ## Numerals without a leading zero -/

theorem value_append (high low : List UInt8) :
    value (high ++ low) = 256 ^ low.length * value high + value low := by
  induction low using List.reverseRecOn with
  | nil => simp [value]
  | append_singleton low byte ih =>
      rw [← List.append_assoc, value_concat, ih, value_concat, List.length_append,
        List.length_singleton, pow_succ]
      ring

theorem value_cons (byte : UInt8) (rest : List UInt8) :
    value (byte :: rest) = 256 ^ rest.length * byte.toNat + value rest := by
  have hbyte : value [byte] = byte.toNat := by simp [value]
  rw [← List.singleton_append, value_append, hbyte]

theorem value_zero_cons (rest : List UInt8) : value (0 :: rest) = value rest := by
  rw [value_cons, UInt8.toNat_zero, Nat.mul_zero, Nat.zero_add]

/-- A first byte other than zero makes the number as large as its place. -/
theorem pow_le_value {byte : UInt8} (h : byte ≠ 0) (rest : List UInt8) :
    256 ^ rest.length ≤ value (byte :: rest) := by
  have hpos : 0 < byte.toNat := by
    rw [Nat.pos_iff_ne_zero]
    intro hzero
    exact h (UInt8.toNat_inj.mp hzero)
  rw [value_cons]
  calc 256 ^ rest.length ≤ 256 ^ rest.length * byte.toNat := Nat.le_mul_of_pos_right _ hpos
    _ ≤ 256 ^ rest.length * byte.toNat + value rest := Nat.le_add_right _ _

/-- No byte is spent on a zero in front. -/
def Minimal (bytes : List UInt8) : Prop := bytes.head? ≠ some 0

instance (bytes : List UInt8) : Decidable (Minimal bytes) :=
  inferInstanceAs (Decidable (bytes.head? ≠ some 0))

/-- Without a leading zero, no longer byte string than another of the same value. -/
theorem Minimal.length_le {bytes other : List UInt8} (h : Minimal bytes)
    (hvalue : value bytes = value other) : bytes.length ≤ other.length := by
  cases bytes with
  | nil => exact Nat.zero_le _
  | cons byte rest =>
      have hbyte : byte ≠ 0 := by
        intro hzero
        exact h (congrArg some hzero)
      have hlow := pow_le_value hbyte rest
      have hhigh := value_lt other
      have hpow : 256 ^ rest.length < 256 ^ other.length := by omega
      exact (Nat.pow_lt_pow_iff_right (by decide)).mp hpow

/-- A NUMBER HAS ONE MINIMAL NUMERAL. -/
theorem Minimal.eq {bytes other : List UInt8} (h : Minimal bytes) (hother : Minimal other)
    (hvalue : value bytes = value other) : bytes = other := by
  have hlength : bytes.length = other.length :=
    Nat.le_antisymm (h.length_le hvalue) (hother.length_le hvalue.symm)
  rw [← bigEndian_value bytes, hlength, hvalue, bigEndian_value]

/-- The minimal numeral of a number. -/
def numeral (n : Nat) : List UInt8 := if n = 0 then [] else bigEndian (Nat.log 256 n + 1) n

theorem value_numeral (n : Nat) : value (numeral n) = n := by
  unfold numeral
  split_ifs with hzero
  · rw [hzero]
    rfl
  · exact value_bigEndian (Nat.lt_pow_succ_log_self (by decide) n)

theorem minimal_numeral (n : Nat) : Minimal (numeral n) := by
  intro hhead
  unfold numeral at hhead
  split_ifs at hhead with hzero
  · cases hhead
  · have hvalue := value_bigEndian (Nat.lt_pow_succ_log_self (by decide : 1 < 256) n)
    have hlength := length_bigEndian (Nat.log 256 n + 1) n
    have hlow : 256 ^ Nat.log 256 n ≤ n := Nat.pow_log_le_self 256 hzero
    cases hbytes : bigEndian (Nat.log 256 n + 1) n with
    | nil =>
        rw [hbytes] at hhead
        cases hhead
    | cons byte rest =>
        rw [hbytes] at hhead hvalue hlength
        rw [List.length_cons, Nat.add_right_cancel_iff] at hlength
        -- a zero in front leaves too few digits for the number
        rw [Option.some.inj hhead, value_zero_cons] at hvalue
        have hhigh := value_lt rest
        rw [hvalue, hlength] at hhigh
        omega

/-- Bytes without a leading zero are the numeral of what they spell. -/
theorem Minimal.numeral_value {bytes : List UInt8} (h : Minimal bytes) :
    numeral (value bytes) = bytes :=
  (minimal_numeral _).eq h (value_numeral _)

theorem numeral_ne_nil {n : Nat} (h : 0 < n) : numeral n ≠ [] := by
  intro hnil
  have hvalue := value_numeral n
  rw [hnil] at hvalue
  exact absurd h (by rw [← hvalue]; decide)

/-! ## Two's complement -/

/-- The integer that a byte string spells in two's complement: the first bit
    counts negatively. -/
def signed : List UInt8 → Int
  | [] => 0
  | byte :: rest =>
      if byte < 0x80 then value (byte :: rest) else value (byte :: rest) - 256 ^ (rest.length + 1)

/-- A byte string stands for an integer, and no shorter one does. -/
def Shortest (bytes : List UInt8) (n : Int) : Prop :=
  signed bytes = n ∧ ∀ other, signed other = n → bytes.length ≤ other.length

theorem signed_of_clear {byte : UInt8} (h : byte < 0x80) (rest : List UInt8) :
    signed (byte :: rest) = value (byte :: rest) := by
  rw [signed, if_pos h]

/-- Half the numbers of a width are non-negative. -/
theorem signed_lt (byte : UInt8) (rest : List UInt8) :
    signed (byte :: rest) < 0x80 * 256 ^ rest.length := by
  have hrest : value rest < 256 ^ rest.length := value_lt rest
  rw [signed]
  split_ifs with hclear
  · have hbyte : byte.toNat + 1 ≤ 0x80 := UInt8.lt_iff_toNat_lt.mp hclear
    have hnat : value (byte :: rest) < 0x80 * 256 ^ rest.length := by
      rw [value_cons]
      calc 256 ^ rest.length * byte.toNat + value rest
          < 256 ^ rest.length * byte.toNat + 256 ^ rest.length := by omega
        _ = 256 ^ rest.length * (byte.toNat + 1) := by ring
        _ ≤ 256 ^ rest.length * 0x80 := Nat.mul_le_mul_left _ hbyte
        _ = 0x80 * 256 ^ rest.length := Nat.mul_comm _ _
    exact_mod_cast hnat
  · have hvalue : value (byte :: rest) < 256 ^ (rest.length + 1) := value_lt (byte :: rest)
    have hneg : (value (byte :: rest) : Int) - 256 ^ (rest.length + 1) < 0 := by
      have hcast : (value (byte :: rest) : Int) < 256 ^ (rest.length + 1) := by
        exact_mod_cast hvalue
      omega
    have hpos : (0 : Int) ≤ 0x80 * 256 ^ rest.length := by positivity
    omega

/-- A number that is not negative is spelled with its first bit clear. -/
theorem value_of_signed {bytes : List UInt8} {n : Nat} (h : signed bytes = n) :
    value bytes = n := by
  cases bytes with
  | nil =>
      rw [signed] at h
      exact_mod_cast h
  | cons byte rest =>
      rw [signed] at h
      split_ifs at h with hclear
      · exact_mod_cast h
      · have hvalue : value (byte :: rest) < 256 ^ (rest.length + 1) := value_lt (byte :: rest)
        have hcast : (value (byte :: rest) : Int) < 256 ^ (rest.length + 1) := by
          exact_mod_cast hvalue
        omega

/-- A width whose positive numbers all lie below `n` is too small for `n`. -/
theorem length_of_le_signed {other : List UInt8} {k : Nat} (hpos : 0 < signed other)
    (hlarge : (0x80 * 256 ^ k : Int) ≤ signed other) : k + 2 ≤ other.length := by
  cases other with
  | nil => exact absurd hpos (by decide)
  | cons byte rest =>
      have hlt := signed_lt byte rest
      have hpow : (256 ^ k : Int) < 256 ^ rest.length := by omega
      have hnat : 256 ^ k < 256 ^ rest.length := by exact_mod_cast hpow
      have hk : k < rest.length := (Nat.pow_lt_pow_iff_right (by decide)).mp hnat
      rw [List.length_cons]
      omega

/-- A minimal numeral whose first bit is clear is the shortest encoding. -/
theorem shortest_of_clear {byte : UInt8} (hclear : byte < 0x80) (hbyte : byte ≠ 0)
    (rest : List UInt8) : Shortest (byte :: rest) (value (byte :: rest)) := by
  have hlow := pow_le_value hbyte rest
  have hone : 0 < 256 ^ rest.length := Nat.pow_pos (by decide)
  refine ⟨signed_of_clear hclear rest, ?_⟩
  intro other hother
  have hpos : 0 < signed other := by
    rw [hother]
    exact_mod_cast (by omega : 0 < value (byte :: rest))
  cases hrest : rest.length with
  | zero =>
      cases other with
      | nil => exact absurd hpos (by decide)
      | cons b bs =>
          rw [List.length_cons, hrest]
          simp
  | succ k =>
      rw [hrest, pow_succ] at hlow
      have hlarge : (0x80 * 256 ^ k : Int) ≤ signed other := by
        rw [hother]
        exact_mod_cast (by omega : 0x80 * 256 ^ k ≤ value (byte :: rest))
      have hlength := length_of_le_signed hpos hlarge
      rw [List.length_cons, hrest]
      omega

/-- A minimal numeral whose first bit is set needs one zero byte in front. -/
theorem shortest_of_set {byte : UInt8} (hset : ¬ byte < 0x80) (rest : List UInt8) :
    Shortest (0 :: byte :: rest) (value (byte :: rest)) := by
  have hbyte : 0x80 ≤ byte.toNat := by
    have hle : ¬ byte.toNat < 0x80 := fun h => hset (UInt8.lt_iff_toNat_lt.mpr h)
    omega
  have hlow : 0x80 * 256 ^ rest.length ≤ value (byte :: rest) := by
    rw [value_cons, Nat.mul_comm 0x80]
    exact Nat.le_add_right_of_le (Nat.mul_le_mul_left _ hbyte)
  have hone : 0 < 256 ^ rest.length := Nat.pow_pos (by decide)
  constructor
  · rw [signed_of_clear (by decide), value_zero_cons]
  · intro other hother
    have hpos : 0 < signed other := by
      rw [hother]
      exact_mod_cast (by omega : 0 < value (byte :: rest))
    have hlarge : (0x80 * 256 ^ rest.length : Int) ≤ signed other := by
      rw [hother]
      exact_mod_cast hlow
    exact length_of_le_signed hpos hlarge

end Octets
