import Mathlib.Algebra.Group.Nat.Defs
import SignedFirmware.Bytes

namespace SignedFirmware

theorem littleEndianValue_littleEndian (width value : Nat) :
    littleEndianValue (littleEndian width value) = value % 256 ^ width := by
  induction width generalizing value with
  | zero => simp [littleEndian, littleEndianValue, Nat.mod_one]
  | succ width ih =>
      have low : (UInt8.ofNat value).toNat = value % 256 := UInt8.toNat_ofNat'
      rw [littleEndian, littleEndianValue, ih, low, Nat.pow_succ, Nat.mul_comm (256 ^ width) 256,
        Nat.mod_mul]

theorem littleEndianValue_lt (bytes : Bytes) :
    littleEndianValue bytes < 256 ^ bytes.length := by
  induction bytes with
  | nil => simp [littleEndianValue]
  | cons byte rest ih =>
      have bound := byte.toNat_lt
      simp only [littleEndianValue, List.length_cons, Nat.pow_succ]
      omega

theorem littleEndian_littleEndianValue (bytes : Bytes) :
    littleEndian bytes.length (littleEndianValue bytes) = bytes := by
  induction bytes with
  | nil => rfl
  | cons byte rest ih =>
      have bound := byte.toNat_lt
      have low : UInt8.ofNat (byte.toNat + 256 * littleEndianValue rest) = byte := by
        apply UInt8.toNat_inj.1
        rw [UInt8.toNat_ofNat']
        omega
      have high : (byte.toNat + 256 * littleEndianValue rest) / 256 = littleEndianValue rest := by
        omega
      simp only [List.length_cons, littleEndian, littleEndianValue, low, high, ih]

/-- Bytes have a value if they are the digits of that value. -/
theorem littleEndianValue_eq_iff {bytes : Bytes} {width value : Nat}
    (length : bytes.length = width) (bound : value < 256 ^ width) :
    littleEndianValue bytes = value ↔ bytes = littleEndian width value := by
  constructor
  · rintro rfl
    rw [← length, littleEndian_littleEndianValue]
  · rintro rfl
    rw [littleEndianValue_littleEndian, Nat.mod_eq_of_lt bound]

theorem bigEndianValue_append (front back : Bytes) :
    bigEndianValue (front ++ back) =
      bigEndianValue front * 256 ^ back.length + bigEndianValue back := by
  have shift : ∀ (bytes : Bytes) (value : Nat),
      bytes.foldl (fun value byte => 256 * value + byte.toNat) value =
        value * 256 ^ bytes.length + bigEndianValue bytes := by
    intro bytes
    induction bytes with
    | nil => simp [bigEndianValue]
    | cons byte rest ih =>
        intro value
        have unfolded : bigEndianValue (byte :: rest) =
            byte.toNat * 256 ^ rest.length + bigEndianValue rest := by
          rw [bigEndianValue, List.foldl_cons, ih, Nat.mul_zero, Nat.zero_add]
        rw [List.foldl_cons, ih, unfolded, List.length_cons, Nat.pow_succ, Nat.add_mul,
          ← Nat.add_assoc, Nat.mul_comm 256 value, Nat.mul_assoc value 256,
          Nat.mul_comm 256 (256 ^ rest.length)]
  rw [bigEndianValue, List.foldl_append, shift]
  rfl

theorem bigEndianValue_reverse (bytes : Bytes) :
    bigEndianValue bytes.reverse = littleEndianValue bytes := by
  induction bytes with
  | nil => rfl
  | cons byte rest ih =>
      rw [List.reverse_cons, bigEndianValue_append, ih, littleEndianValue]
      simp [bigEndianValue]
      omega

theorem bigEndianValue_bigEndian (width value : Nat) :
    bigEndianValue (bigEndian width value) = value % 256 ^ width := by
  rw [bigEndian, bigEndianValue_reverse, littleEndianValue_littleEndian]

theorem bigEndianValue_lt (bytes : Bytes) : bigEndianValue bytes < 256 ^ bytes.length := by
  have bound := littleEndianValue_lt bytes.reverse
  rwa [← bigEndianValue_reverse, List.reverse_reverse, List.length_reverse] at bound

/-- A number without zeros in front has all of its digits. -/
theorem le_bigEndianValue {bytes : Bytes} (positive : 0 < bigEndianValue bytes)
    (leading : ∀ byte ∈ bytes.head?, byte ≠ 0) :
    256 ^ (bytes.length - 1) ≤ bigEndianValue bytes := by
  cases bytes with
  | nil => cases positive
  | cons byte rest =>
      have nonzero : 0 < byte.toNat := by
        apply Nat.pos_of_ne_zero
        intro zero
        exact leading byte rfl (UInt8.toNat_inj.1 zero)
      have first : bigEndianValue [byte] = byte.toNat := by simp [bigEndianValue]
      have split := bigEndianValue_append [byte] rest
      rw [first, List.singleton_append] at split
      have digits := Nat.le_mul_of_pos_left (256 ^ rest.length) nonzero
      rw [split, List.length_cons, Nat.add_sub_cancel]
      omega

theorem bigEndian_bigEndianValue (bytes : Bytes) :
    bigEndian bytes.length (bigEndianValue bytes) = bytes := by
  have same := littleEndian_littleEndianValue bytes.reverse
  rw [List.length_reverse, ← bigEndianValue_reverse, List.reverse_reverse] at same
  rw [bigEndian, same, List.reverse_reverse]

end SignedFirmware
