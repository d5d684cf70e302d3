import Mathlib.Algebra.Group.Nat.Defs
import SignedFirmware.Rsa.Pkcs1

namespace SignedFirmware.Rsa

theorem square_pow_mod (base exponent modulus : Nat) :
    (base * base % modulus) ^ exponent % modulus = base ^ (2 * exponent) % modulus := by
  rw [← Nat.pow_mod, ← Nat.pow_two, ← Nat.pow_mul]

theorem powerMod_eq (base exponent modulus : Nat) :
    powerMod base exponent modulus = base ^ exponent % modulus := by
  fun_induction powerMod base exponent modulus with
  | case1 base => simp
  | case2 base exponent positive half odd ih =>
      have split : (2 * (exponent / 2)).succ = exponent := by omega
      rw [square_pow_mod] at ih
      rw [show half = _ from ih, Nat.mul_mod_mod, Nat.mul_comm, ← Nat.pow_succ, split]
  | case3 base exponent positive half even ih =>
      have split : 2 * (exponent / 2) = exponent := by omega
      rw [square_pow_mod, split] at ih
      exact ih

end SignedFirmware.Rsa
