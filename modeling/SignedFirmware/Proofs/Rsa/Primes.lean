import Mathlib.FieldTheory.Finite.Basic
import Mathlib.NumberTheory.LucasPrimality
import SignedFirmware.Proofs.Rsa.Trust

namespace SignedFirmware

/-- A number without zeros in front does not start with one. -/
theorem head?_stripLeadingZeros (bytes : Bytes) :
    ∀ byte ∈ (stripLeadingZeros bytes).head?, byte ≠ 0 := by
  intro byte front zero
  have first := List.head?_dropWhile_not (· == 0) bytes
  rw [stripLeadingZeros, Option.mem_def] at front
  rw [front, zero] at first
  cases first

namespace Der

/-- An element of up to 65535 bytes, whose length takes two bytes. -/
def element (tag : UInt8) (contents : Bytes) : Bytes :=
  [tag, 0x82] ++ bigEndian 2 contents.length ++ contents

/-- This writes a number, with a zero bit in front. -/
def natural (value : Nat) : Bytes :=
  element integerTag (bigEndian ((value.log2 + 1) / 8 + 1) value)

end Der

namespace Rsa

/-- An exponent of one modulo the prime less one changes nothing. -/
theorem pow_modEq_self {prime exponent : Nat} (isPrime : prime.Prime) (positive : 0 < exponent)
    (unit : exponent ≡ 1 [MOD prime - 1]) (value : Nat) : value ^ exponent ≡ value [MOD prime] := by
  have := Fact.mk isPrime
  obtain ⟨rounds, whole⟩ := (Nat.modEq_iff_dvd' positive).1 unit.symm
  have split : exponent = 1 + (prime - 1) * rounds := by omega
  rw [← ZMod.natCast_eq_natCast_iff, Nat.cast_pow]
  by_cases zero : (value : ZMod prime) = 0
  · rw [zero, zero_pow (Nat.ne_of_gt positive)]
  · rw [split, pow_add, pow_one, pow_mul, ZMod.pow_card_sub_one_eq_one zero, one_pow, mul_one]

/-- The prime factors of `15 * 2 ^ k` are two, three and five. -/
theorem mem_of_prime_dvd {factor count : Nat} (prime : factor.Prime)
    (divides : factor ∣ 3 * 5 * 2 ^ count) : factor ∈ [2, 3, 5] := by
  rw [prime.dvd_mul, prime.dvd_mul] at divides
  rcases divides with (three | five) | two
  · rw [(Nat.prime_dvd_prime_iff_eq prime Nat.prime_three).1 three]
    decide
  · rw [(Nat.prime_dvd_prime_iff_eq prime Nat.prime_five).1 five]
    decide
  · rw [(Nat.prime_dvd_prime_iff_eq prime Nat.prime_two).1 (prime.dvd_of_dvd_pow two)]
    decide

/-- A power is one modulo a number if its remainder is one. -/
theorem cast_pow_eq_one {base exponent number : Nat} (large : 1 < number) :
    (base : ZMod number) ^ exponent = 1 ↔ powerMod base exponent number = 1 := by
  rw [powerMod_eq, ← Nat.cast_pow, ← Nat.cast_one, ZMod.natCast_eq_natCast_iff',
    Nat.mod_eq_of_lt large]

/-- The number `15 * 2 ^ k + 1` is prime if a base has that order. -/
theorem prime_of_order {count base : Nat}
    (whole : powerMod base (3 * 5 * 2 ^ count) (3 * 5 * 2 ^ count + 1) = 1)
    (parts : ∀ factor ∈ [2, 3, 5],
      powerMod base (3 * 5 * 2 ^ count / factor) (3 * 5 * 2 ^ count + 1) ≠ 1) :
    (3 * 5 * 2 ^ count + 1).Prime := by
  have large : 1 < 3 * 5 * 2 ^ count + 1 := by
    have positive := Nat.two_pow_pos count
    omega
  refine lucas_primality _ base ((cast_pow_eq_one large).2 whole) ?_
  intro factor prime divides
  exact (cast_pow_eq_one large).not.2 (parts factor (mem_of_prime_dvd prime divides))

namespace KeyPair

/-- A key has two primes and inverse exponents. A wrong combined root is not used. -/
structure WellFormed (key : KeyPair) : Prop where
  prime : key.prime.Prime
  secondPrime : key.secondPrime.Prime
  distinct : key.prime ≠ key.secondPrime
  modulus : key.publicKey.modulusValue = key.prime * key.secondPrime
  exponent : key.publicKey.exponent.toNat < key.publicKey.modulusValue
  inverse : key.publicKey.exponent.toNat * key.privateExponent ≡ 1
    [MOD (key.prime - 1).lcm (key.secondPrime - 1)]

variable {key : KeyPair}

/-- The exponents are not zero, because one of the primes is greater than two. -/
theorem WellFormed.positive (wellFormed : key.WellFormed) :
    0 < key.publicKey.exponent.toNat * key.privateExponent := by
  rw [Nat.pos_iff_ne_zero]
  intro zero
  -- If the product were zero, both primes less one would divide one.
  have inverse := wellFormed.inverse
  rw [zero] at inverse
  have unit := (Nat.modEq_zero_iff_dvd.1 inverse.symm)
  have first := Nat.le_of_dvd one_pos ((Nat.dvd_lcm_left _ _).trans unit)
  have second := Nat.le_of_dvd one_pos ((Nat.dvd_lcm_right _ _).trans unit)
  have firstLarge := wellFormed.prime.two_le
  have secondLarge := wellFormed.secondPrime.two_le
  exact wellFormed.distinct (by omega)

/-- The private exponent undoes the public one. -/
theorem WellFormed.undoes (wellFormed : key.WellFormed) {value : Nat}
    (small : value < key.publicKey.modulusValue) :
    value ^ (key.privateExponent * key.publicKey.exponent.toNat) % key.publicKey.modulusValue =
      value := by
  rw [Nat.mul_comm]
  have coprime := (Nat.coprime_primes wellFormed.prime wellFormed.secondPrime).2 wellFormed.distinct
  have first := pow_modEq_self wellFormed.prime wellFormed.positive
    (wellFormed.inverse.of_dvd (Nat.dvd_lcm_left _ _)) value
  have second := pow_modEq_self wellFormed.secondPrime wellFormed.positive
    (wellFormed.inverse.of_dvd (Nat.dvd_lcm_right _ _)) value
  have both := (Nat.modEq_and_modEq_iff_modEq_mul coprime).1 ⟨first, second⟩
  rw [← wellFormed.modulus] at both
  rw [both, Nat.mod_eq_of_lt small]

/-- A well-formed key pair from a file is sound. -/
theorem WellFormed.sound (wellFormed : key.WellFormed) {file : Bytes}
    (read : ofFile file = .ok key) : key.Sound where
  leading := by
    rw [← PublicKey.new_eq_self.1 (new_of_ofFile read)]
    exact head?_stripLeadingZeros _
  exponent := wellFormed.exponent
  inverse _ small := wellFormed.undoes small

/-- The modulus has 2048 bits, and each prime is `15 * 2 ^ k + 1`. -/
def sample : KeyPair :=
  let prime := 3 * 5 * 2 ^ 522 + 1
  let secondPrime := 3 * 5 * 2 ^ 1518 + 1
  let privateExponent := (56799 * (secondPrime - 1) + 1) / 65537
  { publicKey := .new (bigEndian 256 (prime * secondPrime)) 65537
    privateExponent
    prime
    secondPrime
    primeExponent := privateExponent % (prime - 1)
    secondPrimeExponent := privateExponent % (secondPrime - 1)
    coefficient := powerMod secondPrime (prime - 2) prime }

/-- The sample has two primes and exponents that are inverse to each other. -/
theorem sample_wellFormed : sample.WellFormed where
  prime := @prime_of_order 522 23 (by decide +kernel) (by decide +kernel)
  secondPrime := @prime_of_order 1518 11 (by decide +kernel) (by decide +kernel)
  distinct := by decide +kernel
  modulus := by decide +kernel
  exponent := by decide +kernel
  inverse := by decide +kernel

/-- This writes the private key file of a key pair. -/
def toFile (key : KeyPair) : Bytes :=
  let family := Der.element Der.sequenceTag
    (Der.element Der.objectTag KeyFamily.rsaIdentifier ++ [Der.nullTag, 0])
  let numbers :=
    [0, key.publicKey.modulusValue, key.publicKey.exponent.toNat, key.privateExponent, key.prime,
      key.secondPrime, key.primeExponent, key.secondPrimeExponent, key.coefficient]
  let contents := Der.element Der.sequenceTag (numbers.flatMap Der.natural)
  Der.element Der.sequenceTag (Der.natural 0 ++ family ++ Der.element Der.octetStringTag contents)

/-- The file of the sample is read as the sample. -/
theorem ofFile_sample : ofFile sample.toFile = .ok sample := by decide +kernel

end KeyPair

end Rsa

end SignedFirmware
