import SignedFirmware.Proofs.Bytes
import SignedFirmware.Proofs.Rsa.Pkcs1
import SignedFirmware.Rsa.Keyring

namespace SignedFirmware.Rsa

/-- A padded digest starts with a zero byte and a one. -/
theorem paddedDigest?_eq_some {algorithm : Algorithm} {digest padded : Bytes} {length : Nat}
    (made : paddedDigest? algorithm digest length = some padded) :
    padded.length = length ∧ bigEndianValue padded < 256 ^ (length - 1) := by
  unfold paddedDigest? at made
  dsimp only at made
  split at made
  next room =>
    generalize digestHeader algorithm ++ digest = body at made room
    obtain ⟨rest, shape⟩ : ∃ rest,
        rest = List.replicate (length - body.length - 3) 0xff ++ [0x00] ++ body := ⟨_, rfl⟩
    have whole : padded = [0x00, 0x01] ++ rest := by
      rw [← Option.some.inj made, shape]
      simp only [List.append_assoc]
    have width : rest.length = length - 2 := by
      simp only [shape, List.length_append, List.length_replicate, List.length_cons,
        List.length_nil]
      omega
    have bound := bigEndianValue_lt rest
    have first : bigEndianValue [0x00, 0x01] = 1 := rfl
    have power : 256 ^ (length - 1) = 256 ^ (length - 2) * 256 := by
      rw [← Nat.pow_succ]
      congr 1
      omega
    constructor
    · rw [whole, List.length_append, width, List.length_cons, List.length_singleton]
      omega
    · rw [whole, bigEndianValue_append, first, power]
      rw [width] at bound ⊢
      omega
  next => cases made

namespace KeyPair

/-- The private exponent undoes the public one. -/
structure Sound (key : KeyPair) : Prop where
  leading : ∀ byte ∈ key.publicKey.modulus.head?, byte ≠ 0
  exponent : key.publicKey.exponent.toNat < key.publicKey.modulusValue
  inverse : ∀ value < key.publicKey.modulusValue,
    value ^ (key.privateExponent * key.publicKey.exponent.toNat) % key.publicKey.modulusValue =
      value

variable {key : KeyPair}

/-- The modulus of a sound pair is written as it is looked up. -/
theorem Sound.stripped (sound : key.Sound) :
    stripLeadingZeros key.publicKey.modulus = key.publicKey.modulus := by
  have leading := sound.leading
  revert leading
  cases key.publicKey.modulus with
  | nil => exact fun _ => rfl
  | cons byte rest =>
      intro leading
      exact List.dropWhile_cons_of_neg (by simpa using leading byte rfl)

/-- A root is smaller than the modulus, and its power is the number again. -/
theorem Sound.root_spec (sound : key.Sound) {value : Nat}
    (small : value < key.publicKey.modulusValue) :
    key.root value < key.publicKey.modulusValue ∧
      powerMod (key.root value) key.publicKey.exponent.toNat key.publicKey.modulusValue =
        value := by
  have positive : 0 < key.publicKey.modulusValue := Nat.zero_lt_of_lt small
  simp only [root, powerMod_eq]
  split
  next checked =>
    refine ⟨Nat.mod_lt _ positive, ?_⟩
    rw [← Nat.pow_mod, checked, Nat.mod_eq_of_lt small]
  next =>
    refine ⟨Nat.mod_lt _ positive, ?_⟩
    rw [← Nat.pow_mod, ← Nat.pow_mul, sound.inverse value small]

/-- A signature is the root of the padded digest. -/
theorem sign_eq_ok {scheme : Scheme} {digest : Bytes} {length : Nat}
    {signature : Vector UInt8 length} (signed : key.sign scheme digest length = .ok signature) :
    key.publicKey.modulus.length = scheme.signatureLength ∧ length = scheme.signatureLength ∧
      digest.length = scheme.algorithm.length ∧ key.usable = true ∧
      ∃ padded, paddedDigest? scheme.algorithm digest length = some padded ∧
        signature.toList = bigEndian length (key.root (bigEndianValue padded)) := by
  unfold sign at signed
  split at signed
  next => cases signed
  next modulus =>
    split at signed
    next => cases signed
    next width =>
      split at signed
      next => cases signed
      next size =>
        split at signed
        next usable =>
          split at signed
          next => cases signed
          next padded made =>
            obtain rfl := Except.ok.inj signed
            exact ⟨Decidable.not_not.1 modulus, Decidable.not_not.1 width,
              Decidable.not_not.1 size, usable, padded, made, rfl⟩
        next => cases signed

/-- A signature of a sound key pair is accepted under its public key. -/
theorem Sound.accepts (sound : key.Sound) {scheme : Scheme} {digest : Bytes} {length : Nat}
    {signature : Vector UInt8 length} (signed : key.sign scheme digest length = .ok signature) :
    key.publicKey.accepts scheme.algorithm digest signature.toList = true := by
  obtain ⟨modulus, width, -, usable, padded, made, root⟩ := sign_eq_ok signed
  obtain ⟨whole, low⟩ := paddedDigest?_eq_some made
  have odd : key.publicKey.modulusValue % 2 = 1 := by
    simp only [KeyPair.usable, Bool.and_eq_true, beq_iff_eq] at usable
    exact usable.1.1
  have high := le_bigEndianValue (Nat.zero_lt_of_lt sound.exponent) sound.leading
  have bound := bigEndianValue_lt key.publicKey.modulus
  have same : key.publicKey.modulus.length = length := modulus.trans width.symm
  rw [same] at high bound
  have small : bigEndianValue padded < key.publicKey.modulusValue := Nat.lt_of_lt_of_le low high
  obtain ⟨below, power⟩ := sound.root_spec small
  have value : bigEndianValue signature.toList = key.root (bigEndianValue padded) := by
    rw [root, bigEndianValue_bigEndian]
    exact Nat.mod_eq_of_lt (Nat.lt_trans below bound)
  have again : bigEndian length (bigEndianValue padded) = padded := by
    rw [← whole, bigEndian_bigEndianValue]
  have bits : key.publicKey.modulusValue.log2 < maxModulusBits := by
    have few : 8 * length ≤ maxModulusBits := by
      rw [width]
      cases scheme <;> decide
    rw [Nat.log2_lt (Nat.ne_of_gt (Nat.zero_lt_of_lt sound.exponent))]
    have digits : 256 ^ length = 2 ^ (8 * length) := by rw [Nat.pow_mul]
    rw [PublicKey.modulusValue]
    exact Nat.lt_of_lt_of_le (digits ▸ bound) (Nat.pow_le_pow_right (by decide) few)
  simp only [PublicKey.accepts, value, same, power, again, made, odd, bits, below, sound.exponent,
    Vector.length_toList, decide_true, beq_self_eq_true, Bool.and_self]

/-- A usable key pair signs every digest for keys of its length. -/
theorem sign_completes {scheme : Scheme}
    (modulus : key.publicKey.modulus.length = scheme.signatureLength) (usable : key.usable = true)
    (digest : Vector UInt8 scheme.algorithm.length) :
    ∃ signature, key.sign scheme digest.toList scheme.signatureLength = .ok signature := by
  have room : (digestHeader scheme.algorithm ++ digest.toList).length + minPadding + 3 ≤
      scheme.signatureLength := by
    rw [List.length_append, Vector.length_toList]
    cases scheme <;> decide
  simp only [sign, modulus, usable, paddedDigest?, room, Vector.length_toList, ne_eq,
    not_true_eq_false, if_false, if_true]
  exact ⟨_, rfl⟩

/-- The signer of a key pair signs as the pair does. -/
theorem signer_sign_eq_ok {σ : Type} {scheme : Scheme} {digest : Bytes} {length : Nat}
    {signature : Vector UInt8 length} {before after : σ} :
    key.signer.sign scheme digest length before = .ok signature after ↔
      key.sign scheme digest length = .ok signature ∧ before = after := by
  simp only [signer]
  cases key.sign scheme digest length <;> simp

/-- A ring with a sound pair's key in front accepts its signatures. -/
theorem Sound.verify (sound : key.Sound) {scheme : Scheme} {digest : Bytes}
    {signature : Vector UInt8 scheme.signatureLength}
    (signed : key.sign scheme digest scheme.signatureLength = .ok signature)
    (others : List PublicKey) :
    Keyring.verify ⟨key.publicKey :: others⟩
      ⟨scheme, key.publicKey.modulus, key.publicKey.exponent, signature.toList⟩ digest =
        .ok 0 := by
  obtain ⟨-, -, size, -⟩ := sign_eq_ok signed
  have accepted := sound.accepts signed
  have claimed : key.publicKey.isClaimedBy
      ⟨scheme, key.publicKey.modulus, key.publicKey.exponent, signature.toList⟩ = true := by
    simp [PublicKey.isClaimedBy, sound.stripped]
  simp [Keyring.verify, size, claimed, accepted]

/-- With exponents of one a signature is the padded digest itself. -/
def unit : KeyPair where
  publicKey := ⟨List.replicate 256 0xff, 1⟩
  privateExponent := 1
  prime := 1
  secondPrime := 1
  primeExponent := 1
  secondPrimeExponent := 1
  coefficient := 1

theorem unit_sound : unit.Sound where
  leading byte front := by
    obtain rfl : 0xff = byte := Option.some.inj front
    decide
  exponent := by decide +kernel
  inverse value small := by
    have once : unit.privateExponent * unit.publicKey.exponent.toNat = 1 := rfl
    rw [once, Nat.pow_one, Nat.mod_eq_of_lt small]

end KeyPair

end SignedFirmware.Rsa
