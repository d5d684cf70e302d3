import SignedFirmware.Rsa.Key

namespace SignedFirmware.Rsa

/-- A power modulo a number, computed by repeated squaring. -/
def powerMod (base exponent modulus : Nat) : Nat :=
  if _last : exponent = 0 then
    1 % modulus
  else
    let half := powerMod (base * base % modulus) (exponent / 2) modulus
    if exponent % 2 = 1 then base * half % modulus else half
termination_by exponent
decreasing_by omega

/-- This stands in front of a digest and names its algorithm. -/
def digestHeader : Algorithm → Bytes
  | .sha256 => [0x30, 0x31, 0x30, 0x0d, 0x06, 0x09, 0x60, 0x86, 0x48, 0x01, 0x65, 0x03, 0x04,
      0x02, 0x01, 0x05, 0x00, 0x04, 0x20]
  | .sha384 => [0x30, 0x41, 0x30, 0x0d, 0x06, 0x09, 0x60, 0x86, 0x48, 0x01, 0x65, 0x03, 0x04,
      0x02, 0x02, 0x05, 0x00, 0x04, 0x30]
  | .sha512 => [0x30, 0x51, 0x30, 0x0d, 0x06, 0x09, 0x60, 0x86, 0x48, 0x01, 0x65, 0x03, 0x04,
      0x02, 0x03, 0x05, 0x00, 0x04, 0x40]

/-- Padding has at least this many bytes of ones. -/
def minPadding : Nat := 8

/-- The padded digest of `length` bytes, if there is room for the padding. -/
def paddedDigest? (algorithm : Algorithm) (digest : Bytes) (length : Nat) : Option Bytes :=
  let body := digestHeader algorithm ++ digest
  if body.length + minPadding + 3 ≤ length then
    some ([0x00, 0x01] ++ List.replicate (length - body.length - 3) 0xff ++ [0x00] ++ body)
  else
    none

/-- Keys with more bits than this are not used. -/
def maxModulusBits : Nat := 16384

namespace PublicKey

/-- The modulus must be odd and greater than the exponent and the signature. -/
def accepts (key : PublicKey) (algorithm : Algorithm) (digest signature : Bytes) : Bool :=
  let modulus := key.modulusValue
  let value := bigEndianValue signature
  signature.length == key.modulus.length && key.exponent.toNat < modulus &&
    modulus.log2 < maxModulusBits && modulus % 2 == 1 && value < modulus &&
    paddedDigest? algorithm digest key.modulus.length ==
      some (bigEndian key.modulus.length (powerMod value key.exponent.toNat modulus))

end PublicKey

namespace KeyPair

/-- The root modulo the two primes, if the parts fit. -/
def combinedRoot (key : KeyPair) (value : Nat) : Nat :=
  let first := powerMod (value % key.prime) key.primeExponent key.prime
  let second := powerMod (value % key.secondPrime) key.secondPrimeExponent key.secondPrime
  let difference := (first + key.prime - second % key.prime) % key.prime
  difference * key.coefficient % key.prime * key.secondPrime + second

/-- A combined root that is wrong gives way to the private exponent. -/
def root (key : KeyPair) (value : Nat) : Nat :=
  let modulus := key.publicKey.modulusValue
  let combined := key.combinedRoot value
  if powerMod combined key.publicKey.exponent.toNat modulus = value % modulus then
    combined % modulus
  else
    powerMod value key.privateExponent modulus

/-- The modulus and the primes must be odd. -/
def usable (key : KeyPair) : Bool :=
  key.publicKey.modulusValue % 2 == 1 && key.prime % 2 == 1 && key.secondPrime % 2 == 1

/-- The signature of a digest has as many bytes as the modulus. -/
def sign (key : KeyPair) (scheme : Scheme) (digest : Bytes) (length : Nat) :
    Except SignatureError (Vector UInt8 length) :=
  if key.publicKey.modulus.length ≠ scheme.signatureLength then
    .error .unsupported
  else if length ≠ scheme.signatureLength then
    .error .unspecified
  else if digest.length ≠ scheme.algorithm.length then
    .error .unspecified
  else if key.usable then
    match paddedDigest? scheme.algorithm digest length with
    | none => .error .unspecified
    | some padded =>
        .ok ⟨(bigEndian length (key.root (bigEndianValue padded))).toArray, by simp⟩
  else
    .error .unspecified

/-- The signer that uses a key pair. -/
def signer {σ : Type} (key : KeyPair) : Signer σ where
  modulus := key.publicKey.modulus
  exponent := key.publicKey.exponent
  sign scheme digest length := fun state =>
    match key.sign scheme digest length with
    | .ok signature => .ok signature state
    | .error error => .error error state

/-- The buffer is filled once the whole signature is there. -/
def signInto (key : KeyPair) (scheme : Scheme) (digest : Bytes) :
    EStateM SignatureError Bytes Unit := do
  let buffer ← get
  let signature ← key.signer.sign scheme digest buffer.length
  set signature.toList

end KeyPair

end SignedFirmware.Rsa
