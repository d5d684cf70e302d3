import SignedFirmware.Rsa.Der
import SignedFirmware.Signature.Capability

namespace SignedFirmware.Rsa

/-- The modulus is written highest byte first, without zeros in front. -/
structure PublicKey where
  modulus : Bytes
  exponent : UInt32
  deriving DecidableEq, Repr

/-- The private exponents are reduced by each prime; the coefficient inverts the second one. -/
structure KeyPair where
  publicKey : PublicKey
  privateExponent : Nat
  prime : Nat
  secondPrime : Nat
  primeExponent : Nat
  secondPrimeExponent : Nat
  coefficient : Nat
  deriving DecidableEq, Repr

/-- The algorithms that a key file can name. -/
inductive KeyFamily where
  | rsa
  | other
  deriving DecidableEq, Repr

namespace KeyFamily

def rsaIdentifier : Bytes := [0x2a, 0x86, 0x48, 0x86, 0xf7, 0x0d, 0x01, 0x01, 0x01]

/-- The identifiers of elliptic curve, DSA and Diffie-Hellman keys. -/
def otherIdentifiers : List Bytes :=
  [[0x2a, 0x86, 0x48, 0xce, 0x3d, 0x02, 0x01], [0x2b, 0x65, 0x6e], [0x2b, 0x65, 0x6f],
    [0x2b, 0x65, 0x70], [0x2b, 0x65, 0x71], [0x2a, 0x86, 0x48, 0xce, 0x38, 0x04, 0x01],
    [0x2a, 0x86, 0x48, 0x86, 0xf7, 0x0d, 0x01, 0x03, 0x01]]

def ofIdentifier? (identifier : Bytes) : Option KeyFamily :=
  if identifier = rsaIdentifier then some .rsa
  else if identifier ∈ otherIdentifiers then some .other
  else none

/-- The parameters of an algorithm are one element or none at all. -/
def parametersValid (bytes : Bytes) : Bool :=
  bytes.isEmpty ||
    match Der.readAny? bytes with
    | some (tag, contents, rest) => rest.isEmpty && Der.isWellFormed tag contents
    | none => false

/-- This reads the algorithm of a key. -/
def read? (bytes : Bytes) : Option (KeyFamily × Bytes) := do
  let (algorithm, rest) ← Der.read? Der.sequenceTag bytes
  let (identifier, parameters) ← Der.read? Der.objectTag algorithm
  let family ← ofIdentifier? identifier
  if parametersValid parameters then
    return (family, rest)
  else
    none

end KeyFamily

namespace PublicKey

/-- The modulus may have zeros in front. -/
def new (modulus : Bytes) (exponent : UInt32) : PublicKey := ⟨stripLeadingZeros modulus, exponent⟩

def modulusValue (key : PublicKey) : Nat := bigEndianValue key.modulus

/-- The exponent must be a 32-bit word. -/
def ofNumbers (modulus : Bytes) (exponent : Nat) : Except SignatureError PublicKey :=
  if exponent < UInt32.size then
    .ok (new modulus (UInt32.ofNat exponent))
  else
    .error .unsupported

/-- The numbers of a public key: the bytes of the modulus, and the exponent. -/
def readNumbers? (bytes : Bytes) : Option (Bytes × Nat) := do
  let (numbers, _) ← Der.read? Der.sequenceTag bytes
  let (modulus, rest) ← Der.read? Der.integerTag numbers
  let (exponent, rest) ← Der.readNatural? rest
  if rest.isEmpty then
    return (modulus, exponent)
  else
    none

/-- This reads the algorithm and the key of a public key file. -/
def readInfo? (file : Bytes) : Option (KeyFamily × Bytes) := do
  let (info, _) ← Der.read? Der.sequenceTag file
  let (family, rest) ← KeyFamily.read? info
  let (bits, rest) ← Der.readBits? rest
  if rest.isEmpty then
    return (family, bits)
  else
    none

def ofFile (file : Bytes) : Except SignatureError PublicKey :=
  match readInfo? file with
  | none => .error .unspecified
  | some (.other, _) => .error .unsupported
  | some (.rsa, bits) =>
      match readNumbers? bits with
      | none => .error .unspecified
      | some (modulus, exponent) => ofNumbers modulus exponent

end PublicKey

namespace KeyPair

/-- This reads the algorithm and the key of a private key file. -/
def readInfo? (file : Bytes) : Option (KeyFamily × Bytes) := do
  let (info, _) ← Der.read? Der.sequenceTag file
  let (version, rest) ← Der.read? Der.integerTag info
  let (family, rest) ← KeyFamily.read? rest
  let (key, rest) ← Der.read? Der.octetStringTag rest
  if version.isEmpty || !Der.isShortest version then
    none
  else if rest.isEmpty then
    return (family, key)
  else
    let (_, rest) ← Der.read? Der.attributesTag rest
    if rest.isEmpty then
      return (family, key)
    else
      none

/-- A version of one announces further primes, which must then be there. -/
def versionValid (version furtherPrimes : Bytes) : Bool :=
  version.length ≤ 4 && Der.isShortest version && (version != [1] || !furtherPrimes.isEmpty)

/-- A list of further primes, or nothing, follows the numbers. -/
def furtherPrimes? (rest : Bytes) : Option Bytes :=
  if rest.isEmpty then
    some []
  else
    match Der.read? Der.sequenceTag rest with
    | some (primes, []) => some primes
    | _ => none

/-- The numbers of a key pair: the bytes of the modulus, and the rest. -/
def readNumbers? (bytes : Bytes) : Option (Bytes × List Nat) := do
  let (numbers, _) ← Der.read? Der.sequenceTag bytes
  let (version, rest) ← Der.read? Der.integerTag numbers
  let (modulus, rest) ← Der.read? Der.integerTag rest
  let (others, rest) ← Der.readNaturals? 7 rest
  let primes ← furtherPrimes? rest
  if versionValid version primes then
    return (modulus, others)
  else
    none

def ofFile (file : Bytes) : Except SignatureError KeyPair :=
  match readInfo? file with
  | none => .error .unspecified
  | some (.other, _) => .error .unsupported
  | some (.rsa, key) =>
      match readNumbers? key with
      | some (modulus, [exponent, privateExponent, prime, secondPrime, primeExponent,
          secondPrimeExponent, coefficient]) => do
          let publicKey ← PublicKey.ofNumbers modulus exponent
          return { publicKey, privateExponent, prime, secondPrime, primeExponent,
                   secondPrimeExponent, coefficient }
      | _ => .error .unspecified

end KeyPair

end SignedFirmware.Rsa
