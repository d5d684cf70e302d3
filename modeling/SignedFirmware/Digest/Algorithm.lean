import SignedFirmware.Wire.Coded

namespace SignedFirmware

/-- A digest algorithm of the SHA-2 family. -/
inductive Algorithm where
  | sha256
  | sha384
  | sha512
  deriving DecidableEq, Repr

namespace Algorithm

/-- The length of a digest in bits. -/
def bits : Algorithm → Nat
  | .sha256 => 256
  | .sha384 => 384
  | .sha512 => 512

/-- The length of a digest in bytes. -/
def length (algorithm : Algorithm) : Nat := algorithm.bits / 8

def name : Algorithm → String
  | .sha256 => "Sha256"
  | .sha384 => "Sha384"
  | .sha512 => "Sha512"

instance : Coded Algorithm where
  all := [.sha256, .sha384, .sha512]
  code := bits
  name := name

end Algorithm

/-- The hash type of an image names the algorithm of its region digest. -/
inductive HashType where
  | none
  | sha224
  | sha256
  | sha384
  | sha512
  deriving DecidableEq, Repr

namespace HashType

def code : HashType → UInt8
  | .none => 0
  | .sha224 => 1
  | .sha256 => 2
  | .sha384 => 3
  | .sha512 => 4

def name : HashType → String
  | .none => "None"
  | .sha224 => "Sha224"
  | .sha256 => "Sha256"
  | .sha384 => "Sha384"
  | .sha512 => "Sha512"

instance : Coded HashType where
  all := [.none, .sha224, .sha256, .sha384, .sha512]
  code hashType := hashType.code.toNat
  name := name

/-- Only two of the hash types may protect an image. -/
def algorithm? : HashType → Option Algorithm
  | .sha256 => some .sha256
  | .sha512 => some .sha512
  | _ => Option.none

end HashType

/-- A signature scheme fixes the key length and the digest. -/
inductive Scheme where
  | rsa2048
  | rsa3072
  | rsa4096
  | rsa4096Sha512
  deriving DecidableEq, Repr

namespace Scheme

def code : Scheme → UInt8
  | .rsa2048 => 1
  | .rsa3072 => 2
  | .rsa4096 => 3
  | .rsa4096Sha512 => 4

def name : Scheme → String
  | .rsa2048 => "Rsa2048Pkcs15"
  | .rsa3072 => "Rsa3072Pkcs15"
  | .rsa4096 => "Rsa4096Pkcs15"
  | .rsa4096Sha512 => "Rsa4096Pkcs15Sha512"

instance : Coded Scheme where
  all := [.rsa2048, .rsa3072, .rsa4096, .rsa4096Sha512]
  code scheme := scheme.code.toNat
  name := name

/-- The digest that a scheme signs. -/
def algorithm : Scheme → Algorithm
  | .rsa4096Sha512 => .sha512
  | _ => .sha256

/-- The length of a signature, and of the modulus of a key. -/
def signatureLength : Scheme → Nat
  | .rsa2048 => 256
  | .rsa3072 => 384
  | .rsa4096 | .rsa4096Sha512 => 512

/-- The scheme of a modulus length and a digest, if there is one. -/
def forKey? (length : Nat) (algorithm : Algorithm) : Option Scheme :=
  match length, algorithm with
  | 256, .sha256 => some .rsa2048
  | 384, .sha256 => some .rsa3072
  | 512, .sha256 => some .rsa4096
  | 512, .sha512 => some .rsa4096Sha512
  | _, _ => none

/-- A signature block holds its magic, the modulus, the exponent and the signature. -/
def blockLength (scheme : Scheme) : Nat := 4 + 4 + 2 * scheme.signatureLength

end Scheme

end SignedFirmware
