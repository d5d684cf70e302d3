import SignedFirmware.Bytes
import SignedFirmware.Digest.Algorithm
import SignedFirmware.Reason

namespace SignedFirmware

/-- This says why a signature was not verified or not made. -/
inductive SignatureError where
  | untrustedKey
  | badSignature
  | unsupported
  | unspecified
  deriving DecidableEq, Repr

def SignatureError.name : SignatureError → String
  | .untrustedKey => "UntrustedKey"
  | .badSignature => "BadSignature"
  | .unsupported => "Unsupported"
  | .unspecified => "Unspecified"

/-- An untrusted key and a bad signature reject the image; the rest are failures. -/
def SignatureError.reason : SignatureError → Reason
  | .untrustedKey => .untrustedKey
  | .badSignature => .invalidSignature
  | _ => .runtimeFailure

/-- The block holds the key that an image claims, and the signature. -/
structure SignatureBlock where
  scheme : Scheme
  modulus : Bytes
  exponent : UInt32
  signature : Bytes
  deriving DecidableEq, Repr

/-- A verifier answers with the index of the trusted key. -/
structure Verifier (σ : Type) where
  verify : SignatureBlock → (digest : Bytes) → EStateM SignatureError σ Nat

/-- A signer makes signatures of exactly the length that is asked for. -/
structure Signer (σ : Type) where
  modulus : Bytes
  exponent : UInt32
  sign : Scheme → (digest : Bytes) → (length : Nat) →
    EStateM SignatureError σ (Vector UInt8 length)

end SignedFirmware
