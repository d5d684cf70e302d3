import SignedFirmware.Rsa.Pkcs1

namespace SignedFirmware.Rsa

/-- The trusted keys are kept in the order in which they were added. -/
structure Keyring where
  keys : List PublicKey
  deriving DecidableEq, Repr

/-- The key has the numbers of the block, zeros in front apart. -/
def PublicKey.isClaimedBy (key : PublicKey) (block : SignatureBlock) : Bool :=
  key.exponent == block.exponent && key.modulus == stripLeadingZeros block.modulus

namespace Keyring

/-- The ring that trusts nothing. -/
def empty : Keyring := ⟨[]⟩

/-- This adds a key and answers with its index. -/
def push (ring : Keyring) (key : PublicKey) : Nat × Keyring :=
  (ring.keys.length, ⟨ring.keys ++ [key]⟩)

/-- The answer is the index of the first key that the block claims. -/
def verify (ring : Keyring) (block : SignatureBlock) (digest : Bytes) :
    Except SignatureError Nat :=
  if digest.length ≠ block.scheme.algorithm.length then
    .error .unspecified
  else
    match ring.keys.zipIdx.find? fun (key, _) => key.isClaimedBy block with
    | none => .error .untrustedKey
    | some (key, index) =>
        if key.accepts block.scheme.algorithm digest block.signature then
          .ok index
        else
          .error .badSignature

/-- The verifier that trusts the keys of a ring. -/
def verifier {σ : Type} (ring : Keyring) : Verifier σ where
  verify block digest := fun state =>
    match ring.verify block digest with
    | .ok index => .ok index state
    | .error error => .error error state

end Keyring

end SignedFirmware.Rsa
