import SignedFirmware.Image.Descriptor.Parse
import SignedFirmware.Signature.Capability

namespace SignedFirmware

namespace SignatureBlock

/-- No signature block is longer than this. -/
def maxLength : Nat := 4 + 4 + 2 * 512

/-- The bytes of a signature block after its magic word. -/
def ofBytes (scheme : Scheme) (bytes : Bytes) : SignatureBlock :=
  let afterModulus := bytes.drop scheme.signatureLength
  { scheme
    modulus := bytes.take scheme.signatureLength
    exponent := UInt32.ofNat (littleEndianValue (afterModulus.take 4))
    signature := afterModulus.drop 4 }

/-- The fields of a signature block on the wire. -/
def fields (block : SignatureBlock) : List Field :=
  [.uint32 magics.signature, .raw block.modulus, .uint32 block.exponent, .raw block.signature]

end SignatureBlock

namespace Descriptor

/-- This reads the signature block of a descriptor. -/
def signatureBlock (flash : Flash) (descriptor : Descriptor) : Checked SignatureBlock := do
  let place := descriptor.layout.signature
  ensure (place.length ≤ SignatureBlock.maxLength) .invalidDescriptor
  let bytes ← Checked.ofFlash (flash.read place.offset place.length)
  ensure (littleEndianValue (bytes.toList.take 4) = magics.signature.toNat) .invalidDescriptor
  return SignatureBlock.ofBytes descriptor.scheme (bytes.toList.drop 4)

/-- The answer is the index of the key. -/
def verifySignature {σ : Type} (flash : Flash) (descriptor : Descriptor) (engine : HashEngine σ)
    (verifier : Verifier σ) : Run σ Nat := do
  let digest ←
    (flash.digest engine descriptor.scheme.algorithm [descriptor.layout.signed]).adaptExcept
      fun error => .rejected error.reason
  let block ← (descriptor.signatureBlock flash).run
  (verifier.verify block digest.toList).adaptExcept fun error => .rejected error.reason

end Descriptor

end SignedFirmware
