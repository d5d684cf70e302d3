import SignedFirmware.Image.Descriptor.Parse

namespace SignedFirmware.Descriptor

/-- A family of zero, on either side, goes with every family. -/
def familyMatches (descriptor : Descriptor) (family : UInt32) : Bool :=
  descriptor.family == family || descriptor.family == 0 || family == 0

/-- Some types are never allowed, whatever firmware is running. -/
def typeAllowed (descriptor : Descriptor) (currentType : Option ImageType) : Bool :=
  match descriptor.imageType with
  | .unsignedIntegrity => false
  | .test => currentType == some .test
  | _ => true

/-- The signature block must be there, but it is not verified. -/
def checkTransition (flash : Flash) (descriptor : Descriptor) (family : UInt32)
    (currentType : Option ImageType) (platform : Platform) : Checked Unit := do
  expectMagic flash descriptor.layout.signature.offset magics.signature
  ensure (descriptor.familyMatches family) .invalidImageFamily
  ensure (descriptor.typeAllowed currentType) .imageTypeDisallowed
  let production ← require platform.production .invalidInterface
  if production && descriptor.imageType == .dev then
    let allowed ← require platform.downgradeAllowed .invalidInterface
    ensure allowed .devDowngradeDisallowed

end SignedFirmware.Descriptor
