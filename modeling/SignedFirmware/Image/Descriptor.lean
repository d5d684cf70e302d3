import SignedFirmware.Image.Header
import SignedFirmware.Image.ImageType
import SignedFirmware.Image.Layout

namespace SignedFirmware

/-- A descriptor, with its offset and the places of its sections. -/
structure Descriptor where
  offset : Nat
  formatMajor : UInt8
  formatMinor : UInt8
  ownOffset : UInt32
  areaSize : UInt32
  name : Name
  family : UInt32
  version : Version
  buildTimestamp : UInt64
  imageType : ImageType
  denylistSize : UInt8
  hashType : HashType
  scheme : Scheme
  imageSize : UInt32
  blobSize : UInt32
  regions : List Region
  layout : Layout
  deriving DecidableEq, Repr

namespace Descriptor

/-- An image has at most this many regions. -/
def maxRegions : Nat := 16

/-- The newest major format version that is understood. -/
def maxFormatMajor : UInt8 := 1

def header (descriptor : Descriptor) : Header where
  magic := magics.descriptor
  formatMajor := descriptor.formatMajor
  formatMinor := descriptor.formatMinor
  ownOffset := descriptor.ownOffset
  areaSize := descriptor.areaSize
  name := descriptor.name
  family := descriptor.family
  version := descriptor.version
  buildTimestamp := descriptor.buildTimestamp
  imageType := descriptor.imageType.code
  denylistSize := descriptor.denylistSize
  hashType := descriptor.hashType.code
  scheme := descriptor.scheme.code
  regionCount := UInt8.ofNat descriptor.regions.length
  imageSize := descriptor.imageSize
  blobSize := descriptor.blobSize

/-- The fields of the header and of the region table on the wire. -/
def fields (descriptor : Descriptor) : List Field :=
  descriptor.header.fields ++ descriptor.regions.flatMap Region.fields

/-- The algorithm of the region digest. -/
def algorithm (descriptor : Descriptor) : Algorithm :=
  descriptor.hashType.algorithm?.getD .sha256

/-- The range of the descriptor, which the region digest leaves out. -/
def area (descriptor : Descriptor) : Extent := ⟨descriptor.offset, descriptor.areaSize.toNat⟩

end Descriptor

end SignedFirmware
