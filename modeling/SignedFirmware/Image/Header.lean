import SignedFirmware.Image.Region
import SignedFirmware.Image.Version

namespace SignedFirmware

/-- The sections of a descriptor start with these words. -/
structure Magics where
  descriptor : UInt64
  hash : UInt32
  denylist : UInt32
  blob : UInt32
  signature : UInt32

/-- The words read "_IMGDSC_", "HASH", "BLCK", "BLOB" and "SIGN". -/
def magics : Magics where
  descriptor := 0x5f435344474d495f
  hash := 0x48534148
  denylist := 0x4b434c42
  blob := 0x424f4c42
  signature := 0x4e474953

/-- The fixed header of a descriptor, before its values are looked at. -/
structure Header where
  magic : UInt64
  formatMajor : UInt8
  formatMinor : UInt8
  ownOffset : UInt32
  areaSize : UInt32
  name : Name
  family : UInt32
  version : Version
  buildTimestamp : UInt64
  imageType : UInt8
  denylistSize : UInt8
  hashType : UInt8
  scheme : UInt8
  regionCount : UInt8
  imageSize : UInt32
  blobSize : UInt32
  deriving DecidableEq, Repr

namespace Header

/-- The fields of a header on the wire. -/
def fields (header : Header) : List Field :=
  [.uint64 header.magic, .uint8 header.formatMajor, .uint8 header.formatMinor, .zeros 2,
    .uint32 header.ownOffset, .uint32 header.areaSize, .raw header.name.toList,
    .uint32 header.family] ++ header.version.fields ++
  [.uint64 header.buildTimestamp, .uint8 header.imageType, .uint8 header.denylistSize,
    .uint8 header.hashType, .uint8 header.scheme, .uint8 header.regionCount, .zeros 3,
    .uint32 header.imageSize, .uint32 header.blobSize]

def read : Reader Header := do
  let magic ← Reader.uint64
  let formatMajor ← Reader.uint8
  let formatMinor ← Reader.uint8
  Reader.skip 2
  let ownOffset ← Reader.uint32
  let areaSize ← Reader.uint32
  let name ← Reader.vector 32
  let family ← Reader.uint32
  let version ← Version.read
  let buildTimestamp ← Reader.uint64
  let imageType ← Reader.uint8
  let denylistSize ← Reader.uint8
  let hashType ← Reader.uint8
  let scheme ← Reader.uint8
  let regionCount ← Reader.uint8
  Reader.skip 3
  let imageSize ← Reader.uint32
  let blobSize ← Reader.uint32
  return { magic, formatMajor, formatMinor, ownOffset, areaSize, name, family, version,
           buildTimestamp, imageType, denylistSize, hashType, scheme, regionCount, imageSize,
           blobSize }

end Header

end SignedFirmware
