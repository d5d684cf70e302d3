import SignedFirmware.Blueprint.Basic
import SignedFirmware.Json.Codec

namespace SignedFirmware

namespace Extent

/-- This reads a range whose offset and length are 32-bit words. -/
def ofJson? (value : Json) : Option Extent := do
  let [offset, length] ← value.slots? ["offset", "len"] | none
  return ⟨← Json.required (Json.below? Offset.limit) offset,
    ← Json.required (Json.below? Offset.limit) length⟩

def toJson (extent : Extent) : Json :=
  .record [("offset", .ofNat extent.offset), ("len", .ofNat extent.length)]

end Extent

namespace Version

def ofJson? (value : Json) : Option Version := do
  let [major, minor, point, subpoint] ← value.slots? ["major", "minor", "point", "subpoint"] | none
  return ⟨← Json.required Json.uint32? major, ← Json.required Json.uint32? minor,
    ← Json.required Json.uint32? point, ← Json.required Json.uint32? subpoint⟩

def toJson (version : Version) : Json :=
  .record [("major", .ofNat version.major.toNat), ("minor", .ofNat version.minor.toNat),
    ("point", .ofNat version.point.toNat), ("subpoint", .ofNat version.subpoint.toNat)]

end Version

namespace RegionPlan

def ofJson? (value : Json) : Option RegionPlan := do
  let [name, offset, size, version, attributes] ←
    value.slots? ["name", "offset", "size", "version", "attributes"] | none
  return {
    name := ← Json.required Json.text? name
    offset := ← Json.required Json.uint32? offset
    size := ← Json.required Json.uint32? size
    version := ← Json.defaulted 0 Json.uint16? version
    attributes := ← Json.defaulted [] (Json.list? Json.coded?) attributes }

def toJson (plan : RegionPlan) : Json :=
  .record [("name", .ofString plan.name), ("offset", .ofNat plan.offset.toNat),
    ("size", .ofNat plan.size.toNat), ("version", .ofNat plan.version.toNat),
    ("attributes", .ofList Json.ofCoded plan.attributes)]

end RegionPlan

namespace RecordPlan

def ofJson? (value : Json) : Option RecordPlan := do
  let [securityVersion, timestamp, minimum, denylist] ←
    value.slots? ["payload_security_version", "update_timestamp",
      "minimum_acceptable_update_version", "denylist"] | none
  return {
    securityVersion := ← Json.required Json.uint64? securityVersion
    timestamp := ← Json.required Json.uint64? timestamp
    minimum := ← Json.required Json.uint64? minimum
    denylist := ← Json.defaulted [] (Json.list? Json.uint64?) denylist }

def toJson (plan : RecordPlan) : Json :=
  .record [("payload_security_version", .ofNat plan.securityVersion.toNat),
    ("update_timestamp", .ofNat plan.timestamp.toNat),
    ("minimum_acceptable_update_version", .ofNat plan.minimum.toNat),
    ("denylist", .ofList (fun version => .ofNat version.toNat) plan.denylist)]

end RecordPlan

namespace BlobRecord

def ofJson? (value : Json) : Option BlobRecord := do
  let [type, payload] ← value.slots? ["ty", "payload"] | none
  return ⟨← Json.required Json.uint32? type, ← Json.required (Json.list? Json.uint8?) payload⟩

def toJson (record : BlobRecord) : Json :=
  .record [("ty", .ofNat record.type.toNat),
    ("payload", .ofList (fun byte => .ofNat byte.toNat) record.payload)]

end BlobRecord

namespace Blueprint

def ofJson? (value : Json) : Option Blueprint := do
  let [name, family, version, buildTimestamp, imageType, hashType, scheme, descriptorOffset,
      areaSize, imageSize, regions, denylist, rollback, records] ←
    value.slots? ["name", "family", "version", "build_timestamp", "image_type", "hash_type",
      "scheme", "descriptor_offset", "descriptor_area_size", "image_size", "regions", "denylist",
      "mauv", "blob_records"] | none
  return {
    name := ← Json.required Json.text? name
    family := ← Json.defaulted 0 Json.uint32? family
    version := ← Json.defaulted .zero Version.ofJson? version
    buildTimestamp := ← Json.defaulted 0 Json.uint64? buildTimestamp
    imageType := ← Json.required Json.coded? imageType
    hashType := ← Json.required Json.coded? hashType
    scheme := ← Json.required Json.coded? scheme
    descriptorOffset := ← Json.required Json.uint32? descriptorOffset
    areaSize := ← Json.defaulted none (Json.optional? Json.uint32?) areaSize
    imageSize := ← Json.defaulted none (Json.optional? Json.uint32?) imageSize
    regions := ← Json.required (Json.list? RegionPlan.ofJson?) regions
    denylist := ← Json.defaulted [] (Json.list? Version.ofJson?) denylist
    rollback := ← Json.defaulted none (Json.optional? RecordPlan.ofJson?) rollback
    records := ← Json.defaulted [] (Json.list? BlobRecord.ofJson?) records }

def toJson (blueprint : Blueprint) : Json :=
  .record [("name", .ofString blueprint.name), ("family", .ofNat blueprint.family.toNat),
    ("version", blueprint.version.toJson),
    ("build_timestamp", .ofNat blueprint.buildTimestamp.toNat),
    ("image_type", .ofCoded blueprint.imageType), ("hash_type", .ofCoded blueprint.hashType),
    ("scheme", .ofCoded blueprint.scheme),
    ("descriptor_offset", .ofNat blueprint.descriptorOffset.toNat),
    ("descriptor_area_size", .ofOption (fun size => .ofNat size.toNat) blueprint.areaSize),
    ("image_size", .ofOption (fun size => .ofNat size.toNat) blueprint.imageSize),
    ("regions", .ofList RegionPlan.toJson blueprint.regions),
    ("denylist", .ofList Version.toJson blueprint.denylist),
    ("mauv", .ofOption RecordPlan.toJson blueprint.rollback),
    ("blob_records", .ofList BlobRecord.toJson blueprint.records)]

end Blueprint

end SignedFirmware
