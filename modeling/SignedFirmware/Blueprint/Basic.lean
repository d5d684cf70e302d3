import SignedFirmware.Image.Descriptor
import SignedFirmware.Image.RegionTable
import SignedFirmware.Image.SignatureCheck
import SignedFirmware.Rollback.Blob
import SignedFirmware.Rollback.Record
import SignedFirmware.Signature.Capability

namespace SignedFirmware

/-- This says why an image could not be built. -/
inductive BuildError where
  | wire (error : WireError)
  | hash (error : HashError)
  | signature (error : SignatureError)
  | nameTooLong
  | badRegionCount
  | unsupportedHash
  | outOfRange
  | badRecord (error : RecordError)
  deriving DecidableEq, Repr

/-- The name under which an error is reported. -/
def BuildError.name : BuildError → String
  | .wire error => "Io(" ++ error.name ++ ")"
  | .hash error => "Hash(" ++ error.name ++ ")"
  | .signature error => "Sig(" ++ error.name ++ ")"
  | .nameTooLong => "NameTooLong"
  | .badRegionCount => "BadRegionCount"
  | .unsupportedHash => "UnsupportedHash"
  | .outOfRange => "OutOfRange"
  | .badRecord error => "BadMauv(" ++ error.name ++ ")"

/-- A step of a build ends with an error unless a condition holds. -/
def demand (condition : Prop) [Decidable condition] (error : BuildError) :
    Except BuildError Unit :=
  if condition then .ok () else .error error

/-- A step of a build needs the value of an optional result. -/
def expect {α : Type} (value : Option α) (error : BuildError) : Except BuildError α :=
  match value with
  | some value => .ok value
  | none => .error error

/-- A step that needs no device runs among steps that do. -/
def perform {σ α : Type} (step : Except BuildError α) : EStateM BuildError σ α := fun state =>
  match step with
  | .ok value => .ok value state
  | .error error => .error error state

/-- A region of an image that is to be built. -/
structure RegionPlan where
  name : String
  offset : UInt32
  size : UInt32
  version : UInt16
  attributes : List Attribute
  deriving DecidableEq, Repr

/-- A rollback record to go into an image. Its denylist may be too long. -/
structure RecordPlan where
  securityVersion : UInt64
  timestamp : UInt64
  minimum : UInt64
  denylist : List UInt64
  deriving DecidableEq, Repr

structure BlobRecord where
  type : UInt32
  payload : Bytes
  deriving DecidableEq, Repr

/-- Without sizes of its own an image gets just the room that it needs. -/
structure Blueprint where
  name : String
  family : UInt32
  version : Version
  buildTimestamp : UInt64
  imageType : ImageType
  hashType : HashType
  scheme : Scheme
  descriptorOffset : UInt32
  areaSize : Option UInt32
  imageSize : Option UInt32
  regions : List RegionPlan
  denylist : List Version
  rollback : Option RecordPlan
  records : List BlobRecord
  deriving DecidableEq, Repr

/-- The table entry of a planned region, if its name fits. -/
def RegionPlan.region? (plan : RegionPlan) : Option Region := do
  let name ← Name.ofText? plan.name
  return { name
           offset := plan.offset
           size := plan.size
           version := plan.version
           attributeWord := plan.attributes.foldl (fun word flag => word ||| flag.bit) 0 }

/-- The record of a plan, unless a reader would refuse it. -/
def RecordPlan.record (plan : RecordPlan) : Except BuildError RollbackRecord :=
  if fits : plan.denylist.length ≤ 11 then
    let record : RollbackRecord :=
      ⟨plan.securityVersion, plan.timestamp, plan.minimum, plan.denylist, fits⟩
    match RollbackRecord.parse record.encode with
    | .ok record => .ok record
    | .error error => .error (.badRecord error)
  else
    .error (.badRecord .tooManyEntries)

namespace Blueprint

/-- The blob records of an image, the rollback record first. -/
def blobRecords (blueprint : Blueprint) : Except BuildError (List BlobRecord) :=
  match blueprint.rollback with
  | none => return blueprint.records
  | some plan => return ⟨Blob.rollbackType, (← plan.record).encode⟩ :: blueprint.records

/-- A blob record is filled up with zeros to a multiple of four bytes. -/
def encodeRecord (record : BlobRecord) : Except BuildError Bytes := do
  demand (record.payload.length < Offset.limit) .outOfRange
  let bytes := Field.encodeAll
    [.uint32 record.type, .uint32 (UInt32.ofNat record.payload.length), .raw record.payload]
  return bytes ++ zeroBytes (Offset.roundUp bytes.length Blob.recordAlignment - bytes.length)

/-- These are blob records back to back. -/
def encodeRecords : List BlobRecord → Except BuildError Bytes
  | [] => return []
  | record :: rest => return (← encodeRecord record) ++ (← encodeRecords rest)

/-- The blob of an image; without records there is none. -/
def blob (blueprint : Blueprint) : Except BuildError Bytes := do
  match ← blueprint.blobRecords with
  | [] => return []
  | records =>
      return Field.encodeAll [.uint32 magics.blob, .zeros 4] ++ (← encodeRecords records)

end Blueprint

end SignedFirmware
