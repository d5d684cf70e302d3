import SignedFirmware.Wire.Reader

namespace SignedFirmware

/-- This says what is wrong with the bytes of a rollback record. -/
inductive RecordError where
  | badSize
  | badVersion
  | tooManyEntries
  | zeroVersion
  | selfInconsistent
  deriving DecidableEq, Repr

def RecordError.name : RecordError → String
  | .badSize => "BadSize"
  | .badVersion => "BadVersion"
  | .tooManyEntries => "TooManyEntries"
  | .zeroVersion => "ZeroVersion"
  | .selfInconsistent => "SelfInconsistent"

/-- A rollback record has room for eleven versions on its denylist. -/
structure RollbackRecord where
  securityVersion : UInt64
  timestamp : UInt64
  minimum : UInt64
  denylist : List UInt64
  fits : denylist.length ≤ 11
  deriving DecidableEq, Repr

namespace RollbackRecord

/-- The length of a record with an empty denylist. -/
def baseLength : Nat := 40

/-- No record is longer than this, and storage has room for it. -/
def slotLength : Nat := 128

/-- The most versions a denylist holds. -/
def maxDenylist : Nat := (slotLength - baseLength) / 8

/-- The only version of the format. -/
def formatVersion : UInt32 := 1

/-- A record sets a minimum and denies some versions above it. -/
def allows (record : RollbackRecord) (version : UInt64) : Bool :=
  record.minimum ≤ version && !record.denylist.contains version

/-- The length of a record on the wire. -/
def encodedLength (record : RollbackRecord) : Nat := baseLength + 8 * record.denylist.length

/-- The fields of a record on the wire. -/
def fields (record : RollbackRecord) : List Field :=
  [.uint32 formatVersion, .zeros 4, .uint64 record.securityVersion, .uint64 record.timestamp,
    .uint64 record.minimum, .uint32 (UInt32.ofNat record.denylist.length), .zeros 4] ++
  record.denylist.map .uint64

/-- The bytes of a record on the wire. -/
def encode (record : RollbackRecord) : Bytes := Field.encodeAll record.fields

/-- This reads a list of long words. -/
def readVersions : (count : Nat) → Reader (List UInt64)
  | 0 => return []
  | count + 1 => return (← Reader.uint64) :: (← readVersions count)

/-- The fixed part of a record, before its values are looked at. -/
structure Head where
  formatVersion : UInt32
  securityVersion : UInt64
  timestamp : UInt64
  minimum : UInt64
  count : UInt32

/-- This reads the fixed part of a record. -/
def readHead : Reader Head := do
  let formatVersion ← Reader.uint32
  Reader.skip 4
  let securityVersion ← Reader.uint64
  let timestamp ← Reader.uint64
  let minimum ← Reader.uint64
  let count ← Reader.uint32
  Reader.skip 4
  return { formatVersion, securityVersion, timestamp, minimum, count }

/-- A record has a nonzero security version, which it allows itself. -/
def ofValues (head : Head) (denylist : List UInt64) : Except RecordError RollbackRecord :=
  if fits : denylist.length ≤ 11 then
    let record : RollbackRecord :=
      ⟨head.securityVersion, head.timestamp, head.minimum, denylist, fits⟩
    if head.securityVersion = 0 then
      .error .zeroVersion
    else if record.allows head.securityVersion then
      .ok record
    else
      .error .selfInconsistent
  else
    .error .tooManyEntries

/-- This reads a record, which must take up all of the bytes. -/
def parse (bytes : Bytes) : Except RecordError RollbackRecord :=
  if bytes.length < baseLength then
    .error .badSize
  else
    match readHead bytes with
    | .error _ _ => .error .badSize
    | .ok head rest =>
        if head.formatVersion ≠ formatVersion then
          .error .badVersion
        else if maxDenylist < head.count.toNat then
          .error .tooManyEntries
        else if bytes.length ≠ baseLength + 8 * head.count.toNat then
          .error .badSize
        else
          match readVersions head.count.toNat rest with
          | .error _ _ => .error .badSize
          | .ok denylist _ => ofValues head denylist

end RollbackRecord

end SignedFirmware
