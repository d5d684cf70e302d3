import SignedFirmware.Wire.Sink

namespace SignedFirmware

/-- A reader works on the bytes that are left. -/
abbrev Reader (α : Type) := EStateM WireError Bytes α

namespace Reader

/-- This takes the next `count` bytes. -/
def vector (count : Nat) : Reader (Vector UInt8 count) := fun left =>
  let front := left.take count
  if full : front.length = count then
    .ok ⟨front.toArray, by simpa using full⟩ (left.drop count)
  else
    .error .bufferExhausted left

/-- This takes the next `count` bytes as a list. -/
def bytes (count : Nat) : Reader Bytes := return (← vector count).toList

/-- This takes a little-endian number of `width` bytes. -/
def number (width : Nat) : Reader Nat := return littleEndianValue (← bytes width)

def uint8 : Reader UInt8 := return UInt8.ofNat (← number 1)

def uint16 : Reader UInt16 := return UInt16.ofNat (← number 2)

def uint32 : Reader UInt32 := return UInt32.ofNat (← number 4)

def uint64 : Reader UInt64 := return UInt64.ofNat (← number 8)

/-- This drops the next `count` bytes at once. -/
def skip (count : Nat) : Reader Unit := fun left =>
  if count ≤ left.length then .ok () (left.drop count) else .error .bufferExhausted left

/-- The reads before one that fails have taken their bytes. -/
def skipByPieces (count : Nat) : Reader Unit := do
  if _done : count = 0 then
    return ()
  else
    let _ ← bytes (min count 8)
    skipByPieces (count - min count 8)
termination_by count
decreasing_by omega

end Reader

end SignedFirmware
