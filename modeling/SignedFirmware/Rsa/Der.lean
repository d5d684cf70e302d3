import SignedFirmware.Bytes

namespace SignedFirmware

namespace Der

def booleanTag : UInt8 := 0x01

def integerTag : UInt8 := 0x02

def bitStringTag : UInt8 := 0x03

def octetStringTag : UInt8 := 0x04

def nullTag : UInt8 := 0x05

def objectTag : UInt8 := 0x06

def enumeratedTag : UInt8 := 0x0a

def sequenceTag : UInt8 := 0x30

/-- This marks the tag of an element whose contents are elements again. -/
def constructedFlag : UInt8 := 0x20

/-- This tags the attributes of a private key. -/
def attributesTag : UInt8 := 0xa0

/-- No length is written with more bytes than this, zeros in front apart. -/
def maxLengthBytes : Nat := 8

/-- From 128 on, the first byte of a length counts its other bytes. -/
def readLength? : Bytes → Option (Nat × Bytes)
  | [] => none
  | first :: rest =>
      if first < 0x80 then
        some (first.toNat, rest)
      else
        let count := first.toNat - 0x80
        let digits := stripLeadingZeros (rest.take count)
        if count = 0 ∨ rest.length ≤ count ∨ maxLengthBytes < digits.length then
          none
        else
          some (bigEndianValue digits, rest.drop count)

/-- An element with any tag: its tag, its contents and what follows. -/
def readAny? : Bytes → Option (UInt8 × Bytes × Bytes)
  | [] => none
  | tag :: rest =>
      match readLength? rest with
      | none => none
      | some (length, rest) =>
          if tag &&& 0x1f = 0x1f ∨ rest.length < length then
            none
          else
            some (tag, rest.take length, rest.drop length)

/-- An element with a given tag: its contents and what follows. -/
def read? (tag : UInt8) (bytes : Bytes) : Option (Bytes × Bytes) := do
  let (found, contents, rest) ← readAny? bytes
  if found = tag then
    return (contents, rest)
  else
    none

/-- A signed number has no more bytes than it needs. -/
def isShortest : Bytes → Bool
  | first :: second :: _ =>
      !((first == 0 && second < 0x80) || (first == 0xff && 0x80 ≤ second))
  | _ => true

/-- Each part ends with a byte below 128 and starts with no 128. -/
def isIdentifier (contents : Bytes) : Bool :=
  match contents.getLast? with
  | none => false
  | some last =>
      last < 0x80 && (contents.zip (0 :: contents)).all fun (byte, before) =>
        byte != 0x80 || 0x80 ≤ before

/-- A tag that is not listed demands nothing of the contents. -/
def isWellFormed (tag : UInt8) (contents : Bytes) : Bool :=
  if tag = booleanTag then contents.length == 1
  else if tag = integerTag ∨ tag = enumeratedTag then !contents.isEmpty && isShortest contents
  else if tag = bitStringTag then contents.head?.any (· ≤ 7)
  else if tag = nullTag then contents.isEmpty
  else if tag = objectTag then isIdentifier contents
  else tag ∉ [booleanTag, integerTag, enumeratedTag, nullTag, objectTag].map (· ||| constructedFlag)

/-- The digits of a number are taken without a sign. -/
def readNatural? (bytes : Bytes) : Option (Nat × Bytes) := do
  let (contents, rest) ← read? integerTag bytes
  return (bigEndianValue contents, rest)

/-- This reads numbers without a sign, one after the other. -/
def readNaturals? : (count : Nat) → Bytes → Option (List Nat × Bytes)
  | 0, bytes => some ([], bytes)
  | count + 1, bytes => do
      let (first, rest) ← readNatural? bytes
      let (numbers, rest) ← readNaturals? count rest
      return (first :: numbers, rest)

/-- Unused bits at the end of a bit string count as zero. -/
def readBits? (bytes : Bytes) : Option (Bytes × Bytes) := do
  let (contents, rest) ← read? bitStringTag bytes
  match contents with
  | [] => none
  | unused :: bits =>
      if 7 < unused then
        none
      else
        match bits.getLast? with
        | none => return ([], rest)
        | some last => return (bits.dropLast ++ [(last >>> unused) <<< unused], rest)

end Der

end SignedFirmware
