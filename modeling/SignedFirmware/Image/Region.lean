import SignedFirmware.Flash
import SignedFirmware.Wire.Reader

namespace SignedFirmware

/-- A name has 32 bytes, with zeros after a shorter one. -/
abbrev Name := Vector UInt8 32

namespace Name

/-- The text of a name up to its first zero, if it is UTF-8. -/
def text? (name : Name) : Option String := textOf? (name.toList.takeWhile (· != 0))

/-- The name with a given text, if the text fits. -/
def ofText? (text : String) : Option Name :=
  let bytes := utf8Bytes text
  if fits : bytes.length ≤ 32 then
    some ⟨(bytes ++ zeroBytes (32 - bytes.length)).toArray, by simp; omega⟩
  else
    none

end Name

inductive Attribute where
  | static
  | compressed
  | writeProtected
  | persistent
  | persistentRelocatable
  | persistentExpandable
  | override
  | overrideOnTransition
  | mailbox
  | skipBootValidation
  | empty
  deriving DecidableEq, Repr

namespace Attribute

def position : Attribute → Nat
  | .static => 0
  | .compressed => 1
  | .writeProtected => 2
  | .persistent => 3
  | .persistentRelocatable => 4
  | .persistentExpandable => 5
  | .override => 6
  | .overrideOnTransition => 7
  | .mailbox => 8
  | .skipBootValidation => 9
  | .empty => 10

def name : Attribute → String
  | .static => "Static"
  | .compressed => "Compressed"
  | .writeProtected => "WriteProtected"
  | .persistent => "Persistent"
  | .persistentRelocatable => "PersistentRelocatable"
  | .persistentExpandable => "PersistentExpandable"
  | .override => "Override"
  | .overrideOnTransition => "OverrideOnTransition"
  | .mailbox => "Mailbox"
  | .skipBootValidation => "SkipBootValidation"
  | .empty => "Empty"

instance : Coded Attribute where
  all := [.static, .compressed, .writeProtected, .persistent, .persistentRelocatable,
    .persistentExpandable, .override, .overrideOnTransition, .mailbox, .skipBootValidation, .empty]
  code flag := 1 <<< flag.position
  name := name

/-- An attribute as a bit of the attribute word. -/
def bit (flag : Attribute) : UInt16 := 1 <<< UInt16.ofNat flag.position

end Attribute

/-- An entry of the region table keeps its attribute word as it stands. -/
structure Region where
  name : Name
  offset : UInt32
  size : UInt32
  version : UInt16
  attributeWord : UInt16
  deriving DecidableEq, Repr

namespace Region

def entryLength : Nat := 44

/-- The fields of an entry on the wire. -/
def fields (region : Region) : List Field :=
  [.raw region.name.toList, .uint32 region.offset, .uint32 region.size, .uint16 region.version,
    .uint16 region.attributeWord]

def read : Reader Region :=
  return ⟨← Reader.vector 32, ← Reader.uint32, ← Reader.uint32, ← Reader.uint16, ← Reader.uint16⟩

/-- This says whether an attribute's bit is set. -/
def has (region : Region) (flag : Attribute) : Bool :=
  region.attributeWord.toNat.testBit flag.position

/-- The known attributes, from the lowest bit up. -/
def attributes (region : Region) : List Attribute := (Coded.all).filter region.has

/-- The region digest covers the contents of a static region. -/
def isStatic (region : Region) : Bool := region.has .static

/-- The range of a region within the image. -/
def extent (region : Region) : Extent := ⟨region.offset.toNat, region.size.toNat⟩

end Region

end SignedFirmware
