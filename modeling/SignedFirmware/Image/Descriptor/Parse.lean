import SignedFirmware.Image.Descriptor
import SignedFirmware.Image.Platform

namespace SignedFirmware

/-- The range of flash in which an image is looked for. -/
structure Span where
  start : UInt32
  stop : UInt32
  deriving DecidableEq, Repr

namespace Descriptor

/-- The words of a structure that has been read from flash. -/
def decode {α : Type} (reader : Reader α) (bytes : Bytes) : Checked α :=
  match reader bytes with
  | .ok value _ => .ok value
  | .error error _ => reject error.reason

/-- This demands that the word at an offset is a given one. -/
def expectMagic (flash : Flash) (offset : Nat) (magic : UInt32) : Checked Unit := do
  let word ← Checked.ofFlash (flash.number offset 4)
  ensure (word = magic.toNat) .invalidDescriptor

def readHeader (flash : Flash) (position : Nat) (span : Span) : Checked Header := do
  ensure (position + Layout.headerLength ≤ span.stop.toNat) .invalidDescriptor
  let bytes ← Checked.ofFlash (flash.read position Layout.headerLength)
  decode Header.read bytes.toList

/-- The platform decides on the size, or else the image fills the range. -/
def sizeValid (platform : Platform) (span : Span) (size : UInt32) : Bool :=
  (platform.sizeValid size).getD (span.start.toNat + size.toNat == span.stop.toNat)

/-- The version, the place and the sizes that a header claims. -/
def checkHeader (header : Header) (position : Nat) (span : Span) (platform : Platform) :
    Checked Unit := do
  ensure (header.magic = magics.descriptor) .invalidDescriptor
  ensure (header.formatMajor ≤ maxFormatMajor) .unsupportedDescriptor
  ensure (span.start.toNat + header.ownOffset.toNat = position) .invalidDescriptor
  ensure (0 < header.regionCount) .invalidDescriptor
  ensure (header.regionCount.toNat ≤ maxRegions) .unsupportedDescriptor
  ensure (position + header.areaSize.toNat ≤ span.stop.toNat) .invalidDescriptor
  ensure (sizeValid platform span header.imageSize) .invalidDescriptor

/-- This checks the magic words of the sections that may be absent. -/
def checkSections (flash : Flash) (layout : Layout) : Checked Unit := do
  if let some denylist := layout.denylist then
    expectMagic flash denylist.offset magics.denylist
  if let some blob := layout.blob then
    ensure (Layout.sectionHeaderLength ≤ blob.length) .invalidDescriptor
    expectMagic flash blob.offset magics.blob

/-- The table is read entry by entry from `index` on. -/
def readRegions (flash : Flash) (position : Nat) (index : Nat) :
    (count : Nat) → Checked (List Region)
  | 0 => return []
  | count + 1 => do
      let tableStart ← Offset.add position Layout.headerLength
      let entryStart ← Offset.add tableStart (index * Region.entryLength)
      let bytes ← Checked.ofFlash (flash.read entryStart Region.entryLength)
      let region ← decode Region.read bytes.toList
      return region :: (← readRegions flash position (index + 1) count)

/-- The descriptor at `position` of an image that is looked for in `span`. -/
def parse (flash : Flash) (position : Nat) (span : Span) (platform : Platform) :
    Checked Descriptor := do
  let header ← readHeader flash position span
  checkHeader header position span platform
  let imageType ← require (Coded.ofCode? header.imageType.toNat) .invalidDescriptor
  let scheme ← require (Coded.ofCode? header.scheme.toNat) .invalidSigScheme
  let hashType ← require (Coded.ofCode? header.hashType.toNat) .invalidHashType
  let algorithm ← require (HashType.algorithm? hashType) .invalidHashType
  let layout ← require (Layout.place? position header.regionCount.toNat algorithm
    header.denylistSize.toNat header.blobSize.toNat scheme) .invalidDescriptor
  let total ← layout.totalLength
  ensure (total ≤ header.areaSize.toNat) .invalidDescriptor
  checkSections flash layout
  let regions ← readRegions flash position 0 header.regionCount.toNat
  return { offset := position
           formatMajor := header.formatMajor
           formatMinor := header.formatMinor
           ownOffset := header.ownOffset
           areaSize := header.areaSize
           name := header.name
           family := header.family
           version := header.version
           buildTimestamp := header.buildTimestamp
           imageType, denylistSize := header.denylistSize, hashType, scheme
           imageSize := header.imageSize
           blobSize := header.blobSize
           regions, layout }

end Descriptor

end SignedFirmware
