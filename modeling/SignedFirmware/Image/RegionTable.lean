import SignedFirmware.Image.Descriptor.Parse

namespace SignedFirmware

/-- The table receives the regions of a valid image. -/
structure RegionTable (capacity : Nat) where
  regions : List Region
  fits : regions.length ≤ capacity

namespace RegionTable

def empty (capacity : Nat) : RegionTable capacity := ⟨[], Nat.zero_le _⟩

/-- This removes all regions from a table. -/
def clear {capacity : Nat} (_table : RegionTable capacity) : RegionTable capacity := empty capacity

end RegionTable

namespace Descriptor

/-- Regions start and end on multiples of this. -/
def sectorSize : Nat := 4096

/-- The regions follow one another within the image, and end within the span. -/
def checkPartition (imageSize : Nat) (span : Span) : (total : Nat) → List Region → Checked Nat
  | total, [] => return total
  | total, region :: rest => do
      ensure (region.offset.toNat = total) .invalidDescriptor
      ensure (region.offset.toNat % sectorSize = 0 ∧ region.size.toNat % sectorSize = 0)
        .invalidDescriptor
      let left ← Offset.sub imageSize total
      ensure (region.size.toNat ≤ left) .invalidDescriptor
      ensure (span.start.toNat + region.offset.toNat + region.size.toNat ≤ span.stop.toNat)
        .invalidRegionInput
      let next ← Offset.add total region.size.toNat
      checkPartition imageSize span next rest

/-- A region that ends where the descriptor starts does not contain it. -/
def owner? (descriptor : Descriptor) : Option Region :=
  descriptor.regions.find? fun region => region.extent.contains descriptor.ownOffset.toNat

/-- This checks that the descriptor's area lies in a single static region. -/
def checkOwner (descriptor : Descriptor) : Checked Unit := do
  let owner ← require descriptor.owner? .invalidDescriptor
  ensure owner.isStatic .invalidDescriptor
  let area : Extent := ⟨descriptor.ownOffset.toNat, descriptor.areaSize.toNat⟩
  let areaStop ← require area.stop? .invalidDescriptor
  let ownerStop ← require owner.extent.stop? .invalidDescriptor
  ensure (areaStop ≤ ownerStop) .invalidDescriptor

/-- This reads the region digest that the descriptor holds. -/
def expectedDigest (flash : Flash) (descriptor : Descriptor) :
    Checked (Vector UInt8 descriptor.algorithm.length) := do
  let place := descriptor.layout.hash
  let head ← Checked.ofFlash (flash.read place.offset Layout.sectionHeaderLength)
  ensure (littleEndianValue (head.toList.take 4) = magics.hash.toNat) .invalidDescriptor
  let digestStart ← Offset.add place.offset Layout.sectionHeaderLength
  Checked.ofFlash (flash.read digestStart descriptor.algorithm.length)

/-- A static region leaves out the descriptor's area if that lies in it. -/
def coveredExtents (descriptor : Descriptor) (start : Nat) (region : Region) :
    Checked (List Extent) := do
  let regionStart ← Offset.add start region.offset.toNat
  if region.extent.contains descriptor.ownOffset.toNat then
    let before ← Offset.sub descriptor.area.offset regionStart
    let areaStop ← Offset.add descriptor.area.offset descriptor.area.length
    let regionStop ← Offset.add regionStart region.size.toNat
    let after ← Offset.sub regionStop areaStop
    return [⟨regionStart, before⟩, ⟨areaStop, after⟩]
  else
    return [⟨regionStart, region.size.toNat⟩]

/-- The digest covers these ranges in the order of the table. -/
def digestExtents (descriptor : Descriptor) (start : Nat) : List Region → Checked (List Extent)
  | [] => return []
  | region :: rest => do
      let front ← if region.isStatic then descriptor.coveredExtents start region else pure []
      return front ++ (← descriptor.digestExtents start rest)

/-- Everything about the regions but the digest is checked. -/
def checkTable (flash : Flash) (descriptor : Descriptor) (span : Span) (capacity : Nat) :
    Checked (Vector UInt8 descriptor.algorithm.length × List Extent) := do
  ensure (descriptor.regions.length ≤ capacity) .invalidRegionSize
  let total ← checkPartition descriptor.imageSize.toNat span 0 descriptor.regions
  ensure (total = descriptor.imageSize.toNat) .invalidDescriptor
  descriptor.checkOwner
  let expected ← descriptor.expectedDigest flash
  let extents ← descriptor.digestExtents span.start.toNat descriptor.regions
  return (expected, extents)

/-- The table of a descriptor's regions, if it has room for them. -/
def regionTable? (descriptor : Descriptor) (capacity : Nat) : Option (RegionTable capacity) :=
  if fits : descriptor.regions.length ≤ capacity then some ⟨descriptor.regions, fits⟩ else none

/-- The regions are checked and their table is the answer. -/
def validateRegions {σ : Type} (flash : Flash) (descriptor : Descriptor) (span : Span)
    (engine : HashEngine σ) (capacity : Nat) : Run σ (RegionTable capacity) := do
  let (expected, extents) ← (descriptor.checkTable flash span capacity).run
  let actual ← (flash.digest engine descriptor.algorithm extents).adaptExcept
    fun error => .rejected error.reason
  (ensure (actual = expected) .invalidHash).run
  (require (descriptor.regionTable? capacity) .invalidRegionSize).run

end Descriptor

end SignedFirmware
