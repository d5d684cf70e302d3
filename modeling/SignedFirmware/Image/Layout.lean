import SignedFirmware.Image.Region

namespace SignedFirmware

/-- The signed range is all that comes before the signature block. -/
structure Layout where
  hash : Extent
  denylist : Option Extent
  blob : Option Extent
  signature : Extent
  signed : Extent
  deriving DecidableEq, Repr

namespace Layout

def headerLength : Nat := 96

/-- The hash struct, the denylist and the blob have headers of this length. -/
def sectionHeaderLength : Nat := 8

def denylistRecordLength : Nat := 16

/-- An absent section ends where it starts. -/
def after? (cursor : Nat) : Option Extent → Option Nat
  | none => some cursor
  | some extent => extent.stop?

/-- The sections are placed at `base` unless one would end after the last offset. -/
def place? (base regionCount : Nat) (algorithm : Algorithm) (denylistSize blobSize : Nat)
    (scheme : Scheme) : Option Layout := do
  let tableStart ← Offset.add? base headerLength
  let tableStop ← Offset.add? tableStart (Region.entryLength * regionCount)
  let hash : Extent := ⟨tableStop, sectionHeaderLength + algorithm.length⟩
  let hashStop ← hash.stop?
  let denylist : Option Extent :=
    if denylistSize = 0 then none
    else some ⟨hashStop, sectionHeaderLength + denylistRecordLength * denylistSize⟩
  let denylistStop ← after? hashStop denylist
  let blob : Option Extent := if blobSize = 0 then none else some ⟨denylistStop, blobSize⟩
  let blobStop ← after? denylistStop blob
  let signature : Extent := ⟨blobStop, scheme.blockLength⟩
  let _ ← signature.stop?
  return ⟨hash, denylist, blob, signature, ⟨base, blobStop - base⟩⟩

/-- The length of a descriptor through the signature block. -/
def totalLength (layout : Layout) : Checked Nat :=
  Offset.add layout.signed.length layout.signature.length

end Layout

end SignedFirmware
