import SignedFirmware.Image.Descriptor

namespace SignedFirmware

/-- A signature block has room for its word. -/
theorem Scheme.le_blockLength (scheme : Scheme) : 4 ≤ scheme.blockLength := by
  rw [blockLength]
  omega

/-- A range lies in another one. -/
def Extent.Within (inner outer : Extent) : Prop :=
  outer.offset ≤ inner.offset ∧ inner.offset + inner.length ≤ outer.offset + outer.length

theorem Extent.Within.trans {inner middle outer : Extent} (first : inner.Within middle)
    (second : middle.Within outer) : inner.Within outer :=
  ⟨Nat.le_trans second.1 first.1, Nat.le_trans first.2 second.2⟩

/-- Ranges lie back to back from one offset to another. -/
def Extent.Tile : Nat → List Extent → Nat → Prop
  | start, [], stop => start = stop
  | start, extent :: rest, stop =>
      extent.offset = start ∧ Extent.Tile (start + extent.length) rest stop

namespace Extent

/-- Ranges that lie back to back end after they start. -/
theorem Tile.le {start stop : Nat} {extents : List Extent} (tile : Tile start extents stop) :
    start ≤ stop := by
  induction extents generalizing start with
  | nil => exact Nat.le_of_eq tile
  | cons extent rest ih =>
      have tail := ih tile.2
      omega

/-- Each of the ranges lies between the ends. -/
theorem Tile.bounds {start stop : Nat} {extents : List Extent} (tile : Tile start extents stop)
    {extent : Extent} (member : extent ∈ extents) :
    start ≤ extent.offset ∧ extent.offset + extent.length ≤ stop := by
  induction extents generalizing start with
  | nil => cases member
  | cons head rest ih =>
      obtain ⟨first, follows⟩ := tile
      rcases List.mem_cons.1 member with rfl | later
      · have tail := follows.le
        omega
      · have tail := ih follows later
        omega

/-- Of two different ranges one ends before the other starts. -/
theorem Tile.apart {start stop : Nat} {extents : List Extent} (tile : Tile start extents stop)
    {left right : Extent} (leftMember : left ∈ extents) (rightMember : right ∈ extents) :
    left = right ∨ left.offset + left.length ≤ right.offset ∨
      right.offset + right.length ≤ left.offset := by
  induction extents generalizing start with
  | nil => cases leftMember
  | cons head rest ih =>
      obtain ⟨first, follows⟩ := tile
      rcases List.mem_cons.1 leftMember with rfl | leftLater
      · rcases List.mem_cons.1 rightMember with rfl | rightLater
        · exact .inl rfl
        · have after := follows.bounds rightLater
          omega
      · rcases List.mem_cons.1 rightMember with rfl | rightLater
        · have after := follows.bounds leftLater
          omega
        · exact ih follows leftLater rightLater

end Extent

namespace Layout

/-- A denylist without records is absent. -/
def denylistLength (denylistSize : Nat) : Nat :=
  if denylistSize = 0 then 0 else sectionHeaderLength + denylistRecordLength * denylistSize

/-- The length of all that comes before the signature block. -/
def signedLength (regionCount : Nat) (algorithm : Algorithm) (denylistSize blobSize : Nat) : Nat :=
  headerLength + Region.entryLength * regionCount + (sectionHeaderLength + algorithm.length) +
    denylistLength denylistSize + blobSize

/-- The sections follow one another from `base` on, by unbounded numbers. -/
def tiled (base regionCount : Nat) (algorithm : Algorithm) (denylistSize blobSize : Nat)
    (scheme : Scheme) : Layout :=
  let hashStart := base + headerLength + Region.entryLength * regionCount
  let hashStop := hashStart + (sectionHeaderLength + algorithm.length)
  let blobStart := hashStop + denylistLength denylistSize
  { hash := ⟨hashStart, sectionHeaderLength + algorithm.length⟩
    denylist :=
      if denylistSize = 0 then none
      else some ⟨hashStop, sectionHeaderLength + denylistRecordLength * denylistSize⟩
    blob := if blobSize = 0 then none else some ⟨blobStart, blobSize⟩
    signature := ⟨blobStart + blobSize, scheme.blockLength⟩
    signed := ⟨base, signedLength regionCount algorithm denylistSize blobSize⟩ }

variable {base regionCount denylistSize blobSize : Nat} {algorithm : Algorithm} {scheme : Scheme}
  {layout : Layout}

/-- A section that may be absent ends where it starts or after its length. -/
theorem after?_eq_some {cursor size length next : Nat} :
    after? cursor (if size = 0 then none else some ⟨cursor, length⟩) = some next ↔
      (size ≠ 0 → cursor + length < Offset.limit) ∧
        cursor + (if size = 0 then 0 else length) = next := by
  by_cases absent : size = 0
  · simp [absent, after?]
  · simp [absent, after?, Extent.stop?, Offset.add?_eq_some]

/-- The sections are placed back to back if they end at an offset. -/
theorem place?_eq_some :
    place? base regionCount algorithm denylistSize blobSize scheme = some layout ↔
      base + signedLength regionCount algorithm denylistSize blobSize + scheme.blockLength <
          Offset.limit ∧
        tiled base regionCount algorithm denylistSize blobSize scheme = layout := by
  have denylist : (if denylistSize = 0 then 0 else
      sectionHeaderLength + denylistRecordLength * denylistSize) =
      denylistLength denylistSize := rfl
  have blob : (if blobSize = 0 then 0 else blobSize) = blobSize := by split <;> omega
  have signed : base + headerLength + Region.entryLength * regionCount +
      (sectionHeaderLength + algorithm.length) + denylistLength denylistSize + blobSize - base =
      signedLength regionCount algorithm denylistSize blobSize := by
    unfold signedLength
    omega
  simp only [place?, Option.bind_eq_bind, Option.bind_eq_some_iff, Offset.add?_eq_some,
    Extent.stop?, after?_eq_some, Option.pure_def, Option.some.injEq, denylist, blob]
  constructor
  · intro given
    rcases given with ⟨_, ⟨-, rfl⟩, _, ⟨-, rfl⟩, _, ⟨-, rfl⟩, _, ⟨-, rfl⟩, _, ⟨-, rfl⟩, _,
      ⟨fits, rfl⟩, rfl⟩
    constructor
    · unfold signedLength
      omega
    · rw [tiled, signed]
  · intro given
    rcases given with ⟨fits, rfl⟩
    unfold signedLength at fits
    have present (nonempty : denylistSize ≠ 0) :
        sectionHeaderLength + denylistRecordLength * denylistSize =
          denylistLength denylistSize := by
      simp [denylistLength, nonempty]
    refine ⟨_, ⟨by omega, rfl⟩, _, ⟨by omega, rfl⟩, _, ⟨by omega, rfl⟩, _, ⟨?_, rfl⟩, _,
      ⟨by omega, rfl⟩, _, ⟨by omega, rfl⟩, ?_⟩
    · intro nonempty
      rw [present nonempty]
      omega
    · rw [tiled, signed]

/-- The sections are not placed if the last one ends after the last offset. -/
theorem place?_eq_none :
    place? base regionCount algorithm denylistSize blobSize scheme = none ↔
      Offset.limit ≤
        base + signedLength regionCount algorithm denylistSize blobSize + scheme.blockLength := by
  rw [← Nat.not_lt]
  constructor
  · intro absent fits
    cases absent.symm.trans (place?_eq_some.2 ⟨fits, rfl⟩)
  · intro large
    rw [Option.eq_none_iff_forall_ne_some]
    intro layout placed
    exact large (place?_eq_some.1 placed).1

/-- The header and the region table come before the hash struct. -/
def sections (layout : Layout) (regionCount : Nat) : List Extent :=
  [⟨layout.signed.offset, headerLength⟩,
    ⟨layout.signed.offset + headerLength, Region.entryLength * regionCount⟩, layout.hash] ++
  layout.denylist.toList ++ layout.blob.toList ++ [layout.signature]

/-- The sections lie back to back through the signature block. -/
theorem tile_sections (base regionCount : Nat) (algorithm : Algorithm)
    (denylistSize blobSize : Nat) (scheme : Scheme) :
    Extent.Tile base
      ((tiled base regionCount algorithm denylistSize blobSize scheme).sections regionCount)
      (base + signedLength regionCount algorithm denylistSize blobSize + scheme.blockLength) := by
  by_cases noDenylist : denylistSize = 0 <;> by_cases noBlob : blobSize = 0 <;>
    simp [tiled, sections, signedLength, denylistLength, Extent.Tile, noDenylist, noBlob,
      Nat.add_assoc]

/-- The signature block comes right after the signed range. -/
theorem signature_tiled (base regionCount : Nat) (algorithm : Algorithm)
    (denylistSize blobSize : Nat) (scheme : Scheme) :
    (tiled base regionCount algorithm denylistSize blobSize scheme).signature =
      ⟨base + signedLength regionCount algorithm denylistSize blobSize, scheme.blockLength⟩ := by
  simp only [tiled, signedLength, Extent.mk.injEq, and_true]
  omega

/-- A denylist lies in the signed range and has room for its header. -/
theorem denylist_tiled {extent : Extent}
    (present : extent ∈
      (tiled base regionCount algorithm denylistSize blobSize scheme).denylist) :
    base ≤ extent.offset ∧ sectionHeaderLength ≤ extent.length ∧ extent.offset + extent.length ≤
      base + signedLength regionCount algorithm denylistSize blobSize := by
  by_cases absent : denylistSize = 0
  · simp [tiled, absent] at present
  · simp only [tiled, absent, if_false, Option.mem_def, Option.some.injEq] at present
    subst present
    simp only [signedLength, denylistLength, absent, if_false]
    omega

/-- A blob lies in the signed range. -/
theorem blob_tiled {extent : Extent}
    (present : extent ∈ (tiled base regionCount algorithm denylistSize blobSize scheme).blob) :
    base ≤ extent.offset ∧ extent.offset + extent.length ≤
      base + signedLength regionCount algorithm denylistSize blobSize := by
  by_cases absent : blobSize = 0
  · simp [tiled, absent] at present
  · simp only [tiled, absent, if_false, Option.mem_def, Option.some.injEq] at present
    subst present
    simp only [signedLength]
    omega

end Layout

end SignedFirmware
