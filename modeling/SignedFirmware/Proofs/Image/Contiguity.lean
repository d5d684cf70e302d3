import SignedFirmware.Proofs.Blueprint.Bounds

namespace SignedFirmware

namespace Layout

/-- The length of all sections of a descriptor, added up in their order. -/
def sumLength (regionCount : Nat) (algorithm : Algorithm) (denylistSize blobSize : Nat)
    (scheme : Scheme) : Nat :=
  96 + 44 * regionCount + (8 + algorithm.length) +
    (if 0 < denylistSize then 8 + 16 * denylistSize else 0) + blobSize +
    (8 + 2 * scheme.signatureLength)

/-- The sections lie back to back from `base` and end at an offset. -/
structure Contiguous (layout : Layout) (base regionCount : Nat) (algorithm : Algorithm)
    (denylistSize blobSize : Nat) (scheme : Scheme) : Prop where
  hash : layout.hash = ⟨base + 96 + 44 * regionCount, 8 + algorithm.length⟩
  denylist : layout.denylist.map Extent.length =
    if 0 < denylistSize then some (8 + 16 * denylistSize) else none
  blob : layout.blob.map Extent.length = if 0 < blobSize then some blobSize else none
  signature : layout.signature.length = 8 + 2 * scheme.signatureLength
  tile : Extent.Tile base (layout.sections regionCount)
    (layout.signature.offset + layout.signature.length)
  signed : layout.signed = ⟨base, layout.signature.offset - base⟩
  stop : layout.signature.offset + layout.signature.length =
    base + sumLength regionCount algorithm denylistSize blobSize scheme
  total : layout.totalLength = .ok (sumLength regionCount algorithm denylistSize blobSize scheme)
  stops : ∀ extent ∈ layout.signed :: layout.sections regionCount,
    extent.stop? = some (extent.offset + extent.length)

variable {base regionCount denylistSize blobSize : Nat} {algorithm : Algorithm} {scheme : Scheme}
  {layout : Layout}

/-- The signature block comes after all that is signed. -/
theorem sumLength_eq :
    sumLength regionCount algorithm denylistSize blobSize scheme =
      signedLength regionCount algorithm denylistSize blobSize + scheme.blockLength := by
  unfold sumLength signedLength denylistLength Scheme.blockLength
  simp only [headerLength, Region.entryLength, sectionHeaderLength, denylistRecordLength]
  split <;> split <;> omega

/-- Sections that are placed lie back to back. -/
theorem contiguous_of_place?
    (placed : place? base regionCount algorithm denylistSize blobSize scheme = some layout) :
    layout.Contiguous base regionCount algorithm denylistSize blobSize scheme := by
  obtain ⟨fits, rfl⟩ := place?_eq_some.1 placed
  have block := signature_tiled base regionCount algorithm denylistSize blobSize scheme
  have tile := tile_sections base regionCount algorithm denylistSize blobSize scheme
  have stop : base + signedLength regionCount algorithm denylistSize blobSize +
      scheme.blockLength = base + sumLength regionCount algorithm denylistSize blobSize scheme := by
    rw [sumLength_eq, Nat.add_assoc]
  constructor
  case hash => rfl
  case denylist =>
    rcases Nat.eq_zero_or_pos denylistSize with rfl | present
    · rfl
    · rw [tiled, if_neg (Nat.ne_of_gt present), if_pos present]
      rfl
  case blob =>
    rcases Nat.eq_zero_or_pos blobSize with rfl | present
    · rfl
    · rw [tiled, if_neg (Nat.ne_of_gt present), if_pos present]
      rfl
  case signature => rfl
  case tile => rwa [block]
  case signed =>
    rw [block, Nat.add_sub_cancel_left]
    rfl
  case stop => rw [block, stop]
  case total =>
    rw [sumLength_eq]
    exact Offset.add_of_lt (by simp only [tiled]; omega)
  case stops =>
    rw [List.forall_mem_cons]
    constructor
    · exact Offset.add?_eq_some.2 ⟨by simp only [tiled]; omega, rfl⟩
    · intro extent member
      have inside := tile.bounds member
      exact Offset.add?_eq_some.2 ⟨by omega, rfl⟩

/-- Sections are placed exactly if they end at an offset, and no sum wraps. -/
theorem place?_contiguous (base : UInt32) (regionCount : UInt8) (algorithm : Algorithm)
    (denylistSize : UInt8) (blobSize : UInt32) (scheme : Scheme) :
    let placed := place? base.toNat regionCount.toNat algorithm denylistSize.toNat blobSize.toNat
      scheme
    let total := sumLength regionCount.toNat algorithm denylistSize.toNat blobSize.toNat scheme
    (placed = none ↔ 0xffffffff < base.toNat + total) ∧
      (∀ layout, placed = some layout → layout.Contiguous base.toNat regionCount.toNat algorithm
        denylistSize.toNat blobSize.toNat scheme) ∧
      guardedPlace base.toNat regionCount.toNat algorithm denylistSize.toNat blobSize.toNat
        scheme ≠ .error .crashed := by
  intro placed total
  refine ⟨?_, fun layout => contiguous_of_place?, ?_⟩
  · rw [place?_eq_none, Nat.add_assoc, ← sumLength_eq]
    exact Nat.lt_iff_add_one_le.symm
  · rw [guardedPlace_eq denylistSize.toNat_lt]
    exact Guarded.lift_ne_crashed

/-- A descriptor with one region and no optional section has 700 bytes. -/
example : (place? (0xffffffff - 700) 1 .sha256 0 0 .rsa2048).isSome ∧
    place? (0xffffffff - 699) 1 .sha256 0 0 .rsa2048 = none := by decide

end Layout

end SignedFirmware
