import SignedFirmware.Proofs.Image.Parsing
import SignedFirmware.Proofs.Image.Partition

namespace SignedFirmware

/-- A range without a part is what comes before and what comes after. -/
theorem filter_range' (start length : Nat) (hole : Extent) :
    (List.range' start length).filter (fun offset => !hole.contains offset) =
      List.range' start (max (min (start + length) hole.offset) start - start) ++
        List.range' (min (max start (hole.offset + hole.length)) (start + length))
          (start + length - min (max start (hole.offset + hole.length)) (start + length)) := by
  generalize first : max (min (start + length) hole.offset) start = before
  generalize second : min (max start (hole.offset + hole.length)) (start + length) = after
  have parts : List.range' start length = List.range' start (before - start) ++
      (List.range' before (after - before) ++ List.range' after (start + length - after)) := by
    have inner := @List.range'_append_1 before (after - before) (start + length - after)
    rw [show before + (after - before) = after by omega,
      show after - before + (start + length - after) = start + length - before by omega] at inner
    have outer := @List.range'_append_1 start (before - start) (start + length - before)
    rw [show start + (before - start) = before by omega,
      show before - start + (start + length - before) = length by omega] at outer
    rw [inner, outer]
  have kept {offset count : Nat} (outside : ∀ index, offset ≤ index → index < offset + count →
      index < hole.offset ∨ hole.offset + hole.length ≤ index) :
      (List.range' offset count).filter (fun offset => !hole.contains offset) =
        List.range' offset count := by
    rw [List.filter_eq_self]
    intro index member
    rw [List.mem_range'_1] at member
    have apart := outside index member.1 member.2
    rw [Bool.not_eq_true', ← Bool.not_eq_true, Extent.contains_eq_true]
    omega
  have middle : (List.range' before (after - before)).filter
      (fun offset => !hole.contains offset) = [] := by
    rw [List.filter_eq_nil_iff]
    intro index member
    rw [List.mem_range'_1] at member
    rw [Bool.not_eq_true', Bool.not_eq_false, Extent.contains_eq_true]
    omega
  rw [parts, List.filter_append, List.filter_append, middle, List.nil_append,
    kept (fun index low high => by omega), kept (fun index low high => by omega)]

namespace Descriptor

/-- The offsets of a region that the digest covers. -/
def regionOffsets (descriptor : Descriptor) (region : Region) : List Nat :=
  (List.range' region.offset.toNat region.size.toNat).filter fun offset =>
    !descriptor.ownExtent.contains offset

/-- The covered offsets within the image, in the order of the table. -/
def coveredOffsets (descriptor : Descriptor) : List Nat :=
  (descriptor.regions.filter Region.isStatic).flatMap descriptor.regionOffsets

/-- The covered bytes of an image that starts at an offset. -/
def coveredBytes (descriptor : Descriptor) (memory : Memory) (start : Nat) : Bytes :=
  descriptor.coveredOffsets.map fun offset => memory (start + offset)

/-- The digest covers static offsets outside the descriptor's area. -/
theorem mem_coveredOffsets {descriptor : Descriptor} {offset : Nat} :
    offset ∈ descriptor.coveredOffsets ↔
      descriptor.ownExtent.contains offset = false ∧
        ∃ region ∈ descriptor.regions, region.isStatic = true ∧
          region.offset.toNat ≤ offset ∧ offset < region.offset.toNat + region.size.toNat := by
  simp only [coveredOffsets, regionOffsets, List.mem_flatMap, List.mem_filter,
    List.mem_range'_1, Bool.not_eq_true']
  constructor
  · intro given
    rcases given with ⟨region, ⟨known, static⟩, range, outside⟩
    exact ⟨outside, region, known, static, range⟩
  · intro given
    rcases given with ⟨outside, region, known, static, range⟩
    exact ⟨region, ⟨known, static⟩, range, outside⟩

/-- Covered bytes are equal exactly if the memories agree at the covered offsets. -/
theorem coveredBytes_inj {descriptor : Descriptor} {left right : Memory}
    {leftStart rightStart : Nat} :
    descriptor.coveredBytes left leftStart = descriptor.coveredBytes right rightStart ↔
      ∀ offset ∈ descriptor.coveredOffsets,
        left (leftStart + offset) = right (rightStart + offset) :=
  List.map_inj_left

/-- The ranges of flash that a static region adds to the digest. -/
def coveredRanges (descriptor : Descriptor) (start : Nat) (region : Region) : List Extent :=
  let regionStart := start + region.offset.toNat
  if region.extent.contains descriptor.ownOffset.toNat then
    let areaStop := descriptor.area.offset + descriptor.area.length
    [⟨regionStart, descriptor.area.offset - regionStart⟩,
      ⟨areaStop, regionStart + region.size.toNat - areaStop⟩]
  else
    [⟨regionStart, region.size.toNat⟩]

/-- The ranges of flash that the digest covers, in the order of the table. -/
def digestRanges (descriptor : Descriptor) (start : Nat) : List Extent :=
  (descriptor.regions.filter Region.isStatic).flatMap (descriptor.coveredRanges start)

namespace Partitioned

variable {descriptor : Descriptor} {span : Span}

/-- Without its descriptor a region lies in its ranges. -/
theorem coveredExtents_eq_ok (partitioned : descriptor.Partitioned span)
    (own : span.start.toNat + descriptor.ownOffset.toNat = descriptor.offset) {region : Region}
    (member : region ∈ descriptor.regions) :
    descriptor.coveredExtents span.start.toNat region =
      .ok (descriptor.coveredRanges span.start.toNat region) := by
  have stop := span.stop.toNat_lt
  have inside := partitioned.inside region member
  unfold coveredExtents coveredRanges
  by_cases starts : region.extent.contains descriptor.ownOffset.toNat = true
  · have area := partitioned.area_le member starts
    have low := (Extent.contains_eq_true.1 starts).1
    simp only [starts, if_true, bind_eq_ok, Offset.add_eq_ok, Offset.sub_eq_ok, pure_eq_ok]
    simp only [Descriptor.area, Region.extent, Offset.limit] at low ⊢
    refine ⟨_, ⟨by omega, rfl⟩, _, ⟨by omega, rfl⟩, _, ⟨by omega, rfl⟩, _, ⟨by omega, rfl⟩, _,
      ⟨by omega, rfl⟩, rfl⟩
  · simp only [starts, Bool.false_eq_true, if_false, bind_eq_ok, Offset.add_eq_ok, pure_eq_ok,
      Offset.limit]
    exact ⟨_, ⟨by omega, rfl⟩, rfl⟩

/-- The digest is computed over its ranges. -/
theorem digestExtents_eq_ok (partitioned : descriptor.Partitioned span)
    (own : span.start.toNat + descriptor.ownOffset.toNat = descriptor.offset) :
    descriptor.digestExtents span.start.toNat descriptor.regions =
      .ok (descriptor.digestRanges span.start.toNat) := by
  have part {regions : List Region} (known : ∀ region ∈ regions, region ∈ descriptor.regions) :
      descriptor.digestExtents span.start.toNat regions =
        .ok ((regions.filter Region.isStatic).flatMap
          (descriptor.coveredRanges span.start.toNat)) := by
    induction regions with
    | nil => rfl
    | cons region rest ih =>
        obtain ⟨member, others⟩ := List.forall_mem_cons.1 known
        rw [digestExtents, ih others]
        by_cases static : region.isStatic = true
        · simp [static, partitioned.coveredExtents_eq_ok own member, bind, Except.bind, pure,
            Except.pure]
        · simp [static, bind, Except.bind, pure, Except.pure]
  exact part fun region member => member

/-- The ranges of a region hold the bytes at its covered offsets. -/
theorem bytes_coveredRanges (partitioned : descriptor.Partitioned span)
    (own : span.start.toNat + descriptor.ownOffset.toNat = descriptor.offset) {region : Region}
    (member : region ∈ descriptor.regions) (memory : Memory) :
    (descriptor.coveredRanges span.start.toNat region).flatMap memory.bytes =
      (descriptor.regionOffsets region).map fun offset => memory (span.start.toNat + offset) := by
  have shifted (offset length : Nat) :
      (List.range' offset length).map (fun offset => memory (span.start.toNat + offset)) =
        memory.bytes ⟨span.start.toNat + offset, length⟩ := by
    rw [Memory.bytes, ← List.map_add_range', List.map_map]
    rfl
  unfold coveredRanges regionOffsets
  by_cases starts : region.extent.contains descriptor.ownOffset.toNat = true
  · have area := partitioned.area_le member starts
    have low := (Extent.contains_eq_true.1 starts).1
    simp only [Region.extent] at low
    rw [filter_range', List.map_append, shifted, shifted]
    simp only [starts, if_true, List.flatMap_cons, List.flatMap_nil, List.append_nil,
      Descriptor.area, ownExtent, ← own]
    congr 3 <;> omega
  · have whole : (List.range' region.offset.toNat region.size.toNat).filter (fun offset =>
        !descriptor.ownExtent.contains offset) =
          List.range' region.offset.toNat region.size.toNat := by
      rw [List.filter_eq_self]
      intro offset inside
      rw [List.mem_range'_1] at inside
      rw [partitioned.not_mem_area member (by simpa using starts) inside.1 inside.2]
      rfl
    rw [whole, shifted]
    simp [starts]

/-- The ranges of the digest hold the covered bytes. -/
theorem bytes_digestRanges (partitioned : descriptor.Partitioned span)
    (own : span.start.toNat + descriptor.ownOffset.toNat = descriptor.offset) (memory : Memory) :
    (descriptor.digestRanges span.start.toNat).flatMap memory.bytes =
      descriptor.coveredBytes memory span.start.toNat := by
  rw [digestRanges, coveredBytes, coveredOffsets, List.flatMap_assoc, List.map_flatMap]
  have regions : ∀ region ∈ descriptor.regions.filter Region.isStatic,
      (descriptor.coveredRanges span.start.toNat region).flatMap memory.bytes =
        (descriptor.regionOffsets region).map fun offset => memory (span.start.toNat + offset) :=
    fun region member =>
      partitioned.bytes_coveredRanges own (List.mem_filter.1 member).1 memory
  rw [List.flatMap_def, List.flatMap_def, List.map_congr_left regions]

/-- The ranges of the digest lie in the span of the image. -/
theorem digestRanges_inside (partitioned : descriptor.Partitioned span)
    (own : span.start.toNat + descriptor.ownOffset.toNat = descriptor.offset) {extent : Extent}
    (member : extent ∈ descriptor.digestRanges span.start.toNat) :
    span.start.toNat ≤ extent.offset ∧ extent.offset + extent.length ≤ span.stop.toNat := by
  obtain ⟨region, chosen, part⟩ := List.mem_flatMap.1 member
  have known := (List.mem_filter.1 chosen).1
  have inside := partitioned.inside region known
  unfold coveredRanges at part
  by_cases starts : region.extent.contains descriptor.ownOffset.toNat = true
  · have area := partitioned.area_le known starts
    have low := (Extent.contains_eq_true.1 starts).1
    simp only [Region.extent] at low
    simp only [starts, if_true, List.mem_cons, List.not_mem_nil, or_false, Descriptor.area] at part
    rcases part with rfl | rfl
    · dsimp only
      omega
    · dsimp only
      omega
  · simp only [starts, Bool.false_eq_true, if_false, List.mem_cons, List.not_mem_nil,
      or_false] at part
    subst part
    dsimp only
    omega

end Partitioned

/-- The expected digest follows the header of the hash struct. -/
theorem expectedDigest_eq_ok {flash : Flash} {descriptor : Descriptor}
    {expected : Vector UInt8 descriptor.algorithm.length} :
    descriptor.expectedDigest flash = .ok expected ↔
      (∃ head, flash.read descriptor.layout.hash.offset Layout.sectionHeaderLength = .ok head ∧
        littleEndianValue (head.toList.take 4) = magics.hash.toNat) ∧
      descriptor.layout.hash.offset + Layout.sectionHeaderLength < Offset.limit ∧
      flash.read (descriptor.layout.hash.offset + Layout.sectionHeaderLength)
        descriptor.algorithm.length = .ok expected := by
  simp only [expectedDigest, bind_eq_ok, ofFlash_eq_ok, ensure_eq_ok, exists_answer,
    Offset.add_eq_ok]
  constructor
  · intro given
    rcases given with ⟨head, answer, magic, _, ⟨fits, rfl⟩, digest⟩
    exact ⟨⟨head, answer, magic⟩, fits, digest⟩
  · intro given
    rcases given with ⟨⟨head, answer, magic⟩, fits, digest⟩
    exact ⟨head, answer, magic, _, ⟨fits, rfl⟩, digest⟩

/-- A table passes if it has room, an owner and partitions the image. -/
theorem checkTable_eq_ok {flash : Flash} {descriptor : Descriptor} {span : Span} {capacity : Nat}
    (own : span.start.toNat + descriptor.ownOffset.toNat = descriptor.offset)
    {expected : Vector UInt8 descriptor.algorithm.length} {extents : List Extent} :
    descriptor.checkTable flash span capacity = .ok (expected, extents) ↔
      descriptor.regions.length ≤ capacity ∧ descriptor.Partitioned span ∧
        descriptor.expectedDigest flash = .ok expected ∧
        descriptor.digestRanges span.start.toNat = extents := by
  simp only [checkTable, bind_eq_ok, ensure_eq_ok, exists_answer, pure_eq_ok]
  constructor
  · intro given
    rcases given with ⟨room, _, partition, rfl, owned, _, digest, _, ranges, same⟩
    have partitioned : descriptor.Partitioned span := partitioned_iff.1 ⟨partition, owned⟩
    rw [partitioned.digestExtents_eq_ok own] at ranges
    obtain rfl := Except.ok.inj ranges
    obtain ⟨rfl, rfl⟩ := Prod.mk.inj same
    exact ⟨room, partitioned, digest, rfl⟩
  · intro given
    rcases given with ⟨room, partitioned, digest, rfl⟩
    obtain ⟨partition, owned⟩ := partitioned_iff.2 partitioned
    exact ⟨room, _, partition, rfl, owned, expected, digest, _,
      partitioned.digestExtents_eq_ok own, rfl⟩

end Descriptor

end SignedFirmware
