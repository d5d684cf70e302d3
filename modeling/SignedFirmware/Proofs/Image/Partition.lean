import SignedFirmware.Image.RegionTable
import SignedFirmware.Proofs.Image.Tiling
import SignedFirmware.Proofs.Steps

namespace SignedFirmware

namespace Extent

theorem contains_eq_true {extent : Extent} {offset : Nat} :
    extent.contains offset = true ↔
      extent.offset ≤ offset ∧ offset < extent.offset + extent.length := by
  simp only [contains, Bool.and_eq_true, decide_eq_true_eq]
  omega

end Extent

namespace Descriptor

/-- A region consists of whole sectors. -/
def InSectors (region : Region) : Prop :=
  region.offset.toNat % sectorSize = 0 ∧ region.size.toNat % sectorSize = 0

/-- Regions pass if they are whole sectors back to back within image and span. -/
theorem checkPartition_eq_ok {imageSize : Nat} (bounded : imageSize < Offset.limit) {span : Span}
    {total stop : Nat} (inside : total ≤ imageSize) {regions : List Region} :
    checkPartition imageSize span total regions = .ok stop ↔
      Extent.Tile total (regions.map Region.extent) stop ∧
      (∀ region ∈ regions, InSectors region) ∧ stop ≤ imageSize ∧
      ∀ region ∈ regions,
        span.start.toNat + region.offset.toNat + region.size.toNat ≤ span.stop.toNat := by
  induction regions generalizing total with
  | nil =>
      simp only [checkPartition, pure_eq_ok, List.map_nil, Extent.Tile, List.not_mem_nil,
        false_implies, implies_true, and_true, true_and]
      constructor
      · rintro rfl
        exact ⟨rfl, inside⟩
      · exact And.left
  | cons region rest ih =>
      simp only [checkPartition, bind_eq_ok, ensure_eq_ok, exists_answer, Offset.sub_eq_ok,
        Offset.add_eq_ok, List.map_cons, Extent.Tile, Region.extent, List.forall_mem_cons]
      constructor
      · intro given
        rcases given with ⟨rfl, sectors, _, ⟨-, rfl⟩, fits, ends, _, ⟨-, rfl⟩, others⟩
        obtain ⟨follows, whole, least, within⟩ := (ih (by omega)).1 others
        exact ⟨⟨rfl, follows⟩, ⟨sectors, whole⟩, least, ends, within⟩
      · intro given
        rcases given with ⟨⟨rfl, follows⟩, ⟨sectors, whole⟩, least, ends, within⟩
        have room := follows.le
        refine ⟨rfl, sectors, _, ⟨inside, rfl⟩, by omega, ends, _, ⟨by omega, rfl⟩, ?_⟩
        exact (ih (by omega)).2 ⟨follows, whole, least, within⟩

/-- The descriptor's area within the image. -/
def ownExtent (descriptor : Descriptor) : Extent :=
  ⟨descriptor.ownOffset.toNat, descriptor.areaSize.toNat⟩

/-- The owner passes if it is static and the descriptor's area ends before it. -/
theorem checkOwner_eq_ok {descriptor : Descriptor} :
    descriptor.checkOwner = .ok () ↔
      ∃ owner, descriptor.owner? = some owner ∧ owner.isStatic = true ∧
        descriptor.ownOffset.toNat + descriptor.areaSize.toNat ≤
          owner.offset.toNat + owner.size.toNat ∧
        owner.offset.toNat + owner.size.toNat < Offset.limit := by
  simp only [checkOwner, bind_eq_ok, require_eq_ok, ensure_eq_ok, exists_answer, Extent.stop?,
    Offset.add?_eq_some, Region.extent]
  constructor
  · intro given
    rcases given with ⟨owner, found, static, _, ⟨-, rfl⟩, _, ⟨fits, rfl⟩, inside⟩
    exact ⟨owner, found, static, inside, fits⟩
  · intro given
    rcases given with ⟨owner, found, static, inside, fits⟩
    exact ⟨owner, found, static, _, ⟨by omega, rfl⟩, _, ⟨fits, rfl⟩, inside⟩

/-- This says what the region table of a descriptor that passes satisfies. -/
structure Partitioned (descriptor : Descriptor) (span : Span) : Prop where
  tile : Extent.Tile 0 (descriptor.regions.map Region.extent) descriptor.imageSize.toNat
  sectors : ∀ region ∈ descriptor.regions, InSectors region
  inside : ∀ region ∈ descriptor.regions,
    span.start.toNat + region.offset.toNat + region.size.toNat ≤ span.stop.toNat
  owner : ∃ owner, descriptor.owner? = some owner ∧ owner.isStatic = true ∧
    descriptor.ownOffset.toNat + descriptor.areaSize.toNat ≤
      owner.offset.toNat + owner.size.toNat

/-- The owner is a region of the table that holds the whole area. -/
theorem Partitioned.owner_spec {descriptor : Descriptor} {owner : Region}
    (found : descriptor.owner? = some owner) :
    owner ∈ descriptor.regions ∧ owner.offset.toNat ≤ descriptor.ownOffset.toNat ∧
      descriptor.ownOffset.toNat < owner.offset.toNat + owner.size.toNat := by
  have member := List.mem_of_find?_eq_some found
  have holds := List.find?_some found
  rw [Extent.contains_eq_true] at holds
  exact ⟨member, holds⟩

/-- A table partitions the image if its regions fill it and the owner passes. -/
theorem partitioned_iff {descriptor : Descriptor} {span : Span} :
    checkPartition descriptor.imageSize.toNat span 0 descriptor.regions =
          .ok descriptor.imageSize.toNat ∧
        descriptor.checkOwner = .ok () ↔
      descriptor.Partitioned span := by
  have bounded := descriptor.imageSize.toNat_lt
  have stop := span.stop.toNat_lt
  rw [checkPartition_eq_ok bounded (Nat.zero_le _), checkOwner_eq_ok]
  constructor
  · intro given
    rcases given with ⟨⟨tile, sectors, -, inside⟩, owner, found, static, holds, -⟩
    exact ⟨tile, sectors, inside, owner, found, static, holds⟩
  · intro partitioned
    obtain ⟨owner, found, static, holds⟩ := partitioned.owner
    have within := partitioned.inside owner (Partitioned.owner_spec found).1
    exact ⟨⟨partitioned.tile, partitioned.sectors, Nat.le_refl _, partitioned.inside⟩, owner,
      found, static, holds, by simp only [Offset.limit]; omega⟩

namespace Partitioned

variable {descriptor : Descriptor} {span : Span}

/-- A region in which the descriptor starts holds all of its area. -/
theorem area_le (partitioned : descriptor.Partitioned span) {region : Region}
    (member : region ∈ descriptor.regions)
    (starts : region.extent.contains descriptor.ownOffset.toNat = true) :
    descriptor.ownOffset.toNat + descriptor.areaSize.toNat ≤
      region.offset.toNat + region.size.toNat := by
  obtain ⟨owner, found, -, inside⟩ := partitioned.owner
  obtain ⟨ownerMember, low, high⟩ := owner_spec found
  rw [Extent.contains_eq_true] at starts
  have apart := partitioned.tile.apart (List.mem_map_of_mem (f := Region.extent) member)
    (List.mem_map_of_mem ownerMember)
  simp only [Region.extent, Extent.mk.injEq] at apart starts
  omega

/-- A region in which the descriptor does not start holds nothing of its area. -/
theorem not_mem_area (partitioned : descriptor.Partitioned span) {region : Region}
    (member : region ∈ descriptor.regions)
    (starts : region.extent.contains descriptor.ownOffset.toNat = false) {offset : Nat}
    (low : region.offset.toNat ≤ offset)
    (high : offset < region.offset.toNat + region.size.toNat) :
    descriptor.ownExtent.contains offset = false := by
  obtain ⟨owner, found, -, inside⟩ := partitioned.owner
  obtain ⟨ownerMember, ownerLow, ownerHigh⟩ := owner_spec found
  rw [← Bool.not_eq_true, Extent.contains_eq_true] at starts ⊢
  have apart := partitioned.tile.apart (List.mem_map_of_mem (f := Region.extent) member)
    (List.mem_map_of_mem ownerMember)
  simp only [Region.extent, Extent.mk.injEq, ownExtent] at apart starts ⊢
  omega

end Partitioned

end Descriptor

end SignedFirmware
