import SignedFirmware.Proofs.Blueprint.Drafting

namespace SignedFirmware

namespace Extent

/-- Ranges of whole units from a whole unit on lie at whole units. -/
theorem Tile.dvd {unit start stop : Nat} {extents : List Extent} (tile : Tile start extents stop)
    (aligned : unit ∣ start) (whole : ∀ extent ∈ extents, unit ∣ extent.length) :
    ∀ extent ∈ extents, unit ∣ extent.offset := by
  induction extents generalizing start with
  | nil => simp
  | cons head rest ih =>
      obtain ⟨first, follows⟩ := tile
      obtain ⟨size, sizes⟩ := List.forall_mem_cons.1 whole
      rw [List.forall_mem_cons, first]
      exact ⟨aligned, ih follows (Nat.dvd_add aligned size) sizes⟩

/-- Every offset between the ends lies in one of the ranges. -/
theorem Tile.exists_contains {start stop offset : Nat} {extents : List Extent}
    (tile : Tile start extents stop) (low : start ≤ offset) (high : offset < stop) :
    ∃ extent ∈ extents, extent.contains offset = true := by
  induction extents generalizing start with
  | nil =>
      have ends : start = stop := tile
      omega
  | cons head rest ih =>
      obtain ⟨first, follows⟩ := tile
      by_cases inHead : offset < start + head.length
      · refine ⟨head, List.mem_cons_self, ?_⟩
        rw [contains_eq_true]
        omega
      · obtain ⟨extent, member, holds⟩ := ih follows (Nat.le_of_not_lt inHead)
        exact ⟨extent, List.mem_cons_of_mem head member, holds⟩

end Extent

namespace Attribute

theorem position_inj {left right : Attribute} :
    left.position = right.position ↔ left = right := by
  cases left <;> cases right <;> decide

/-- The bit of an attribute is set at its position only. -/
theorem testBit_bit (left right : Attribute) :
    left.bit.toNat.testBit right.position = decide (left = right) := by
  have power : left.bit.toNat = 2 ^ left.position := by cases left <;> rfl
  rw [power, Nat.testBit_two_pow]
  exact decide_eq_decide.2 position_inj

/-- An attribute word has the bits of its attributes. -/
theorem testBit_foldl (attributes : List Attribute) (word : UInt16) (flag : Attribute) :
    (attributes.foldl (fun word flag => word ||| flag.bit) word).toNat.testBit flag.position =
      (word.toNat.testBit flag.position || decide (flag ∈ attributes)) := by
  induction attributes generalizing word with
  | nil => simp
  | cons first rest ih =>
      rw [List.foldl_cons, ih, UInt16.toNat_or, Nat.testBit_or, testBit_bit, Bool.or_assoc]
      simp [eq_comm]

end Attribute

namespace RegionPlan

/-- The range of a planned region within the image. -/
def extent (plan : RegionPlan) : Extent := ⟨plan.offset.toNat, plan.size.toNat⟩

variable {plan : RegionPlan} {region : Region}

/-- A region lies where it was planned. -/
theorem extent_of_region? (planned : plan.region? = some region) :
    region.extent = plan.extent := by
  simp only [region?, Option.bind_eq_bind, Option.bind_eq_some_iff, Option.pure_def,
    Option.some.injEq] at planned
  obtain ⟨name, -, rfl⟩ := planned
  rfl

/-- A region has the attributes that were planned. -/
theorem has_of_region? (planned : plan.region? = some region) (flag : Attribute) :
    region.has flag = decide (flag ∈ plan.attributes) := by
  simp only [region?, Option.bind_eq_bind, Option.bind_eq_some_iff, Option.pure_def,
    Option.some.injEq] at planned
  obtain ⟨name, -, rfl⟩ := planned
  rw [Region.has, Attribute.testBit_foldl]
  simp

/-- Regions lie where they were planned. -/
theorem map_extent {plans : List RegionPlan} {regions : List Region}
    (planned : plans.map region? = regions.map some) :
    regions.map Region.extent = plans.map extent := by
  induction plans generalizing regions with
  | nil =>
      cases regions with
      | nil => rfl
      | cons region rest => cases planned
  | cons plan rest ih =>
      cases regions with
      | nil => cases planned
      | cons region others =>
          obtain ⟨first, follows⟩ := List.cons.inj planned
          rw [List.map_cons, List.map_cons, extent_of_region? first, ih follows]

end RegionPlan

namespace Blueprint

/-- Whole sectors fill the image, and a static region holds the descriptor's area. -/
structure Regular (blueprint : Blueprint) (areaSize imageSize : Nat) : Prop where
  tile : Extent.Tile 0 (blueprint.regions.map RegionPlan.extent) imageSize
  sectors : ∀ plan ∈ blueprint.regions, Descriptor.sectorSize ∣ plan.size.toNat
  owner : ∀ plan ∈ blueprint.regions,
    plan.extent.contains blueprint.descriptorOffset.toNat = true →
      .static ∈ plan.attributes ∧
        blueprint.descriptorOffset.toNat + areaSize ≤ plan.offset.toNat + plan.size.toNat

/-- The regions pass in every span that starts where the image does. -/
theorem Regular.partitioned {blueprint : Blueprint} {draft : Draft} {span : Span}
    (drafted : blueprint.draft = .ok draft)
    (regular : blueprint.Regular draft.descriptor.areaSize.toNat draft.descriptor.imageSize.toNat)
    (room : span.start.toNat + draft.descriptor.imageSize.toNat ≤ span.stop.toNat) :
    draft.descriptor.Partitioned span := by
  obtain ⟨consistent, own, -, planned⟩ := draft_eq_ok drafted
  have area := consistent.area
  have positive := consistent.room
  rw [consistent.offset] at area
  simp only [Scheme.blockLength] at positive
  have tile : Extent.Tile 0 (draft.descriptor.regions.map Region.extent)
      draft.descriptor.imageSize.toNat := RegionPlan.map_extent planned ▸ regular.tile
  have plan {region : Region} (member : region ∈ draft.descriptor.regions) :
      ∃ plan ∈ blueprint.regions, plan.region? = some region := by
    have mapped : some region ∈ blueprint.regions.map RegionPlan.region? :=
      planned ▸ List.mem_map_of_mem member
    simpa using mapped
  constructor
  case tile => exact tile
  case sectors =>
    have whole : ∀ extent ∈ draft.descriptor.regions.map Region.extent,
        Descriptor.sectorSize ∣ extent.length := by
      rw [RegionPlan.map_extent planned, List.forall_mem_map]
      exact regular.sectors
    intro region member
    have listed := List.mem_map_of_mem (f := Region.extent) member
    exact ⟨Nat.mod_eq_zero_of_dvd (tile.dvd (Nat.dvd_zero _) whole _ listed),
      Nat.mod_eq_zero_of_dvd (whole _ listed)⟩
  case inside =>
    intro region member
    have bounds := tile.bounds (List.mem_map_of_mem (f := Region.extent) member)
    simp only [Region.extent] at bounds
    omega
  case owner =>
    obtain ⟨extent, listed, holds⟩ :=
      tile.exists_contains (Nat.zero_le _) (show draft.descriptor.ownOffset.toNat < _ by omega)
    obtain ⟨region, member, rfl⟩ := List.mem_map.1 listed
    cases found : draft.descriptor.owner? with
    | none => exact absurd holds (List.find?_eq_none.1 found region member)
    | some owner =>
        obtain ⟨ownerMember, ownerHolds⟩ := Descriptor.Partitioned.owner_spec found
        obtain ⟨ownerPlan, listed, known⟩ := plan ownerMember
        have same := RegionPlan.extent_of_region? known
        have starts : owner.extent.contains draft.descriptor.ownOffset.toNat = true :=
          Extent.contains_eq_true.2 ownerHolds
        rw [same, own] at starts
        obtain ⟨static, holdsArea⟩ := regular.owner ownerPlan listed starts
        refine ⟨owner, rfl, ?_, ?_⟩
        · rw [Region.isStatic, RegionPlan.has_of_region? known]
          exact decide_eq_true static
        · simp only [Region.extent, RegionPlan.extent, Extent.mk.injEq] at same
          rw [own, same.1, same.2]
          exact holdsArea

end Blueprint

end SignedFirmware
