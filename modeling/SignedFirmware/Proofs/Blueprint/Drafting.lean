import Mathlib.Data.List.Forall2
import SignedFirmware.Proofs.Blueprint.Writing
import SignedFirmware.Proofs.Wire.Names

namespace SignedFirmware

@[simp] theorem demand_eq_ok {condition : Prop} [Decidable condition] {error : BuildError}
    {answer : Unit} : demand condition error = .ok answer ↔ condition := by
  unfold demand
  split <;> simp_all

@[simp] theorem expect_eq_ok {α : Type} {answer : Option α} {error : BuildError} {value : α} :
    expect answer error = .ok value ↔ answer = some value := by
  cases answer <;> simp [expect]

@[simp] theorem perform_eq_ok {σ α : Type} {step : Except BuildError α} {before after : σ}
    {value : α} : perform step before = .ok value after ↔ step = .ok value ∧ before = after := by
  unfold perform
  cases step <;> simp

@[simp] theorem demand_eq_error {condition : Prop} [Decidable condition]
    {error cause : BuildError} :
    demand condition error = .error cause ↔ ¬ condition ∧ error = cause := by
  unfold demand
  split <;> simp_all

@[simp] theorem expect_eq_error {α : Type} {answer : Option α} {error cause : BuildError} :
    expect answer error = .error cause ↔ answer = none ∧ error = cause := by
  cases answer <;> simp [expect]

@[simp] theorem perform_eq_error {σ α : Type} {step : Except BuildError α} {before after : σ}
    {error : BuildError} :
    perform step before = .error error after ↔ step = .error error ∧ before = after := by
  unfold perform
  cases step <;> simp

/-- This says what every draft satisfies. -/
structure Draft.Consistent (draft : Draft) : Prop where
  offset : draft.descriptor.offset = draft.descriptor.ownOffset.toNat
  formatMajor : draft.descriptor.formatMajor = 1
  someRegions : 0 < draft.descriptor.regions.length
  fewRegions : draft.descriptor.regions.length ≤ Descriptor.maxRegions
  algorithm : draft.descriptor.hashType.algorithm? = some draft.descriptor.algorithm
  layout : Layout.tiled draft.descriptor.offset draft.descriptor.regions.length
    draft.descriptor.algorithm draft.descriptor.denylistSize.toNat
    draft.descriptor.blobSize.toNat draft.descriptor.scheme = draft.descriptor.layout
  room : draft.descriptor.layout.signed.length + draft.descriptor.scheme.blockLength ≤
    draft.descriptor.areaSize.toNat
  area : draft.descriptor.offset + draft.descriptor.areaSize.toNat ≤
    draft.descriptor.imageSize.toNat
  denylist : draft.denylist.length = draft.descriptor.denylistSize.toNat
  blob : draft.blob.length = draft.descriptor.blobSize.toNat
  blobHeader : draft.blob = [] ∨
    ∃ records, draft.blob = Field.encodeAll [.uint32 magics.blob, .zeros 4] ++ records

/-- The attribute word of a region has the bits of the planned attributes. -/
structure Region.Describes (region : Region) (plan : RegionPlan) : Prop where
  name : region.name.Spells plan.name
  offset : region.offset = plan.offset
  size : region.size = plan.size
  version : region.version = plan.version
  attributeWord : region.attributeWord = (plan.attributes.map Attribute.bit).foldl (· ||| ·) 0

/-- The sum of the sizes of planned regions. -/
def RegionPlan.totalSize : List RegionPlan → Nat
  | [] => 0
  | plan :: rest => plan.size.toNat + totalSize rest

/-- The descriptor is the one that the blueprint asks for. -/
structure Descriptor.Describes (descriptor : Descriptor) (blueprint : Blueprint) : Prop where
  offset : descriptor.offset = blueprint.descriptorOffset.toNat
  ownOffset : descriptor.ownOffset = blueprint.descriptorOffset
  name : descriptor.name.Spells blueprint.name
  family : descriptor.family = blueprint.family
  version : descriptor.version = blueprint.version
  buildTimestamp : descriptor.buildTimestamp = blueprint.buildTimestamp
  imageType : descriptor.imageType = blueprint.imageType
  hashType : descriptor.hashType = blueprint.hashType
  scheme : descriptor.scheme = blueprint.scheme
  denylistSize : descriptor.denylistSize.toNat = blueprint.denylist.length
  imageSize : descriptor.imageSize.toNat = (blueprint.imageSize.map UInt32.toNat).getD
    (RegionPlan.totalSize blueprint.regions)
  areaSize : descriptor.areaSize.toNat = (blueprint.areaSize.map UInt32.toNat).getD
    (descriptor.layout.signed.length + descriptor.layout.signature.length)
  regions : List.Forall₂ Region.Describes descriptor.regions blueprint.regions

theorem RegionPlan.region?_describes {plan : RegionPlan} {region : Region}
    (planned : plan.region? = some region) : region.Describes plan := by
  obtain ⟨name, named, same⟩ := Option.bind_eq_some_iff.1 planned
  obtain rfl := Option.some.inj same
  exact ⟨Name.spells_of_ofText? named, rfl, rfl, rfl, by rw [List.foldl_map]⟩

namespace Blueprint

/-- The table holds the planned regions and the sum of their sizes. -/
theorem regionTable_eq_ok {plans : List RegionPlan} {sum total : Nat} {regions : List Region}
    (bounded : sum < Offset.limit) (result : regionTable sum plans = .ok (regions, total)) :
    plans.map RegionPlan.region? = regions.map some ∧ total < Offset.limit ∧
      total = sum + RegionPlan.totalSize plans ∧
      List.Forall₂ Region.Describes regions plans := by
  induction plans generalizing sum regions with
  | nil =>
      rw [regionTable, pure_eq_ok] at result
      obtain ⟨rfl, rfl⟩ := Prod.mk.inj result
      exact ⟨rfl, bounded, rfl, .nil⟩
  | cons plan rest ih =>
      simp only [regionTable, bind_eq_ok, expect_eq_ok, Offset.add?_eq_some, Prod.exists,
        pure_eq_ok, Prod.mk.injEq] at result
      obtain ⟨region, planned, _, ⟨fits, rfl⟩, others, _, follows, rfl, rfl⟩ := result
      obtain ⟨same, less, total, described⟩ := ih fits follows
      refine ⟨by rw [List.map_cons, List.map_cons, planned, same], less, ?_,
        .cons (RegionPlan.region?_describes planned) described⟩
      rw [total, RegionPlan.totalSize, Nat.add_assoc]

/-- A blob that is not empty starts with its header. -/
theorem blob_eq_ok {blueprint : Blueprint} {blob : Bytes} (result : blueprint.blob = .ok blob) :
    blob = [] ∨ ∃ records, blob = Field.encodeAll [.uint32 magics.blob, .zeros 4] ++ records := by
  simp only [Blueprint.blob, bind_eq_ok] at result
  obtain ⟨records, -, result⟩ := result
  split at result
  next =>
    rw [pure_eq_ok] at result
    exact .inl result.symm
  next =>
    rw [bind_eq_ok] at result
    obtain ⟨encoded, -, result⟩ := result
    rw [pure_eq_ok] at result
    exact .inr ⟨encoded, result.symm⟩

/-- A draft is consistent, and its descriptor is the one that is asked for. -/
theorem draft_describes {blueprint : Blueprint} {draft : Draft}
    (result : blueprint.draft = .ok draft) :
    draft.Consistent ∧ draft.descriptor.Describes blueprint ∧
      draft.denylist = blueprint.denylist ∧
      blueprint.regions.map RegionPlan.region? = draft.descriptor.regions.map some := by
  simp only [Blueprint.draft, bind_eq_ok, demand_eq_ok, expect_eq_ok, exists_answer, Prod.exists,
    pure_eq_ok, Layout.place?_eq_some] at result
  obtain ⟨⟨someRegions, fewRegions⟩, algorithm, known, fewEntries, regions, sum, table, blob,
    blobbed, shortBlob, layout, ⟨fits, tiled⟩, ⟨room, area⟩, name, named, rfl⟩ := result
  obtain ⟨planned, bounded, total, described⟩ := regionTable_eq_ok (by decide) table
  rw [Nat.zero_add] at total
  have count : regions.length = blueprint.regions.length := described.length_eq
  have imageFits : (blueprint.imageSize.map UInt32.toNat).getD sum < 2 ^ 32 := by
    cases blueprint.imageSize with
    | none => exact bounded
    | some size => exact size.toNat_lt
  have imageSame := UInt32.toNat_ofNat_of_lt' imageFits
  have areaSame := UInt32.toNat_ofNat_of_lt'
    (show (blueprint.areaSize.map UInt32.toNat).getD
      (layout.signed.length + layout.signature.length) < UInt32.size by
        simp only [UInt32.size]
        omega)
  have entriesSame := UInt8.toNat_ofNat_of_lt' fewEntries
  have blobSame := UInt32.toNat_ofNat_of_lt' shortBlob
  have used : Option.getD blueprint.hashType.algorithm? .sha256 = algorithm := by
    rw [known]
    rfl
  have block : layout.signature.length = blueprint.scheme.blockLength := by
    rw [← tiled]
    rfl
  refine ⟨?_, ?_, rfl, planned⟩
  · constructor
    case offset => rfl
    case formatMajor => rfl
    case someRegions =>
      rw [count]
      exact someRegions
    case fewRegions =>
      rw [count]
      exact fewRegions
    case algorithm =>
      rw [Descriptor.algorithm, used]
      exact known
    case layout =>
      rw [Descriptor.algorithm, used, entriesSame, blobSame]
      exact tiled
    case room =>
      rw [areaSame, ← block]
      exact room
    case area =>
      rw [areaSame, imageSame]
      exact area
    case denylist => exact entriesSame.symm
    case blob => exact blobSame.symm
    case blobHeader => exact blob_eq_ok blobbed
  · constructor
    case name => exact Name.spells_of_ofText? named
    case denylistSize => exact entriesSame
    case imageSize => exact imageSame.trans (total ▸ rfl)
    case areaSize => exact areaSame
    case regions => exact described
    all_goals rfl

/-- A blob holds the records of the blueprint back to back after a header. -/
theorem draft_blob {blueprint : Blueprint} {draft : Draft} (result : blueprint.draft = .ok draft) :
    ∃ records, blueprint.blobRecords = .ok records ∧
      ((records = [] ∧ draft.blob = []) ∨ ∃ encoded, encodeRecords records = .ok encoded ∧
        draft.blob = Field.encodeAll [.uint32 magics.blob, .zeros 4] ++ encoded) := by
  simp only [Blueprint.draft, bind_eq_ok, demand_eq_ok, expect_eq_ok, exists_answer, Prod.exists,
    pure_eq_ok] at result
  obtain ⟨-, _, -, -, _, _, -, blob, blobbed, -, _, -, -, _, -, rfl⟩ := result
  simp only [Blueprint.blob, bind_eq_ok] at blobbed
  obtain ⟨records, listed, blobbed⟩ := blobbed
  refine ⟨records, listed, ?_⟩
  split at blobbed
  next => exact .inl ⟨rfl, (pure_eq_ok.1 blobbed).symm⟩
  next =>
    obtain ⟨encoded, back, blobbed⟩ := bind_eq_ok.1 blobbed
    exact .inr ⟨encoded, back, (pure_eq_ok.1 blobbed).symm⟩

/-- A draft is consistent, with the place and the regions that are planned. -/
theorem draft_eq_ok {blueprint : Blueprint} {draft : Draft}
    (result : blueprint.draft = .ok draft) :
    draft.Consistent ∧ draft.descriptor.ownOffset = blueprint.descriptorOffset ∧
      draft.descriptor.scheme = blueprint.scheme ∧
      blueprint.regions.map RegionPlan.region? = draft.descriptor.regions.map some := by
  obtain ⟨consistent, describes, -, planned⟩ := draft_describes result
  exact ⟨consistent, describes.ownOffset, describes.scheme, planned⟩

end Blueprint

end SignedFirmware
