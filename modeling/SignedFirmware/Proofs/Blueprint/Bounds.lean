import SignedFirmware.Proofs.Blueprint.Buildability
import SignedFirmware.Proofs.Completeness

/-! A guarded build crashes where an index, a capacity or a sum would leave its bounds. -/

namespace SignedFirmware

/-- This says how a guarded build ends without an image. -/
inductive Fault where
  | failed (error : BuildError)
  | crashed
  deriving DecidableEq, Repr

/-- A step of a guarded build that needs no device. -/
abbrev Guarded (α : Type) := Except Fault α

namespace Guarded

variable {α β σ : Type}

/-- A step that has no bounds. -/
def lift (step : Except BuildError α) : Guarded α := step.mapError Fault.failed

/-- This crashes unless a bound holds. -/
def bound (holds : Prop) [Decidable holds] : Guarded Unit :=
  if holds then .ok () else .error .crashed

/-- A guarded step that needs no device runs among steps that do. -/
def run (step : Guarded α) : EStateM Fault σ α := fun state =>
  match step with
  | .ok value => .ok value state
  | .error fault => .error fault state

def add (left right : Nat) : Guarded Nat := do
  bound (left + right < Offset.limit)
  return left + right

def slice (bytes : Bytes) (start stop : Nat) : Guarded Bytes := do
  bound (start ≤ stop ∧ stop ≤ bytes.length)
  return SignedFirmware.slice bytes start stop

/-- This puts a patch into a byte string. -/
def splice (base : Bytes) (offset : Nat) (patch : Bytes) : Guarded Bytes := do
  bound (offset + patch.length ≤ base.length)
  return SignedFirmware.splice base offset patch

theorem bound_bind {holds : Prop} [Decidable holds] {next : Unit → Guarded α} (inside : holds) :
    (bound holds >>= next) = next () := by
  rw [bound, if_pos inside]
  rfl

theorem add_eq {left right : Nat} (inside : left + right < Offset.limit) :
    add left right = .ok (left + right) := bound_bind inside

theorem slice_eq {bytes : Bytes} {start stop : Nat} (ordered : start ≤ stop)
    (inside : stop ≤ bytes.length) :
    slice bytes start stop = .ok (SignedFirmware.slice bytes start stop) :=
  bound_bind ⟨ordered, inside⟩

theorem splice_eq {base patch : Bytes} {offset : Nat}
    (inside : offset + patch.length ≤ base.length) :
    splice base offset patch = .ok (SignedFirmware.splice base offset patch) := bound_bind inside

/-- A step that stays in its bounds is passed. -/
theorem bind_of_ok {step : Guarded α} {value : α} {next : α → Guarded β}
    (inside : step = .ok value) : (step >>= next) = next value := by
  rw [inside]
  rfl

/-- Slices that stay in their bounds are taken one after the other. -/
theorem mapM_slice {bytes : Bytes} {ranges : List (Nat × Nat)}
    (inside : ∀ range ∈ ranges, range.1 ≤ range.2 ∧ range.2 ≤ bytes.length) :
    (ranges.mapM fun range => slice bytes range.1 range.2) =
      .ok (ranges.map fun range => SignedFirmware.slice bytes range.1 range.2) := by
  induction ranges with
  | nil => rfl
  | cons range rest ih =>
      obtain ⟨⟨ordered, bounded⟩, others⟩ := List.forall_mem_cons.1 inside
      rw [List.mapM_cons, bind_of_ok (slice_eq ordered bounded), bind_of_ok (ih others)]
      rfl

/-- A step that has no bounds does not crash. -/
theorem lift_ne_crashed {step : Except BuildError α} : lift step ≠ .error .crashed := by
  cases step <;> exact nofun

/-- A sequence without bounds is lifted part by part. -/
theorem lift_bind {step : Except BuildError α} {next : α → Except BuildError β} :
    lift (step >>= next) = lift step >>= fun value => lift (next value) := by
  cases step <;> rfl

/-- What follows a step only has to be guarded where the step succeeds. -/
theorem lift_step {step : Except BuildError α} {rehearsal : α → Guarded β}
    {next : α → Except BuildError β} {whole : Except BuildError β} (split : whole = step >>= next)
    (same : ∀ value, step = .ok value → whole = next value → rehearsal value = lift whole) :
    (lift step >>= rehearsal) = lift whole := by
  cases result : step with
  | ok value => exact same value result (by rw [split, result]; rfl)
  | error error =>
      rw [split, result]
      rfl

/-- A step that has no bounds is run as it is. -/
theorem run_lift {step : Except BuildError α} :
    (lift step).run = EStateM.adaptExcept Fault.failed (perform step : EStateM _ σ α) := by
  cases step <;> rfl

/-- A step that stays in its bounds is passed. -/
theorem run_bind {step : Guarded α} {value : α} {next : α → EStateM Fault σ β}
    (inside : step = .ok value) : ((step.run : EStateM Fault σ α) >>= next) = next value := by
  rw [inside]
  rfl

end Guarded

namespace Layout

/-- Some section lengths are computed here without asking whether they fit. -/
def guardedPlace (base regionCount : Nat) (algorithm : Algorithm) (denylistSize blobSize : Nat)
    (scheme : Scheme) : Guarded Layout := do
  let _ ← Guarded.add sectionHeaderLength algorithm.length
  let _ ← Guarded.add sectionHeaderLength (denylistRecordLength * denylistSize)
  let layout ← .lift (expect (place? base regionCount algorithm denylistSize blobSize scheme)
    .outOfRange)
  .bound (base ≤ layout.signature.offset)
  let _ ← Guarded.add layout.signed.length layout.signature.length
  return layout

/-- Sections are placed within bounds if the denylist can be counted in a byte. -/
theorem guardedPlace_eq {base regionCount denylistSize blobSize : Nat} {algorithm : Algorithm}
    {scheme : Scheme} (few : denylistSize < 256) :
    guardedPlace base regionCount algorithm denylistSize blobSize scheme =
      .lift (expect (place? base regionCount algorithm denylistSize blobSize scheme)
        .outOfRange) := by
  have hash : sectionHeaderLength + algorithm.length < Offset.limit := by
    cases algorithm <;> decide
  have denylist : sectionHeaderLength + denylistRecordLength * denylistSize < Offset.limit := by
    simp only [sectionHeaderLength, denylistRecordLength, Offset.limit]
    omega
  rw [guardedPlace, Guarded.bind_of_ok (Guarded.add_eq hash),
    Guarded.bind_of_ok (Guarded.add_eq denylist)]
  apply Guarded.lift_step (bind_pure _).symm
  intro layout placed same
  rw [expect_eq_ok, place?_eq_some] at placed
  obtain ⟨fits, rfl⟩ := placed
  rw [Guarded.bound_bind (by simp only [tiled]; omega),
    Guarded.bind_of_ok (Guarded.add_eq (by simp only [tiled]; omega)), same]
  rfl

end Layout

namespace Blueprint

/-- The table already holds `count` regions. -/
def guardedTable (count sum : Nat) : List RegionPlan → Guarded (List Region × Nat)
  | [] => return ([], sum)
  | plan :: rest => do
      let region ← .lift (expect plan.region? .nameTooLong)
      .bound (count < Descriptor.maxRegions)
      let next ← .lift (expect (Offset.add? sum plan.size.toNat) .outOfRange)
      let (regions, total) ← guardedTable (count + 1) next rest
      return (region :: regions, total)

/-- The table has room for all planned regions. -/
theorem guardedTable_eq {plans : List RegionPlan} {count sum : Nat}
    (room : count + plans.length ≤ Descriptor.maxRegions) :
    guardedTable count sum plans = .lift (regionTable sum plans) := by
  induction plans generalizing count sum with
  | nil => rfl
  | cons plan rest ih =>
      rw [List.length_cons] at room
      rw [guardedTable]
      apply Guarded.lift_step rfl
      intro region _ split
      rw [Guarded.bound_bind (by omega)]
      apply Guarded.lift_step split
      intro next _ split
      rw [ih (by omega), split, Guarded.lift_bind]
      rfl

/-- What has bounds comes before the rest. -/
def guardedDraft (blueprint : Blueprint) : Guarded Draft := do
  .lift (demand (0 < blueprint.regions.length ∧ blueprint.regions.length ≤ Descriptor.maxRegions)
    .badRegionCount)
  let algorithm ← .lift (expect blueprint.hashType.algorithm? .unsupportedHash)
  .lift (demand (blueprint.denylist.length < 256) .outOfRange)
  let (regions, _) ← guardedTable 0 0 blueprint.regions
  let blob ← .lift blueprint.blob
  .lift (demand (blob.length < Offset.limit) .outOfRange)
  let _ ← Layout.guardedPlace blueprint.descriptorOffset.toNat regions.length algorithm
    blueprint.denylist.length blob.length blueprint.scheme
  -- Nothing after the layout has bounds, and what comes before gives the same values again.
  .lift blueprint.draft

/-- A draft is worked out within bounds. -/
theorem guardedDraft_eq (blueprint : Blueprint) :
    blueprint.guardedDraft = .lift blueprint.draft := by
  unfold guardedDraft
  apply Guarded.lift_step rfl
  intro _ count split
  apply Guarded.lift_step split
  intro algorithm _ split
  apply Guarded.lift_step split
  intro _ few split
  rw [demand_eq_ok] at count few
  rw [guardedTable_eq (by omega)]
  apply Guarded.lift_step split
  intro ⟨regions, sum⟩ _ split
  apply Guarded.lift_step split
  intro blob _ split
  apply Guarded.lift_step split
  intro _ _ split
  rw [Layout.guardedPlace_eq few]
  apply Guarded.lift_step split
  intro layout _ _
  rfl

end Blueprint

namespace Draft

/-- The descriptor and the payload are put into the image by slices. -/
def guardedBlank (draft : Draft) (payload : Bytes) : Guarded Bytes := do
  let size := draft.descriptor.imageSize.toNat
  .lift (demand (payload.length ≤ size) .outOfRange)
  let padded := payload ++ List.replicate (size - payload.length) Blueprint.filler
  let start := draft.descriptor.ownOffset.toNat
  let _ ← Guarded.slice padded start (start + draft.descriptor.areaSize.toNat)
  .lift (draft.blank payload)

/-- The ends of the parts that a static region adds to the digest. -/
def coveredRanges (draft : Draft) (imageLength : Nat) (region : Region) : List (Nat × Nat) :=
  let areaStart := draft.descriptor.ownOffset.toNat
  let areaStop := areaStart + draft.descriptor.areaSize.toNat
  let start := min region.offset.toNat imageLength
  let stop := min (region.offset.toNat + region.size.toNat) imageLength
  let before := max (min stop areaStart) start
  let after := min (max start areaStop) stop
  [(start, before), (after, stop)]

/-- The covered parts are taken by slices. -/
def guardedParts (draft : Draft) (image : Bytes) : Guarded (List Bytes) :=
  ((draft.descriptor.regions.filter Region.isStatic).flatMap
    (draft.coveredRanges image.length)).mapM fun range => Guarded.slice image range.1 range.2

/-- The area of a consistent draft lies in the image. -/
theorem guardedBlank_eq {draft : Draft} {payload : Bytes} (consistent : draft.Consistent) :
    draft.guardedBlank payload = .lift (draft.blank payload) := by
  unfold guardedBlank
  apply Guarded.lift_step rfl
  intro _ short _
  have area := consistent.area
  rw [demand_eq_ok] at short
  rw [consistent.offset] at area
  apply Guarded.bind_of_ok
  apply Guarded.slice_eq (Nat.le_add_right _ _)
  rw [List.length_append, List.length_replicate]
  omega

/-- The covered parts lie in the image, wherever the regions do. -/
theorem guardedParts_eq (draft : Draft) (image : Bytes) :
    draft.guardedParts image = .ok (draft.digestParts image) := by
  rw [guardedParts, Guarded.mapM_slice, List.map_flatMap]
  · rfl
  · intro range member
    obtain ⟨region, -, covered⟩ := List.mem_flatMap.1 member
    simp only [coveredRanges, List.mem_cons, List.not_mem_nil, or_false] at covered
    rcases covered with rfl | rfl <;> dsimp only <;> omega

end Draft

namespace Blueprint

/-- The guarded way of building an image. -/
def guardedBuild {σ : Type} (blueprint : Blueprint) (payload : Bytes) (engine : HashEngine σ)
    (signer : Signer σ) : EStateM Fault σ Bytes := do
  let draft ← blueprint.guardedDraft.run
  let blank ← (draft.guardedBlank payload).run
  let scheme := draft.descriptor.scheme
  let layout := draft.descriptor.layout
  let parts ← (draft.guardedParts blank).run
  let digest ← ((engine.digest draft.descriptor.algorithm parts).adaptExcept
    BuildError.hash).adaptExcept Fault.failed
  let digestStart ← (Guarded.add layout.hash.offset Layout.sectionHeaderLength).run
  let image ← (Guarded.splice blank digestStart digest.toList).run
  let signedStop ← (Guarded.add layout.signed.offset layout.signed.length).run
  let signed ← (Guarded.slice image layout.signed.offset signedStop).run
  let digest ← ((engine.digest scheme.algorithm [signed]).adaptExcept
    BuildError.hash).adaptExcept Fault.failed
  Guarded.run (.lift (demand (Scheme.forKey? signer.modulus.length scheme.algorithm = some scheme)
    (.signature .unsupported)))
  let signature ← ((signer.sign scheme digest.toList scheme.signatureLength).adaptExcept
    BuildError.signature).adaptExcept Fault.failed
  let block : SignatureBlock := ⟨scheme, signer.modulus, signer.exponent, signature.toList⟩
  let _ ← (Guarded.slice image layout.signature.offset
    (layout.signature.offset + layout.signature.length)).run
  let bytes ← Guarded.run (.lift (Draft.fill layout.signature.length block.fields))
  return splice image layout.signature.offset bytes

variable {σ : Type} {blueprint : Blueprint} {payload : Bytes} {engine : HashEngine σ}
  {signer : Signer σ}

/-- A build stays in its bounds, whatever its devices do. -/
theorem guardedBuild_eq : blueprint.guardedBuild payload engine signer =
    EStateM.adaptExcept Fault.failed (blueprint.build payload engine signer) := by
  funext state
  simp only [guardedBuild, build, adaptExcept_bind, guardedDraft_eq, Guarded.run_lift]
  apply device_bind_congr
  intro draft _ drafted
  simp only [adaptExcept_eq_ok, perform_eq_ok] at drafted
  obtain ⟨consistent, -⟩ := draft_eq_ok drafted.1
  rw [Draft.guardedBlank_eq consistent, Guarded.run_lift]
  apply device_bind_congr
  intro blank _ blanked
  simp only [adaptExcept_eq_ok, perform_eq_ok] at blanked
  obtain ⟨length, -⟩ := Draft.ofBytes_blank consistent blanked.1
  rw [Guarded.run_bind (Draft.guardedParts_eq draft blank)]
  apply device_bind_congr
  intro covered _ _
  have places := consistent.places
  have signedStop := consistent.signedStop
  have block := congrArg Extent.length consistent.signature
  have small := draft.descriptor.imageSize.toNat_lt
  have digestInside : draft.descriptor.layout.hash.offset + Layout.sectionHeaderLength +
      covered.toList.length ≤ blank.length := by
    rw [Vector.length_toList]
    omega
  dsimp only at block
  rw [Guarded.run_bind (Guarded.add_eq (by rw [Offset.limit]; omega)),
    Guarded.run_bind (Guarded.splice_eq digestInside),
    Guarded.run_bind (Guarded.add_eq (by rw [Offset.limit]; omega)),
    Guarded.run_bind (Guarded.slice_eq (Nat.le_add_right _ _)
      (by rw [length_splice digestInside]; omega))]
  apply device_bind_congr
  intro digest _ _
  apply device_bind_congr
  intro _ _ _
  apply device_bind_congr
  intro signature _ _
  rw [Guarded.run_bind (Guarded.slice_eq (Nat.le_add_right _ _)
    (by rw [length_splice digestInside]; omega))]
  apply device_bind_congr
  intro bytes _ _
  rfl

/-- A build never crashes, and it succeeds just where its blueprint can be built. -/
theorem build_exact (blueprint : Blueprint) (payload : Bytes) (engine : HashEngine σ)
    (signer : Signer σ) (before : σ) :
    blueprint.guardedBuild payload engine signer before =
        EStateM.adaptExcept Fault.failed (blueprint.build payload engine signer) before ∧
      (∀ after, blueprint.guardedBuild payload engine signer before ≠ .error .crashed after) ∧
      (∀ cause after,
        blueprint.build payload engine signer before ≠ .error (.wire cause) after) ∧
      (engine.Completes → signer.Signs blueprint.scheme →
        ((∃ image after, blueprint.build payload engine signer before = .ok image after) ↔
          blueprint.Buildable payload signer.modulus.length) ∧
        (¬ blueprint.Buildable payload signer.modulus.length →
          ∃ error after, blueprint.build payload engine signer before = .error error after ∧
            blueprint.Faulty payload signer.modulus.length error)) := by
  refine ⟨by rw [guardedBuild_eq], ?_, ?_, ?_⟩
  · intro after crashed
    rw [guardedBuild_eq, adaptExcept_eq_error] at crashed
    obtain ⟨_, same, -⟩ := crashed
    cases same
  · intro cause after failed
    rcases build_eq_error failed with faulty | ⟨-, _, same⟩ | ⟨-, _, same⟩
    · exact faulty.ne_wire cause rfl
    · cases same
    · cases same
  · intro completes signs
    refine ⟨built_iff_buildable completes signs, fun unbuildable => ?_⟩
    rcases built_or_faulty completes signs payload before with ⟨image, after, built⟩ | unbuilt
    · exact absurd (buildable_of_build built) unbuildable
    · exact unbuilt

/-- The regions overlap, are out of order and reach beyond the image. -/
def unruly : Blueprint where
  name := "unruly"
  family := 0
  version := .zero
  buildTimestamp := 0
  imageType := .prod
  hashType := .sha512
  scheme := .rsa2048
  descriptorOffset := 512
  areaSize := none
  imageSize := some 2048
  regions := [⟨"last", 0xfffff000, 0x10000, 0, [.static]⟩, ⟨"first", 0, 1000, 0, [.static]⟩,
    ⟨"middle", 500, 0x1000, 0, [.static]⟩]
  denylist := []
  rollback := none
  records := []

theorem unruly_buildable : unruly.Buildable [1, 2, 3] zeroSigner.modulus.length := by
  have modulus : zeroSigner.modulus.length = 256 := length_zeroBytes 256
  rw [modulus]
  constructor
  case rollback =>
    intro plan present
    cases present
  all_goals decide

/-- An image of 1000 bytes has no room for the descriptor. -/
theorem unruly_built :
    (∃ image after, unruly.guardedBuild [1, 2, 3] Sha2.engine zeroSigner none = .ok image after) ∧
      ∃ error after, Blueprint.build { unruly with imageSize := some 1000 } [1, 2, 3] Sha2.engine
        zeroSigner none = .error error after := by
  have signs (scheme : Scheme) : zeroSigner.Signs scheme := fun _ _ _ => ⟨_, _, rfl⟩
  constructor
  · obtain ⟨same, -, -, decided⟩ := build_exact unruly [1, 2, 3] Sha2.engine zeroSigner none
    obtain ⟨image, after, built⟩ :=
      (decided Sha2.engine_completes (signs _)).1.2 unruly_buildable
    exact ⟨image, after, by rw [same, adaptExcept_eq_ok, built]⟩
  · obtain ⟨-, -, -, decided⟩ :=
      build_exact { unruly with imageSize := some 1000 } [1, 2, 3] Sha2.engine zeroSigner none
    obtain ⟨error, after, failed, -⟩ := (decided Sha2.engine_completes (signs _)).2
      fun buildable => absurd buildable.areaInside (by decide)
    exact ⟨error, after, failed⟩

end Blueprint

end SignedFirmware
