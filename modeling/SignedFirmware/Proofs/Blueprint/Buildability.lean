import SignedFirmware.Proofs.Blueprint.Sizes
import SignedFirmware.Proofs.Rollback.Format

namespace SignedFirmware

theorem RegionPlan.region?_eq_none {plan : RegionPlan} :
    plan.region? = none ↔ 32 < (utf8Bytes plan.name).length := by
  rw [← Name.ofText?_eq_none]
  unfold RegionPlan.region?
  cases Name.ofText? plan.name <;> simp

/-- A signer signs every digest for a scheme that suits its key. -/
def Signer.Signs {σ : Type} (signer : Signer σ) (scheme : Scheme) : Prop :=
  Scheme.forKey? signer.modulus.length scheme.algorithm = some scheme →
    ∀ (digest : Vector UInt8 scheme.algorithm.length) before, ∃ signature after,
      signer.sign scheme digest.toList scheme.signatureLength before = .ok signature after

namespace Blueprint

/-- A blueprint can be built with a payload and a key. -/
structure Buildable (blueprint : Blueprint) (payload : Bytes) (modulusLength : Nat) : Prop where
  regionCount : 1 ≤ blueprint.regions.length ∧ blueprint.regions.length ≤ 16
  hashType : blueprint.hashType = .sha256 ∨ blueprint.hashType = .sha512
  denylist : blueprint.denylist.length ≤ 255
  regionNames : ∀ plan ∈ blueprint.regions, (utf8Bytes plan.name).length ≤ 32
  name : (utf8Bytes blueprint.name).length ≤ 32
  regionSizes : RegionPlan.totalSize blueprint.regions < 2 ^ 32
  rollback : ∀ plan ∈ blueprint.rollback, ∃ record, plan.record = .ok record
  blob : blueprint.blobLength < 2 ^ 32
  sections : blueprint.descriptorOffset.toNat + blueprint.descriptorLength < 2 ^ 32
  area : blueprint.descriptorLength ≤ blueprint.areaLength
  areaStop : blueprint.descriptorOffset.toNat + blueprint.areaLength < 2 ^ 32
  areaInside : blueprint.descriptorOffset.toNat + blueprint.areaLength ≤ blueprint.imageLength
  payload : payload.length ≤ blueprint.imageLength
  key : Scheme.forKey? modulusLength blueprint.scheme.algorithm = some blueprint.scheme

/-- An error names a demand that is not met. -/
inductive Faulty (blueprint : Blueprint) (payload : Bytes) (modulusLength : Nat) :
    BuildError → Prop where
  | regionCount (wrong : ¬ (1 ≤ blueprint.regions.length ∧ blueprint.regions.length ≤ 16)) :
      Faulty blueprint payload modulusLength .badRegionCount
  | hashType (wrong : ¬ (blueprint.hashType = .sha256 ∨ blueprint.hashType = .sha512)) :
      Faulty blueprint payload modulusLength .unsupportedHash
  | denylist (wrong : 255 < blueprint.denylist.length) :
      Faulty blueprint payload modulusLength .outOfRange
  | regionName {plan : RegionPlan} (planned : plan ∈ blueprint.regions)
      (wrong : 32 < (utf8Bytes plan.name).length) :
      Faulty blueprint payload modulusLength .nameTooLong
  | name (wrong : 32 < (utf8Bytes blueprint.name).length) :
      Faulty blueprint payload modulusLength .nameTooLong
  | regionSizes (wrong : 2 ^ 32 ≤ RegionPlan.totalSize blueprint.regions) :
      Faulty blueprint payload modulusLength .outOfRange
  | rollback {plan : RecordPlan} {cause : RecordError} (planned : plan ∈ blueprint.rollback)
      (wrong : plan.record = .error (.badRecord cause)) :
      Faulty blueprint payload modulusLength (.badRecord cause)
  | blob (wrong : 2 ^ 32 ≤ blueprint.blobLength) :
      Faulty blueprint payload modulusLength .outOfRange
  | sections (wrong : 2 ^ 32 ≤ blueprint.descriptorOffset.toNat + blueprint.descriptorLength) :
      Faulty blueprint payload modulusLength .outOfRange
  | area (wrong : blueprint.areaLength < blueprint.descriptorLength) :
      Faulty blueprint payload modulusLength .outOfRange
  | areaInside (wrong : blueprint.imageLength <
        blueprint.descriptorOffset.toNat + blueprint.areaLength) :
      Faulty blueprint payload modulusLength .outOfRange
  | payload (wrong : blueprint.imageLength < payload.length) :
      Faulty blueprint payload modulusLength .outOfRange
  | key (wrong : Scheme.forKey? modulusLength blueprint.scheme.algorithm ≠ some blueprint.scheme) :
      Faulty blueprint payload modulusLength (.signature .unsupported)

variable {blueprint : Blueprint} {draft : Draft} {payload : Bytes} {modulusLength : Nat}
  {error : BuildError}

/-- A blueprint with a fault cannot be built. -/
theorem Faulty.not_buildable (faulty : blueprint.Faulty payload modulusLength error) :
    ¬ blueprint.Buildable payload modulusLength := by
  intro buildable
  cases faulty with
  | regionCount wrong => exact wrong buildable.regionCount
  | hashType wrong => exact wrong buildable.hashType
  | denylist wrong => exact absurd buildable.denylist (Nat.not_le.2 wrong)
  | regionName planned wrong =>
      exact absurd (buildable.regionNames _ planned) (Nat.not_le.2 wrong)
  | name wrong => exact absurd buildable.name (Nat.not_le.2 wrong)
  | regionSizes wrong => exact absurd buildable.regionSizes (Nat.not_lt.2 wrong)
  | rollback planned wrong =>
      obtain ⟨record, made⟩ := buildable.rollback _ planned
      cases wrong.symm.trans made
  | blob wrong => exact absurd buildable.blob (Nat.not_lt.2 wrong)
  | sections wrong => exact absurd buildable.sections (Nat.not_lt.2 wrong)
  | area wrong => exact absurd buildable.area (Nat.not_le.2 wrong)
  | areaInside wrong => exact absurd buildable.areaInside (Nat.not_le.2 wrong)
  | payload wrong => exact absurd buildable.payload (Nat.not_le.2 wrong)
  | key wrong => exact wrong buildable.key

/-- No fault is a failure to write. -/
theorem Faulty.ne_wire (faulty : blueprint.Faulty payload modulusLength error)
    (cause : WireError) : error ≠ .wire cause := by
  rintro rfl
  cases faulty

/-- A long name or too large a sum of sizes refuses a table. -/
theorem regionTable_eq_error {plans : List RegionPlan} {sum : Nat}
    (failed : regionTable sum plans = .error error) :
    (error = .nameTooLong ∧ ∃ plan ∈ plans, 32 < (utf8Bytes plan.name).length) ∨
      (error = .outOfRange ∧ Offset.limit ≤ sum + RegionPlan.totalSize plans) := by
  induction plans generalizing sum with
  | nil => cases failed
  | cons plan rest ih =>
      simp only [regionTable, bind_eq_error, expect_eq_error, RegionPlan.region?_eq_none,
        expect_eq_ok, Offset.add?_eq_some, Offset.add?_eq_none, pure_ne_error, and_false,
        exists_false, or_false] at failed
      rcases failed with ⟨long, rfl⟩ | ⟨region, -, ⟨large, rfl⟩ | ⟨_, ⟨-, rfl⟩, later⟩⟩
      · exact .inl ⟨rfl, plan, List.mem_cons_self, long⟩
      · refine .inr ⟨rfl, ?_⟩
        rw [RegionPlan.totalSize]
        omega
      · rcases ih later with ⟨same, other, member, long⟩ | ⟨same, large⟩
        · exact .inl ⟨same, other, List.mem_cons_of_mem plan member, long⟩
        · refine .inr ⟨same, ?_⟩
          rwa [RegionPlan.totalSize, ← Nat.add_assoc]

/-- Blob records are refused if the rollback plan has no record. -/
theorem blobRecords_eq_error (failed : blueprint.blobRecords = .error error) :
    ∃ plan ∈ blueprint.rollback, plan.record = .error error := by
  unfold blobRecords at failed
  cases rollback : blueprint.rollback with
  | none =>
      rw [rollback] at failed
      exact absurd failed pure_ne_error
  | some plan =>
      simp only [rollback, bind_eq_error, pure_ne_error, and_false, exists_false, or_false]
        at failed
      exact ⟨plan, rfl, failed⟩

/-- Records are not encoded if one of them is too long. -/
theorem encodeRecords_eq_error {records : List BlobRecord}
    (failed : encodeRecords records = .error error) :
    error = .outOfRange ∧ ∃ record ∈ records, Offset.limit ≤ record.payload.length := by
  induction records with
  | nil => cases failed
  | cons record rest ih =>
      simp only [encodeRecords, encodeRecord, bind_eq_error, demand_eq_error, pure_ne_error,
        and_false, exists_false, or_false] at failed
      rcases failed with ⟨long, rfl⟩ | ⟨bytes, -, later⟩
      · exact ⟨rfl, record, List.mem_cons_self, Nat.le_of_not_lt long⟩
      · obtain ⟨same, other, member, long⟩ := ih later
        exact ⟨same, other, List.mem_cons_of_mem record member, long⟩

/-- A record is no longer than all records together. -/
theorem le_recordsLength {lengths : List Nat} {length : Nat} (member : length ∈ lengths) :
    length ≤ recordsLength lengths := by
  induction lengths with
  | nil => cases member
  | cons first rest ih =>
      have rounded := @Offset.le_roundUp (8 + first) 4 (by decide)
      rw [recordsLength]
      rcases List.mem_cons.1 member with rfl | later
      · omega
      · have least := ih later
        omega

/-- A plan without a record or a long record refuses a blob. -/
theorem blob_eq_error (failed : blueprint.blob = .error error) :
    blueprint.Faulty payload modulusLength error := by
  rw [Blueprint.blob, bind_eq_error] at failed
  rcases failed with unlisted | ⟨records, listed, failed⟩
  · obtain ⟨plan, planned, refused⟩ := blobRecords_eq_error unlisted
    rcases RecordPlan.record_eq_error refused with ⟨rfl, -⟩ | ⟨rfl, -⟩ | ⟨rfl, -⟩ <;>
      exact .rollback planned refused
  · split at failed
    next => exact absurd failed pure_ne_error
    next =>
      simp only [bind_eq_error, pure_ne_error, and_false, exists_false, or_false] at failed
      obtain ⟨rfl, record, member, long⟩ := encodeRecords_eq_error failed
      have lengths := map_length_blobRecords listed
      have counted : record.payload.length ∈ blueprint.payloadLengths :=
        lengths ▸ List.mem_map_of_mem member
      have least := le_recordsLength counted
      apply Faulty.blob
      rw [blobLength, if_neg (List.ne_nil_of_mem counted)]
      rw [Offset.limit] at long
      omega

theorem algorithm?_eq_none {hashType : HashType} :
    hashType.algorithm? = none ↔ ¬ (hashType = .sha256 ∨ hashType = .sha512) := by
  cases hashType <;> simp [HashType.algorithm?]

/-- A blueprint without a draft has a fault. -/
theorem draft_eq_error (failed : blueprint.draft = .error error) :
    blueprint.Faulty payload modulusLength error := by
  simp only [Blueprint.draft, bind_eq_error, demand_eq_error, demand_eq_ok, expect_eq_error,
    expect_eq_ok, exists_answer, Prod.exists, pure_ne_error, and_false, exists_false, or_false]
    at failed
  rcases failed with ⟨wrong, rfl⟩ | ⟨-, ⟨unknown, rfl⟩ | ⟨algorithm, known, failed⟩⟩
  · exact .regionCount wrong
  · exact .hashType (algorithm?_eq_none.1 unknown)
  rcases failed with ⟨many, rfl⟩ | ⟨-, unmade | ⟨regions, sum, table, failed⟩⟩
  · exact .denylist (Nat.le_of_not_lt many)
  · rcases regionTable_eq_error unmade with ⟨rfl, plan, planned, long⟩ | ⟨rfl, large⟩
    · exact .regionName planned long
    · rw [Nat.zero_add] at large
      exact .regionSizes large
  obtain ⟨-, -, total, described⟩ := regionTable_eq_ok (by decide) table
  rw [Nat.zero_add] at total
  have count := described.length_eq
  have used : blueprint.hashType.algorithm?.getD .sha256 = algorithm := by rw [known]; rfl
  rcases failed with unmade | ⟨blob, made, failed⟩
  · exact blob_eq_error unmade
  have blobLength := length_blob made
  rcases failed with ⟨large, rfl⟩ | ⟨-, ⟨unplaced, rfl⟩ | ⟨layout, placed, failed⟩⟩
  · rw [blobLength] at large
    exact .blob (Nat.le_of_not_lt large)
  · have large := Layout.place?_eq_none.1 unplaced
    rw [count, blobLength, ← used, Nat.add_assoc] at large
    exact .sections large
  obtain ⟨-, rfl⟩ := Layout.place?_eq_some.1 placed
  have whole : (Layout.tiled blueprint.descriptorOffset.toNat regions.length algorithm
      blueprint.denylist.length blob.length blueprint.scheme).signed.length +
        (Layout.tiled blueprint.descriptorOffset.toNat regions.length algorithm
          blueprint.denylist.length blob.length blueprint.scheme).signature.length =
      blueprint.descriptorLength := by
    rw [count, blobLength, ← used]
    rfl
  have area : (blueprint.areaSize.map UInt32.toNat).getD blueprint.descriptorLength =
      blueprint.areaLength := rfl
  have image : (blueprint.imageSize.map UInt32.toNat).getD sum = blueprint.imageLength := by
    rw [total]
    rfl
  rw [whole, area, image] at failed
  rcases failed with ⟨narrow, rfl⟩ | ⟨-, unnamed, rfl⟩
  · by_cases room : blueprint.descriptorLength ≤ blueprint.areaLength
    · exact .areaInside (Nat.lt_of_not_le fun inside => narrow ⟨room, inside⟩)
    · exact .area (Nat.lt_of_not_le room)
  · exact .name (Name.ofText?_eq_none.1 unnamed)

/-- A draft can be built with a fitting payload and key. -/
theorem buildable_of_draft (drafted : blueprint.draft = .ok draft)
    (short : payload.length ≤ blueprint.imageLength)
    (key : Scheme.forKey? modulusLength blueprint.scheme.algorithm = some blueprint.scheme) :
    blueprint.Buildable payload modulusLength := by
  obtain ⟨consistent, describes, denylist, planned⟩ := draft_describes drafted
  obtain ⟨signature, area, image⟩ := draft_measures drafted
  have places := consistent.places
  have offset := describes.offset
  have block := congrArg Extent.length consistent.signature
  have count := describes.regions.length_eq
  dsimp only at block
  have areaStop : blueprint.descriptorOffset.toNat + blueprint.areaLength < 2 ^ 32 := by
    have imageSize := draft.descriptor.imageSize.toNat_lt
    omega
  have inverted := drafted
  simp only [Blueprint.draft, bind_eq_ok, demand_eq_ok, expect_eq_ok, exists_answer, Prod.exists,
    pure_eq_ok] at inverted
  obtain ⟨-, algorithm, known, few, _, _, table, blob, made, shortBlob, _, -, -, _, named, -⟩ :=
    inverted
  obtain ⟨-, bounded, total, -⟩ := regionTable_eq_ok (by decide) table
  constructor
  case regionCount =>
    rw [← count]
    exact ⟨consistent.someRegions, consistent.fewRegions⟩
  case hashType =>
    by_contra unknown
    cases known.symm.trans (algorithm?_eq_none.2 unknown)
  case denylist => exact Nat.le_of_lt_succ few
  case regionNames =>
    intro plan member
    rw [← Nat.not_lt, ← RegionPlan.region?_eq_none]
    intro unnamed
    have absent : none ∈ draft.descriptor.regions.map some :=
      planned ▸ List.mem_map.2 ⟨plan, member, unnamed⟩
    simp at absent
  case name =>
    rw [← Nat.not_lt, ← Name.ofText?_eq_none]
    intro unnamed
    cases named.symm.trans unnamed
  case regionSizes =>
    rw [total, Nat.zero_add] at bounded
    exact bounded
  case rollback =>
    intro plan present
    obtain ⟨records, listed, -⟩ := draft_blob drafted
    rw [blobRecords, Option.mem_def.1 present] at listed
    obtain ⟨record, made, -⟩ := bind_eq_ok.1 listed
    exact ⟨record, made⟩
  case blob => exact length_blob made ▸ shortBlob
  case sections => omega
  case area => omega
  case areaStop => exact areaStop
  case areaInside => omega
  case payload => exact short
  case key => exact key

/-- The image without its signature is refused for the length of the payload only. -/
theorem blank_eq_error (drafted : blueprint.draft = .ok draft)
    (failed : draft.blank payload = .error error) :
    blueprint.Faulty payload modulusLength error := by
  obtain ⟨consistent, -⟩ := draft_eq_ok drafted
  simp only [Draft.blank, consistent.fill_fields, (draft_measures drafted).image, bind_eq_error,
    demand_eq_error, pure_ne_error, reduceCtorEq, and_false, exists_false, or_false] at failed
  obtain ⟨long, rfl⟩ := failed
  exact .payload (Nat.lt_of_not_le long)

section Devices

variable {σ : Type} {image : Bytes} {engine : HashEngine σ} {signer : Signer σ} {before after : σ}

/-- A blueprint that is built can be built. -/
theorem buildable_of_build
    (built : blueprint.build payload engine signer before = .ok image after) :
    blueprint.Buildable payload signer.modulus.length := by
  simp only [Blueprint.build, device_bind_eq_ok, perform_eq_ok, demand_eq_ok, exists_answer]
    at built
  obtain ⟨draft, _, ⟨drafted, -⟩, blank, _, ⟨blanked, -⟩, _, _, -, _, _, -, _, ⟨key, -⟩, -⟩ :=
    built
  simp only [Draft.blank, bind_eq_ok, demand_eq_ok, exists_answer] at blanked
  rw [(draft_eq_ok drafted).2.2.1] at key
  exact buildable_of_draft drafted ((draft_measures drafted).image ▸ blanked.1) key

/-- Every error is a fault of the blueprint or a failure of a device. -/
theorem build_eq_error
    (failed : blueprint.build payload engine signer before = .error error after) :
    blueprint.Faulty payload signer.modulus.length error ∨
      (¬ engine.Completes ∧ ∃ cause, error = .hash cause) ∨
      (¬ signer.Signs blueprint.scheme ∧ ∃ cause, error = .signature cause) := by
  simp only [Blueprint.build, device_bind_eq_error, perform_eq_error, perform_eq_ok,
    adaptExcept_eq_error, adaptExcept_eq_ok, demand_eq_error, demand_eq_ok, exists_answer] at failed
  rcases failed with ⟨undrafted, -⟩ | ⟨draft, _, ⟨drafted, rfl⟩, failed⟩
  · exact .inl (draft_eq_error undrafted)
  rcases failed with ⟨refused, -⟩ | ⟨blank, _, ⟨-, rfl⟩, failed⟩
  · exact .inl (blank_eq_error drafted refused)
  rcases failed with ⟨cause, rfl, failed⟩ | ⟨covered, middle, -, failed⟩
  · refine .inr (.inl ⟨fun completes => ?_, cause, rfl⟩)
    obtain ⟨_, _, digested⟩ := completes draft.descriptor.algorithm_ne_sha384 _ before
    cases digested.symm.trans failed
  rcases failed with ⟨cause, rfl, failed⟩ | ⟨digest, between, -, failed⟩
  · refine .inr (.inl ⟨fun completes => ?_, cause, rfl⟩)
    obtain ⟨_, _, digested⟩ := completes draft.descriptor.scheme.algorithm_ne_sha384 _ middle
    cases digested.symm.trans failed
  obtain ⟨consistent, -, scheme, -⟩ := draft_eq_ok drafted
  rcases failed with ⟨⟨foreign, rfl⟩, -⟩ | ⟨_, ⟨key, rfl⟩, failed⟩
  · rw [scheme] at foreign
    exact .inl (.key foreign)
  rcases failed with ⟨cause, rfl, failed⟩ | ⟨signature, later, -, failed⟩
  · refine .inr (.inr ⟨fun signs => ?_, cause, rfl⟩)
    rw [← scheme] at signs
    obtain ⟨_, _, signed⟩ := signs key digest between
    cases signed.symm.trans failed
  have filled := @Draft.Consistent.fill_block draft consistent
    ⟨draft.descriptor.scheme, signer.modulus, signer.exponent, signature.toList⟩ rfl
    (Scheme.forKey?_eq_some key) (by simp)
  rcases failed with ⟨refused, -⟩ | ⟨_, _, -, failed⟩
  · cases filled.symm.trans refused
  · exact absurd failed device_pure_ne_error

/-- If the devices do not fail, what is not built has a fault. -/
theorem built_or_faulty (completes : engine.Completes) (signs : signer.Signs blueprint.scheme)
    (payload : Bytes) (before : σ) :
    (∃ image after, blueprint.build payload engine signer before = .ok image after) ∨
      ∃ error after, blueprint.build payload engine signer before = .error error after ∧
        blueprint.Faulty payload signer.modulus.length error := by
  cases result : blueprint.build payload engine signer before with
  | ok image after => exact .inl ⟨image, after, rfl⟩
  | error error after =>
      rcases build_eq_error result with faulty | ⟨fails, -⟩ | ⟨fails, -⟩
      · exact .inr ⟨error, after, rfl, faulty⟩
      · exact (fails completes).elim
      · exact (fails signs).elim

/-- If the devices do not fail, a build succeeds exactly on buildable blueprints. -/
theorem built_iff_buildable (completes : engine.Completes)
    (signs : signer.Signs blueprint.scheme) :
    (∃ image after, blueprint.build payload engine signer before = .ok image after) ↔
      blueprint.Buildable payload signer.modulus.length := by
  constructor
  · intro built
    obtain ⟨image, after, built⟩ := built
    exact buildable_of_build built
  · intro buildable
    rcases built_or_faulty completes signs payload before with built | ⟨error, after, -, faulty⟩
    · exact built
    · exact absurd buildable faulty.not_buildable

end Devices

end Blueprint

end SignedFirmware
