import SignedFirmware.Proofs.Blueprint.Admission
import SignedFirmware.Proofs.Blueprint.Records
import SignedFirmware.Proofs.Completeness
import SignedFirmware.Proofs.Rollback.Codec
import SignedFirmware.Proofs.Rollback.Repeating

namespace SignedFirmware

/-- One rollback record is found with its payload; two or more are refused. -/
def Descriptor.Recovers (descriptor : Descriptor) (flash : Flash) : List Bytes → Prop
  | [] => descriptor.findRollbackRecord flash = .ok none
  | [payload] => ∃ place bytes, descriptor.findRollbackRecord flash = .ok (some place) ∧
      flash.read place.offset place.length = .ok bytes ∧ bytes.toList = payload
  | _ => descriptor.findRollbackRecord flash = .error (.rejected .invalidDescriptor)

namespace Blueprint

variable {σ : Type} {blueprint : Blueprint} {draft : Draft} {payload image : Bytes}
  {engine : HashEngine σ} {signer : Signer σ} {before after : σ}

/-- A built image fills a flash, which holds all sections of its draft. -/
theorem build_carried (drafted : blueprint.draft = .ok draft)
    (built : blueprint.build payload engine signer before = .ok image after) :
    (Flash.ofBytes image).Carries (Memory.ofBytes image) ⟨0, UInt32.ofNat image.length⟩ image ∧
      ∃ block, draft.Sealed block image := by
  obtain ⟨-, -, -, -, -, signature, -, -, -, -, -, held, -⟩ := build_sealed drafted built
  have length := held.filled.length
  have bounded := draft.descriptor.imageSize.toNat_lt
  exact ⟨Flash.carries_self (by rw [length]; exact bounded), _, held⟩

/-- A built image is read back unless the platform refuses its size. -/
theorem parsed_of_build (drafted : blueprint.draft = .ok draft)
    (built : blueprint.build payload engine signer before = .ok image after) {platform : Platform}
    (size : platform.sizeValid draft.descriptor.imageSize ≠ some false) :
    draft.descriptor.Parsed (Flash.ofBytes image) blueprint.descriptorOffset.toNat
      ⟨0, UInt32.ofNat image.length⟩ platform := by
  obtain ⟨consistent, describes, -⟩ := draft_describes drafted
  obtain ⟨carries, block, held⟩ := build_carried drafted built
  have parsed := held.parsed consistent carries size
  have unmoved : draft.descriptor.moved (0 : UInt32).toNat = draft.descriptor :=
    draft.descriptor.moved_zero
  rw [unmoved, UInt32.toNat_zero, Nat.zero_add, describes.offset] at parsed
  exact parsed

/-- The search in a built image finds the rollback record of its blueprint. -/
theorem recovers_of_build (drafted : blueprint.draft = .ok draft)
    (built : blueprint.build payload engine signer before = .ok image after) :
    ∃ records, blueprint.blobRecords = .ok records ∧
      draft.descriptor.Recovers (Flash.ofBytes image)
        ((records.filter BlobRecord.isRollback).map BlobRecord.payload) := by
  obtain ⟨consistent, -⟩ := draft_describes drafted
  obtain ⟨carries, block, held⟩ := build_carried drafted built
  have parsed := @parsed_of_build _ _ _ _ _ _ _ _ _ drafted built ⟨none, none, fun _ => none⟩
    (by simp)
  obtain ⟨records, places, listed, matched, answer⟩ :=
    held.filled.findRollbackRecord consistent drafted carries
  have unmoved : draft.descriptor.moved (0 : UInt32).toNat = draft.descriptor :=
    draft.descriptor.moved_zero
  rw [unmoved] at answer
  refine ⟨records, listed, ?_⟩
  generalize records.filter BlobRecord.isRollback = written at matched
  rcases matched with _ | ⟨same, _ | ⟨_, _⟩⟩
  · exact answer
  · obtain ⟨low, high⟩ := Descriptor.record_inside parsed answer
    obtain ⟨bytes, read⟩ := carries.answers.read low high
    exact ⟨_, bytes, answer, read, (carries.holds.read read).trans same⟩
  · exact answer

/-- The rollback records are the planned one and those among the blob records. -/
theorem blobRecords_of_rollback {plan : RecordPlan} (planned : plan ∈ blueprint.rollback)
    {records : List BlobRecord} (listed : blueprint.blobRecords = .ok records) :
    ∃ record, plan.record = .ok record ∧
      (records.filter BlobRecord.isRollback).map BlobRecord.payload = record.encode ::
        (blueprint.records.filter BlobRecord.isRollback).map BlobRecord.payload := by
  rw [blobRecords, planned] at listed
  obtain ⟨record, made, same⟩ := bind_eq_ok.1 listed
  obtain rfl := pure_eq_ok.1 same
  exact ⟨record, made, by rw [List.filter_cons_of_pos (by rfl), List.map_cons]⟩

/-- A built image with one planned rollback record and no other one carries it. -/
theorem carried_of_build (drafted : blueprint.draft = .ok draft)
    (built : blueprint.build payload engine signer before = .ok image after) {plan : RecordPlan}
    (planned : plan ∈ blueprint.rollback)
    (others : ∀ other ∈ blueprint.records, other.isRollback = false) :
    ∃ record : RollbackRecord, record.Describes plan ∧
      Rollback.readCarried (Flash.ofBytes image) draft.descriptor =
        .ok (some ⟨record, record.encode⟩) := by
  obtain ⟨records, listed, recovers⟩ := recovers_of_build drafted built
  obtain ⟨record, made, only⟩ := blobRecords_of_rollback planned listed
  obtain ⟨describes, parsed⟩ := RecordPlan.record_eq_ok.1 made
  have alone : blueprint.records.filter BlobRecord.isRollback = [] :=
    List.filter_eq_nil_iff.2 fun other member => by simp [others other member]
  rw [only, alone] at recovers
  obtain ⟨place, bytes, located, answer, same⟩ := recovers
  have short : place.length ≤ RollbackRecord.slotLength := by
    have length := congrArg List.length same
    rw [Vector.length_toList] at length
    rw [length]
    exact RollbackRecord.length_le_of_parse parsed
  exact ⟨record, describes,
    Rollback.readCarried_eq_some.2 ⟨place, bytes, located, short, answer, same, parsed⟩⟩

/-- A rollback record comes before two other blob records. -/
def guarded : Blueprint where
  name := "guarded"
  family := 3
  version := ⟨1, 0, 0, 0⟩
  buildTimestamp := 1600000000
  imageType := .prod
  hashType := .sha256
  scheme := .rsa2048
  descriptorOffset := 0
  areaSize := none
  imageSize := none
  regions := [⟨"code", 0, 4096, 1, [.static]⟩]
  denylist := []
  rollback := some ⟨5, 1600000000, 4, [1, 2]⟩
  records := [⟨7, []⟩, ⟨9, [1, 2, 3, 4, 5]⟩]

set_option maxRecDepth 2000 in
/-- The draft starts with the descriptor and fills one sector. -/
theorem guarded_drafted :
    ∃ draft, guarded.draft = .ok draft ∧ draft.descriptor.scheme = .rsa2048 ∧
      draft.descriptor.ownOffset = 0 ∧ draft.descriptor.imageSize = 4096 ∧
      draft.descriptor.areaSize = 796 ∧ draft.descriptor.imageType = .prod :=
  ⟨_, rfl, rfl, rfl, rfl, rfl, rfl⟩

/-- This blueprint is built with every key of 256 bytes. -/
theorem guarded_builds (signer : Signer (Option Sha2.Session))
    (modulus : signer.modulus.length = 256)
    (signs : ∀ (digest : Vector UInt8 Scheme.rsa2048.algorithm.length) before,
      ∃ signature after, signer.sign .rsa2048 digest.toList 256 before = .ok signature after) :
    ∃ draft image after, guarded.draft = .ok draft ∧
      guarded.build [] Sha2.engine signer none = .ok image after := by
  obtain ⟨draft, drafted, scheme, -⟩ := guarded_drafted
  obtain ⟨image, after, built⟩ := @build_completes _ guarded draft [] Sha2.engine signer
    drafted (Nat.zero_le _) Sha2.engine_completes (by rw [scheme]; exact modulus)
    (by rw [scheme]; exact signs) none
  exact ⟨draft, image, after, drafted, built⟩

/-- This blueprint is built with a key of zeros. -/
theorem guarded_built :
    ∃ draft image after, guarded.draft = .ok draft ∧
      guarded.build [] Sha2.engine zeroSigner none = .ok image after :=
  guarded_builds zeroSigner (length_zeroBytes 256) fun _ _ => ⟨_, _, rfl⟩

end Blueprint

end SignedFirmware
