import SignedFirmware.Proofs.Blueprint.Records
import SignedFirmware.Proofs.Rollback.Codec

namespace SignedFirmware

namespace Blueprint

/-- The lengths of all payloads, that of the rollback record first. -/
def payloadLengths (blueprint : Blueprint) : List Nat :=
  (blueprint.rollback.toList.map fun plan => 40 + 8 * plan.denylist.length) ++
    blueprint.records.map fun record => record.payload.length

/-- Each record has a header and fills a multiple of four bytes. -/
def recordsLength : List Nat → Nat
  | [] => 0
  | length :: rest => Offset.roundUp (8 + length) 4 + recordsLength rest

/-- A blob has a header of its own. Without records there is no blob. -/
def blobLength (blueprint : Blueprint) : Nat :=
  if blueprint.payloadLengths = [] then 0 else 8 + recordsLength blueprint.payloadLengths

/-- The length of the descriptor through the signature block. -/
def descriptorLength (blueprint : Blueprint) : Nat :=
  Layout.signedLength blueprint.regions.length (blueprint.hashType.algorithm?.getD .sha256)
      blueprint.denylist.length blueprint.blobLength +
    blueprint.scheme.blockLength

/-- Without an area size the area is just the room that the descriptor needs. -/
def areaLength (blueprint : Blueprint) : Nat :=
  (blueprint.areaSize.map UInt32.toNat).getD blueprint.descriptorLength

/-- Without an image size the image ends where its regions end. -/
def imageLength (blueprint : Blueprint) : Nat :=
  (blueprint.imageSize.map UInt32.toNat).getD (RegionPlan.totalSize blueprint.regions)

variable {blueprint : Blueprint} {draft : Draft} {records : List BlobRecord} {bytes : Bytes}

/-- The records of a blob have the planned payloads. -/
theorem map_length_blobRecords (listed : blueprint.blobRecords = .ok records) :
    (records.map fun record => record.payload.length) = blueprint.payloadLengths := by
  unfold blobRecords at listed
  unfold payloadLengths
  cases rollback : blueprint.rollback with
  | none =>
      rw [rollback] at listed
      obtain rfl := pure_eq_ok.1 listed
      rfl
  | some plan =>
      simp only [rollback, bind_eq_ok, pure_eq_ok] at listed
      obtain ⟨record, made, rfl⟩ := listed
      obtain ⟨describes, -⟩ := RecordPlan.record_eq_ok.1 made
      rw [List.map_cons, RollbackRecord.length_encode, RollbackRecord.encodedLength,
        describes.denylist]
      rfl

theorem length_encodeRecords (encoded : encodeRecords records = .ok bytes) :
    bytes.length = recordsLength (records.map fun record => record.payload.length) := by
  induction records generalizing bytes with
  | nil =>
      obtain rfl := pure_eq_ok.1 encoded
      rfl
  | cons record rest ih =>
      simp only [encodeRecords, bind_eq_ok, pure_eq_ok] at encoded
      obtain ⟨front, first, back, others, rfl⟩ := encoded
      rw [List.length_append, length_encodeRecord first, ih others]
      rfl

/-- A blob is as long as its records say. -/
theorem length_blob (made : blueprint.blob = .ok bytes) : bytes.length = blueprint.blobLength := by
  simp only [Blueprint.blob, bind_eq_ok] at made
  obtain ⟨records, listed, made⟩ := made
  have lengths := map_length_blobRecords listed
  rw [blobLength, ← lengths]
  split at made
  next =>
    obtain rfl := pure_eq_ok.1 made
    rfl
  next nonempty =>
    obtain ⟨encoded, written, made⟩ := bind_eq_ok.1 made
    obtain rfl := pure_eq_ok.1 made
    rw [if_neg (by simpa using nonempty), List.length_append, length_encodeRecords written]
    rfl

end Blueprint

/-- A draft has the lengths that its blueprint asks for. -/
structure Draft.Measures (draft : Draft) (blueprint : Blueprint) : Prop where
  signature : draft.descriptor.layout.signature.offset + draft.descriptor.layout.signature.length =
    blueprint.descriptorOffset.toNat + blueprint.descriptorLength
  area : draft.descriptor.areaSize.toNat = blueprint.areaLength
  image : draft.descriptor.imageSize.toNat = blueprint.imageLength

/-- A draft has the lengths that its blueprint asks for. -/
theorem Blueprint.draft_measures {blueprint : Blueprint} {draft : Draft}
    (drafted : blueprint.draft = .ok draft) : draft.Measures blueprint := by
  obtain ⟨consistent, describes, -⟩ := draft_describes drafted
  have blob : draft.descriptor.blobSize.toNat = blueprint.blobLength := by
    simp only [Blueprint.draft, bind_eq_ok, demand_eq_ok, expect_eq_ok, exists_answer, Prod.exists,
      pure_eq_ok] at drafted
    obtain ⟨-, _, -, -, _, _, -, blob, made, short, _, -, -, _, -, rfl⟩ := drafted
    exact (UInt32.toNat_ofNat_of_lt' short).trans (length_blob made)
  have signed : draft.descriptor.layout.signed.length + draft.descriptor.layout.signature.length =
      blueprint.descriptorLength := by
    rw [consistent.signed, consistent.signature, describes.regions.length_eq, Descriptor.algorithm,
      describes.hashType, describes.denylistSize, blob, describes.scheme]
    rfl
  constructor
  case signature =>
    have place := congrArg Extent.offset consistent.signature
    dsimp only at place
    rw [place, describes.offset, ← signed, Nat.add_assoc]
  case area => rw [describes.areaSize, signed, areaLength]
  case image => exact describes.imageSize

end SignedFirmware
