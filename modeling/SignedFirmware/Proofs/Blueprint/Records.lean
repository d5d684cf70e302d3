import SignedFirmware.Proofs.Blueprint.Building
import SignedFirmware.Proofs.Image.Placement
import SignedFirmware.Proofs.Rollback.Endings

namespace SignedFirmware

/-- This says whether a blob record is a rollback record. -/
def BlobRecord.isRollback (record : BlobRecord) : Bool := record.type == Blob.rollbackType

/-- The answer of a search that may find one place only. -/
def Blob.sole : List Extent → Checked (Option Extent)
  | [] => return none
  | [place] => return some place
  | _ => reject .invalidDescriptor

namespace Blueprint

/-- A record is its type, its length, the payload and up to three zeros. -/
theorem encodeRecord_eq_ok {record : BlobRecord} {bytes : Bytes} :
    encodeRecord record = .ok bytes ↔
      record.payload.length < Offset.limit ∧
        bytes = littleEndian 4 record.type.toNat ++ (littleEndian 4 record.payload.length ++
          (record.payload ++ zeroBytes (Offset.roundUp (Blob.recordHeaderLength +
            record.payload.length) Blob.recordAlignment -
              (Blob.recordHeaderLength + record.payload.length)))) := by
  simp only [encodeRecord, bind_eq_ok, demand_eq_ok, exists_answer, pure_eq_ok]
  refine and_congr_right fun short => ?_
  have length : (UInt32.ofNat record.payload.length).toNat = record.payload.length :=
    UInt32.toNat_ofNat_of_lt' short
  have whole : 4 + (4 + record.payload.length) =
      Blob.recordHeaderLength + record.payload.length := by
    rw [Blob.recordHeaderLength]
    omega
  simp [Field.encode, length, whole, eq_comm]

theorem length_encodeRecord {record : BlobRecord} {bytes : Bytes}
    (encoded : encodeRecord record = .ok bytes) :
    bytes.length = Offset.roundUp (Blob.recordHeaderLength + record.payload.length)
      Blob.recordAlignment := by
  obtain ⟨-, rfl⟩ := encodeRecord_eq_ok.1 encoded
  have rounded := @Offset.le_roundUp (Blob.recordHeaderLength + record.payload.length)
    Blob.recordAlignment (by decide)
  simp only [List.length_append, length_littleEndian, length_zeroBytes]
  simp only [Blob.recordHeaderLength] at rounded ⊢
  omega

end Blueprint

namespace Blob

variable {flash : Flash} {memory : Memory} {span : Span} {start stop cursor : Nat}

/-- The walk reads a written record and goes on after its zeros. -/
theorem entryAt_encodeRecord (holds : flash.Holds memory) (readable : flash.Readable span)
    (low : span.start.toNat ≤ start) (high : stop ≤ span.stop.toNat) (begun : start ≤ cursor)
    (aligned : (cursor - start) % recordAlignment = 0) {record : BlobRecord} {bytes : Bytes}
    (encoded : Blueprint.encodeRecord record = .ok bytes)
    (stands : memory.bytes ⟨cursor, bytes.length⟩ = bytes)
    (room : cursor + bytes.length ≤ stop) :
    entryAt flash start stop cursor = .ok ⟨record.type.toNat,
        ⟨cursor + recordHeaderLength, record.payload.length⟩, cursor + bytes.length⟩ ∧
      memory.bytes ⟨cursor + recordHeaderLength, record.payload.length⟩ = record.payload := by
  have length := Blueprint.length_encodeRecord encoded
  have rounded := @Offset.le_roundUp (recordHeaderLength + record.payload.length)
    recordAlignment (by decide)
  obtain ⟨short, split⟩ := Blueprint.encodeRecord_eq_ok.1 encoded
  have limit := span.stop.toNat_lt
  obtain ⟨head, answer⟩ := @readable cursor recordHeaderLength (by omega) (by omega)
  have parts : memory.bytes ⟨cursor, recordHeaderLength + record.payload.length⟩ =
      littleEndian 4 record.type.toNat ++ littleEndian 4 record.payload.length ++
        record.payload := by
    rw [← Memory.take_bytes memory (length ▸ rounded), stands, split, ← List.append_assoc,
      ← List.append_assoc]
    exact List.take_left' (by simp [recordHeaderLength]; omega)
  rw [Memory.bytes_add] at parts
  obtain ⟨first, second⟩ := List.append_inj parts (by simp [recordHeaderLength])
  have headBytes := (holds.read answer).trans first
  have type : littleEndianValue (head.toList.take 4) = record.type.toNat := by
    have bound := record.type.toNat_lt
    rw [headBytes, List.take_left' (length_littleEndian 4 _), littleEndianValue_littleEndian]
    exact Nat.mod_eq_of_lt (by omega)
  have payloadLength : littleEndianValue (head.toList.drop 4) = record.payload.length := by
    rw [Offset.limit] at short
    rw [headBytes, List.drop_left' (length_littleEndian 4 _), littleEndianValue_littleEndian]
    exact Nat.mod_eq_of_lt (by omega)
  refine ⟨?_, second⟩
  simp only [entryAt, bind_eq_ok, ofFlash_eq_ok, Offset.add_eq_ok, Offset.sub_eq_ok, ensure_eq_ok,
    exists_answer, pure_eq_ok]
  refine ⟨head, answer, _, ⟨?_, rfl⟩, ?_, _, ⟨?_, rfl⟩, ?_⟩
  · rw [Offset.limit]
    omega
  · omega
  · omega
  · rw [type, payloadLength]
    congr 1
    simp only [Offset.roundUp, recordAlignment] at aligned length ⊢
    omega

/-- The walk answers with the only rollback record among records back to back. -/
theorem findFrom_encodeRecords (holds : flash.Holds memory) (readable : flash.Readable span)
    (low : span.start.toNat ≤ start) (high : stop ≤ span.stop.toNat) (begun : start ≤ cursor)
    (aligned : (cursor - start) % recordAlignment = 0) {records : List BlobRecord}
    {bytes : Bytes} (encoded : Blueprint.encodeRecords records = .ok bytes)
    (stands : memory.bytes ⟨cursor, bytes.length⟩ = bytes) (ends : cursor + bytes.length = stop)
    (seen : Option Extent) :
    ∃ places, List.Forall₂ (fun place record => memory.bytes place = record.payload)
        places (records.filter BlobRecord.isRollback) ∧
      findFrom flash start stop cursor seen = sole (seen.toList ++ places) := by
  induction records generalizing cursor bytes seen with
  | nil =>
      obtain rfl := pure_eq_ok.1 encoded
      obtain rfl : cursor = stop := ends
      refine ⟨[], .nil, ?_⟩
      rw [findFrom_eq, Offset.sub_bind (Nat.le_refl cursor), Nat.sub_self, if_neg (by decide)]
      cases seen <;> rfl
  | cons record rest ih =>
      simp only [Blueprint.encodeRecords, bind_eq_ok, pure_eq_ok] at encoded
      obtain ⟨front, first, back, others, rfl⟩ := encoded
      rw [List.length_append] at stands ends
      rw [Memory.bytes_add] at stands
      obtain ⟨frontStands, backStands⟩ := List.append_inj stands (by simp)
      obtain ⟨entry, payload⟩ := entryAt_encodeRecord holds readable low high begun aligned first
        frontStands (by omega)
      have length := Blueprint.length_encodeRecord first
      have rounded := @Offset.le_roundUp (recordHeaderLength + record.payload.length)
        recordAlignment (by decide)
      have next : (cursor + front.length - start) % recordAlignment = 0 := by
        simp only [Offset.roundUp, recordAlignment] at aligned length ⊢
        omega
      have follows := ih (Nat.le_add_right_of_le begun) next others backStands (by omega)
      rw [findFrom_eq, Offset.sub_bind (by omega), if_pos (by omega), entry]
      simp only [bind, Except.bind]
      by_cases rollback : record.type = rollbackType
      · have listed : record.isRollback = true := beq_iff_eq.2 rollback
        rw [if_pos (congrArg UInt32.toNat rollback), List.filter_cons_of_pos listed]
        obtain ⟨places, found, answer⟩ :=
          follows (some ⟨cursor + recordHeaderLength, record.payload.length⟩)
        refine ⟨_ :: places, .cons payload found, ?_⟩
        cases seen with
        | none =>
            rw [answer]
            rfl
        | some earlier => rfl
      · have other : ¬ record.isRollback = true := fun same => rollback (beq_iff_eq.1 same)
        rw [if_neg fun same => rollback (UInt32.toNat_inj.1 same),
          List.filter_cons_of_neg other]
        exact follows seen

end Blob

namespace Draft

variable {draft : Draft} {blueprint : Blueprint} {image : Bytes} {flash : Flash} {memory : Memory}
  {span : Span}

/-- The search answers with the only rollback record of the blueprint. -/
theorem Filled.findRollbackRecord (filled : draft.Filled image) (consistent : draft.Consistent)
    (drafted : blueprint.draft = .ok draft) (carries : flash.Carries memory span image) :
    ∃ records places, blueprint.blobRecords = .ok records ∧
      List.Forall₂ (fun place record => memory.bytes place = record.payload)
        places (records.filter BlobRecord.isRollback) ∧
      (draft.descriptor.moved span.start.toNat).findRollbackRecord flash = Blob.sole places := by
  obtain ⟨records, listed, ⟨rfl, empty⟩ | ⟨encoded, written, split⟩⟩ :=
    Blueprint.draft_blob drafted
  · have absent := consistent.blob_eq_none.2 empty
    refine ⟨[], [], listed, .nil, ?_⟩
    simp only [Descriptor.findRollbackRecord, Descriptor.moved, Layout.shift, absent,
      Option.map_none]
    rfl
  · have nonempty : draft.blob ≠ [] := by
      rw [split]
      exact List.append_ne_nil_of_left_ne_nil (by decide) _
    obtain ⟨blob, present⟩ := Option.ne_none_iff_exists'.1
      (mt consistent.blob_eq_none.1 nonempty)
    obtain ⟨room, magic⟩ := filled.blobMagic consistent present
    have ends := consistent.blob_le present
    have places := consistent.places
    have length := filled.length
    have stop := carries.stop
    have limit := span.stop.toNat_lt
    have blobLength : blob.length = Layout.sectionHeaderLength + encoded.length := by
      rw [congrArg Extent.length (consistent.blob_mem present).2, split, List.length_append]
      simp [Field.encode, Layout.sectionHeaderLength]
    have stands := carries.bytes_shift (show blob.offset + blob.length ≤ image.length by omega)
    rw [filled.blob blob present, split, blobLength, Memory.bytes_add] at stands
    obtain ⟨-, body⟩ := List.append_inj stands (by simp [Field.encode, Layout.sectionHeaderLength])
    obtain ⟨head, answer, headBytes⟩ := carries.read
      (show blob.offset + Layout.sectionHeaderLength ≤ image.length by omega)
    have word : littleEndianValue (head.toList.take 4) = magics.blob.toNat := by
      rw [headBytes, Memory.take_bytes _ (by decide), magic]
      rfl
    obtain ⟨found, matched, walked⟩ := @Blob.findFrom_encodeRecords flash memory span
      (span.start.toNat + blob.offset) (span.start.toNat + blob.offset + blob.length)
      (span.start.toNat + blob.offset + Layout.sectionHeaderLength) carries.holds
      carries.answers.read (Nat.le_add_right _ _) (by omega) (Nat.le_add_right _ _)
      (by rw [Nat.add_sub_cancel_left]; rfl) records encoded written body (by omega) none
    refine ⟨records, found, listed, matched, ?_⟩
    simp only [Descriptor.findRollbackRecord, Descriptor.moved, Layout.shift, present,
      Option.map_some, Extent.shift]
    have fits : span.start.toNat + blob.offset + blob.length < Offset.limit := by
      rw [Offset.limit]
      omega
    rw [ensure_bind room, ofFlash_bind answer, ensure_bind word, Offset.add_bind fits,
      Offset.add_bind (by omega)]
    exact walked

end Draft

end SignedFirmware
