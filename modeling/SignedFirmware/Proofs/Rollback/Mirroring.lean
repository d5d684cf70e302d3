import SignedFirmware.Proofs.Image.Mirroring
import SignedFirmware.Proofs.Rollback.Endings

namespace SignedFirmware

namespace Blob

/-- A record that was moved by an offset. -/
def Entry.shift (start : Nat) (entry : Entry) : Entry :=
  ⟨entry.type, entry.payload.shift start, start + entry.next⟩

variable {left right : Flash} {shift start stop cursor : Nat} {seen : Option Extent}

/-- A record is read alike at both places, or refused alike. -/
theorem entryAt_shift (mirrors : left.Mirrors right shift start stop)
    (bounded : shift + stop < Offset.limit) (begun : start ≤ cursor)
    (room : cursor + recordHeaderLength ≤ stop) :
    entryAt left (shift + start) (shift + stop) (shift + cursor) =
      Entry.shift shift <$> entryAt right start stop cursor := by
  rw [entryAt, entryAt, mirrors begun room]
  apply checked_bind_map_congr
  intro head _
  rw [Offset.add_bind (by omega), Offset.add_bind (by omega), map_bind]
  generalize littleEndianValue (head.toList.drop 4) = length
  dsimp only
  have inside : shift + cursor + recordHeaderLength + length ≤ shift + stop ↔
      cursor + recordHeaderLength + length ≤ stop := by omega
  rw [ensure_congr inside]
  apply checked_bind_congr
  intro _ _
  have used : shift + cursor + recordHeaderLength + length - (shift + start) =
      cursor + recordHeaderLength + length - start := by omega
  rw [Offset.sub_bind (by omega), Offset.sub_bind (by omega), used, Nat.add_assoc shift cursor,
    Nat.add_assoc shift start, Nat.add_min_add_left]
  rfl

/-- The walk finds the same record at both places, or stops alike. -/
theorem findFrom_shift (mirrors : left.Mirrors right shift start stop)
    (bounded : shift + stop < Offset.limit) (begun : start ≤ cursor) (inside : cursor ≤ stop) :
    findFrom left (shift + start) (shift + stop) (shift + cursor)
        (seen.map (Extent.shift shift)) =
      Option.map (Extent.shift shift) <$> findFrom right start stop cursor seen := by
  induction cursor, seen using findFrom.induct right start stop with
  | case1 cursor seen found_next skipped_next =>
      -- The cursor never leaves the range, so no sum overflows at either place.
      rw [findFrom_eq, findFrom_eq, Offset.sub_bind (by omega), Offset.sub_bind inside,
        Nat.add_sub_add_left]
      split
      next more =>
        rw [recordHeaderLength] at more
        rw [entryAt_shift mirrors bounded begun (by rw [recordHeaderLength]; omega),
          bind_map_left]
        apply checked_bind_map_congr
        intro entry opened
        have next := le_next_of_entryAt opened
        have fresh : seen.map (Extent.shift shift) = none ↔ seen = none :=
          Option.map_eq_none_iff
        have type : (entry.shift shift).type = entry.type := rfl
        by_cases record : entry.type = rollbackType.toNat
        · rw [if_pos (type.trans record), if_pos record, ensure_congr fresh]
          apply checked_bind_map_congr
          intro _ _
          exact found_next entry opened (by omega) next.2
        · rw [if_neg (type ▸ record), if_neg record]
          exact skipped_next entry opened (by omega) next.2
      next => rfl

end Blob

/-- The rollback record is found in the blob at both places, or in neither. -/
theorem Descriptor.findRollbackRecord_shift {left right : Flash} {shift start stop : Nat}
    {descriptor : Descriptor} (mirrors : left.Mirrors right shift start stop)
    (bounded : shift + stop < Offset.limit)
    (blob : ∀ extent ∈ descriptor.layout.blob,
      start ≤ extent.offset ∧ extent.offset + extent.length ≤ stop) :
    (descriptor.moved shift).findRollbackRecord left =
      Option.map (Extent.shift shift) <$> descriptor.findRollbackRecord right := by
  have place : (descriptor.moved shift).layout.blob =
    descriptor.layout.blob.map (Extent.shift shift) := rfl
  rw [findRollbackRecord, findRollbackRecord, place]
  cases present : descriptor.layout.blob with
  | none => rfl
  | some extent =>
      obtain ⟨low, high⟩ := blob extent present
      dsimp only [Option.map_some, Extent.shift]
      apply checked_bind_map_congr
      intro _ passed
      have room := ensure_eq_ok.1 passed
      have header := mirrors low (show extent.offset + Layout.sectionHeaderLength ≤ stop by omega)
      rw [header]
      apply checked_bind_map_congr
      intro head _
      apply checked_bind_map_congr
      intro _ _
      rw [Offset.add_bind (by omega), Offset.add_bind (by omega), Offset.add_bind (by omega),
        Offset.add_bind (by omega), Nat.add_assoc, Nat.add_assoc]
      exact @Blob.findFrom_shift left right shift extent.offset _
        (extent.offset + Layout.sectionHeaderLength) none (mirrors.part low high) (by omega)
        (by omega) (by omega)

namespace Rollback

/-- An image carries the same record at both places. -/
theorem readCarried_shift {left right : Flash} {shift start stop : Nat}
    {descriptor : Descriptor} (mirrors : left.Mirrors right shift start stop)
    (bounded : shift + stop < Offset.limit)
    (blob : ∀ extent ∈ descriptor.layout.blob,
      start ≤ extent.offset ∧ extent.offset + extent.length ≤ stop) :
    readCarried left (descriptor.moved shift) = readCarried right descriptor := by
  rw [readCarried, readCarried, Descriptor.findRollbackRecord_shift mirrors bounded blob,
    bind_map_left]
  apply checked_bind_congr
  intro found result
  cases found with
  | none => rfl
  | some payload =>
      obtain ⟨place, present, above, below⟩ := Descriptor.record_mem_blob result
      obtain ⟨low, high⟩ := blob place present
      dsimp only [Option.map_some, Extent.shift]
      rw [mirrors (by omega) (by omega)]

/-- The protection against rollback decides alike at both places, on every storage. -/
theorem enforce_shift {left right : Flash} {shift start stop : Nat}
    {descriptor : Descriptor} (mirrors : left.Mirrors right shift start stop)
    (bounded : shift + stop < Offset.limit)
    (blob : ∀ extent ∈ descriptor.layout.blob,
      start ≤ extent.offset ∧ extent.offset + extent.length ≤ stop)
    {m : Type → Type} [Monad m] (storage : Option (RecordStorage m)) :
    enforce left (descriptor.moved shift) storage = enforce right descriptor storage := by
  unfold enforce
  rw [readCarried_shift mirrors bounded blob]

end Rollback

end SignedFirmware
