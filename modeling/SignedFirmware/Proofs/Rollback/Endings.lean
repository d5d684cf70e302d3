import SignedFirmware.Proofs.Image.Endings

namespace SignedFirmware

open Checked

namespace Blob

variable {flash : Flash} {start stop cursor : Nat} {seen : Option Extent}

/-- The walk reads one record after the other. -/
theorem findFrom_eq (flash : Flash) (start stop cursor : Nat) (seen : Option Extent) :
    findFrom flash start stop cursor seen = (do
      if recordHeaderLength ≤ (← Offset.sub stop cursor) then
        let entry ← entryAt flash start stop cursor
        if entry.type = rollbackType.toNat then
          ensure (seen = none) .invalidDescriptor
          findFrom flash start stop entry.next (some entry.payload)
        else
          findFrom flash start stop entry.next seen
      else
        return seen) := by
  rw [findFrom]
  apply checked_bind_congr
  intro left _
  split
  next =>
    cases entryAt flash start stop cursor <;> rfl
  next => rfl

/-- A record that is read lies in the blob. -/
theorem payload_inside {entry : Entry} (result : entryAt flash start stop cursor = .ok entry) :
    cursor ≤ entry.payload.offset ∧ entry.payload.offset + entry.payload.length ≤ stop := by
  simp only [entryAt, bind_eq_ok, ensure_eq_ok, pure_eq_ok, Offset.add_eq_ok,
    Offset.sub_eq_ok] at result
  obtain ⟨head, -, _, ⟨-, rfl⟩, -, inside, _, ⟨after, rfl⟩, rfl⟩ := result
  exact ⟨Nat.le_add_right _ _, inside⟩

/-- The record that the walk finds lies in the blob. -/
theorem found_inside (known : ∀ extent ∈ seen,
      start ≤ extent.offset ∧ extent.offset + extent.length ≤ stop) (low : start ≤ cursor)
    {found : Extent} (result : findFrom flash start stop cursor seen = .ok (some found)) :
    start ≤ found.offset ∧ found.offset + found.length ≤ stop := by
  induction cursor, seen using findFrom.induct flash start stop with
  | case1 cursor seen found_next skipped_next =>
      rw [findFrom_eq, bind_eq_ok] at result
      obtain ⟨left, -, result⟩ := result
      split at result
      next more =>
        obtain ⟨entry, opened, result⟩ := bind_eq_ok.1 result
        have inside := payload_inside opened
        have next := le_next_of_entryAt opened
        split at result
        next =>
          rw [ensure_bind_eq_ok] at result
          have lies : ∀ extent ∈ some entry.payload,
              start ≤ extent.offset ∧ extent.offset + extent.length ≤ stop := by
            intro extent same
            obtain rfl := Option.some.inj same
            omega
          exact found_next entry opened lies (by omega) result.2
        next => exact skipped_next entry opened known (by omega) result
      next =>
        obtain rfl := (pure_eq_ok.1 result)
        exact known found rfl

variable {σ : Type} {allowed : Halt → Prop} {span : Span} {platform : Platform}
  {engine : HashEngine σ} {verifier : Verifier σ}

theorem ends_entryAt (tolerates : Tolerates allowed flash span platform engine verifier)
    (low : span.start.toNat ≤ start) (high : stop ≤ span.stop.toNat) (begun : start ≤ cursor)
    (room : cursor + recordHeaderLength ≤ stop) :
    (entryAt flash start stop cursor).Ends allowed := by
  have limit := span.stop.toNat_lt
  apply ends_bind (tolerates.forgives.ends_read (by omega) (by omega))
  intro head _
  refine Offset.ends_add_bind (by rw [Offset.limit]; omega) ?_
  apply tolerates.ends_ensure_bind (by decide)
  intro _
  refine Offset.ends_sub_bind (by omega) ?_
  exact ends_pure _

/-- The walk through the records ends as allowed. -/
theorem ends_findFrom (tolerates : Tolerates allowed flash span platform engine verifier)
    (low : span.start.toNat ≤ start) (high : stop ≤ span.stop.toNat) (begun : start ≤ cursor)
    (inside : cursor ≤ stop) : (findFrom flash start stop cursor seen).Ends allowed := by
  induction cursor, seen using findFrom.induct flash start stop with
  | case1 cursor seen found_next skipped_next =>
      rw [findFrom_eq]
      refine Offset.ends_sub_bind inside ?_
      split
      next more =>
        have room : cursor + recordHeaderLength ≤ stop := by
          rw [recordHeaderLength] at more ⊢
          omega
        apply ends_bind (ends_entryAt tolerates low high begun room)
        intro entry opened
        have next := le_next_of_entryAt opened
        split
        next =>
          apply tolerates.ends_ensure_bind (by decide)
          intro _
          exact found_next entry opened (by omega) next.2
        next => exact skipped_next entry opened (by omega) next.2
      next => exact ends_pure seen

end Blob

section Descriptors

variable {σ : Type} {allowed : Halt → Prop} {flash : Flash} {span : Span} {platform : Platform}
  {engine : HashEngine σ} {verifier : Verifier σ} {descriptor : Descriptor} {position : Nat}

/-- The rollback record lies in the blob of its descriptor. -/
theorem Descriptor.record_mem_blob {payload : Extent}
    (result : descriptor.findRollbackRecord flash = .ok (some payload)) :
    ∃ blob ∈ descriptor.layout.blob, payload.Within blob := by
  unfold findRollbackRecord at result
  split at result
  next => cases pure_eq_ok.1 result
  next blob present =>
    simp only [bind_eq_ok, ensure_eq_ok, exists_answer, Offset.add_eq_ok] at result
    obtain ⟨room, head, -, -, _, ⟨-, rfl⟩, _, ⟨-, rfl⟩, found⟩ := result
    exact ⟨blob, present, Blob.found_inside (by simp) (by omega) found⟩

/-- The rollback record lies in the span, also in another flash. -/
theorem Descriptor.record_inside {source : Flash}
    (parsed : descriptor.Parsed source position span platform) {payload : Extent}
    (result : descriptor.findRollbackRecord flash = .ok (some payload)) :
    span.start.toNat ≤ payload.offset ∧ payload.offset + payload.length ≤ span.stop.toNat := by
  have low := parsed.start_le
  have high := parsed.inside
  obtain ⟨blob, present, first, last⟩ := record_mem_blob result
  obtain ⟨above, below⟩ := parsed.blob present
  omega

/-- The search for the rollback record ends as allowed. -/
theorem Descriptor.ends_findRollbackRecord
    (tolerates : Tolerates allowed flash span platform engine verifier)
    (parsed : descriptor.Parsed flash position span platform) :
    (descriptor.findRollbackRecord flash).Ends allowed := by
  have limit := span.stop.toNat_lt
  have low := parsed.start_le
  have high := parsed.inside
  unfold findRollbackRecord
  split
  next => exact ends_pure none
  next blob present =>
    obtain ⟨above, below⟩ := parsed.blob present
    apply tolerates.ends_ensure_bind (by decide)
    intro room
    apply ends_bind (tolerates.forgives.ends_read (by omega) (by omega))
    intro head _
    apply tolerates.ends_ensure_bind (by decide)
    intro _
    refine Offset.ends_add_bind (by rw [Offset.limit]; omega) ?_
    refine Offset.ends_add_bind (by rw [Offset.limit]; omega) ?_
    exact Blob.ends_findFrom tolerates (by omega) (by omega) (by omega) (by omega)

namespace Rollback

/-- Reading the record of an image ends as allowed. -/
theorem ends_readCarried (tolerates : Tolerates allowed flash span platform engine verifier)
    (parsed : descriptor.Parsed flash position span platform) :
    (readCarried flash descriptor).Ends allowed := by
  apply ends_bind (Descriptor.ends_findRollbackRecord tolerates parsed)
  intro found result
  cases found with
  | none => exact ends_pure none
  | some payload =>
      obtain ⟨low, high⟩ := Descriptor.record_inside parsed result
      apply tolerates.ends_ensure_bind (by decide)
      intro _
      apply ends_bind (tolerates.forgives.ends_read low high)
      intro bytes _
      split
      next => exact ends_pure _
      next => exact ends_reject (tolerates.image (by decide))

theorem ends_readStored (tolerates : Tolerates allowed flash span platform engine verifier)
    (answer : Option (Nat × Bytes)) : (readStored answer).Ends allowed := by
  unfold readStored
  split
  next => exact ends_pure none
  next =>
    apply tolerates.ends_ensure_bind (by decide)
    intro _
    split
    next => exact ends_pure _
    next => exact ends_reject (tolerates.image (by decide))

theorem ends_decide (tolerates : Tolerates allowed flash span platform engine verifier)
    (stored : Option RollbackRecord) (carried : Option Carried) :
    (Rollback.decide stored carried).Ends allowed := by
  unfold Rollback.decide
  split
  next => exact ends_pure _
  next => exact ends_reject (tolerates.image (by decide))
  next => exact ends_pure _
  next =>
    apply tolerates.ends_ensure_bind (by decide)
    intro _
    split
    next => exact ends_pure _
    next => exact ends_pure _

end Rollback

end Descriptors

end SignedFirmware
