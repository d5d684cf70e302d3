import SignedFirmware.Proofs.Rollback.Effects
import SignedFirmware.Proofs.Rollback.Format

namespace SignedFirmware

namespace RecordStorage

variable {σ : Type}

/-- A record is only changed by a store that succeeds. -/
structure Keeps (storage : RecordStorage (StateM σ)) (record : σ → Option Bytes) : Prop where
  retrieve : ∀ slotLength before answer after,
    storage.retrieve slotLength before = (answer, after) → record after = record before ∧
      ∀ found, answer = .ok found →
        found = (record before).map fun bytes => (bytes.length, bytes.take slotLength)
  store : ∀ bytes before answer after, storage.store bytes before = (answer, after) →
    (answer = .ok () ∧ record after = some bytes) ∨
      ∃ error, answer = .error error ∧ record after = record before

end RecordStorage

namespace Rollback

section Reading

variable {flash : Flash} {descriptor : Descriptor}

/-- An image carries a record if its blob holds a well-formed one. -/
theorem readCarried_eq_some {carried : Carried} :
    readCarried flash descriptor = .ok (some carried) ↔
      ∃ payload bytes, descriptor.findRollbackRecord flash = .ok (some payload) ∧
        payload.length ≤ RollbackRecord.slotLength ∧
        flash.read payload.offset payload.length = .ok bytes ∧ bytes.toList = carried.bytes ∧
        RollbackRecord.parse carried.bytes = .ok carried.record := by
  simp only [readCarried, bind_eq_ok]
  constructor
  · intro given
    rcases given with ⟨found, located, rest⟩
    cases found with
    | none => cases pure_eq_ok.1 rest
    | some payload =>
        simp only [bind_eq_ok, ensure_eq_ok, exists_answer, ofFlash_eq_ok] at rest
        obtain ⟨short, bytes, answer, opened⟩ := rest
        split at opened
        next record parsed =>
          obtain rfl := Option.some.inj (pure_eq_ok.1 opened)
          exact ⟨payload, bytes, located, short, answer, rfl, parsed⟩
        next => exact absurd opened reject_ne_ok
  · intro given
    rcases given with ⟨payload, bytes, located, short, answer, same, parsed⟩
    refine ⟨some payload, located, ?_⟩
    simp only [bind_eq_ok, ensure_eq_ok, exists_answer, ofFlash_eq_ok]
    refine ⟨short, bytes, answer, ?_⟩
    rw [same, parsed]
    rfl

/-- A record that was handed back whole is read as it stands. -/
theorem readStored_of_parse {bytes : Bytes} {record : RollbackRecord}
    (parsed : RollbackRecord.parse bytes = .ok record) :
    readStored (some (bytes.length, bytes.take RollbackRecord.slotLength)) =
      .ok (some record) := by
  have short := RollbackRecord.length_le_of_parse parsed
  have whole : (bytes.take RollbackRecord.slotLength ++
      zeroBytes RollbackRecord.slotLength).take bytes.length = bytes := by
    rw [List.take_of_length_le short, List.take_left]
  simp only [readStored, bind_eq_ok, ensure_eq_ok, exists_answer, whole, parsed, short, true_and]
  rfl

end Reading

section Halts

open Checked

/-- The record of an image can fail to be read with these halts. -/
def UnreadHalt (halt : Halt) : Prop :=
  halt = .overflow ∨ halt = .rejected .runtimeFailure ∨ halt = .rejected .invalidDescriptor ∨
    halt = .rejected .invalidImageMauvData

theorem ends_ofFlash {α : Type} {answer : Except FlashError α} :
    (Checked.ofFlash answer).Ends UnreadHalt := by
  cases answer with
  | ok value => exact ends_ok value
  | error error => exact ends_reject (.inr (.inl rfl))

theorem ends_ensure_descriptor {condition : Prop} [Decidable condition] :
    (ensure condition .invalidDescriptor).Ends UnreadHalt :=
  ends_ensure (.inr (.inr (.inl rfl)))

theorem ends_add {left right : Nat} : (Offset.add left right).Ends UnreadHalt := by
  unfold Offset.add
  split
  · exact ends_ok _
  · intro halt equal
    exact .inl (Except.error.inj equal).symm

theorem ends_sub {left right : Nat} : (Offset.sub left right).Ends UnreadHalt := by
  unfold Offset.sub
  split
  · exact ends_ok _
  · intro halt equal
    exact .inl (Except.error.inj equal).symm

variable {flash : Flash} {descriptor : Descriptor}

theorem ends_entryAt {start stop cursor : Nat} :
    (Blob.entryAt flash start stop cursor).Ends UnreadHalt := by
  apply ends_bind ends_ofFlash
  intro head _
  apply ends_bind ends_add
  intro payloadStart _
  apply ends_bind ends_ensure_descriptor
  intro _ _
  apply ends_bind ends_sub
  intro used _
  exact ends_pure _

theorem ends_findFrom {start stop cursor : Nat} {seen : Option Extent} :
    (Blob.findFrom flash start stop cursor seen).Ends UnreadHalt := by
  induction cursor, seen using Blob.findFrom.induct flash start stop with
  | case1 cursor seen found_next skipped_next =>
      rw [Blob.findFrom_eq]
      apply ends_bind ends_sub
      intro left _
      split
      next more =>
        apply ends_bind ends_entryAt
        intro entry opened
        split
        next =>
          apply ends_bind ends_ensure_descriptor
          intro _ _
          exact found_next entry opened
        next => exact skipped_next entry opened
      next => exact ends_pure seen

theorem ends_findRollbackRecord : (descriptor.findRollbackRecord flash).Ends UnreadHalt := by
  unfold Descriptor.findRollbackRecord
  split
  next => exact ends_pure none
  next blob _ =>
    apply ends_bind ends_ensure_descriptor
    intro _ _
    apply ends_bind ends_ofFlash
    intro head _
    apply ends_bind ends_ensure_descriptor
    intro _ _
    apply ends_bind ends_add
    intro stop _
    apply ends_bind ends_add
    intro body _
    exact ends_findFrom

/-- Reading the record of an image never blames storage. -/
theorem readCarried_unread : (readCarried flash descriptor).Ends UnreadHalt := by
  apply ends_bind ends_findRollbackRecord
  intro found _
  cases found with
  | none => exact ends_pure none
  | some payload =>
      have fits : (ensure (payload.length ≤ RollbackRecord.slotLength)
          .invalidImageMauvData).Ends UnreadHalt := ends_ensure (.inr (.inr (.inr rfl)))
      apply ends_bind fits
      intro _ _
      apply ends_bind ends_ofFlash
      intro bytes _
      split
      next => exact ends_pure _
      next => exact ends_reject (.inr (.inr (.inr rfl)))

end Halts

section Runs

variable {σ α : Type} {before : σ}

theorem run_lift_eq {step : Checked α} :
    (step.lift : ExceptT Halt (StateM σ) α).run before = (step, before) := rfl

/-- An operation on storage ends early with its reason if it fails. -/
theorem run_answered_eq {reason : Reason} {operation : StateM σ (Except StorageError α)} :
    (answered reason operation).run before =
      match operation before with
      | (.ok value, after) => (.ok value, after)
      | (.error _, after) => (.error (.rejected reason), after) := by
  rw [answered, run_bind_of_ok run_liftM_eq]
  rcases operation before with ⟨answer, after⟩
  cases answer <;> rfl

end Runs

/-- This is what storage hands back of a record that it keeps. -/
def handedBack (kept : Option Bytes) : Option (Nat × Bytes) :=
  kept.map fun bytes => (bytes.length, bytes.take RollbackRecord.slotLength)

/-- An attempt has a result, and a record is kept after it. -/
inductive Outcome (flash : Flash) (descriptor : Descriptor) (kept : Option Bytes) :
    Except Halt RollbackOutcome → Option Bytes → Prop where
  | unread {halt : Halt} (failed : readCarried flash descriptor = .error halt) :
      Outcome flash descriptor kept (.error halt) kept
  | retrieveFailed :
      Outcome flash descriptor kept (.error (.rejected .retrievingStoredImageMauvData)) kept
  | corrupt {halt : Halt} (failed : readStored (handedBack kept) = .error halt) :
      Outcome flash descriptor kept (.error halt) kept
  | refused {carried : Option Carried} {stored : Option RollbackRecord} {halt : Halt}
      (read : readCarried flash descriptor = .ok carried)
      (found : readStored (handedBack kept) = .ok stored)
      (decided : Rollback.decide stored carried = .error halt) :
      Outcome flash descriptor kept (.error halt) kept
  | left {carried : Option Carried} {stored : Option RollbackRecord} {outcome : RollbackOutcome}
      (read : readCarried flash descriptor = .ok carried)
      (found : readStored (handedBack kept) = .ok stored)
      (decided : Rollback.decide stored carried = .ok (outcome, none)) :
      Outcome flash descriptor kept (.ok outcome) kept
  | storeFailed :
      Outcome flash descriptor kept (.error (.rejected .storingNewImageMauvData)) kept
  | replaced {carried : Option Carried} {stored : Option RollbackRecord}
      {outcome : RollbackOutcome} {bytes : Bytes}
      (read : readCarried flash descriptor = .ok carried)
      (found : readStored (handedBack kept) = .ok stored)
      (decided : Rollback.decide stored carried = .ok (outcome, some bytes)) :
      Outcome flash descriptor kept (.ok outcome) (some bytes)

section Enforcement

variable {σ : Type} {storage : RecordStorage (StateM σ)} {record : σ → Option Bytes}

/-- Storage hands back its record or fails. Either way it keeps the record. -/
theorem run_retrieve (keeps : storage.Keeps record) (before : σ) :
    ∃ after, record after = record before ∧
      ((answered .retrievingStoredImageMauvData
          (storage.retrieve RollbackRecord.slotLength)).run before =
          (.ok (handedBack (record before)), after) ∨
        (answered .retrievingStoredImageMauvData
          (storage.retrieve RollbackRecord.slotLength)).run before =
          (.error (.rejected .retrievingStoredImageMauvData), after)) := by
  obtain ⟨answer, after, retrieved⟩ : ∃ answer after,
      storage.retrieve RollbackRecord.slotLength before = (answer, after) := ⟨_, _, rfl⟩
  obtain ⟨same, handed⟩ := keeps.retrieve _ _ _ _ retrieved
  refine ⟨after, same, ?_⟩
  rw [run_answered_eq, retrieved]
  cases answer with
  | error error => exact .inr rfl
  | ok found =>
      obtain rfl : found = handedBack (record before) := handed found rfl
      exact .inl rfl

/-- Storage takes the new record, or fails and keeps the old one. -/
theorem run_store (keeps : storage.Keeps record) (bytes : Bytes) (before : σ) :
    ∃ after,
      ((answered .storingNewImageMauvData (storage.store bytes)).run before = (.ok (), after) ∧
        record after = some bytes) ∨
      ((answered .storingNewImageMauvData (storage.store bytes)).run before =
          (.error (.rejected .storingNewImageMauvData), after) ∧
        record after = record before) := by
  obtain ⟨answer, after, stores⟩ : ∃ answer after,
      storage.store bytes before = (answer, after) := ⟨_, _, rfl⟩
  refine ⟨after, ?_⟩
  rw [run_answered_eq, stores]
  rcases keeps.store _ _ _ _ stores with ⟨rfl, kept⟩ | ⟨error, rfl, kept⟩
  · exact .inl ⟨rfl, kept⟩
  · exact .inr ⟨rfl, kept⟩

/-- Every attempt goes in one of these ways. -/
theorem outcome_enforce (keeps : storage.Keeps record) (flash : Flash) (descriptor : Descriptor)
    (before : σ) :
    Outcome flash descriptor (record before)
      ((enforce flash descriptor (some storage)).run before).1
      (record ((enforce flash descriptor (some storage)).run before).2) := by
  simp only [enforce, run_bind_eq, run_lift_eq]
  cases read : readCarried flash descriptor with
  | error halt => exact .unread read
  | ok carried =>
      dsimp only
      obtain ⟨between, same, retrieved | retrieved⟩ := run_retrieve keeps before
      · rw [retrieved]
        dsimp only
        cases found : readStored (handedBack (record before)) with
        | error halt =>
            dsimp only
            rw [same]
            exact .corrupt found
        | ok stored =>
            dsimp only
            cases decided : Rollback.decide stored carried with
            | error halt =>
                dsimp only
                rw [same]
                exact .refused read found decided
            | ok decision =>
                obtain ⟨outcome, none | bytes⟩ := decision
                · change Outcome _ _ _ (.ok outcome) (record between)
                  rw [same]
                  exact .left read found decided
                · -- This is the only way on which storage is written.
                  dsimp only
                  rw [run_bind_eq]
                  obtain ⟨after, ⟨stores, kept⟩ | ⟨stores, kept⟩⟩ := run_store keeps bytes between
                  · rw [stores]
                    change Outcome _ _ _ (.ok outcome) (record after)
                    rw [kept]
                    exact .replaced read found decided
                  · rw [stores]
                    dsimp only
                    rw [kept, same]
                    exact .storeFailed
      · rw [retrieved]
        dsimp only
        rw [same]
        exact .retrieveFailed

end Enforcement

/-- An allowed image takes over, and its record is stored if it is newer. -/
theorem decide_eq_ok {stored : Option RollbackRecord} {carried : Option Carried}
    {outcome : RollbackOutcome} {kept : Option Bytes}
    (decided : Rollback.decide stored carried = .ok (outcome, kept)) :
    (stored = none ∧ carried = none ∧ outcome = .nothingToEnforce ∧ kept = none) ∨
      ∃ new, carried = some new ∧
        (∀ old ∈ stored, old.minimum ≤ new.record.securityVersion ∧
          new.record.securityVersion ∉ old.denylist) ∧
        ((outcome = .stored ∧ kept = some new.bytes ∧
            ∀ old ∈ stored, old.timestamp < new.record.timestamp) ∨
          (outcome = .accepted ∧ kept = none ∧
            ∃ old ∈ stored, new.record.timestamp ≤ old.timestamp)) := by
  unfold Rollback.decide at decided
  split at decided
  next =>
    cases decided
    exact .inl ⟨rfl, rfl, rfl, rfl⟩
  next => cases decided
  next new =>
    cases decided
    exact .inr ⟨new, rfl, by simp, .inl ⟨rfl, rfl, by simp⟩⟩
  next old new =>
    obtain ⟨allowed, decided⟩ := ensure_bind_eq_ok.1 decided
    refine .inr ⟨new, rfl, by simpa [RollbackRecord.allows] using allowed, ?_⟩
    split at decided
    next older =>
      cases decided
      exact .inr ⟨rfl, rfl, old, rfl, older⟩
    next newer =>
      cases decided
      exact .inl ⟨rfl, rfl, by simpa using newer⟩

/-- The decision itself blames neither record for its form. -/
theorem decide_eq_error {stored : Option RollbackRecord} {carried : Option Carried} {halt : Halt}
    (refused : Rollback.decide stored carried = .error halt) :
    halt = .rejected .storedImageMauvExpectsPayloadImageMauv ∨
      halt = .rejected .storedImageMauvDoesNotAllowUpdateToPayload := by
  unfold Rollback.decide at refused
  split at refused
  next => cases refused
  next => exact .inl (Except.error.inj refused).symm
  next => cases refused
  next old new =>
    unfold ensure at refused
    split at refused
    next =>
      simp only [bind, Except.bind] at refused
      split at refused
      next => cases refused
      next => cases refused
    next => exact .inr (Except.error.inj refused).symm

end Rollback

end SignedFirmware
