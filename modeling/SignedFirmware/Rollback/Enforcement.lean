import SignedFirmware.Rollback.Blob
import SignedFirmware.Rollback.Record

namespace SignedFirmware

/-- This says why storage refused an operation. -/
inductive StorageError where
  | io
  | unspecified
  deriving DecidableEq, Repr

def StorageError.name : StorageError → String
  | .io => "Io"
  | .unspecified => "Unspecified"

/-- Storage tells the length of its record and copies what fits into a slot. -/
structure RecordStorage (m : Type → Type) where
  retrieve : (slotLength : Nat) → m (Except StorageError (Option (Nat × Bytes)))
  store : Bytes → m (Except StorageError Unit)

/-- This is what the protection against rollback did. -/
inductive RollbackOutcome where
  | disabled
  | nothingToEnforce
  | accepted
  | stored
  deriving DecidableEq, Repr

def RollbackOutcome.name : RollbackOutcome → String
  | .disabled => "Disabled"
  | .nothingToEnforce => "NothingToEnforce"
  | .accepted => "Accepted"
  | .stored => "Stored"

namespace Rollback

/-- The bytes of the record are what is stored. -/
structure Carried where
  record : RollbackRecord
  bytes : Bytes
  deriving DecidableEq, Repr

/-- This reads the record that an image carries. -/
def readCarried (flash : Flash) (descriptor : Descriptor) : Checked (Option Carried) := do
  match ← descriptor.findRollbackRecord flash with
  | none => return none
  | some payload =>
      ensure (payload.length ≤ RollbackRecord.slotLength) .invalidImageMauvData
      let bytes ← Checked.ofFlash (flash.read payload.offset payload.length)
      match RollbackRecord.parse bytes.toList with
      | .ok record => return some ⟨record, bytes.toList⟩
      | .error _ => reject .invalidImageMauvData

/-- This reads the answer of storage as a record. -/
def readStored (answer : Option (Nat × Bytes)) : Checked (Option RollbackRecord) :=
  match answer with
  | none => return none
  | some (length, copied) => do
      ensure (length ≤ RollbackRecord.slotLength) .storedImageMauvDataInvalid
      match RollbackRecord.parse ((copied ++ zeroBytes RollbackRecord.slotLength).take length) with
      | .ok record => return some record
      | .error _ => reject .storedImageMauvDataInvalid

/-- The answer holds the bytes that are to be stored. -/
def decide (stored : Option RollbackRecord) (carried : Option Carried) :
    Checked (RollbackOutcome × Option Bytes) :=
  match stored, carried with
  | none, none => return (.nothingToEnforce, none)
  | some _, none => reject .storedImageMauvExpectsPayloadImageMauv
  | none, some new => return (.stored, some new.bytes)
  | some old, some new => do
      ensure (old.allows new.record.securityVersion) .storedImageMauvDoesNotAllowUpdateToPayload
      if new.record.timestamp ≤ old.timestamp then
        return (.accepted, none)
      else
        return (.stored, some new.bytes)

/-- A failure of storage ends the run with a reason. -/
def answered {m : Type → Type} [Monad m] {α : Type} (reason : Reason)
    (operation : m (Except StorageError α)) : ExceptT Halt m α := do
  match ← operation with
  | .ok value => return value
  | .error _ => throw (.rejected reason)

/-- Without storage nothing is enforced. -/
def enforce {m : Type → Type} [Monad m] (flash : Flash) (descriptor : Descriptor)
    (storage : Option (RecordStorage m)) : ExceptT Halt m RollbackOutcome := do
  match storage with
  | none => return .disabled
  | some storage =>
      let carried ← (readCarried flash descriptor).lift
      let answer ← answered .retrievingStoredImageMauvData
        (storage.retrieve RollbackRecord.slotLength)
      let stored ← (readStored answer).lift
      let (outcome, record) ← (decide stored carried).lift
      if let some record := record then
        answered .storingNewImageMauvData (storage.store record)
      return outcome

end Rollback

end SignedFirmware
