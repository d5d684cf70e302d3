import SignedFirmware.Image.Descriptor.Parse

namespace SignedFirmware

namespace Blob

/-- The length of the header of a record. -/
def recordHeaderLength : Nat := 8

/-- Records start at multiples of this, counted from the start of the blob. -/
def recordAlignment : Nat := 4

/-- The type of a rollback record. Its bytes read "MAUV". -/
def rollbackType : UInt32 := 0x5655414d

/-- A record of a blob, with the place where the walk goes on. -/
structure Entry where
  type : Nat
  payload : Extent
  next : Nat
  deriving DecidableEq, Repr

/-- The record at `cursor` of the blob from `start` to `stop`. -/
def entryAt (flash : Flash) (start stop cursor : Nat) : Checked Entry := do
  let head ← Checked.ofFlash (flash.read cursor recordHeaderLength)
  let payloadStart ← Offset.add cursor recordHeaderLength
  let payloadLength := littleEndianValue (head.toList.drop 4)
  ensure (payloadStart + payloadLength ≤ stop) .invalidDescriptor
  let used ← Offset.sub (payloadStart + payloadLength) start
  return { type := littleEndianValue (head.toList.take 4)
           payload := ⟨payloadStart, payloadLength⟩
           next := min (start + Offset.roundUp used recordAlignment) stop }

theorem le_next_of_entryAt {flash : Flash} {start stop cursor : Nat} {entry : Entry}
    (result : entryAt flash start stop cursor = .ok entry) :
    cursor + recordHeaderLength ≤ entry.next ∧ entry.next ≤ stop := by
  simp only [entryAt, bind_eq_ok, ensure_eq_ok, pure_eq_ok, Offset.add_eq_ok,
    Offset.sub_eq_ok] at result
  obtain ⟨head, -, _, ⟨-, rfl⟩, -, inside, _, ⟨after, rfl⟩, rfl⟩ := result
  have rounded := @Offset.le_roundUp
    (cursor + recordHeaderLength + littleEndianValue (head.toList.drop 4) - start) recordAlignment
    (by decide)
  simp only
  omega

/-- There may be only one rollback record; `seen` is the one before the cursor. -/
def findFrom (flash : Flash) (start stop cursor : Nat) (seen : Option Extent) :
    Checked (Option Extent) := do
  if _more : recordHeaderLength ≤ (← Offset.sub stop cursor) then
    match _opened : entryAt flash start stop cursor with
    | .error halt => .error halt
    | .ok entry =>
        if entry.type = rollbackType.toNat then
          ensure (seen = none) .invalidDescriptor
          findFrom flash start stop entry.next (some entry.payload)
        else
          findFrom flash start stop entry.next seen
  else
    return seen
termination_by stop - cursor
decreasing_by
  all_goals
    have bounds := le_next_of_entryAt _opened
    simp only [recordHeaderLength] at bounds
    omega

end Blob

/-- The payload of the rollback record in the blob of a descriptor. -/
def Descriptor.findRollbackRecord (flash : Flash) (descriptor : Descriptor) :
    Checked (Option Extent) :=
  match descriptor.layout.blob with
  | none => return none
  | some blob => do
      ensure (Layout.sectionHeaderLength ≤ blob.length) .invalidDescriptor
      let head ← Checked.ofFlash (flash.read blob.offset Layout.sectionHeaderLength)
      ensure (littleEndianValue (head.toList.take 4) = magics.blob.toNat) .invalidDescriptor
      let stop ← Offset.add blob.offset blob.length
      let body ← Offset.add blob.offset Layout.sectionHeaderLength
      Blob.findFrom flash blob.offset stop body none

end SignedFirmware
