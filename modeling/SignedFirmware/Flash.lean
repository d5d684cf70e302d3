import SignedFirmware.Digest.Engine
import SignedFirmware.Halt

namespace SignedFirmware

/-- A range of flash, given by its first offset and its length. -/
structure Extent where
  offset : Nat
  length : Nat
  deriving DecidableEq, Repr

namespace Extent

/-- The offset after the last one, if it is an offset. -/
def stop? (extent : Extent) : Option Nat := Offset.add? extent.offset extent.length

/-- This says whether an offset lies in the range. -/
def contains (extent : Extent) (offset : Nat) : Bool :=
  extent.offset ≤ offset && offset - extent.offset < extent.length

end Extent

/-- This says why a flash refused an operation. -/
inductive FlashError where
  | outOfRange
  | hash (error : HashError)
  | unspecified
  deriving DecidableEq, Repr

/-- The name under which an error is reported. -/
def FlashError.name : FlashError → String
  | .outOfRange => "OutOfRange"
  | .hash error => "Hash(" ++ error.name ++ ")"
  | .unspecified => "Unspecified"

/-- A flash feeds pieces in order, and may end with an error. -/
structure Feed where
  pieces : List Bytes
  error : Option FlashError
  deriving DecidableEq, Repr

/-- A flash answers each request always in the same way. -/
structure Flash where
  size : Except FlashError UInt32
  read : (offset length : Nat) → Except FlashError (Vector UInt8 length)
  feed : Extent → Feed

namespace Flash

/-- A flash that holds a byte string feeds a range in one piece. -/
def ofBytes (bytes : Bytes) : Flash :=
  let memory := bytes.toArray
  let read (offset length : Nat) : Except FlashError (Vector UInt8 length) :=
    if inside : offset + length ≤ memory.size then
      .ok ⟨memory.extract offset (offset + length), by simp; omega⟩
    else
      .error .outOfRange
  { size :=
      if memory.size < Offset.limit then .ok (UInt32.ofNat memory.size) else .error .unspecified
    read := read
    feed := fun extent =>
      match read extent.offset extent.length with
      | .ok piece => ⟨[piece.toList], none⟩
      | .error error => ⟨[], some error⟩ }

/-- A flash that can only be read feeds pieces of this length. -/
def pieceLength : Nat := 256

/-- The reads go on, piece by piece, up to the first failure. -/
def readPieces (read : (offset length : Nat) → Except FlashError (Vector UInt8 length))
    (offset length : Nat) : Feed :=
  if _done : length = 0 then
    ⟨[], none⟩
  else
    let count := min length pieceLength
    match read offset count with
    | .error error => ⟨[], some error⟩
    | .ok piece =>
        let rest := readPieces read (offset + count) (length - count)
        ⟨piece.toList :: rest.pieces, rest.error⟩
termination_by length
decreasing_by
  simp only [pieceLength]
  omega

/-- A flash that can only be read feeds a range piece by piece. -/
def ofReader (size : Except FlashError UInt32)
    (read : (offset length : Nat) → Except FlashError (Vector UInt8 length)) : Flash where
  size := size
  read := read
  feed extent :=
    match extent.stop? with
    | none => ⟨[], some .outOfRange⟩
    | some _ => readPieces read extent.offset extent.length

def number (flash : Flash) (offset width : Nat) : Except FlashError Nat :=
  (flash.read offset width).map fun bytes => littleEndianValue bytes.toList

/-- This feeds a range to a hash engine. -/
def hashExtent {σ : Type} (flash : Flash) (engine : HashEngine σ) (extent : Extent) :
    EStateM FlashError σ Unit := do
  let feed := flash.feed extent
  (engine.writeAll feed.pieces).adaptExcept FlashError.hash
  match feed.error with
  | none => return ()
  | some error => throw error

/-- This feeds ranges to a hash engine in order. -/
def hashExtents {σ : Type} (flash : Flash) (engine : HashEngine σ) :
    List Extent → EStateM FlashError σ Unit
  | [] => pure ()
  | extent :: rest => do
      flash.hashExtent engine extent
      flash.hashExtents engine rest

/-- The digest of ranges of a flash, back to back. -/
def digest {σ : Type} (flash : Flash) (engine : HashEngine σ) (algorithm : Algorithm)
    (extents : List Extent) : EStateM FlashError σ (Vector UInt8 algorithm.length) := do
  (engine.begin algorithm).adaptExcept FlashError.hash
  flash.hashExtents engine extents
  (engine.finish algorithm.length).adaptExcept FlashError.hash

end Flash

/-- Every failure of the flash is a failure of the device. -/
def FlashError.reason : FlashError → Reason
  | _ => .runtimeFailure

/-- Every failure of the hash engine is a failure of the device. -/
def HashError.reason : HashError → Reason
  | _ => .runtimeFailure

/-- An error of a flash ends the step with its reason. -/
def Checked.ofFlash {α : Type} (answer : Except FlashError α) : Checked α :=
  match answer with
  | .ok value => .ok value
  | .error error => reject error.reason

end SignedFirmware
