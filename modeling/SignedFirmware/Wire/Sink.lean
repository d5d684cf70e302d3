import SignedFirmware.Reason
import SignedFirmware.Wire.Field

namespace SignedFirmware

/-- This says why bytes could not be read or written. -/
inductive WireError where
  | bufferExhausted
  | internal
  deriving DecidableEq, Repr

def WireError.name : WireError → String
  | .bufferExhausted => "BufferExhausted"
  | .internal => "Internal"

/-- Every failure to read or to write a structure is a failure of the device. -/
def WireError.reason : WireError → Reason
  | _ => .runtimeFailure

/-- A sink holds what was written and, unless it grows, the room left. -/
structure Sink where
  written : Bytes
  room : Option Nat
  deriving DecidableEq, Repr

namespace Sink

/-- An empty sink that takes any number of bytes. -/
def growing : Sink := ⟨[], none⟩

/-- An empty sink that takes `capacity` bytes. -/
def bounded (capacity : Nat) : Sink := ⟨[], some capacity⟩

/-- The buffer has zeros where nothing was written. -/
def contents (sink : Sink) : Bytes := sink.written ++ zeroBytes (sink.room.getD 0)

/-- This writes one piece, whole or not at all. -/
def writePiece (piece : Bytes) : EStateM WireError Sink Unit := fun sink =>
  match sink.room with
  | none => .ok () { sink with written := sink.written ++ piece }
  | some room =>
      if piece.length ≤ room then
        .ok () ⟨sink.written ++ piece, some (room - piece.length)⟩
      else
        .error .bufferExhausted sink

/-- The first piece that is refused ends the run. -/
def writePieces : List Bytes → EStateM WireError Sink Unit
  | [] => pure ()
  | piece :: rest => do
      writePiece piece
      writePieces rest

/-- Zeros are written in pieces of at most eight bytes. -/
def writeZeros (count : Nat) : EStateM WireError Sink Unit := do
  if _done : count = 0 then
    return ()
  else
    writePiece (zeroBytes (min count 8))
    writeZeros (count - min count 8)
termination_by count
decreasing_by omega

def write : Field → EStateM WireError Sink Unit
  | .zeros count => writeZeros count
  | field => writePiece field.encode

/-- The first field that does not fit ends the run. -/
def writeAll : List Field → EStateM WireError Sink Unit
  | [] => pure ()
  | field :: rest => do
      write field
      writeAll rest

theorem writePieces_append (front back : List Bytes) :
    writePieces (front ++ back) = (do writePieces front; writePieces back) := by
  induction front with
  | nil => simp [writePieces]
  | cons piece rest ih => simp [writePieces, ih]

theorem writePieces_singleton (piece : Bytes) : writePieces [piece] = writePiece piece := by
  simp [writePieces]

theorem writeZeros_eq (count : Nat) : writeZeros count = writePieces (Field.zeroPieces count) := by
  fun_induction writeZeros count with
  | case1 => simp [Field.zeroPieces, writePieces]
  | case2 count positive ih =>
      rw [ih]
      by_cases short : count < 8
      · have least : min count 8 = count := by omega
        rw [Field.zeroPieces_of_lt (by omega) short, writePieces_singleton, least]
        simp [Field.zeroPieces, writePieces]
      · have least : min count 8 = 8 := by omega
        rw [Field.zeroPieces_of_le (Nat.le_of_not_lt short), least]
        rfl

/-- A field is written piece by piece. -/
theorem write_eq (field : Field) : write field = writePieces field.pieces := by
  cases field <;> simp [write, Field.pieces, writeZeros_eq, writePieces_singleton]

/-- Fields are written piece by piece. -/
theorem writeAll_eq (fields : List Field) :
    writeAll fields = writePieces (fields.flatMap Field.pieces) := by
  induction fields with
  | nil => rfl
  | cons field rest ih => rw [writeAll, List.flatMap_cons, writePieces_append, write_eq, ih]

end Sink

end SignedFirmware
