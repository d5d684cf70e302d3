import SignedFirmware.Proofs.Steps
import SignedFirmware.Wire.Sink

namespace SignedFirmware

/-- The bytes that are still to be written, after those before them. -/
structure Slice where
  front : Bytes
  rest : Bytes

namespace Slice

/-- A sink has the bytes before a slice and its length. -/
def sink (place : Slice) : Sink := ⟨place.front, some place.rest.length⟩

/-- A piece overwrites the first bytes of a slice, or is refused. -/
def writePiece (piece : Bytes) : EStateM WireError Slice Unit := fun place =>
  if piece.length ≤ place.rest.length then
    .ok () ⟨place.front ++ piece, place.rest.drop piece.length⟩
  else
    .error .bufferExhausted place

/-- The first piece that is refused ends the run. -/
def writePieces : List Bytes → EStateM WireError Slice Unit
  | [] => pure ()
  | piece :: rest => do
      writePiece piece
      writePieces rest

/-- The fields are written piece by piece. -/
def writeAll (fields : List Field) : EStateM WireError Slice Unit :=
  writePieces (fields.flatMap Field.pieces)

theorem writePiece_of_fits {piece : Bytes} {place : Slice}
    (fits : piece.length ≤ place.rest.length) :
    writePiece piece place =
        .ok () ⟨place.front ++ piece, place.rest.drop piece.length⟩ ∧
      Sink.writePiece piece place.sink =
        .ok () (sink ⟨place.front ++ piece, place.rest.drop piece.length⟩) := by
  constructor
  · exact if_pos fits
  · simp only [Sink.writePiece, sink, if_pos fits, List.length_drop]

theorem writePiece_of_refused {piece : Bytes} {place : Slice}
    (refused : ¬ piece.length ≤ place.rest.length) :
    writePiece piece place = .error .bufferExhausted place ∧
      Sink.writePiece piece place.sink = .error .bufferExhausted place.sink := by
  constructor
  · exact if_neg refused
  · simp only [Sink.writePiece, sink, if_neg refused]

/-- A slice answers as its sink does and keeps its end. -/
theorem writePieces_cases (pieces : List Bytes) (place : Slice) :
    ∃ other : Slice, other.rest <:+ place.rest ∧
      (writePieces pieces place = .ok () other ∧
          Sink.writePieces pieces place.sink = .ok () other.sink ∨
        writePieces pieces place = .error .bufferExhausted other ∧
          Sink.writePieces pieces place.sink = .error .bufferExhausted other.sink) := by
  induction pieces generalizing place with
  | nil => exact ⟨place, List.suffix_refl _, .inl ⟨rfl, rfl⟩⟩
  | cons piece rest ih =>
      by_cases fits : piece.length ≤ place.rest.length
      · obtain ⟨first, told⟩ := writePiece_of_fits fits
        obtain ⟨other, ending, answers⟩ :=
          ih ⟨place.front ++ piece, place.rest.drop piece.length⟩
        refine ⟨other, ending.trans (List.drop_suffix _ _), ?_⟩
        rw [writePieces, device_bind_of_ok first, Sink.writePieces, device_bind_of_ok told]
        exact answers
      · obtain ⟨first, told⟩ := writePiece_of_refused fits
        exact ⟨place, List.suffix_refl _, .inr
          ⟨device_bind_eq_error.2 (.inl first), device_bind_eq_error.2 (.inl told)⟩⟩

/-- The bytes that are not reached stay as they are. -/
def after (place : Slice) (sink : Sink) : Slice :=
  ⟨sink.written, place.rest.drop (place.rest.length - sink.room.getD 0)⟩

theorem after_sink {place other : Slice} (ending : other.rest <:+ place.rest) :
    place.after other.sink = other := by
  rw [after, sink, Option.getD_some, ← List.suffix_iff_eq_drop.1 ending]

/-- Fields are written to a buffer as they are written to its sink. -/
theorem writeAll_eq (fields : List Field) (place : Slice) :
    writeAll fields place =
      match Sink.writeAll fields place.sink with
      | .ok () left => .ok () (place.after left)
      | .error error left => .error error (place.after left) := by
  obtain ⟨other, ending, answers⟩ := writePieces_cases (fields.flatMap Field.pieces) place
  rw [writeAll, Sink.writeAll_eq]
  rcases answers with ⟨given, told⟩ | ⟨given, told⟩
  · rw [given, told]
    exact congrArg (EStateM.Result.ok ()) (after_sink ending).symm
  · rw [given, told]
    exact congrArg (EStateM.Result.error WireError.bufferExhausted) (after_sink ending).symm

end Slice

end SignedFirmware
