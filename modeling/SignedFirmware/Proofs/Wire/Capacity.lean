import Mathlib.Order.Bounds.Basic
import SignedFirmware.Proofs.Wire.Reserved
import SignedFirmware.Proofs.Wire.Slices
import SignedFirmware.Rollback.Record

namespace SignedFirmware

namespace Sink

/-- Pieces are written to a place with room for all of them. -/
theorem writePieces_eq_ok {pieces : List Bytes} {written : Bytes} {room : Nat} {sink : Sink} :
    writePieces pieces ⟨written, some room⟩ = .ok () sink ↔
      pieces.flatten.length ≤ room ∧
        sink = ⟨written ++ pieces.flatten, some (room - pieces.flatten.length)⟩ := by
  induction pieces generalizing written room with
  | nil =>
      rw [writePieces, device_pure_eq_ok]
      simp [eq_comm]
  | cons piece rest ih =>
      rw [writePieces, device_bind_eq_ok, List.flatten_cons, List.length_append]
      simp only [exists_answer, writePiece]
      by_cases fits : piece.length ≤ room
      · simp only [fits, if_true, EStateM.Result.ok.injEq, true_and, exists_eq_left', ih]
        rw [List.append_assoc, Nat.sub_sub]
        constructor
        · intro given
          rcases given with ⟨more, same⟩
          exact ⟨by omega, same⟩
        · intro given
          rcases given with ⟨more, same⟩
          exact ⟨by omega, same⟩
      · simp only [fits, if_false, reduceCtorEq, false_and, exists_false, false_iff, not_and]
        omega

/-- Fields are written to a place with room for all of them. -/
theorem writeAll_eq_ok {fields : List Field} {written : Bytes} {room : Nat} {sink : Sink} :
    writeAll fields ⟨written, some room⟩ = .ok () sink ↔
      (Field.encodeAll fields).length ≤ room ∧
        sink = ⟨written ++ Field.encodeAll fields,
          some (room - (Field.encodeAll fields).length)⟩ := by
  rw [writeAll_eq, writePieces_eq_ok, Field.flatten_flatMap_pieces]

theorem writeAll_append (front back : List Field) :
    writeAll (front ++ back) = (do writeAll front; writeAll back) := by
  rw [writeAll_eq, writeAll_eq, writeAll_eq, List.flatMap_append, writePieces_append]

end Sink

namespace Field

/-- A whole field is handed to a sink in one piece. -/
def Whole : Field → Prop
  | .zeros count => count ≤ 8
  | _ => True

/-- A whole field is its own only piece, unless it has no bytes. -/
theorem pieces_of_whole {field : Field} (whole : field.Whole) (filled : 0 < field.encode.length) :
    field.pieces = [field.encode] := by
  cases field with
  | zeros count =>
      have positive : 0 < count := by simpa [encode] using filled
      rcases Nat.lt_or_eq_of_le (show count ≤ 8 from whole) with short | rfl
      · exact zeroPieces_of_lt positive short
      · exact zeroPieces_of_le (Nat.le_refl 8)
  | _ => rfl

/-- The encoding of fields can be cut at these lengths. -/
def boundaries (fields : List Field) : Set Nat :=
  {length | ∃ front, front <+: fields ∧ length = (encodeAll front).length}

/-- The front fields fit into `capacity` bytes, and the next one does not. -/
structure Cut (fields : List Field) (capacity : Nat) (front back : List Field) : Prop where
  split : fields = front ++ back
  fits : (encodeAll front).length ≤ capacity
  full : ∀ field ∈ back.head?, capacity < (encodeAll front).length + field.encode.length

theorem exists_cut (fields : List Field) (capacity : Nat) :
    ∃ front back, Cut fields capacity front back := by
  induction fields generalizing capacity with
  | nil => exact ⟨[], [], rfl, Nat.zero_le _, by simp⟩
  | cons field rest ih =>
      by_cases room : field.encode.length ≤ capacity
      · obtain ⟨front, back, split, fits, full⟩ := ih (capacity - field.encode.length)
        refine ⟨field :: front, back, by rw [split, List.cons_append], ?_, ?_⟩
        · rw [encodeAll_cons, List.length_append]
          omega
        · intro next member
          have beyond := full next member
          rw [encodeAll_cons, List.length_append]
          omega
      · refine ⟨[], field :: rest, rfl, Nat.zero_le _, ?_⟩
        intro next member
        obtain rfl : field = next := by simpa using member
        rw [encodeAll_nil, List.length_nil]
        omega

variable {fields front back : List Field} {capacity : Nat}

/-- The fields that fit end at the last boundary within the capacity. -/
theorem Cut.isGreatest (cut : Cut fields capacity front back) :
    IsGreatest {length | length ∈ boundaries fields ∧ length ≤ capacity}
      (encodeAll front).length := by
  have leads : front <+: fields := ⟨back, cut.split.symm⟩
  constructor
  · exact ⟨⟨front, leads, rfl⟩, cut.fits⟩
  · rintro length ⟨⟨other, otherLeads, rfl⟩, within⟩
    rcases List.prefix_or_prefix_of_prefix otherLeads leads with ⟨more, rfl⟩ | ⟨more, rfl⟩
    · rw [encodeAll_append, List.length_append]
      exact Nat.le_add_right _ _
    · cases more with
      | nil => rw [List.append_nil]
      | cons field more =>
          -- The first field after `front` is the first one that was left over.
          obtain ⟨rest, same⟩ := otherLeads
          rw [cut.split, List.append_assoc, List.append_cancel_left_eq, List.cons_append] at same
          have beyond := cut.full field (by rw [← same]; rfl)
          rw [encodeAll_append, encodeAll_cons, List.length_append, List.length_append] at within
          omega

/-- Everything fits if nothing is left over. -/
theorem Cut.fits_iff (cut : Cut fields capacity front back) :
    (encodeAll fields).length ≤ capacity ↔ back = [] := by
  rw [cut.split, encodeAll_append, List.length_append]
  cases back with
  | nil => simpa using cut.fits
  | cons field rest =>
      have beyond := cut.full field rfl
      rw [encodeAll_cons, List.length_append]
      simp only [reduceCtorEq, iff_false]
      omega

end Field

namespace Sink

/-- A whole field that does not fit leaves the sink as it was. -/
theorem write_refused {field : Field} (whole : field.Whole) {written : Bytes} {room : Nat}
    (beyond : room < field.encode.length) :
    write field ⟨written, some room⟩ = .error .bufferExhausted ⟨written, some room⟩ := by
  rw [write_eq, Field.pieces_of_whole whole (Nat.zero_lt_of_lt beyond), writePieces_singleton]
  exact if_neg (Nat.not_le_of_lt beyond)

/-- The buffer holds the `kept` bytes up to a boundary, and then zeros. -/
structure Truncates (fields : List Field) (capacity : Nat) (encoded : Bytes) (kept : Nat)
    (sink : Sink) : Prop where
  encodes : writeAll fields growing = .ok () ⟨encoded, none⟩
  greatest : IsGreatest {length | length ∈ Field.boundaries fields ∧ length ≤ capacity} kept
  result : writeAll fields (bounded capacity) =
    if encoded.length ≤ capacity then .ok () sink else .error .bufferExhausted sink
  contents : sink.contents = encoded.take kept ++ zeroBytes (capacity - kept)
  room : sink.room = some (capacity - kept)
  overwrites {before : Bytes} (size : before.length = capacity) :
    Slice.writeAll fields ⟨[], before⟩ =
      if encoded.length ≤ capacity then .ok () ⟨encoded.take kept, before.drop kept⟩
      else .error .bufferExhausted ⟨encoded.take kept, before.drop kept⟩

/-- A buffer of `capacity` bytes after fields that fit were written to it. -/
def holding (fields : List Field) (capacity : Nat) : Sink :=
  ⟨Field.encodeAll fields, some (capacity - (Field.encodeAll fields).length)⟩

/-- Whole fields are written as long as they fit. -/
theorem writeAll_of_cut {fields front back : List Field} {capacity : Nat}
    (whole : ∀ field ∈ fields, field.Whole) (cut : Field.Cut fields capacity front back) :
    writeAll fields (bounded capacity) =
      if (Field.encodeAll fields).length ≤ capacity then .ok () (holding front capacity)
      else .error .bufferExhausted (holding front capacity) := by
  have written : writeAll front (bounded capacity) = .ok () (holding front capacity) :=
    writeAll_eq_ok.2 ⟨cut.fits, rfl⟩
  simp only [cut.fits_iff]
  cases back with
  | nil =>
      rw [if_pos rfl, cut.split, List.append_nil]
      exact written
  | cons field rest =>
      have fits := cut.fits
      have beyond := cut.full field rfl
      have member : field ∈ fields := by rw [cut.split]; simp
      have refused : writeAll (field :: rest) (holding front capacity) =
          .error .bufferExhausted (holding front capacity) :=
        device_bind_eq_error.2 (.inl (write_refused (whole field member) (by omega)))
      rw [if_neg (by simp), cut.split, writeAll_append, device_bind_of_ok written, refused]

theorem truncates_of_cut {fields front back : List Field} {capacity : Nat}
    (whole : ∀ field ∈ fields, field.Whole) (cut : Field.Cut fields capacity front back) :
    Truncates fields capacity (Field.encodeAll fields) (Field.encodeAll front).length
      (holding front capacity) := by
  have leading : (Field.encodeAll fields).take (Field.encodeAll front).length =
      Field.encodeAll front := by
    rw [cut.split, Field.encodeAll_append, List.take_left]
  have result := writeAll_of_cut whole cut
  constructor
  case encodes => exact writeAll_growing fields
  case greatest => exact cut.isGreatest
  case result => exact result
  case contents => rw [leading]; rfl
  case room => rfl
  case overwrites =>
    rintro before rfl
    have unreached : before.length - (before.length - (Field.encodeAll front).length) =
        (Field.encodeAll front).length := Nat.sub_sub_self cut.fits
    have left : Slice.after ⟨[], before⟩ (holding front before.length) =
        ⟨Field.encodeAll front, before.drop (Field.encodeAll front).length⟩ := by
      rw [Slice.after, holding, Option.getD_some, unreached]
    have start : Slice.sink ⟨[], before⟩ = bounded before.length := rfl
    rw [Slice.writeAll_eq, start, result, leading]
    by_cases enough : (Field.encodeAll fields).length ≤ before.length
    · simp only [if_pos enough, left]
    · simp only [if_neg enough, left]

theorem exists_truncates {fields : List Field} (whole : ∀ field ∈ fields, field.Whole)
    (capacity : Nat) : ∃ encoded kept sink, Truncates fields capacity encoded kept sink := by
  obtain ⟨front, back, cut⟩ := Field.exists_cut fields capacity
  exact ⟨_, _, _, truncates_of_cut whole cut⟩

/-- The first eight bytes of a longer run may be written without the others. -/
example : writeAll [.zeros 12] (bounded 10) = .error .bufferExhausted ⟨zeroBytes 8, some 2⟩ := by
  rw [writeAll_eq]
  rfl

end Sink

theorem Header.whole_fields (header : Header) : ∀ field ∈ header.fields, field.Whole := by
  simp [fields, Version.fields, Field.Whole]

theorem Region.whole_fields (region : Region) : ∀ field ∈ region.fields, field.Whole := by
  simp [fields, Field.Whole]

theorem Descriptor.whole_fields (descriptor : Descriptor) :
    ∀ field ∈ descriptor.fields, field.Whole := by
  intro field member
  rcases List.mem_append.1 member with head | table
  · exact descriptor.header.whole_fields field head
  · obtain ⟨region, -, entry⟩ := List.mem_flatMap.1 table
    exact region.whole_fields field entry

theorem RollbackRecord.whole_fields (record : RollbackRecord) :
    ∀ field ∈ record.fields, field.Whole := by
  simp [fields, Field.Whole]

/-- The three structures are written to any buffer as far as whole fields fit. -/
theorem structures_written_whole (capacity : Nat) :
    (∀ descriptor : Descriptor, ∃ encoded kept sink,
      Sink.Truncates descriptor.fields capacity encoded kept sink) ∧
    (∀ region : Region, ∃ encoded kept sink,
      Sink.Truncates region.fields capacity encoded kept sink) ∧
    ∀ record : RollbackRecord, ∃ encoded kept sink,
      Sink.Truncates record.fields capacity encoded kept sink :=
  ⟨fun descriptor => Sink.exists_truncates descriptor.whole_fields capacity,
    fun region => Sink.exists_truncates region.whole_fields capacity,
    fun record => Sink.exists_truncates record.whole_fields capacity⟩

end SignedFirmware
