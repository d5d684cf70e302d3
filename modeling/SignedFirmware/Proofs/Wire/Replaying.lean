import SignedFirmware.Proofs.Wire.Reserved
import SignedFirmware.Proofs.Wire.Skipping

namespace SignedFirmware

namespace Reader

variable {α β : Type}

/-- A reader takes `length` bytes, whatever they are, or nothing at all. -/
structure AllOrNothing (reader : Reader α) (length : Nat) : Prop where
  covers : Covers reader length
  refuses {data : Bytes} : data.length < length → reader data = .error .bufferExhausted data

/-- A reader of all or nothing fails exactly on too few bytes. -/
theorem AllOrNothing.error_iff {reader : Reader α} {length : Nat}
    (whole : reader.AllOrNothing length) {data rest : Bytes} {error : WireError} :
    reader data = .error error rest ↔
      data.length < length ∧ error = .bufferExhausted ∧ rest = data := by
  rcases Nat.lt_or_ge data.length length with short | long
  · rw [whole.refuses short]
    simp [short, eq_comm]
  · obtain ⟨value, taken⟩ := whole.covers data long
    rw [taken]
    simp [Nat.not_lt_of_le long]

/-- A value that is mapped takes no bytes of its own. -/
theorem AllOrNothing.map {reader : Reader α} {length : Nat} (whole : reader.AllOrNothing length)
    (make : α → β) : AllOrNothing (do return make (← reader)) length where
  covers := by
    intro data long
    obtain ⟨value, taken⟩ := whole.covers data long
    exact ⟨make value, device_bind_of_ok taken⟩
  refuses short := device_bind_eq_error.2 (.inl (whole.refuses short))

theorem bytes_allOrNothing (count : Nat) : AllOrNothing (bytes count) count where
  covers _ long := ⟨_, bytes_of_le long⟩
  refuses := bytes_of_short

theorem number_allOrNothing (width : Nat) : AllOrNothing (number width) width :=
  (bytes_allOrNothing width).map littleEndianValue

theorem skip_allOrNothing (count : Nat) : AllOrNothing (skip count) count where
  covers := covers_skip count
  refuses short := by rw [skip, if_neg (Nat.not_le_of_lt short)]

/-- Bytes are read themselves or through a reference, which skips in its own way. -/
inductive Access where
  | direct
  | borrowed
  deriving DecidableEq, Repr

/-- This drops the next `count` bytes in the way of an access. -/
def Access.skip : Access → (count : Nat) → Reader Unit
  | .direct, count => Reader.skip count
  | .borrowed, count => skipByPieces count

theorem Access.skip_of_le (access : Access) {count : Nat} {data : Bytes}
    (long : count ≤ data.length) : access.skip count data = .ok () (data.drop count) := by
  cases access with
  | direct => exact if_pos long
  | borrowed => exact skipByPieces_of_le long

end Reader

namespace Field

/-- The kind of a field is all that is needed to read it. -/
inductive Kind where
  | uint8
  | uint16
  | uint32
  | uint64
  | raw (length : Nat)
  | zeros (count : Nat)
  deriving DecidableEq, Repr

def kind : Field → Kind
  | .uint8 _ => .uint8
  | .uint16 _ => .uint16
  | .uint32 _ => .uint32
  | .uint64 _ => .uint64
  | .raw bytes => .raw bytes.length
  | .zeros count => .zeros count

namespace Kind

/-- The number of bytes that a field of a kind takes up. -/
def length : Kind → Nat
  | uint8 => 1
  | uint16 => 2
  | uint32 => 4
  | uint64 => 8
  | raw length => length
  | zeros count => count

/-- This reads a field of some kind. Reserved bytes are skipped. -/
def read (access : Reader.Access) : Kind → Reader Field
  | uint8 => return .uint8 (← Reader.uint8)
  | uint16 => return .uint16 (← Reader.uint16)
  | uint32 => return .uint32 (← Reader.uint32)
  | uint64 => return .uint64 (← Reader.uint64)
  | raw length => return .raw (← Reader.bytes length)
  | zeros count => do
      access.skip count
      return .zeros count

/-- This reads fields of some kinds one after the other. -/
def readAll (access : Reader.Access) : List Kind → Reader (List Field)
  | [] => return []
  | kind :: rest => return (← kind.read access) :: (← readAll access rest)

/-- A single read takes the field. A skip through a reference may need several. -/
def AtOnce (access : Reader.Access) : Kind → Prop
  | zeros _ => access = .direct
  | _ => True

theorem read_allOrNothing {access : Reader.Access} {kind : Kind} (single : kind.AtOnce access) :
    (kind.read access).AllOrNothing kind.length := by
  cases kind with
  | uint8 => exact ((Reader.number_allOrNothing 1).map UInt8.ofNat).map Field.uint8
  | uint16 => exact ((Reader.number_allOrNothing 2).map UInt16.ofNat).map Field.uint16
  | uint32 => exact ((Reader.number_allOrNothing 4).map UInt32.ofNat).map Field.uint32
  | uint64 => exact ((Reader.number_allOrNothing 8).map UInt64.ofNat).map Field.uint64
  | raw length => exact (Reader.bytes_allOrNothing length).map Field.raw
  | zeros count =>
      obtain rfl : access = .direct := single
      exact (Reader.skip_allOrNothing count).map fun _ => Field.zeros count

end Kind

/-- A field is read back from its bytes, and the rest is left. -/
theorem read_encode (access : Reader.Access) (field : Field) (rest : Bytes) :
    field.kind.read access (field.encode ++ rest) = .ok field rest := by
  have leads := lead_encodeAll [field] rest
  rw [encodeAll_cons, encodeAll_nil, List.append_nil] at leads
  cases field with
  | uint8 value => exact device_bind_of_ok (Reader.takes_uint8.2 leads)
  | uint16 value => exact device_bind_of_ok (Reader.takes_uint16.2 leads)
  | uint32 value => exact device_bind_of_ok (Reader.takes_uint32.2 leads)
  | uint64 value => exact device_bind_of_ok (Reader.takes_uint64.2 leads)
  | raw bytes =>
      have taken := Reader.bytes_of_le (show bytes.length ≤ (bytes ++ rest).length by simp)
      rw [List.take_left, List.drop_left] at taken
      exact device_bind_of_ok taken
  | zeros count =>
      have taken := access.skip_of_le (show count ≤ (zeroBytes count ++ rest).length by simp)
      rw [List.drop_left' (length_zeroBytes count)] at taken
      exact device_bind_of_ok taken

/-- Fields are read back from their bytes in order, and the rest is left. -/
theorem readAll_encodeAll (access : Reader.Access) (fields : List Field) (rest : Bytes) :
    Kind.readAll access (fields.map kind) (encodeAll fields ++ rest) = .ok fields rest := by
  induction fields with
  | nil => rfl
  | cons field more ih =>
      have first := read_encode access field (encodeAll more ++ rest)
      rw [encodeAll_cons, List.append_assoc, List.map_cons, Kind.readAll, device_bind_of_ok first,
        device_bind_of_ok ih]
      rfl

/-- Reads of the same kinds give written fields back and leave what comes after. -/
theorem reading_undoes_writing :
    (∀ fields : List Field,
      (∀ before, Sink.writeAll fields ⟨before, none⟩ =
        .ok () ⟨before ++ encodeAll fields, none⟩) ∧
      ∀ access tail, Kind.readAll access (fields.map kind) (encodeAll fields ++ tail) =
        .ok fields tail) ∧
    ∀ (access : Reader.Access) (kind : Kind), kind.AtOnce access →
      ∀ (data rest : Bytes) (error : WireError), kind.read access data = .error error rest ↔
        data.length < kind.length ∧ error = .bufferExhausted ∧ rest = data := by
  constructor
  · intro fields
    constructor
    · intro before
      rw [Sink.writeAll_eq, Sink.writePieces_growing, flatten_flatMap_pieces]
    · intro access tail
      exact readAll_encodeAll access fields tail
  · intro access kind single data rest error
    exact (Kind.read_allOrNothing single).error_iff

/-- The magic word and three reserved bytes are read back. -/
theorem magic_read_back :
    Kind.readAll .borrowed [.uint64, .zeros 3]
        [0x5f, 0x49, 0x4d, 0x47, 0x44, 0x53, 0x43, 0x5f, 0, 0, 0, 0x21] =
      .ok [.uint64 0x5f435344474d495f, .zeros 3] [0x21] ∧
    Kind.uint32.AtOnce .borrowed ∧
    Kind.uint32.read .borrowed [0x21] = .error .bufferExhausted [0x21] := by
  obtain ⟨written, refused⟩ := reading_undoes_writing
  refine ⟨(written [.uint64 0x5f435344474d495f, .zeros 3]).2 .borrowed [0x21], trivial, ?_⟩
  exact (refused .borrowed .uint32 trivial [0x21] [0x21] .bufferExhausted).2 ⟨by decide, rfl, rfl⟩

end Field

end SignedFirmware
