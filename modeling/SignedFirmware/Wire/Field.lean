import SignedFirmware.Bytes

namespace SignedFirmware

/-- A field is a little-endian word, some bytes, or a run of reserved zeros. -/
inductive Field where
  | uint8 (value : UInt8)
  | uint16 (value : UInt16)
  | uint32 (value : UInt32)
  | uint64 (value : UInt64)
  | raw (bytes : Bytes)
  | zeros (count : Nat)
  deriving DecidableEq, Repr

namespace Field

/-- The bytes that a field has on the wire. -/
def encode : Field → Bytes
  | .uint8 value => [value]
  | .uint16 value => littleEndian 2 value.toNat
  | .uint32 value => littleEndian 4 value.toNat
  | .uint64 value => littleEndian 8 value.toNat
  | .raw bytes => bytes
  | .zeros count => zeroBytes count

/-- Zeros are written in pieces of eight bytes, and the last may be shorter. -/
def zeroPieces (count : Nat) : List Bytes :=
  List.replicate (count / 8) (zeroBytes 8) ++
    if count % 8 = 0 then [] else [zeroBytes (count % 8)]

/-- Each piece of a field is written whole or not at all. -/
def pieces : Field → List Bytes
  | .zeros count => zeroPieces count
  | field => [field.encode]

/-- This encodes a list of fields back to back. -/
def encodeAll (fields : List Field) : Bytes := fields.flatMap encode

@[simp] theorem encodeAll_nil : encodeAll [] = [] := rfl

@[simp] theorem encodeAll_cons (field : Field) (rest : List Field) :
    encodeAll (field :: rest) = field.encode ++ encodeAll rest := rfl

theorem encodeAll_append (front back : List Field) :
    encodeAll (front ++ back) = encodeAll front ++ encodeAll back := by
  simp [encodeAll]

theorem zeroPieces_of_lt {count : Nat} (positive : 0 < count) (short : count < 8) :
    zeroPieces count = [zeroBytes count] := by
  have whole : count / 8 = 0 := by omega
  have part : count % 8 = count := by omega
  have nonzero : count ≠ 0 := by omega
  simp [zeroPieces, whole, part, nonzero]

theorem zeroPieces_of_le {count : Nat} (long : 8 ≤ count) :
    zeroPieces count = zeroBytes 8 :: zeroPieces (count - 8) := by
  have whole : count / 8 = (count - 8) / 8 + 1 := by omega
  have part : (count - 8) % 8 = count % 8 := by omega
  simp [zeroPieces, whole, part, List.replicate_succ]

theorem flatten_zeroPieces (count : Nat) : (zeroPieces count).flatten = zeroBytes count := by
  have split : zeroBytes count = zeroBytes (8 * (count / 8)) ++ zeroBytes (count % 8) := by
    rw [zeroBytes, zeroBytes, zeroBytes, List.replicate_append_replicate, Nat.div_add_mod]
  have whole : ∀ times, (List.replicate times (zeroBytes 8)).flatten = zeroBytes (8 * times) := by
    intro times
    induction times with
    | zero => rfl
    | succ times ih =>
        rw [List.replicate_succ, List.flatten_cons, ih, zeroBytes, zeroBytes, zeroBytes,
          List.replicate_append_replicate]
        congr 1
        omega
  rw [split, zeroPieces, List.flatten_append, whole]
  by_cases exact : count % 8 = 0 <;> simp [exact, zeroBytes]

theorem flatten_pieces (field : Field) : field.pieces.flatten = field.encode := by
  cases field <;> simp [pieces, encode, flatten_zeroPieces]

/-- The pieces of fields are their encoding, back to back. -/
theorem flatten_flatMap_pieces (fields : List Field) :
    (fields.flatMap pieces).flatten = encodeAll fields := by
  induction fields with
  | nil => rfl
  | cons field rest ih =>
      rw [List.flatMap_cons, List.flatten_append, ih, flatten_pieces, encodeAll_cons]

end Field

end SignedFirmware
