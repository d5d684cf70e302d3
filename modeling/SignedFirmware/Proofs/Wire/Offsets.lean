import SignedFirmware.Proofs.Wire.Standing

namespace SignedFirmware

/-- The little-endian number of `width` bytes at an offset. -/
def numberAt (bytes : Bytes) (offset width : Nat) : Nat :=
  littleEndianValue (slice bytes offset (offset + width))

/-- The name at an offset of a byte string. -/
def nameAt (bytes : Bytes) (offset : Nat) : Name :=
  Vector.ofFn fun index => bytes.getD (offset + index) 0

/-- The version at an offset of a byte string. -/
def Version.ofBytes (bytes : Bytes) (offset : Nat) : Version where
  major := .ofNat (numberAt bytes offset 4)
  minor := .ofNat (numberAt bytes (offset + 4) 4)
  point := .ofNat (numberAt bytes (offset + 8) 4)
  subpoint := .ofNat (numberAt bytes (offset + 12) 4)

/-- The bytes at the offsets 10, 11, 85, 86 and 87 are reserved. -/
def Header.ofBytes (bytes : Bytes) : Header where
  magic := .ofNat (numberAt bytes 0 8)
  formatMajor := .ofNat (numberAt bytes 8 1)
  formatMinor := .ofNat (numberAt bytes 9 1)
  ownOffset := .ofNat (numberAt bytes 12 4)
  areaSize := .ofNat (numberAt bytes 16 4)
  name := nameAt bytes 20
  family := .ofNat (numberAt bytes 52 4)
  version := Version.ofBytes bytes 56
  buildTimestamp := .ofNat (numberAt bytes 72 8)
  imageType := .ofNat (numberAt bytes 80 1)
  denylistSize := .ofNat (numberAt bytes 81 1)
  hashType := .ofNat (numberAt bytes 82 1)
  scheme := .ofNat (numberAt bytes 83 1)
  regionCount := .ofNat (numberAt bytes 84 1)
  imageSize := .ofNat (numberAt bytes 88 4)
  blobSize := .ofNat (numberAt bytes 92 4)

theorem length_slice {bytes : Bytes} {offset width : Nat} (inside : offset + width ≤ bytes.length) :
    (slice bytes offset (offset + width)).length = width := by
  rw [slice, List.length_take, List.length_drop]
  omega

theorem numberAt_lt (bytes : Bytes) (offset width : Nat) :
    numberAt bytes offset width < 256 ^ width := by
  have bound := littleEndianValue_lt (slice bytes offset (offset + width))
  have short : (slice bytes offset (offset + width)).length ≤ width := by
    rw [slice, List.length_take]
    omega
  exact Nat.lt_of_lt_of_le bound (Nat.pow_le_pow_right (by decide) short)

theorem slice_append_drop (bytes : Bytes) (offset width : Nat) :
    slice bytes offset (offset + width) ++ bytes.drop (offset + width) = bytes.drop offset := by
  rw [slice, ← List.drop_drop, Nat.add_sub_cancel_left, List.take_append_drop]

theorem toList_nameAt {bytes : Bytes} {offset : Nat} (inside : offset + 32 ≤ bytes.length) :
    (nameAt bytes offset).toList = slice bytes offset (offset + 32) := by
  apply List.ext_getElem
  · rw [length_slice inside, Vector.length_toList]
  · intro index inFirst inSecond
    rw [Vector.length_toList] at inFirst
    have present : offset + index < bytes.length := by omega
    simp [nameAt, slice, present]

namespace Reader

variable {α β : Type}

/-- A reader takes the bytes from one offset to another and gives a value. -/
def Yields (reader : Reader α) (bytes : Bytes) (start : Nat) (value : α) (stop : Nat) : Prop :=
  reader (bytes.drop start) = .ok value (bytes.drop stop)

variable {bytes : Bytes} {offset : Nat}

theorem Yields.bind {first : Reader α} {next : α → Reader β} {start middle stop : Nat} {found : α}
    {value : β} (head : first.Yields bytes start found middle)
    (tail : (next found).Yields bytes middle value stop) :
    (first >>= next).Yields bytes start value stop :=
  (device_bind_of_ok head).trans tail

theorem yields_number {width : Nat} (inside : offset + width ≤ bytes.length) :
    (number width).Yields bytes offset (numberAt bytes offset width) (offset + width) := by
  have length := length_slice inside
  have bound := littleEndianValue_lt (slice bytes offset (offset + width))
  have same := littleEndian_littleEndianValue (slice bytes offset (offset + width))
  rw [length] at bound same
  refine number_eq_ok.2 ⟨bound, ?_⟩
  rw [numberAt, same, slice_append_drop]

theorem yields_uint8 (inside : offset + 1 ≤ bytes.length) :
    uint8.Yields bytes offset (.ofNat (numberAt bytes offset 1)) (offset + 1) :=
  (yields_number inside).bind rfl

theorem yields_uint32 (inside : offset + 4 ≤ bytes.length) :
    uint32.Yields bytes offset (.ofNat (numberAt bytes offset 4)) (offset + 4) :=
  (yields_number inside).bind rfl

theorem yields_uint64 (inside : offset + 8 ≤ bytes.length) :
    uint64.Yields bytes offset (.ofNat (numberAt bytes offset 8)) (offset + 8) :=
  (yields_number inside).bind rfl

theorem yields_skip {count : Nat} (inside : offset + count ≤ bytes.length) :
    (skip count).Yields bytes offset () (offset + count) := by
  have enough : count ≤ (bytes.drop offset).length := by
    rw [List.length_drop]
    omega
  rw [Yields, skip, if_pos enough, List.drop_drop]

theorem yields_name (inside : offset + 32 ≤ bytes.length) :
    (vector 32).Yields bytes offset (nameAt bytes offset) (offset + 32) := by
  rw [Yields, vector_eq_ok, toList_nameAt inside, slice_append_drop]

end Reader

theorem Version.yields_read {bytes : Bytes} {offset : Nat} (inside : offset + 16 ≤ bytes.length) :
    Version.read.Yields bytes offset (Version.ofBytes bytes offset) (offset + 16) := by
  refine (Reader.yields_uint32 (by omega)).bind ?_
  refine (Reader.yields_uint32 (by omega)).bind ?_
  refine (Reader.yields_uint32 (by omega)).bind ?_
  exact (Reader.yields_uint32 (by omega)).bind rfl

/-- A header is read from every byte string that is long enough. -/
theorem Header.yields_read {bytes : Bytes} (long : 96 ≤ bytes.length) :
    Header.read.Yields bytes 0 (Header.ofBytes bytes) 96 := by
  refine (Reader.yields_uint64 (by omega)).bind ?_
  refine (Reader.yields_uint8 (by omega)).bind ?_
  refine (Reader.yields_uint8 (by omega)).bind ?_
  refine (Reader.yields_skip (by omega)).bind ?_
  refine (Reader.yields_uint32 (by omega)).bind ?_
  refine (Reader.yields_uint32 (by omega)).bind ?_
  refine (Reader.yields_name (by omega)).bind ?_
  refine (Reader.yields_uint32 (by omega)).bind ?_
  refine (Version.yields_read (by omega)).bind ?_
  refine (Reader.yields_uint64 (by omega)).bind ?_
  refine (Reader.yields_uint8 (by omega)).bind ?_
  refine (Reader.yields_uint8 (by omega)).bind ?_
  refine (Reader.yields_uint8 (by omega)).bind ?_
  refine (Reader.yields_uint8 (by omega)).bind ?_
  refine (Reader.yields_uint8 (by omega)).bind ?_
  refine (Reader.yields_skip (by omega)).bind ?_
  refine (Reader.yields_uint32 (by omega)).bind ?_
  exact (Reader.yields_uint32 (by omega)).bind rfl

end SignedFirmware
