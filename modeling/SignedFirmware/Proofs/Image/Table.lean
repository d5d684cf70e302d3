import SignedFirmware.Proofs.Image.Parsing

namespace SignedFirmware

/-- The entries of a region table stand one after the other. -/
theorem Region.bytes_entries {regions : List Region} {index : Nat}
    (inside : index < regions.length) (back : Bytes) :
    (Memory.ofBytes (Field.encodeAll (regions.flatMap Region.fields) ++ back)).bytes
      ⟨index * Region.entryLength, Region.entryLength⟩ =
        Field.encodeAll regions[index].fields := by
  induction regions generalizing index with
  | nil => cases inside
  | cons region rest ih =>
      have length : (Field.encodeAll region.fields).length = Region.entryLength := by simp
      rw [List.flatMap_cons, Field.encodeAll_append, List.append_assoc]
      cases index with
      | zero =>
          have first := Memory.bytes_middle []
            (Field.encodeAll region.fields)
            (Field.encodeAll (rest.flatMap Region.fields) ++ back)
          rw [length] at first
          simpa using first
      | succ index =>
          have later := Memory.bytes_append_right (Field.encodeAll region.fields)
            (Field.encodeAll (rest.flatMap Region.fields) ++ back) (index * Region.entryLength)
            Region.entryLength
          rw [length, Nat.add_comm, ← Nat.succ_mul] at later
          rw [later]
          exact ih (Nat.lt_of_succ_lt_succ inside)

/-- Structures of one length take up as many times that length. -/
theorem Field.length_encodeAll_flatMap {α : Type} {fields : α → List Field} {width : Nat}
    (fixed : ∀ value, (encodeAll (fields value)).length = width) (values : List α) :
    (encodeAll (values.flatMap fields)).length = width * values.length := by
  induction values with
  | nil => rfl
  | cons value rest ih =>
      rw [List.flatMap_cons, encodeAll_append, List.length_append, ih, fixed, List.length_cons,
        Nat.mul_succ, Nat.add_comm]

/-- Fields in the middle are found after the ones in front. -/
theorem Field.bytes_between (before middle after : List Field) (back : Bytes) :
    (Memory.ofBytes (encodeAll (before ++ (middle ++ after)) ++ back)).bytes
      ⟨(encodeAll before).length, (encodeAll middle).length⟩ = encodeAll middle := by
  have found := Memory.bytes_middle (encodeAll before) (encodeAll middle) (encodeAll after ++ back)
  rwa [← List.append_assoc, ← List.append_assoc, ← encodeAll_append, ← encodeAll_append,
    List.append_assoc before] at found

/-- The number of regions fixes the length of header and table. -/
@[simp] theorem Descriptor.length_fields (descriptor : Descriptor) :
    (Field.encodeAll descriptor.fields).length =
      Layout.headerLength + Region.entryLength * descriptor.regions.length := by
  rw [fields, Field.encodeAll_append, List.length_append, Header.length_encode,
    Field.length_encodeAll_flatMap Region.length_encode]

namespace Descriptor

/-- The header stands first. -/
theorem bytes_header (descriptor : Descriptor) (back : Bytes) :
    (Memory.ofBytes (Field.encodeAll descriptor.fields ++ back)).bytes ⟨0, Layout.headerLength⟩ =
      Field.encodeAll descriptor.header.fields := by
  have found := Field.bytes_between [] descriptor.header.fields
    (descriptor.regions.flatMap Region.fields) back
  rw [Header.length_encode] at found
  simpa [fields] using found

/-- The entries of the region table stand after the header. -/
theorem bytes_entry {descriptor : Descriptor} {index : Nat}
    (inside : index < descriptor.regions.length) (back : Bytes) :
    (Memory.ofBytes (Field.encodeAll descriptor.fields ++ back)).bytes
      ⟨Layout.headerLength + index * Region.entryLength, Region.entryLength⟩ =
        Field.encodeAll descriptor.regions[index].fields := by
  have shifted := Memory.bytes_append_right (Field.encodeAll descriptor.header.fields)
    (Field.encodeAll (descriptor.regions.flatMap Region.fields) ++ back)
    (index * Region.entryLength) Region.entryLength
  rw [Region.bytes_entries inside back, Header.length_encode] at shifted
  rw [← shifted, fields, Field.encodeAll_append, List.append_assoc]

end Descriptor

end SignedFirmware
