import SignedFirmware.Proofs.Blueprint.Drafting
import SignedFirmware.Proofs.Image.Table

namespace SignedFirmware

namespace Draft

variable {draft : Draft}

@[simp] theorem length_denylistFields :
    (Field.encodeAll draft.denylistFields).length =
      Layout.denylistLength draft.denylist.length := by
  have entries := Field.length_encodeAll_flatMap Version.length_encode draft.denylist
  by_cases absent : draft.denylist = []
  · simp [denylistFields, Layout.denylistLength, absent]
  · have nonempty : draft.denylist.isEmpty = false := by simpa using absent
    rw [denylistFields, nonempty, if_neg (by simp), Field.encodeAll_append, List.length_append,
      entries, Layout.denylistLength, if_neg (by simpa using absent)]
    simp [Field.encode, Layout.sectionHeaderLength, Layout.denylistRecordLength]

/-- The fields of a draft take up the signed range. -/
theorem Consistent.length_fields (consistent : draft.Consistent) :
    (Field.encodeAll draft.fields).length = draft.descriptor.layout.signed.length := by
  rw [← consistent.layout]
  simp only [fields, Field.encodeAll_append, List.length_append, Descriptor.length_fields,
    length_denylistFields, consistent.denylist, Layout.tiled, Layout.signedLength]
  simp [Field.encode, consistent.blob, Layout.sectionHeaderLength]
  omega

/-- The header and the region table stand first. -/
theorem encodeAll_fields (draft : Draft) :
    ∃ back, Field.encodeAll draft.fields = Field.encodeAll draft.descriptor.fields ++ back := by
  rw [fields, List.append_assoc, List.append_assoc, Field.encodeAll_append]
  exact ⟨_, rfl⟩

/-- The header stands first. -/
theorem bytes_header (draft : Draft) (back : Bytes) :
    (Memory.ofBytes (Field.encodeAll draft.fields ++ back)).bytes ⟨0, Layout.headerLength⟩ =
      Field.encodeAll draft.descriptor.header.fields := by
  obtain ⟨middle, whole⟩ := draft.encodeAll_fields
  rw [whole, List.append_assoc]
  exact draft.descriptor.bytes_header _

/-- The entries of the region table stand after the header. -/
theorem bytes_entry {index : Nat} (inside : index < draft.descriptor.regions.length)
    (back : Bytes) :
    (Memory.ofBytes (Field.encodeAll draft.fields ++ back)).bytes
      ⟨Layout.headerLength + index * Region.entryLength, Region.entryLength⟩ =
        Field.encodeAll draft.descriptor.regions[index].fields := by
  obtain ⟨middle, whole⟩ := draft.encodeAll_fields
  rw [whole, List.append_assoc]
  exact Descriptor.bytes_entry inside _

/-- The word of the hash struct stands after the region table. -/
theorem bytes_hashMagic (draft : Draft) (back : Bytes) :
    (Memory.ofBytes (Field.encodeAll draft.fields ++ back)).bytes
      ⟨Layout.headerLength + Region.entryLength * draft.descriptor.regions.length, 4⟩ =
        littleEndian 4 magics.hash.toNat := by
  have found := Field.bytes_between draft.descriptor.fields [.uint32 magics.hash]
    ([.zeros (4 + draft.descriptor.algorithm.length)] ++ draft.denylistFields ++
      [.raw draft.blob]) back
  have word : Field.encodeAll [.uint32 magics.hash] = littleEndian 4 magics.hash.toNat := by
    simp [Field.encode]
  rw [Descriptor.length_fields, word, length_littleEndian] at found
  simpa only [fields, List.append_assoc, List.cons_append, List.nil_append] using found

/-- The digest of the hash struct is still zero. -/
theorem length_hashFields (algorithm : Algorithm) :
    (Field.encodeAll [.uint32 magics.hash, .zeros (4 + algorithm.length)]).length =
      Layout.sectionHeaderLength + algorithm.length := by
  simp [Field.encode, Layout.sectionHeaderLength]
  omega

/-- The length through the hash struct is fixed by the number of regions. -/
theorem length_throughHash (draft : Draft) :
    (Field.encodeAll (draft.descriptor.fields ++
      [.uint32 magics.hash, .zeros (4 + draft.descriptor.algorithm.length)])).length =
        Layout.headerLength + Region.entryLength * draft.descriptor.regions.length +
          (Layout.sectionHeaderLength + draft.descriptor.algorithm.length) := by
  rw [Field.encodeAll_append, List.length_append, Descriptor.length_fields, length_hashFields]

/-- The denylist stands after the hash struct. -/
theorem bytes_denylist (draft : Draft) (back : Bytes) :
    (Memory.ofBytes (Field.encodeAll draft.fields ++ back)).bytes
      ⟨Layout.headerLength + Region.entryLength * draft.descriptor.regions.length +
        (Layout.sectionHeaderLength + draft.descriptor.algorithm.length),
        Layout.denylistLength draft.denylist.length⟩ = Field.encodeAll draft.denylistFields := by
  have found := Field.bytes_between
    (draft.descriptor.fields ++
      [.uint32 magics.hash, .zeros (4 + draft.descriptor.algorithm.length)])
    draft.denylistFields [.raw draft.blob] back
  rw [length_throughHash, length_denylistFields] at found
  simpa only [fields, List.append_assoc] using found

/-- The blob stands after the denylist. -/
theorem bytes_blob (draft : Draft) (back : Bytes) :
    (Memory.ofBytes (Field.encodeAll draft.fields ++ back)).bytes
      ⟨Layout.headerLength + Region.entryLength * draft.descriptor.regions.length +
        (Layout.sectionHeaderLength + draft.descriptor.algorithm.length) +
          Layout.denylistLength draft.denylist.length, draft.blob.length⟩ = draft.blob := by
  have found := Field.bytes_between
    (draft.descriptor.fields ++
      [.uint32 magics.hash, .zeros (4 + draft.descriptor.algorithm.length)] ++
      draft.denylistFields) [.raw draft.blob] [] back
  have whole : Field.encodeAll [.raw draft.blob] = draft.blob := List.append_nil draft.blob
  have place : (Field.encodeAll (draft.descriptor.fields ++
      [.uint32 magics.hash, .zeros (4 + draft.descriptor.algorithm.length)] ++
      draft.denylistFields)).length =
        Layout.headerLength + Region.entryLength * draft.descriptor.regions.length +
          (Layout.sectionHeaderLength + draft.descriptor.algorithm.length) +
            Layout.denylistLength draft.denylist.length := by
    rw [Field.encodeAll_append, List.length_append, length_throughHash, length_denylistFields]
  rw [place, whole, List.append_nil] at found
  exact found

end Draft

end SignedFirmware
