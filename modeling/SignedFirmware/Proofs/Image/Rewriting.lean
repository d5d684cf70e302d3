import SignedFirmware.Proofs.Image.Format
import SignedFirmware.Proofs.Image.Table
import SignedFirmware.Proofs.Wire.Reserved

namespace SignedFirmware

/-- The bytes from `start` on, after a patch at `offset` was put over them. -/
def overlay (bytes : Bytes) (start : Nat) (patch : Bytes) (offset : Nat) : Bytes :=
  bytes.mapIdx fun index byte =>
    if offset ≤ start + index then patch.getD (start + index - offset) byte else byte

/-- Bytes that a patch does not reach stay as they are. -/
theorem overlay_apart {bytes patch : Bytes} {start offset : Nat}
    (apart : start + bytes.length ≤ offset ∨ offset + patch.length ≤ start) :
    overlay bytes start patch offset = bytes := by
  apply List.ext_getElem (by simp [overlay])
  intro index _ inside
  simp only [overlay, List.getElem_mapIdx]
  split
  next reached =>
    rw [List.getD_eq_getElem?_getD, List.getElem?_eq_none (by omega), Option.getD_none]
  next => rfl

/-- Bytes that lie in the range of a patch are bytes of the patch. -/
theorem overlay_within {bytes patch : Bytes} {start offset : Nat} (low : offset ≤ start)
    (high : start + bytes.length ≤ offset + patch.length) :
    overlay bytes start patch offset =
      (Memory.ofBytes patch).bytes ⟨start - offset, bytes.length⟩ := by
  apply List.ext_getElem (by simp [overlay])
  intro index _ inMemory
  have inside : index < bytes.length := by simpa using inMemory
  have place : start + index - offset = start - offset + index := by omega
  have present : start - offset + index < patch.length := by omega
  simp [overlay, Memory.bytes, Memory.ofBytes, place, present,
    show offset ≤ start + index by omega]

/-- Bytes under a patch are those of the patched byte string. -/
theorem overlay_bytes {content patch : Bytes} {start length offset : Nat}
    (inside : offset + patch.length ≤ content.length) :
    overlay ((Memory.ofBytes content).bytes ⟨start, length⟩) start patch offset =
      (Memory.ofBytes (splice content offset patch)).bytes ⟨start, length⟩ := by
  apply List.ext_getElem (by simp [overlay])
  intro index _ _
  simp only [overlay, List.getElem_mapIdx, Memory.bytes, List.getElem_map, List.getElem_range',
    Nat.one_mul, Memory.ofBytes_splice inside]
  by_cases low : offset ≤ start + index
  · by_cases high : start + index < offset + patch.length
    · have present : start + index - offset < patch.length := by omega
      simp [low, high, Memory.ofBytes, present]
    · have absent : patch.length ≤ start + index - offset := by omega
      simp [low, high, Memory.ofBytes, absent]
  · simp [low]

namespace Flash

/-- The bytes that a flash reads come from a memory. -/
def Reveals (flash : Flash) (memory : Memory) : Prop :=
  ∀ {offset length : Nat} {bytes : Vector UInt8 length},
    flash.read offset length = .ok bytes → bytes.toList = memory.bytes ⟨offset, length⟩

/-- A flash answers as another one does, but with a patch over the bytes. -/
def Overlays (other flash : Flash) (offset : Nat) (patch : Bytes) : Prop :=
  ∀ {start length : Nat} {bytes : Vector UInt8 length}, flash.read start length = .ok bytes →
    ∃ patched, other.read start length = .ok patched ∧
      patched.toList = overlay bytes.toList start patch offset

/-- The bytes of a header and of `count` table entries. -/
def table (flash : Flash) (offset count : Nat) : Bytes :=
  flash.shown ⟨offset, 96⟩ ++
    (List.range count).flatMap fun index => flash.shown ⟨offset + 96 + 44 * index, 44⟩

variable {flash other : Flash} {memory : Memory} {patch : Bytes} {offset start length : Nat}

/-- Fields that stand in flash stand in the bytes that it shows. -/
theorem Stands.lead_shown {fields : List Field} (stands : flash.Stands offset length fields) :
    Field.Lead fields (flash.shown ⟨offset, length⟩) [] := by
  obtain ⟨bytes, answer, leads⟩ := stands
  rwa [shown, answer]

/-- The bytes in which fields stand come from the memory that a flash reveals. -/
theorem Stands.shown_eq {fields : List Field} (stands : flash.Stands offset length fields)
    (reveals : flash.Reveals memory) :
    flash.shown ⟨offset, length⟩ = memory.bytes ⟨offset, length⟩ := by
  obtain ⟨bytes, answer, -⟩ := stands
  rw [shown, answer]
  exact reveals answer

/-- A flash overlays another one if the patch has been put into its bytes. -/
theorem overlays_ofBytes {content : Bytes} (inside : offset + patch.length ≤ content.length) :
    (ofBytes (splice content offset patch)).Overlays (ofBytes content) offset patch := by
  intro start length bytes answer
  have within : start + length ≤ content.length := by
    apply Nat.le_of_not_lt
    intro beyond
    cases answer.symm.trans (read_ofBytes_over beyond)
  obtain ⟨patched, answered⟩ := @read_ofBytes (splice content offset patch) start length
    (by rwa [length_splice inside])
  refine ⟨patched, answered, ?_⟩
  rw [(holds_ofBytes content).read answer, overlay_bytes inside]
  exact (holds_ofBytes _).read answered

/-- A read that a patch does not reach is answered as before. -/
theorem Overlays.read_apart (overlays : other.Overlays flash offset patch)
    {bytes : Vector UInt8 length} (answer : flash.read start length = .ok bytes)
    (apart : start + length ≤ offset ∨ offset + patch.length ≤ start) :
    other.read start length = .ok bytes := by
  obtain ⟨patched, answered, same⟩ := overlays answer
  rw [overlay_apart (by rwa [Vector.length_toList])] at same
  rw [answered, Vector.toList_inj.1 same]

/-- A number that a patch does not reach is read as before. -/
theorem Overlays.number_apart (overlays : other.Overlays flash offset patch) {number : Nat}
    (answer : flash.number start length = .ok number)
    (apart : start + length ≤ offset ∨ offset + patch.length ≤ start) :
    other.number start length = .ok number := by
  unfold Flash.number at answer ⊢
  cases read : flash.read start length with
  | error error => simp [read, Except.map] at answer
  | ok bytes => rwa [overlays.read_apart read apart, ← read]

/-- The fields of a patch stand where it has been put. -/
theorem Overlays.stands (overlays : other.Overlays flash offset patch)
    {bytes : Vector UInt8 length} {place : Nat}
    (answer : flash.read (offset + place) length = .ok bytes) {fields : List Field}
    (high : place + length ≤ patch.length)
    (held : (Memory.ofBytes patch).bytes ⟨place, length⟩ = Field.encodeAll fields) :
    other.Stands (offset + place) length fields := by
  obtain ⟨patched, answered, same⟩ := overlays answer
  refine ⟨patched, answered, ?_⟩
  rw [overlay_within (Nat.le_add_right offset place) (by rw [Vector.length_toList]; omega),
    Nat.add_sub_cancel_left, Vector.length_toList, held] at same
  have leads := Field.lead_encodeAll fields []
  rwa [List.append_nil, ← same] at leads

end Flash

namespace Descriptor

variable {flash other : Flash} {position : Nat} {span : Span} {platform : Platform}
  {descriptor : Descriptor}

/-- Two reserved bytes come before the header's offset, and three before the image size. -/
theorem reserved_fields (descriptor : Descriptor) :
    Field.reserved 0 descriptor.fields = [10, 11, 85, 86, 87] := by
  have entries : ∀ field ∈ descriptor.regions.flatMap Region.fields, field.reservedLength = 0 := by
    intro field member
    obtain ⟨region, -, listed⟩ := List.mem_flatMap.1 member
    simp only [Region.fields, List.mem_cons, List.not_mem_nil, or_false] at listed
    rcases listed with rfl | rfl | rfl | rfl | rfl <;> rfl
  have header (header : Header) : Field.reserved 0 header.fields = [10, 11, 85, 86, 87] := by
    simp [Header.fields, Version.fields, Field.reserved, Field.reservedLength, Field.encode,
      List.range']
  rw [fields, Field.reserved_append, Field.reserved_eq_nil entries, List.append_nil, header]

/-- A denylist and a blob come after the region table. -/
theorem Parsed.table_le (parsed : Parsed flash position span platform descriptor)
    {extent : Extent}
    (present : extent ∈ descriptor.layout.denylist ∨ extent ∈ descriptor.layout.blob) :
    position + (Field.encodeAll descriptor.fields).length ≤ extent.offset := by
  rw [length_fields]
  rw [← parsed.layout] at present
  simp only [Layout.tiled, Option.mem_def, Option.ite_none_left_eq_some, Option.some.injEq]
    at present
  rcases present with ⟨-, rfl⟩ | ⟨-, rfl⟩ <;> dsimp only <;> omega

/-- The fields of a descriptor stand in the bytes of its table. -/
theorem Parsed.lead_table (parsed : Parsed flash position span platform descriptor) :
    Field.Lead descriptor.fields (flash.table position descriptor.regions.length) [] := by
  have entries := @Field.lead_flatMap _ Region.fields descriptor.regions
    (fun index => flash.shown ⟨position + 96 + 44 * index, 44⟩) fun index inside => by
      have stands := (parsed.entries index inside).lead_shown
      rwa [Nat.mul_comm] at stands
  exact Field.lead_append.2 ⟨_, parsed.header.lead_shown.append _, entries⟩

/-- The bytes of a table come from the memory that the flash reveals. -/
theorem Parsed.table_eq (parsed : Parsed flash position span platform descriptor)
    {memory : Memory} (reveals : flash.Reveals memory) :
    flash.table position descriptor.regions.length =
      memory.bytes ⟨position, 96 + 44 * descriptor.regions.length⟩ := by
  have entries : ((List.range descriptor.regions.length).flatMap fun index =>
      flash.shown ⟨position + 96 + 44 * index, 44⟩) =
      (List.range descriptor.regions.length).flatMap fun index =>
        memory.bytes ⟨position + 96 + 44 * index, 44⟩ := by
    rw [List.flatMap_def, List.flatMap_def, List.map_congr_left]
    intro index member
    have stands := (parsed.entries index (List.mem_range.1 member)).shown_eq reveals
    rwa [Nat.mul_comm] at stands
  have header : flash.shown ⟨position, 96⟩ = memory.bytes ⟨position, 96⟩ :=
    parsed.header.shown_eq reveals
  rw [Flash.table, header, entries, Memory.bytes_flatMap, ← Memory.bytes_add]

/-- A flash overlaid with the fields of a descriptor is read as that descriptor. -/
theorem Parsed.overlaid (parsed : Parsed flash position span platform descriptor)
    (overlays : other.Overlays flash position (Field.encodeAll descriptor.fields)) :
    Parsed other position span platform descriptor := by
  have length := descriptor.length_fields
  obtain ⟨denylist, blob⟩ := checkSections_eq_ok.1 parsed.sections
  have header : other.Stands position Layout.headerLength descriptor.header.fields := by
    obtain ⟨bytes, answer, -⟩ := parsed.header
    have held := descriptor.bytes_header []
    rw [List.append_nil] at held
    have atStart : flash.read (position + 0) Layout.headerLength = .ok bytes := answer
    exact overlays.stands atStart (by omega) held
  have entries (index : Nat) (inside : index < descriptor.regions.length) :
      other.Stands (position + Layout.headerLength + index * Region.entryLength)
        Region.entryLength descriptor.regions[index].fields := by
    obtain ⟨bytes, answer, -⟩ := parsed.entries index inside
    have held := bytes_entry inside []
    rw [List.append_nil] at held
    rw [Nat.add_assoc] at answer ⊢
    refine overlays.stands answer ?_ held
    simp only [length, Layout.headerLength, Region.entryLength]
    omega
  refine { parsed with header, entries, sections := checkSections_eq_ok.2 ⟨?_, ?_⟩ }
  · intro extent present
    exact overlays.number_apart (denylist extent present) (.inr (parsed.table_le (.inl present)))
  · intro extent present
    obtain ⟨room, word⟩ := blob extent present
    exact ⟨room, overlays.number_apart word (.inr (parsed.table_le (.inr present)))⟩

/-- The written bytes are those in flash with zeros at the reserved places. -/
theorem rewrite_exact (read : parse flash position span platform = .ok descriptor) :
    ∃ written,
      Sink.writeAll descriptor.fields Sink.growing = .ok () ⟨written, none⟩ ∧
      written.length = 96 + 44 * descriptor.regions.length ∧
      written = clearAt [10, 11, 85, 86, 87]
        (flash.table descriptor.offset descriptor.regions.length) ∧
      (∀ memory : Memory, flash.Reveals memory →
        written = clearAt [10, 11, 85, 86, 87]
          (memory.bytes ⟨descriptor.offset, 96 + 44 * descriptor.regions.length⟩)) ∧
      ∀ other : Flash, other.Overlays flash descriptor.offset written →
        parse other position span platform = .ok descriptor := by
  have parsed := parse_eq_ok.1 read
  have shown : Field.encodeAll descriptor.fields =
      clearAt [10, 11, 85, 86, 87] (flash.table descriptor.offset descriptor.regions.length) := by
    rw [parsed.offset, Field.encodeAll_of_lead parsed.lead_table, reserved_fields]
  refine ⟨_, Sink.writeAll_growing _, descriptor.length_fields, shown, ?_, ?_⟩
  · intro memory reveals
    rw [shown, parsed.offset, parsed.table_eq reveals]
  · intro other overlays
    rw [parsed.offset] at overlays
    exact parse_eq_ok.2 (parsed.overlaid overlays)

/-- All reserved bytes, both names' tails and all attribute bits are set. -/
def crowded : Bytes :=
  [95, 73, 77, 71, 68, 83, 67, 95, 1, 7, 222, 173, 0, 0, 0, 0, 188, 2, 0, 0, 97, 98, 0] ++
    List.replicate 29 255 ++ (List.range 28).map UInt8.ofNat ++
    [1, 0, 2, 1, 1, 9, 8, 7, 188, 2, 0, 0, 0, 0, 0, 0, 99, 0] ++ List.replicate 30 254 ++
    [0, 0, 0, 0, 188, 2, 0, 0, 3, 0, 255, 255]

/-- The crowded header is written back with zeros at the reserved places. -/
theorem crowded_rewritten :
    ∃ descriptor written,
      parse (Flash.ofBytes crowded) 0 ⟨0, 700⟩ ⟨none, none, fun _ => none⟩ = .ok descriptor ∧
      Sink.writeAll descriptor.fields Sink.growing = .ok () ⟨written, none⟩ ∧
      written = clearAt [10, 11, 85, 86, 87] crowded ∧ written ≠ crowded ∧
      parse (Flash.ofBytes (splice crowded 0 written)) 0 ⟨0, 700⟩ ⟨none, none, fun _ => none⟩ =
        .ok descriptor := by
  have counted : ((parse (Flash.ofBytes crowded) 0 ⟨0, 700⟩
      ⟨none, none, fun _ => none⟩).toOption.map fun found => found.regions.length) = some 1 := by
    decide +kernel
  obtain ⟨descriptor, found, count⟩ := Option.map_eq_some_iff.1 counted
  have read := toOption_eq_some.1 found
  obtain ⟨written, writes, length, -, shown, again⟩ := rewrite_exact read
  have offset : descriptor.offset = 0 := (parse_eq_ok.1 read).offset
  rw [offset] at shown again
  rw [count] at length shown
  have same := shown (Memory.ofBytes crowded) fun answer =>
    (Flash.holds_ofBytes crowded).read answer
  have whole : (Memory.ofBytes crowded).bytes ⟨0, 96 + 44 * 1⟩ = crowded :=
    Memory.bytes_ofBytes_self crowded
  rw [whole] at same
  refine ⟨descriptor, written, read, writes, same, ?_, again _ (Flash.overlays_ofBytes ?_)⟩
  · rw [same]
    decide +kernel
  · rw [length]
    exact Nat.le_of_eq rfl

end Descriptor

end SignedFirmware
