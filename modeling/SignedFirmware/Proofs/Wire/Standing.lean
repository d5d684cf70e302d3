import SignedFirmware.Image.Descriptor
import SignedFirmware.Proofs.Bytes
import SignedFirmware.Proofs.Steps

namespace SignedFirmware

namespace Field

/-- A byte string is a form of a field, whatever is reserved. -/
def Accepts : Field → Bytes → Prop
  | .zeros count, bytes => bytes.length = count
  | field, bytes => bytes = field.encode

/-- Fields stand at the front of a byte string, and `rest` comes after them. -/
def Lead : List Field → Bytes → Bytes → Prop
  | [], bytes, rest => bytes = rest
  | field :: more, bytes, rest =>
      ∃ front back, field.Accepts front ∧ bytes = front ++ back ∧ Lead more back rest

theorem accepts_encode (field : Field) : field.Accepts field.encode := by
  cases field <;> simp [Accepts, encode]

theorem length_of_accepts {field : Field} {bytes : Bytes} (accepted : field.Accepts bytes) :
    bytes.length = field.encode.length := by
  cases field with
  | zeros count => simpa [Accepts, encode] using accepted
  | _ => rw [Accepts.eq_2 _ _ (by simp)] at accepted; rw [accepted]

@[simp] theorem lead_nil {bytes rest : Bytes} : Lead [] bytes rest ↔ bytes = rest := Iff.rfl

theorem lead_append {first second : List Field} {bytes rest : Bytes} :
    Lead (first ++ second) bytes rest ↔
      ∃ middle, Lead first bytes middle ∧ Lead second middle rest := by
  induction first generalizing bytes with
  | nil => simp
  | cons field more ih =>
      simp only [List.cons_append, Lead, ih]
      constructor
      · intro given
        rcases given with ⟨front, back, accepted, rfl, middle, leads, follows⟩
        exact ⟨middle, ⟨front, back, accepted, rfl, leads⟩, follows⟩
      · intro given
        rcases given with ⟨middle, ⟨front, back, accepted, rfl, leads⟩, follows⟩
        exact ⟨front, back, accepted, rfl, middle, leads, follows⟩

/-- The encoding of fields is one of the forms in which they stand. -/
theorem lead_encodeAll (fields : List Field) (rest : Bytes) :
    Lead fields (encodeAll fields ++ rest) rest := by
  induction fields with
  | nil => simp
  | cons field more ih =>
      exact ⟨field.encode, encodeAll more ++ rest, accepts_encode field, by simp, ih⟩

/-- Fields take up as many bytes as their encoding has. -/
theorem length_of_lead {fields : List Field} {bytes rest : Bytes} (leads : Lead fields bytes rest) :
    bytes.length = (encodeAll fields).length + rest.length := by
  induction fields generalizing bytes with
  | nil => simpa using congrArg List.length leads
  | cons field more ih =>
      obtain ⟨front, back, accepted, rfl, follows⟩ := leads
      have head := length_of_accepts accepted
      have tail := ih follows
      simp only [List.length_append, encodeAll_cons]
      omega

end Field

namespace Reader

variable {α β : Type}

/-- A reader takes exactly the bytes in which the fields of its value stand. -/
def Takes (reader : Reader α) (fields : α → List Field) : Prop :=
  ∀ {bytes rest : Bytes} {value : α},
    reader bytes = .ok value rest ↔ Field.Lead (fields value) bytes rest

theorem vector_eq_ok {count : Nat} {bytes rest : Bytes} {value : Vector UInt8 count} :
    vector count bytes = .ok value rest ↔ bytes = value.toList ++ rest := by
  unfold vector
  constructor
  · intro result
    dsimp only at result
    split at result
    · obtain ⟨rfl, rfl⟩ := EStateM.Result.ok.inj result
      simp
    · cases result
  · rintro rfl
    simp [Vector.toList]

theorem number_eq_ok {width number : Nat} {bytes rest : Bytes} :
    Reader.number width bytes = .ok number rest ↔
      number < 256 ^ width ∧ bytes = littleEndian width number ++ rest := by
  simp only [Reader.number, Reader.bytes, device_bind_eq_ok, vector_eq_ok, device_pure_eq_ok]
  constructor
  · intro given
    rcases given with ⟨front, middle, ⟨value, _, rfl, rfl, rfl⟩, rfl, rfl⟩
    have bound := littleEndianValue_lt value.toList
    have same := littleEndian_littleEndianValue value.toList
    rw [Vector.length_toList] at bound same
    exact ⟨bound, by rw [same]⟩
  · intro given
    rcases given with ⟨bound, rfl⟩
    let value : Vector UInt8 width := ⟨(littleEndian width number).toArray, by simp⟩
    refine ⟨value.toList, rest, ⟨value, rest, by simp [value], rfl, rfl⟩, ?_, rfl⟩
    simp [value, littleEndianValue_littleEndian, Nat.mod_eq_of_lt bound]

theorem bytes_of_le {count : Nat} {data : Bytes} (long : count ≤ data.length) :
    bytes count data = .ok (data.take count) (data.drop count) := by
  let front : Vector UInt8 count := ⟨(data.take count).toArray, by simp [long]⟩
  have taken : vector count data = .ok front (data.drop count) := by
    simp [vector_eq_ok, front]
  exact device_bind_of_ok taken

theorem vector_of_short {count : Nat} {data : Bytes} (short : data.length < count) :
    vector count data = .error .bufferExhausted data := by
  have partly : (data.take count).length ≠ count := by
    rw [List.length_take]
    omega
  rw [vector, dif_neg partly]

theorem bytes_of_short {count : Nat} {data : Bytes} (short : data.length < count) :
    bytes count data = .error .bufferExhausted data :=
  device_bind_eq_error.2 (.inl (vector_of_short short))

theorem takes_vector (count : Nat) : Takes (vector count) fun value => [.raw value.toList] := by
  intro bytes rest value
  simp [vector_eq_ok, Field.Lead, Field.Accepts, Field.encode]

/-- A reader of unsigned integers takes the little-endian bytes of its value. -/
theorem takes_unsigned {width : Nat} {ofNat : Nat → α} {toNat : α → Nat} {field : α → Field}
    (form : ∀ value bytes, (field value).Accepts bytes ↔ bytes = littleEndian width (toNat value))
    (bound : ∀ value, toNat value < 256 ^ width)
    (ofNat_toNat : ∀ value, ofNat (toNat value) = value)
    (toNat_ofNat : ∀ number, number < 256 ^ width → toNat (ofNat number) = number) :
    Takes (do return ofNat (← number width)) fun value => [field value] := by
  intro bytes rest value
  simp only [device_bind_eq_ok, number_eq_ok, device_pure_eq_ok, Field.Lead, form]
  constructor
  · intro given
    rcases given with ⟨number, middle, ⟨small, rfl⟩, rfl, rfl⟩
    exact ⟨_, middle, rfl, by rw [toNat_ofNat number small], rfl⟩
  · intro given
    rcases given with ⟨_, back, rfl, rfl, rfl⟩
    exact ⟨toNat value, back, ⟨bound value, rfl⟩, ofNat_toNat value, rfl⟩

theorem takes_uint8 : Takes uint8 fun value => [.uint8 value] := by
  have form (value : UInt8) (bytes : Bytes) :
      (Field.uint8 value).Accepts bytes ↔ bytes = littleEndian 1 value.toNat := by
    simp [Field.Accepts, Field.encode, littleEndian]
  intro data rest value
  exact takes_unsigned form UInt8.toNat_lt (by simp) fun _ => UInt8.toNat_ofNat_of_lt'

theorem takes_uint16 : Takes uint16 fun value => [.uint16 value] :=
  takes_unsigned (fun _ _ => Iff.rfl) UInt16.toNat_lt (by simp) fun _ => UInt16.toNat_ofNat_of_lt'

theorem takes_uint32 : Takes uint32 fun value => [.uint32 value] :=
  takes_unsigned (fun _ _ => Iff.rfl) UInt32.toNat_lt (by simp) fun _ => UInt32.toNat_ofNat_of_lt'

theorem takes_uint64 : Takes uint64 fun value => [.uint64 value] :=
  takes_unsigned (fun _ _ => Iff.rfl) UInt64.toNat_lt (by simp) fun _ => UInt64.toNat_ofNat_of_lt'

theorem takes_skip (count : Nat) : Takes (skip count) fun _ => [.zeros count] := by
  intro bytes rest value
  simp only [skip, Field.Lead, Field.Accepts]
  constructor
  · intro result
    split at result
    next enough =>
      obtain ⟨-, rfl⟩ := EStateM.Result.ok.inj result
      exact ⟨bytes.take count, _, by simp [enough], by simp, rfl⟩
    next short => cases result
  · intro given
    rcases given with ⟨front, back, rfl, rfl, rfl⟩
    simp

/-- A reader takes the front of every byte string that is long enough. -/
def Covers (reader : Reader α) (length : Nat) : Prop :=
  ∀ data : Bytes, length ≤ data.length → ∃ value, reader data = .ok value (data.drop length)

theorem covers_pure (value : α) : Covers (pure value) 0 := by
  intro data long
  exact ⟨value, rfl⟩

theorem covers_vector (count : Nat) : Covers (vector count) count := by
  intro data long
  exact ⟨⟨(data.take count).toArray, by simp [long]⟩, by simp [vector_eq_ok]⟩

theorem covers_skip (count : Nat) : Covers (skip count) count := by
  intro data long
  exact ⟨(), by simp [skip, long]⟩

/-- Two readers one after the other take what both take. -/
theorem covers_bind {first : Reader α} {next : α → Reader β} {front back : Nat}
    (head : Covers first front) (tail : ∀ value, Covers (next value) back) :
    Covers (first >>= next) (back + front) := by
  intro data long
  obtain ⟨found, taken⟩ := head data (by omega)
  obtain ⟨value, answer⟩ := tail found (data.drop front) (by rw [List.length_drop]; omega)
  rw [List.drop_drop, Nat.add_comm] at answer
  exact ⟨value, device_bind_eq_ok.2 ⟨found, _, taken, answer⟩⟩

theorem covers_number (width : Nat) : Covers (number width) width := by
  have whole : 0 + (0 + width) = width := by omega
  have parts : Covers (number width) (0 + (0 + width)) :=
    covers_bind (covers_bind (covers_vector width) fun _ => covers_pure _) fun _ => covers_pure _
  rwa [whole] at parts

theorem covers_uint8 : Covers uint8 1 := covers_bind (covers_number 1) fun _ => covers_pure _

theorem covers_uint16 : Covers uint16 2 := covers_bind (covers_number 2) fun _ => covers_pure _

theorem covers_uint32 : Covers uint32 4 := covers_bind (covers_number 4) fun _ => covers_pure _

theorem covers_uint64 : Covers uint64 8 := covers_bind (covers_number 8) fun _ => covers_pure _

/-- The parts are taken in order; `known` holds what they fix. -/
theorem takes_part {first : Reader α} {next : α → Reader β} {fields : α → List Field}
    (takes : Takes first fields) {value : β} (part : β → α) {more : List Field} {known : Prop}
    {rest : Bytes}
    (follows : ∀ {found : α} {bytes : Bytes}, next found bytes = .ok value rest ↔
      (known ∧ part value = found) ∧ Field.Lead more bytes rest) {bytes : Bytes} :
    (first >>= next) bytes = .ok value rest ↔
      known ∧ Field.Lead (fields (part value) ++ more) bytes rest := by
  rw [device_bind_eq_ok, Field.lead_append]
  constructor
  · intro given
    rcases given with ⟨found, middle, front, back⟩
    obtain ⟨⟨fixed, rfl⟩, leads⟩ := follows.1 back
    exact ⟨fixed, middle, takes.1 front, leads⟩
  · intro given
    rcases given with ⟨fixed, middle, front, back⟩
    exact ⟨_, middle, takes.2 front, follows.2 ⟨⟨fixed, rfl⟩, back⟩⟩

end Reader

theorem Version.takes_read : Reader.Takes Version.read Version.fields := by
  intro bytes rest version
  rw [← true_and (Field.Lead _ _ _)]
  refine Reader.takes_part Reader.takes_uint32 Version.major fun {major bytes} => ?_
  refine Reader.takes_part Reader.takes_uint32 Version.minor fun {minor bytes} => ?_
  refine Reader.takes_part Reader.takes_uint32 Version.point fun {point bytes} => ?_
  refine Reader.takes_part Reader.takes_uint32 Version.subpoint fun {subpoint bytes} => ?_
  obtain ⟨_, _, _, _⟩ := version
  simp [eq_comm, and_assoc]

/-- Sixteen bytes always hold a version. -/
theorem Version.covers_read : Reader.Covers Version.read 16 := by
  refine Reader.covers_bind Reader.covers_uint32 fun major => ?_
  refine Reader.covers_bind Reader.covers_uint32 fun minor => ?_
  refine Reader.covers_bind Reader.covers_uint32 fun point => ?_
  refine Reader.covers_bind Reader.covers_uint32 fun subpoint => ?_
  exact Reader.covers_pure _

theorem Region.takes_read : Reader.Takes Region.read Region.fields := by
  intro bytes rest region
  rw [← true_and (Field.Lead _ _ _)]
  refine Reader.takes_part (Reader.takes_vector 32) Region.name fun {name bytes} => ?_
  refine Reader.takes_part Reader.takes_uint32 Region.offset fun {offset bytes} => ?_
  refine Reader.takes_part Reader.takes_uint32 Region.size fun {size bytes} => ?_
  refine Reader.takes_part Reader.takes_uint16 Region.version fun {version bytes} => ?_
  refine Reader.takes_part Reader.takes_uint16 Region.attributeWord fun {word bytes} => ?_
  obtain ⟨_, _, _, _, _⟩ := region
  simp [eq_comm, and_assoc]

/-- The bytes of an entry always hold a region. -/
theorem Region.covers_read : Reader.Covers Region.read Region.entryLength := by
  refine Reader.covers_bind (Reader.covers_vector 32) fun name => ?_
  refine Reader.covers_bind Reader.covers_uint32 fun offset => ?_
  refine Reader.covers_bind Reader.covers_uint32 fun size => ?_
  refine Reader.covers_bind Reader.covers_uint16 fun version => ?_
  refine Reader.covers_bind Reader.covers_uint16 fun word => ?_
  exact Reader.covers_pure _

theorem Header.takes_read : Reader.Takes Header.read Header.fields := by
  intro bytes rest header
  rw [← true_and (Field.Lead _ _ _)]
  refine Reader.takes_part Reader.takes_uint64 Header.magic fun {magic bytes} => ?_
  refine Reader.takes_part Reader.takes_uint8 Header.formatMajor fun {formatMajor bytes} => ?_
  refine Reader.takes_part Reader.takes_uint8 Header.formatMinor fun {formatMinor bytes} => ?_
  refine Reader.takes_part (Reader.takes_skip 2) (fun _ => ()) fun {_ bytes} => ?_
  refine Reader.takes_part Reader.takes_uint32 Header.ownOffset fun {ownOffset bytes} => ?_
  refine Reader.takes_part Reader.takes_uint32 Header.areaSize fun {areaSize bytes} => ?_
  refine Reader.takes_part (Reader.takes_vector 32) Header.name fun {name bytes} => ?_
  refine Reader.takes_part Reader.takes_uint32 Header.family fun {family bytes} => ?_
  refine Reader.takes_part Version.takes_read Header.version fun {version bytes} => ?_
  refine Reader.takes_part Reader.takes_uint64 Header.buildTimestamp fun {timestamp bytes} => ?_
  refine Reader.takes_part Reader.takes_uint8 Header.imageType fun {imageType bytes} => ?_
  refine Reader.takes_part Reader.takes_uint8 Header.denylistSize fun {denylistSize bytes} => ?_
  refine Reader.takes_part Reader.takes_uint8 Header.hashType fun {hashType bytes} => ?_
  refine Reader.takes_part Reader.takes_uint8 Header.scheme fun {scheme bytes} => ?_
  refine Reader.takes_part Reader.takes_uint8 Header.regionCount fun {regionCount bytes} => ?_
  refine Reader.takes_part (Reader.takes_skip 3) (fun _ => ()) fun {_ bytes} => ?_
  refine Reader.takes_part Reader.takes_uint32 Header.imageSize fun {imageSize bytes} => ?_
  refine Reader.takes_part Reader.takes_uint32 Header.blobSize fun {blobSize bytes} => ?_
  obtain ⟨_, _, _, _, _, _, _, _, _, _, _, _, _, _, _, _⟩ := header
  simp [eq_comm, and_assoc]

/-- The bytes of a header always hold one. -/
theorem Header.covers_read : Reader.Covers Header.read 96 := by
  refine Reader.covers_bind Reader.covers_uint64 fun magic => ?_
  refine Reader.covers_bind Reader.covers_uint8 fun formatMajor => ?_
  refine Reader.covers_bind Reader.covers_uint8 fun formatMinor => ?_
  refine Reader.covers_bind (Reader.covers_skip 2) fun _ => ?_
  refine Reader.covers_bind Reader.covers_uint32 fun ownOffset => ?_
  refine Reader.covers_bind Reader.covers_uint32 fun areaSize => ?_
  refine Reader.covers_bind (Reader.covers_vector 32) fun name => ?_
  refine Reader.covers_bind Reader.covers_uint32 fun family => ?_
  refine Reader.covers_bind Version.covers_read fun version => ?_
  refine Reader.covers_bind Reader.covers_uint64 fun timestamp => ?_
  refine Reader.covers_bind Reader.covers_uint8 fun imageType => ?_
  refine Reader.covers_bind Reader.covers_uint8 fun denylistSize => ?_
  refine Reader.covers_bind Reader.covers_uint8 fun hashType => ?_
  refine Reader.covers_bind Reader.covers_uint8 fun scheme => ?_
  refine Reader.covers_bind Reader.covers_uint8 fun regionCount => ?_
  refine Reader.covers_bind (Reader.covers_skip 3) fun _ => ?_
  refine Reader.covers_bind Reader.covers_uint32 fun imageSize => ?_
  refine Reader.covers_bind Reader.covers_uint32 fun blobSize => ?_
  exact Reader.covers_pure _

end SignedFirmware
