import SignedFirmware.Proofs.Image.Candidate

namespace SignedFirmware

/-- A range that was moved by an offset. -/
def Extent.shift (start : Nat) (extent : Extent) : Extent := ⟨start + extent.offset, extent.length⟩

@[simp] theorem Extent.shift_zero : Extent.shift 0 = id := by
  funext extent
  simp [Extent.shift]

namespace Layout

/-- A layout whose sections were all moved by an offset. -/
def shift (start : Nat) (layout : Layout) : Layout where
  hash := layout.hash.shift start
  denylist := layout.denylist.map (Extent.shift start)
  blob := layout.blob.map (Extent.shift start)
  signature := layout.signature.shift start
  signed := layout.signed.shift start

/-- A layout that is moved by nothing stays the same. -/
@[simp] theorem shift_zero (layout : Layout) : layout.shift 0 = layout := by
  simp [shift]

/-- The sections of a layout are moved along with its base. -/
theorem tiled_shift (start base regionCount : Nat) (algorithm : Algorithm)
    (denylistSize blobSize : Nat) (scheme : Scheme) :
    tiled (start + base) regionCount algorithm denylistSize blobSize scheme =
      (tiled base regionCount algorithm denylistSize blobSize scheme).shift start := by
  by_cases noDenylist : denylistSize = 0 <;> by_cases noBlob : blobSize = 0 <;>
    simp [tiled, shift, Extent.shift, noDenylist, noBlob, Nat.add_assoc]

end Layout

namespace Descriptor

/-- The descriptor of an image that was moved by an offset. -/
def moved (start : Nat) (descriptor : Descriptor) : Descriptor :=
  { descriptor with
    offset := start + descriptor.offset
    layout := descriptor.layout.shift start }

/-- A descriptor that is moved by nothing stays the same. -/
@[simp] theorem moved_zero (descriptor : Descriptor) : descriptor.moved 0 = descriptor := by
  simp [moved]

/-- The region table does not depend on where the image lies. -/
theorem Partitioned.moved {descriptor : Descriptor} {span : Span}
    (partitioned : descriptor.Partitioned span) (start : Nat) :
    (descriptor.moved start).Partitioned span :=
  ⟨partitioned.tile, partitioned.sectors, partitioned.inside, partitioned.owner⟩

end Descriptor

/-- A flash answers in a span and carries an image that fills the span. -/
structure Flash.Carries (flash : Flash) (memory : Memory) (span : Span) (image : Bytes) :
    Prop where
  holds : flash.Holds memory
  answers : flash.Answers span
  stop : span.stop.toNat = span.start.toNat + image.length
  bytes : memory.bytes ⟨span.start.toNat, image.length⟩ = image

namespace Flash.Carries

variable {flash : Flash} {memory : Memory} {span : Span} {image : Bytes}
  {offset length : Nat}

/-- A byte of the image stands in memory at its offset from the start. -/
theorem byte (carries : flash.Carries memory span image) {index : Nat}
    (inside : index < image.length) :
    memory (span.start.toNat + index) = Memory.ofBytes image index := by
  have same := congrArg (fun bytes => bytes.getD index 0) carries.bytes
  simpa [Memory.bytes, Memory.ofBytes, inside, List.getD_eq_getElem?_getD] using same

/-- A range of the memory holds the bytes of the image. -/
theorem bytes_shift (carries : flash.Carries memory span image)
    (inside : offset + length ≤ image.length) :
    memory.bytes ⟨span.start.toNat + offset, length⟩ =
      (Memory.ofBytes image).bytes ⟨offset, length⟩ := by
  apply Memory.bytes_shift
  intro index low high
  exact carries.byte (by omega)

/-- A read within the image answers with its bytes. -/
theorem read (carries : flash.Carries memory span image)
    (inside : offset + length ≤ image.length) :
    ∃ bytes, flash.read (span.start.toNat + offset) length = .ok bytes ∧
      bytes.toList = (Memory.ofBytes image).bytes ⟨offset, length⟩ := by
  have stop := carries.stop
  obtain ⟨bytes, answer⟩ := carries.answers.read (Nat.le_add_right span.start.toNat offset)
    (show span.start.toNat + offset + length ≤ _ by omega)
  refine ⟨bytes, answer, ?_⟩
  rw [carries.holds.read answer, carries.bytes_shift inside]

/-- A word that stands in the image is read from flash. -/
theorem number (carries : flash.Carries memory span image) {word : Nat}
    (inside : offset + length ≤ image.length) (bounded : word < 256 ^ length)
    (stands : (Memory.ofBytes image).bytes ⟨offset, length⟩ = littleEndian length word) :
    flash.number (span.start.toNat + offset) length = .ok word := by
  obtain ⟨bytes, answer, same⟩ := carries.read inside
  rw [Flash.number, answer, Except.map, same, stands, littleEndianValue_littleEndian,
    Nat.mod_eq_of_lt bounded]

/-- Fields that stand in the image stand in flash. -/
theorem stands (carries : flash.Carries memory span image) {fields : List Field}
    (inside : offset + length ≤ image.length)
    (stands : (Memory.ofBytes image).bytes ⟨offset, length⟩ = Field.encodeAll fields) :
    flash.Stands (span.start.toNat + offset) length fields := by
  obtain ⟨bytes, answer, same⟩ := carries.read inside
  refine ⟨bytes, answer, ?_⟩
  rw [same, stands]
  have leads := Field.lead_encodeAll fields []
  rwa [List.append_nil] at leads

end Flash.Carries

/-- A flash made from an image and what surrounds it carries the image. -/
theorem Flash.carries_ofBytes {front image behind : Bytes} {span : Span}
    (start : span.start.toNat = front.length)
    (stop : span.stop.toNat = front.length + image.length) :
    (Flash.ofBytes (front ++ (image ++ behind))).Carries
      (Memory.ofBytes (front ++ (image ++ behind))) span image where
  holds := Flash.holds_ofBytes _
  answers := by
    apply Flash.answers_ofBytes
    rw [List.length_append, List.length_append]
    omega
  stop := by rw [start, stop]
  bytes := by rw [start, Memory.bytes_middle]

/-- A flash made from an image carries it. -/
theorem Flash.carries_self {image : Bytes} (short : image.length < Offset.limit) :
    (Flash.ofBytes image).Carries (Memory.ofBytes image) ⟨0, UInt32.ofNat image.length⟩ image where
  holds := Flash.holds_ofBytes image
  answers := Flash.answers_ofBytes (Nat.le_of_eq (UInt32.toNat_ofNat_of_lt' short))
  stop := (UInt32.toNat_ofNat_of_lt' short).trans (Nat.zero_add _).symm
  bytes := Memory.bytes_ofBytes_self image

end SignedFirmware
