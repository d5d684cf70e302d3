import SignedFirmware.Image.Descriptor.Parse
import SignedFirmware.Proofs.Steps

namespace SignedFirmware

/-- A memory has a byte at every offset. -/
abbrev Memory := Nat → UInt8

namespace Memory

/-- The bytes of a memory in a range. -/
def bytes (memory : Memory) (extent : Extent) : Bytes :=
  (List.range' extent.offset extent.length).map memory

/-- The memory that starts with a byte string. -/
def ofBytes (content : Bytes) : Memory := fun offset => content.getD offset 0

@[simp] theorem length_bytes (memory : Memory) (extent : Extent) :
    (memory.bytes extent).length = extent.length := by
  simp [bytes]

@[simp] theorem bytes_zero (memory : Memory) (offset : Nat) : memory.bytes ⟨offset, 0⟩ = [] := rfl

/-- Two ranges back to back hold the bytes of both. -/
theorem bytes_add (memory : Memory) (offset first second : Nat) :
    memory.bytes ⟨offset, first + second⟩ =
      memory.bytes ⟨offset, first⟩ ++ memory.bytes ⟨offset + first, second⟩ := by
  rw [bytes, bytes, bytes, ← List.map_append, List.range'_append_1]

/-- Ranges of one width back to back hold the bytes of all of them. -/
theorem bytes_flatMap (memory : Memory) (offset width count : Nat) :
    ((List.range count).flatMap fun index => memory.bytes ⟨offset + width * index, width⟩) =
      memory.bytes ⟨offset, width * count⟩ := by
  induction count with
  | zero => rfl
  | succ count ih =>
      rw [List.range_succ, List.flatMap_append, ih, Nat.mul_succ, bytes_add,
        List.flatMap_singleton]

theorem take_bytes (memory : Memory) {offset length count : Nat} (inside : count ≤ length) :
    (memory.bytes ⟨offset, length⟩).take count = memory.bytes ⟨offset, count⟩ := by
  obtain ⟨rest, rfl⟩ := Nat.exists_eq_add_of_le inside
  rw [bytes_add, List.take_left' (by simp)]

theorem drop_bytes (memory : Memory) {offset length count : Nat} (inside : count ≤ length) :
    (memory.bytes ⟨offset, length⟩).drop count =
      memory.bytes ⟨offset + count, length - count⟩ := by
  obtain ⟨rest, rfl⟩ := Nat.exists_eq_add_of_le inside
  rw [bytes_add, List.drop_left' (by simp), Nat.add_sub_cancel_left]

/-- A range of a byte string's memory is a slice of it. -/
theorem bytes_ofBytes (content : Bytes) {offset length : Nat}
    (inside : offset + length ≤ content.length) :
    (ofBytes content).bytes ⟨offset, length⟩ = slice content offset (offset + length) := by
  apply List.ext_getElem
  · simp only [length_bytes, slice, List.length_take, List.length_drop]
    omega
  · intro index inFirst inSecond
    simp only [length_bytes] at inFirst
    have present : offset + index < content.length := by omega
    simp [bytes, ofBytes, slice, present]

/-- Two memories that agree on a range hold the same bytes there. -/
theorem bytes_congr {left right : Memory} {extent : Extent}
    (agree : ∀ offset, extent.offset ≤ offset → offset < extent.offset + extent.length →
      left offset = right offset) : left.bytes extent = right.bytes extent := by
  rw [bytes, bytes, List.map_congr_left]
  intro offset member
  rw [List.mem_range'_1] at member
  exact agree offset member.1 member.2

/-- Memories that agree up to a shift have equal shifted bytes. -/
theorem bytes_shift {left right : Memory} {shift offset length : Nat}
    (agree : ∀ index, offset ≤ index → index < offset + length →
      left (shift + index) = right index) :
    left.bytes ⟨shift + offset, length⟩ = right.bytes ⟨offset, length⟩ := by
  rw [bytes, bytes, ← List.map_add_range', List.map_map, List.map_congr_left]
  intro index member
  rw [List.mem_range'_1] at member
  exact agree index member.1 member.2

@[simp] theorem bytes_ofBytes_self (content : Bytes) :
    (ofBytes content).bytes ⟨0, content.length⟩ = content := by
  rw [bytes_ofBytes content (by omega), slice]
  simp

theorem ofBytes_append_left {front back : Bytes} {index : Nat} (inside : index < front.length) :
    ofBytes (front ++ back) index = ofBytes front index := by
  simp only [ofBytes, List.getD_eq_getElem?_getD, List.getElem?_append_left inside]

theorem ofBytes_append_right (front back : Bytes) (index : Nat) :
    ofBytes (front ++ back) (front.length + index) = ofBytes back index := by
  simp only [ofBytes, List.getD_eq_getElem?_getD,
    List.getElem?_append_right (Nat.le_add_right front.length index), Nat.add_sub_cancel_left]

/-- Zeros at the end make no difference to a memory. -/
theorem ofBytes_append_zeroBytes (content : Bytes) (count : Nat) :
    ofBytes (content ++ zeroBytes count) = ofBytes content := by
  funext index
  by_cases inside : index < content.length
  · exact ofBytes_append_left inside
  · obtain ⟨later, rfl⟩ := Nat.exists_eq_add_of_le (Nat.le_of_not_lt inside)
    rw [ofBytes_append_right]
    by_cases within : later < count <;> simp [ofBytes, zeroBytes, within]

/-- Byte strings of one length are equal where their memories are. -/
theorem getElem?_eq_of_ofBytes {left right : Bytes} {index : Nat}
    (length : left.length = right.length) (same : ofBytes left index = ofBytes right index) :
    left[index]? = right[index]? := by
  by_cases inside : index < left.length
  · have present : index < right.length := length ▸ inside
    simpa [ofBytes, inside, present] using same
  · rw [List.getElem?_eq_none (Nat.le_of_not_lt inside), List.getElem?_eq_none (by omega)]

/-- The bytes of the front of a memory are not changed by what follows. -/
theorem bytes_append_left {front back : Bytes} {extent : Extent}
    (inside : extent.offset + extent.length ≤ front.length) :
    (ofBytes (front ++ back)).bytes extent = (ofBytes front).bytes extent :=
  bytes_congr fun _ _ high => ofBytes_append_left (by omega)

/-- The bytes of what follows are found after the front. -/
theorem bytes_append_right (front back : Bytes) (offset length : Nat) :
    (ofBytes (front ++ back)).bytes ⟨front.length + offset, length⟩ =
      (ofBytes back).bytes ⟨offset, length⟩ :=
  bytes_shift fun index _ _ => ofBytes_append_right front back index

/-- The middle part of a byte string is found after the front. -/
theorem bytes_middle (front middle back : Bytes) :
    (ofBytes (front ++ (middle ++ back))).bytes ⟨front.length, middle.length⟩ = middle := by
  have shifted := bytes_append_right front (middle ++ back) 0 middle.length
  rw [Nat.add_zero] at shifted
  rw [shifted, bytes_append_left (Nat.le_of_eq (Nat.zero_add _)), bytes_ofBytes_self]

/-- A patch replaces the bytes in its range and leaves all others alone. -/
theorem ofBytes_splice {base patch : Bytes} {offset : Nat}
    (inside : offset + patch.length ≤ base.length) (index : Nat) :
    ofBytes (splice base offset patch) index =
      if offset ≤ index ∧ index < offset + patch.length then ofBytes patch (index - offset)
      else ofBytes base index := by
  have front : (base.take offset).length = offset := by
    rw [List.length_take]
    omega
  rw [splice, List.append_assoc]
  by_cases before : index < offset
  · rw [ofBytes_append_left (by omega), if_neg (by omega)]
    simp [ofBytes, before]
  · obtain ⟨later, rfl⟩ := Nat.exists_eq_add_of_le (Nat.le_of_not_lt before)
    have shifted := ofBytes_append_right (base.take offset)
      (patch ++ base.drop (offset + patch.length)) later
    rw [front] at shifted
    rw [shifted]
    by_cases within : later < patch.length
    · rw [ofBytes_append_left within, if_pos (by omega), Nat.add_sub_cancel_left]
    · obtain ⟨rest, rfl⟩ := Nat.exists_eq_add_of_le (Nat.le_of_not_lt within)
      rw [ofBytes_append_right, if_neg (by omega)]
      simp [ofBytes, List.getD_eq_getElem?_getD, Nat.add_assoc]

/-- A range apart from a patch holds the same bytes as before. -/
theorem bytes_splice_apart {base patch : Bytes} {offset : Nat} {extent : Extent}
    (inside : offset + patch.length ≤ base.length)
    (apart : extent.offset + extent.length ≤ offset ∨ offset + patch.length ≤ extent.offset) :
    (ofBytes (splice base offset patch)).bytes extent = (ofBytes base).bytes extent := by
  apply bytes_congr
  intro index low high
  rw [ofBytes_splice inside, if_neg (by omega)]

/-- A range within a patch holds bytes of the patch. -/
theorem bytes_splice_within {base patch : Bytes} {offset start length : Nat}
    (inside : offset + patch.length ≤ base.length) (within : start + length ≤ patch.length) :
    (ofBytes (splice base offset patch)).bytes ⟨offset + start, length⟩ =
      (ofBytes patch).bytes ⟨start, length⟩ := by
  apply bytes_shift
  intro index low high
  rw [ofBytes_splice inside, if_pos (by omega), Nat.add_sub_cancel_left]

end Memory

@[simp] theorem length_splice {base patch : Bytes} {offset : Nat}
    (inside : offset + patch.length ≤ base.length) :
    (splice base offset patch).length = base.length := by
  simp only [splice, List.length_append, List.length_take, List.length_drop]
  omega

namespace Flash

/-- Whatever a flash reads or feeds without an error comes from a memory. -/
structure Holds (flash : Flash) (memory : Memory) : Prop where
  read : ∀ {offset length : Nat} {bytes : Vector UInt8 length},
    flash.read offset length = .ok bytes → bytes.toList = memory.bytes ⟨offset, length⟩
  feed : ∀ {extent : Extent}, (flash.feed extent).error = none →
    (flash.feed extent).pieces.flatten = memory.bytes extent

/-- A flash answers every read that lies in a span. -/
def Readable (flash : Flash) (span : Span) : Prop :=
  ∀ {offset length : Nat}, span.start.toNat ≤ offset → offset + length ≤ span.stop.toNat →
    ∃ bytes, flash.read offset length = .ok bytes

/-- A flash answers every request that lies in a span. -/
structure Answers (flash : Flash) (span : Span) : Prop where
  read : flash.Readable span
  feed : ∀ {extent : Extent}, span.start.toNat ≤ extent.offset →
    extent.offset + extent.length ≤ span.stop.toNat → (flash.feed extent).error = none

/-- A number that is read from flash stands in the memory. -/
theorem Holds.number {flash : Flash} {memory : Memory} (holds : flash.Holds memory)
    {offset width word : Nat} (answer : flash.number offset width = .ok word) :
    word = littleEndianValue (memory.bytes ⟨offset, width⟩) := by
  unfold Flash.number at answer
  cases result : flash.read offset width with
  | error error => simp [result, Except.map] at answer
  | ok bytes =>
      simp only [result, Except.map, Except.ok.injEq] at answer
      rw [← answer, holds.read result]

theorem Readable.number {flash : Flash} {span : Span} (readable : flash.Readable span)
    {offset width : Nat} (low : span.start.toNat ≤ offset)
    (high : offset + width ≤ span.stop.toNat) : ∃ word, flash.number offset width = .ok word := by
  obtain ⟨bytes, answer⟩ := readable low high
  exact ⟨littleEndianValue bytes.toList, by simp [Flash.number, answer, Except.map]⟩

/-- A flash made from a byte string holds it. -/
theorem holds_ofBytes (content : Bytes) : (ofBytes content).Holds (Memory.ofBytes content) := by
  have reads {offset length : Nat} {bytes : Vector UInt8 length}
      (answer : (ofBytes content).read offset length = .ok bytes) :
      bytes.toList = (Memory.ofBytes content).bytes ⟨offset, length⟩ := by
    simp only [ofBytes] at answer
    split at answer
    next inside =>
      obtain rfl := Except.ok.inj answer
      rw [Memory.bytes_ofBytes content (by simpa using inside)]
      simp [slice, Vector.toList]
    next => cases answer
  constructor
  · exact reads
  · intro extent clean
    simp only [ofBytes] at clean ⊢
    split at clean
    next piece answer =>
      have same := reads answer
      simp [same]
    next => cases clean

/-- A flash made from a byte string answers every read that lies in it. -/
theorem read_ofBytes {content : Bytes} {offset length : Nat}
    (inside : offset + length ≤ content.length) :
    ∃ bytes, (ofBytes content).read offset length = .ok bytes := by
  have present : offset + length ≤ content.toArray.size := by rwa [List.size_toArray]
  exact ⟨_, dif_pos present⟩

/-- It answers no read that ends behind it. -/
theorem read_ofBytes_over {content : Bytes} {offset length : Nat}
    (beyond : content.length < offset + length) :
    (ofBytes content).read offset length = .error .outOfRange := by
  have absent : ¬ offset + length ≤ content.toArray.size := by
    rw [List.size_toArray]
    omega
  exact dif_neg absent

/-- It feeds a range in one piece, if the range can be read. -/
theorem feed_ofBytes (content : Bytes) (extent : Extent) :
    (ofBytes content).feed extent =
      match (ofBytes content).read extent.offset extent.length with
      | .ok piece => ⟨[piece.toList], none⟩
      | .error error => ⟨[], some error⟩ := rfl

/-- A byte string answers in every span that lies in it. -/
theorem answers_ofBytes {content : Bytes} {span : Span}
    (inside : span.stop.toNat ≤ content.length) : (ofBytes content).Answers span := by
  constructor
  · intro offset length _ high
    exact read_ofBytes (Nat.le_trans high inside)
  · intro extent _ high
    obtain ⟨bytes, answer⟩ := read_ofBytes (Nat.le_trans high inside)
    rw [feed_ofBytes, answer]

theorem size_ofBytes {content : Bytes} (short : content.length < Offset.limit) :
    (ofBytes content).size = .ok (UInt32.ofNat content.length) := by
  simp [ofBytes, short]

theorem le_of_size_ofBytes {content : Bytes} {size : UInt32}
    (sized : (ofBytes content).size = .ok size) : size.toNat ≤ content.length := by
  by_cases short : content.length < Offset.limit
  · obtain rfl := Except.ok.inj (sized.symm.trans (size_ofBytes short))
    rw [UInt32.toNat_ofNat']
    exact Nat.mod_le _ _
  · simp [ofBytes, short] at sized

end Flash

end SignedFirmware
