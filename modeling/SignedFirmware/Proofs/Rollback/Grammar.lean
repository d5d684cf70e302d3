import SignedFirmware.Proofs.Blueprint.Records
import SignedFirmware.Proofs.Reading
import SignedFirmware.Proofs.Rollback.Attempts

namespace SignedFirmware

/-- A flash answers every read in a range with the bytes of a memory. -/
def Flash.Shows (flash : Flash) (memory : Memory) (extent : Extent) : Prop :=
  ∀ {offset length : Nat}, Extent.Within ⟨offset, length⟩ extent →
    ∃ bytes, flash.read offset length = .ok bytes ∧ bytes.toList = memory.bytes ⟨offset, length⟩

/-- A flash made from a byte string shows it. -/
theorem Flash.shows_ofBytes {content : Bytes} {extent : Extent}
    (inside : extent.offset + extent.length ≤ content.length) :
    (ofBytes content).Shows (Memory.ofBytes content) extent := by
  intro offset length within
  obtain ⟨bytes, answer⟩ := read_ofBytes (Nat.le_trans within.2 inside)
  exact ⟨bytes, answer, (holds_ofBytes content).read answer⟩

namespace Blob

/-- A record of a blob, with the place of its payload. -/
structure Item where
  type : UInt32
  payload : Extent
  deriving DecidableEq, Repr

def Item.isRollback (item : Item) : Bool := item.type == rollbackType

/-- The payloads of the rollback records. -/
def rollbackPayloads (items : List Item) : List Extent :=
  (items.filter Item.isRollback).map Item.payload

theorem rollbackPayloads_cons (item : Item) (items : List Item) :
    rollbackPayloads (item :: items) =
      if item.type = rollbackType then item.payload :: rollbackPayloads items
      else rollbackPayloads items := by
  by_cases rollback : item.type = rollbackType <;>
    simp [rollbackPayloads, Item.isRollback, rollback]

/-- The distance from an offset in a blob to the next multiple of four. -/
def gap (used : Nat) : Nat := (4 - used % 4) % 4

/-- Records fill a blob, whose end may cut the last filling short. -/
inductive Body (start : Nat) : (used : Nat) → Bytes → List Item → Prop where
  | trailing {used : Nat} {bytes : Bytes} (short : bytes.length < 8) : Body start used bytes []
  | record {used : Nat} {type : UInt32} {payload padding rest : Bytes} {items : List Item}
      (sized : payload.length < Offset.limit)
      (filled : padding.length = gap (used + (8 + payload.length)) ∨
        padding.length < gap (used + (8 + payload.length)) ∧ rest = [])
      (follows : Body start (used + (8 + payload.length + padding.length)) rest items) :
      Body start used
        (littleEndian 4 type.toNat ++ (littleEndian 4 payload.length ++
          (payload ++ (padding ++ rest))))
        (⟨type, ⟨start + used + 8, payload.length⟩⟩ :: items)

/-- The type of the record at the front of bytes. -/
def headType (bytes : Bytes) : UInt32 := .ofNat (littleEndianValue (bytes.take 4))

/-- The length of the payload of the record at the front. -/
def headSize (bytes : Bytes) : Nat := littleEndianValue ((bytes.drop 4).take 4)

/-- The length of the record at the front, with what fills it up. -/
def headLength (used : Nat) (bytes : Bytes) : Nat :=
  min (8 + headSize bytes + gap (used + (8 + headSize bytes))) bytes.length

variable {start used : Nat} {bytes : Bytes} {items : List Item}

theorem toNat_headType (bytes : Bytes) :
    (headType bytes).toNat = littleEndianValue (bytes.take 4) := by
  have bound := littleEndianValue_lt (bytes.take 4)
  have small : (bytes.take 4).length ≤ 4 := List.length_take_le 4 bytes
  have limit : 256 ^ (bytes.take 4).length ≤ 256 ^ 4 := Nat.pow_le_pow_right (by decide) small
  exact UInt32.toNat_ofNat_of_lt' (Nat.lt_of_lt_of_le bound limit)

theorem headType_eq (type : UInt32) (rest : Bytes) :
    headType (littleEndian 4 type.toNat ++ rest) = type := by
  have bound := type.toNat_lt
  rw [headType, List.take_left' (length_littleEndian 4 _), littleEndianValue_littleEndian,
    Nat.mod_eq_of_lt (by omega), UInt32.ofNat_toNat]

theorem headSize_eq {size : Nat} (small : size < Offset.limit) (type : Nat) (rest : Bytes) :
    headSize (littleEndian 4 type ++ (littleEndian 4 size ++ rest)) = size := by
  rw [Offset.limit] at small
  rw [headSize, List.drop_left' (length_littleEndian 4 _),
    List.take_left' (length_littleEndian 4 _), littleEndianValue_littleEndian,
    Nat.mod_eq_of_lt (by omega)]

/-- Few bytes are no record. -/
theorem body_iff_of_short (short : bytes.length < 8) :
    Body start used bytes items ↔ items = [] := by
  constructor
  · intro body
    cases body with
    | trailing => rfl
    | record =>
        simp only [List.length_append, length_littleEndian] at short
        omega
  · rintro rfl
    exact .trailing short

/-- Enough bytes are a type, a length, that payload and a rest. -/
theorem split_of_long {bytes : Bytes} (room : 8 + headSize bytes ≤ bytes.length) (used : Nat) :
    bytes = littleEndian 4 (headType bytes).toNat ++ (littleEndian 4 (headSize bytes) ++
      ((bytes.drop 8).take (headSize bytes) ++
        ((bytes.drop (8 + headSize bytes)).take (gap (used + (8 + headSize bytes))) ++
          bytes.drop (headLength used bytes)))) := by
  have typeLength : (bytes.take 4).length = 4 := by
    rw [List.length_take]
    omega
  have sizeLength : ((bytes.drop 4).take 4).length = 4 := by
    rw [List.length_take, List.length_drop]
    omega
  have typeBytes : littleEndian 4 (headType bytes).toNat = bytes.take 4 := by
    have same := littleEndian_littleEndianValue (bytes.take 4)
    rwa [typeLength, ← toNat_headType] at same
  have sizeBytes : littleEndian 4 (headSize bytes) = (bytes.drop 4).take 4 := by
    have same := littleEndian_littleEndianValue ((bytes.drop 4).take 4)
    rwa [sizeLength] at same
  have rest : bytes.drop (headLength used bytes) =
      (bytes.drop (8 + headSize bytes)).drop (gap (used + (8 + headSize bytes))) := by
    rw [List.drop_drop, headLength]
    rcases Nat.le_total (8 + headSize bytes + gap (used + (8 + headSize bytes))) bytes.length with
      inside | beyond
    · rw [Nat.min_eq_left inside]
    · rw [Nat.min_eq_right beyond, List.drop_length, List.drop_eq_nil_of_le beyond]
  have body : bytes.drop 8 = (bytes.drop 4).drop 4 := by rw [List.drop_drop]
  rw [typeBytes, sizeBytes, rest, List.take_append_drop, ← List.drop_drop,
    List.take_append_drop, body, List.take_append_drop, List.take_append_drop]

/-- Enough bytes start with a record, whose bounds are given by its length. -/
theorem body_iff_of_long (long : 8 ≤ bytes.length) :
    Body start used bytes items ↔
      8 + headSize bytes ≤ bytes.length ∧ ∃ others,
        items = ⟨headType bytes, ⟨start + used + 8, headSize bytes⟩⟩ :: others ∧
        Body start (used + headLength used bytes) (bytes.drop (headLength used bytes)) others := by
  constructor
  · intro body
    cases body with
    | trailing short => omega
    | @record _ type payload padding rest items sized filled follows =>
        have size := headSize_eq sized type.toNat (payload ++ (padding ++ rest))
        have front : (littleEndian 4 type.toNat ++ (littleEndian 4 payload.length ++
            (payload ++ padding))).length = 8 + payload.length + padding.length := by
          simp only [List.length_append, length_littleEndian]
          omega
        have length : headLength used (littleEndian 4 type.toNat ++
            (littleEndian 4 payload.length ++ (payload ++ (padding ++ rest)))) =
              8 + payload.length + padding.length := by
          rw [headLength, size]
          simp only [List.length_append, length_littleEndian]
          rcases filled with whole | ⟨short, rfl⟩
          · omega
          · rw [List.length_nil]
            omega
        refine ⟨?_, items, ?_, ?_⟩
        · rw [size]
          simp only [List.length_append, length_littleEndian]
          omega
        · rw [size, headType_eq]
        · rw [length]
          have split : ((littleEndian 4 type.toNat ++ (littleEndian 4 payload.length ++
              (payload ++ padding))) ++ rest).drop (8 + payload.length + padding.length) = rest :=
            List.drop_left' front
          simp only [List.append_assoc] at split
          rwa [split]
  · rintro ⟨room, others, rfl, follows⟩
    have small : headSize bytes < Offset.limit := by
      have bound := littleEndianValue_lt ((bytes.drop 4).take 4)
      rw [List.length_take, List.length_drop, Nat.min_eq_left (by omega)] at bound
      exact bound
    have payload : ((bytes.drop 8).take (headSize bytes)).length = headSize bytes := by
      rw [List.length_take, List.length_drop]
      omega
    have padding : ((bytes.drop (8 + headSize bytes)).take
        (gap (used + (8 + headSize bytes)))).length =
          headLength used bytes - (8 + headSize bytes) := by
      rw [List.length_take, List.length_drop, headLength]
      omega
    have whole : 8 + headSize bytes ≤ headLength used bytes := by
      rw [headLength]
      omega
    have built := @Body.record start used (headType bytes) ((bytes.drop 8).take (headSize bytes))
      ((bytes.drop (8 + headSize bytes)).take (gap (used + (8 + headSize bytes))))
      (bytes.drop (headLength used bytes)) others
    rw [payload, padding, ← split_of_long room used, Nat.add_sub_cancel' whole] at built
    refine built small ?_ follows
    rcases Nat.lt_or_ge bytes.length (8 + headSize bytes + gap (used + (8 + headSize bytes))) with
      beyond | inside
    · have all : headLength used bytes = bytes.length := Nat.min_eq_right (Nat.le_of_lt beyond)
      rw [all]
      exact .inr ⟨by omega, List.drop_length⟩
    · left
      rw [headLength, Nat.min_eq_left inside, Nat.add_sub_cancel_left]

/-- Bytes can be taken apart in one way only. -/
theorem Body.unique {others : List Item} (body : Body start used bytes items)
    (again : Body start used bytes others) : items = others := by
  induction size : bytes.length using Nat.strongRecOn generalizing used bytes items others with
  | ind count ih =>
    rcases Nat.lt_or_ge bytes.length 8 with short | long
    · rw [(body_iff_of_short short).1 body, (body_iff_of_short short).1 again]
    · obtain ⟨room, first, rfl, follows⟩ := (body_iff_of_long long).1 body
      obtain ⟨-, second, rfl, followsToo⟩ := (body_iff_of_long long).1 again
      have shorter : (bytes.drop (headLength used bytes)).length < count := by
        rw [List.length_drop, headLength]
        omega
      rw [ih _ shorter follows followsToo rfl]

section Walk

variable {flash : Flash} {memory : Memory} {length : Nat}

/-- The walk reads the record at the front of the rest of the blob. -/
theorem entryAt_eq (shows : flash.Shows memory ⟨start, length⟩)
    (bounded : start + length < Offset.limit) (room : used + 8 ≤ length)
    (stands : memory.bytes ⟨start + used, length - used⟩ = bytes) :
    entryAt flash start (start + length) (start + used) =
      if 8 + headSize bytes ≤ bytes.length then
        .ok ⟨(headType bytes).toNat, ⟨start + used + 8, headSize bytes⟩,
          start + (used + headLength used bytes)⟩
      else reject .invalidDescriptor := by
  have eight : recordHeaderLength = 8 := rfl
  have inside : Extent.Within ⟨start + used, recordHeaderLength⟩ ⟨start, length⟩ :=
    ⟨Nat.le_add_right _ _, show start + used + 8 ≤ start + length by omega⟩
  obtain ⟨head, answer, headBytes⟩ := shows inside
  have front : head.toList = bytes.take 8 := by
    rw [headBytes, ← stands, Memory.take_bytes memory (by omega)]
    rfl
  have type : littleEndianValue (head.toList.take 4) = (headType bytes).toNat := by
    rw [front, List.take_take, toNat_headType]
    rfl
  have size : littleEndianValue (head.toList.drop 4) = headSize bytes := by
    rw [front, List.drop_take, headSize]
  have long : bytes.length = length - used := by rw [← stands, Memory.length_bytes]
  rw [entryAt, ofFlash_bind answer, Offset.add_bind (by omega), type, size]
  by_cases fits : 8 + headSize bytes ≤ bytes.length
  · have next : min (start + Offset.roundUp (start + used + recordHeaderLength + headSize bytes -
        start) recordAlignment) (start + length) = start + (used + headLength used bytes) := by
      simp only [Offset.roundUp, recordAlignment, headLength, gap, eight, long]
      omega
    rw [if_pos fits, ensure_bind (by omega), Offset.sub_bind (by omega), next]
    rfl
  · rw [if_neg fits, ensure_bind_of_not (by omega)]

/-- A walk answers with the only rollback record, or refuses the rest. -/
def Decides (start used : Nat) (bytes : Bytes)
    (walk : Option Extent → Checked (Option Extent)) : Prop :=
  ∀ seen : Option Extent,
    (∀ items, Body start used bytes items →
      walk seen = sole (seen.toList ++ rollbackPayloads items)) ∧
    ((∀ items, ¬ Body start used bytes items) → walk seen = reject .invalidDescriptor)

/-- At the end of a body the record that was seen is the answer. -/
theorem decides_of_short (short : bytes.length < 8) :
    Decides start used bytes fun seen => .ok seen := by
  intro seen
  constructor
  · intro items body
    obtain rfl := (body_iff_of_short short).1 body
    cases seen <;> rfl
  · intro malformed
    exact absurd (.trailing short) (malformed [])

/-- A record that is too long for the blob is refused. -/
theorem decides_of_over (long : 8 ≤ bytes.length) (beyond : ¬ 8 + headSize bytes ≤ bytes.length) :
    Decides start used bytes fun _ => reject .invalidDescriptor :=
  fun _ => ⟨fun _ body => absurd ((body_iff_of_long long).1 body).1 beyond, fun _ => rfl⟩

/-- After a record the walk goes on, unless a second one is found. -/
theorem Decides.record {next : Option Extent → Checked (Option Extent)} (long : 8 ≤ bytes.length)
    (fits : 8 + headSize bytes ≤ bytes.length)
    (decides : Decides start (used + headLength used bytes) (bytes.drop (headLength used bytes))
      next) :
    Decides start used bytes fun seen =>
      if (headType bytes).toNat = rollbackType.toNat then do
        ensure (seen = none) .invalidDescriptor
        next (some ⟨start + used + 8, headSize bytes⟩)
      else next seen := by
  have malformed (all : ∀ items, ¬ Body start used bytes items) (others : List Item) :
      ¬ Body start (used + headLength used bytes) (bytes.drop (headLength used bytes)) others :=
    fun body => all _ ((body_iff_of_long long).2 ⟨fits, others, rfl, body⟩)
  intro seen
  simp only [UInt32.toNat_inj]
  by_cases rollback : headType bytes = rollbackType
  · rw [if_pos rollback]
    cases seen with
    | none =>
        rw [ensure_bind rfl]
        refine ⟨fun items body => ?_, fun all => (decides _).2 (malformed all)⟩
        obtain ⟨-, others, rfl, follows⟩ := (body_iff_of_long long).1 body
        rw [(decides _).1 others follows, rollbackPayloads_cons, if_pos rollback]
        rfl
    | some earlier =>
        rw [ensure_bind_of_not (by simp)]
        refine ⟨fun items body => ?_, fun _ => rfl⟩
        obtain ⟨-, others, rfl, -⟩ := (body_iff_of_long long).1 body
        rw [rollbackPayloads_cons, if_pos rollback]
        rfl
  · rw [if_neg rollback]
    refine ⟨fun items body => ?_, fun all => (decides _).2 (malformed all)⟩
    obtain ⟨-, others, rfl, follows⟩ := (body_iff_of_long long).1 body
    rw [(decides _).1 others follows, rollbackPayloads_cons, if_neg rollback]

/-- The walk from the start of a record decides the rest. -/
theorem decides_findFrom (shows : flash.Shows memory ⟨start, length⟩)
    (bounded : start + length < Offset.limit) (inside : used ≤ length)
    (stands : memory.bytes ⟨start + used, length - used⟩ = bytes) :
    Decides start used bytes (findFrom flash start (start + length) (start + used)) := by
  induction size : bytes.length using Nat.strongRecOn generalizing used bytes with
  | ind count ih =>
    subst size
    have left : bytes.length = length - used := by rw [← stands, Memory.length_bytes]
    have eight : recordHeaderLength = 8 := rfl
    have step (seen : Option Extent) := findFrom_eq flash start (start + length) (start + used) seen
    simp only [Offset.sub_bind (show start + used ≤ start + length by omega)] at step
    rw [funext step]
    by_cases room : used + 8 ≤ length
    · have long : 8 ≤ bytes.length := by omega
      simp only [if_pos (show recordHeaderLength ≤ start + length - (start + used) by omega),
        entryAt_eq shows bounded room stands]
      by_cases fits : 8 + headSize bytes ≤ bytes.length
      · have covers : 8 ≤ headLength used bytes ∧ headLength used bytes ≤ bytes.length := by
          rw [headLength]
          omega
        have drop {count : Nat} (few : count ≤ length - used) :
            memory.bytes ⟨start + (used + count), length - (used + count)⟩ = bytes.drop count := by
          rw [← stands, Memory.drop_bytes memory few, Nat.add_assoc, Nat.sub_add_eq]
        have shorter : (bytes.drop (headLength used bytes)).length < bytes.length := by
          rw [List.length_drop]
          omega
        simp only [if_pos fits]
        exact (ih _ shorter (by omega) (drop (by omega)) rfl).record long fits
      · simp only [if_neg fits]
        exact decides_of_over long fits
    · have short : bytes.length < 8 := by omega
      simp only [if_neg (show ¬ recordHeaderLength ≤ start + length - (start + used) by omega)]
      exact decides_of_short short

/-- The header of a record is read, and nothing else. -/
theorem readsWithin_entryAt (flash : Flash) {start stop cursor : Nat} {range : Extent}
    (low : range.offset ≤ cursor)
    (high : cursor + recordHeaderLength ≤ range.offset + range.length) :
    flash.ReadsWithin (fun other => entryAt other start stop cursor) range := by
  have inside : Extent.Within ⟨cursor, recordHeaderLength⟩ range := ⟨low, high⟩
  exact (flash.readsWithin_read inside).bind fun _ _ => flash.readsWithin_const _ _

/-- The walk reads nothing before its start and nothing behind the blob. -/
theorem readsWithin_findFrom (flash : Flash) {start stop cursor : Nat} {range : Extent}
    (low : range.offset ≤ cursor) (high : stop ≤ range.offset + range.length)
    (seen : Option Extent) :
    flash.ReadsWithin (fun other => findFrom other start stop cursor seen) range := by
  induction size : stop - cursor using Nat.strongRecOn generalizing cursor seen with
  | ind count ih =>
    subst size
    simp only [findFrom_eq _ start stop cursor seen]
    refine (flash.readsWithin_const _ range).bind fun left counted => ?_
    obtain ⟨inside, rfl⟩ := Offset.sub_eq_ok.1 counted
    by_cases more : recordHeaderLength ≤ stop - cursor
    · simp only [if_pos more]
      refine (readsWithin_entryAt flash low (by omega)).bind fun entry opened => ?_
      have next := le_next_of_entryAt opened
      rw [recordHeaderLength] at next
      by_cases rollback : entry.type = rollbackType.toNat
      · simp only [if_pos rollback]
        refine (flash.readsWithin_const _ range).bind fun _ _ => ?_
        exact ih _ (by omega) (by omega) _ rfl
      · simp only [if_neg rollback]
        exact ih _ (by omega) (by omega) _ rfl
    · simp only [if_neg more]
      exact flash.readsWithin_const _ range

end Walk

end Blob

namespace Descriptor

variable {flash : Flash} {memory : Memory} {descriptor : Descriptor} {blob : Extent}

/-- The search goes through a long enough blob with its word. -/
theorem findRollbackRecord_eq (present : descriptor.layout.blob = some blob)
    (bounded : blob.offset + blob.length < Offset.limit) (shows : flash.Shows memory blob) :
    descriptor.findRollbackRecord flash =
      if 8 ≤ blob.length ∧ memory.bytes ⟨blob.offset, 4⟩ = littleEndian 4 magics.blob.toNat then
        Blob.findFrom flash blob.offset (blob.offset + blob.length) (blob.offset + 8) none
      else reject .invalidDescriptor := by
  have search : descriptor.findRollbackRecord flash = (do
      ensure (Layout.sectionHeaderLength ≤ blob.length) .invalidDescriptor
      let head ← Checked.ofFlash (flash.read blob.offset Layout.sectionHeaderLength)
      ensure (littleEndianValue (head.toList.take 4) = magics.blob.toNat) .invalidDescriptor
      let stop ← Offset.add blob.offset blob.length
      let body ← Offset.add blob.offset Layout.sectionHeaderLength
      Blob.findFrom flash blob.offset stop body none) := by
    rw [findRollbackRecord, present]
  have eight : Layout.sectionHeaderLength = 8 := rfl
  rw [search]
  by_cases long : 8 ≤ blob.length
  · have inside : Extent.Within ⟨blob.offset, Layout.sectionHeaderLength⟩ blob :=
      ⟨Nat.le_refl _, Nat.add_le_add_left long _⟩
    obtain ⟨head, answer, headBytes⟩ := shows inside
    have word : littleEndianValue (head.toList.take 4) = magics.blob.toNat ↔
        memory.bytes ⟨blob.offset, 4⟩ = littleEndian 4 magics.blob.toNat := by
      rw [headBytes, Memory.take_bytes memory (by decide)]
      exact littleEndianValue_eq_iff (Memory.length_bytes _ _) (by decide)
    rw [ensure_bind (eight ▸ long), ofFlash_bind answer]
    by_cases magic : memory.bytes ⟨blob.offset, 4⟩ = littleEndian 4 magics.blob.toNat
    · rw [if_pos ⟨long, magic⟩, ensure_bind (word.2 magic), Offset.add_bind bounded,
        Offset.add_bind (by omega)]
      rfl
    · rw [if_neg fun opens => magic opens.2, ensure_bind_of_not (mt word.1 magic)]
  · rw [if_neg fun opens => long opens.1, ensure_bind_of_not (eight ▸ long)]

/-- The search reads nothing outside the blob, whatever the flash answers. -/
theorem readsWithin_findRollbackRecord (flash : Flash)
    (present : descriptor.layout.blob = some blob) :
    flash.ReadsWithin (fun other => descriptor.findRollbackRecord other) blob := by
  simp only [findRollbackRecord, present]
  refine (flash.readsWithin_const _ blob).bind fun _ ensured => ?_
  have long := ensure_eq_ok.1 ensured
  have inside : Extent.Within ⟨blob.offset, Layout.sectionHeaderLength⟩ blob :=
    ⟨Nat.le_refl _, Nat.add_le_add_left long _⟩
  refine (flash.readsWithin_read inside).bind fun head _ => ?_
  refine (flash.readsWithin_const _ blob).bind fun _ _ => ?_
  refine (flash.readsWithin_const _ blob).bind fun stop stops => ?_
  refine (flash.readsWithin_const _ blob).bind fun body begins => ?_
  obtain ⟨-, rfl⟩ := Offset.add_eq_ok.1 stops
  obtain ⟨-, rfl⟩ := Offset.add_eq_ok.1 begins
  exact Blob.readsWithin_findFrom flash (Nat.le_add_right _ _) (Nat.le_refl _) none

/-- The search takes exactly the blobs of the grammar and reads no other byte. -/
theorem findRollbackRecord_exact (present : descriptor.layout.blob = some blob)
    (bounded : blob.offset + blob.length < Offset.limit) (shows : flash.Shows memory blob) :
    let body := memory.bytes ⟨blob.offset + 8, blob.length - 8⟩
    let opens := 8 ≤ blob.length ∧
      memory.bytes ⟨blob.offset, 4⟩ = littleEndian 4 magics.blob.toNat
    (∀ items, opens → Blob.Body blob.offset 8 body items →
      descriptor.findRollbackRecord flash =
        (match Blob.rollbackPayloads items with
          | [] => .ok none
          | [payload] => .ok (some payload)
          | _ => reject .invalidDescriptor) ∧
      ∀ others, Blob.Body blob.offset 8 body others → others = items) ∧
    ((¬ ∃ items, opens ∧ Blob.Body blob.offset 8 body items) →
      descriptor.findRollbackRecord flash = reject .invalidDescriptor) ∧
    flash.ReadsWithin (fun other => descriptor.findRollbackRecord other) blob := by
  intro body opens
  rw [findRollbackRecord_eq present bounded shows]
  refine ⟨fun items opened formed => ⟨?_, fun others again => again.unique formed⟩, ?_,
    readsWithin_findRollbackRecord flash present⟩
  · have decides := Blob.decides_findFrom shows bounded opened.1 rfl
    rw [if_pos opened, (decides none).1 items formed]
    rfl
  · intro malformed
    by_cases opened : opens
    · have decides := Blob.decides_findFrom shows bounded opened.1 rfl
      rw [if_pos opened]
      exact (decides none).2 fun items formed => malformed ⟨items, opened, formed⟩
    · exact if_neg opened

/-- The end of a blob cuts the filling of its second record short. -/
theorem findRollbackRecord_ragged :
    let content (type : UInt32) : Bytes :=
      littleEndian 4 magics.blob.toNat ++ (zeroBytes 4 ++ (littleEndian 4 type.toNat ++
        (littleEndian 4 1 ++ ([9] ++ (zeroBytes 3 ++ (littleEndian 4 Blob.rollbackType.toNat ++
          (littleEndian 4 2 ++ ([1, 2] ++ ([] ++ [])))))))))
    let descriptor : Descriptor :=
      { (Rollback.blobImage 5 1 4).2 with layout := ⟨⟨0, 0⟩, none, some ⟨0, 30⟩, ⟨30, 0⟩, ⟨0, 30⟩⟩ }
    let items (type : UInt32) : List Blob.Item :=
      [⟨type, ⟨16, 1⟩⟩, ⟨Blob.rollbackType, ⟨28, 2⟩⟩]
    (∀ type, Blob.Body 0 8 ((Memory.ofBytes (content type)).bytes ⟨8, 22⟩) (items type)) ∧
      descriptor.findRollbackRecord (Flash.ofBytes (content 7)) = .ok (some ⟨28, 2⟩) ∧
      descriptor.findRollbackRecord (Flash.ofBytes (content Blob.rollbackType)) =
        reject .invalidDescriptor := by
  intro content descriptor items
  have formed (type : UInt32) :
      Blob.Body 0 8 ((Memory.ofBytes (content type)).bytes ⟨8, 22⟩) (items type) := by
    have last := @Blob.Body.record 0 20 Blob.rollbackType [1, 2] [] [] [] (by decide)
      (.inr (by decide)) (.trailing (by decide))
    exact @Blob.Body.record 0 8 type [9] (zeroBytes 3) _ _ (by decide) (.inl (by decide)) last
  have shows (type : UInt32) : (Flash.ofBytes (content type)).Shows
      (Memory.ofBytes (content type)) ⟨0, 30⟩ := Flash.shows_ofBytes (Nat.le_of_eq rfl)
  have answers (type : UInt32) := (@findRollbackRecord_exact (Flash.ofBytes (content type))
    (Memory.ofBytes (content type)) descriptor ⟨0, 30⟩ rfl (by decide) (shows type)).1
  refine ⟨formed, ?_, ?_⟩
  · exact (answers 7 _ ⟨by decide, rfl⟩ (formed 7)).1
  · exact (answers Blob.rollbackType _ ⟨by decide, rfl⟩ (formed Blob.rollbackType)).1

end Descriptor

end SignedFirmware
