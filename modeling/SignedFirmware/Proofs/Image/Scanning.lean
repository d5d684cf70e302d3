import SignedFirmware.Proofs.Bytes
import SignedFirmware.Proofs.Image.Positions
import SignedFirmware.Proofs.Reading

namespace SignedFirmware

namespace Scan

/-- The positions at steps of the alignment where a magic word ends by `stop`. -/
def slotsFrom (alignment position stop : Nat) : List Nat :=
  List.range' position ((stop + alignment - (position + magicLength)) / alignment) alignment

/-- The multiples of the alignment at which a magic word lies in a range. -/
def slots (alignment : Nat) (range : Span) : List Nat :=
  slotsFrom alignment (Offset.roundUp range.start.toNat alignment) range.stop.toNat

/-- The range of a magic word. -/
def wordAt (position : Nat) : Extent := ⟨position, magicLength⟩

variable {alignment position stop : Nat}

theorem slotsFrom_of_room (positive : 0 < alignment) (room : position + magicLength ≤ stop) :
    slotsFrom alignment position stop =
      position :: slotsFrom alignment (position + alignment) stop := by
  have count : (stop + alignment - (position + magicLength)) / alignment =
      (stop + alignment - (position + alignment + magicLength)) / alignment + 1 := by
    rw [← Nat.add_div_right _ positive]
    congr 1
    omega
  rw [slotsFrom, count, List.range'_succ]
  rfl

theorem slotsFrom_of_short (positive : 0 < alignment) (short : stop < position + magicLength) :
    slotsFrom alignment position stop = [] := by
  rw [slotsFrom, Nat.div_eq_of_lt (by omega), List.range'_zero]

theorem slotsFrom_pairwise (positive : 0 < alignment) :
    (slotsFrom alignment position stop).Pairwise (· < ·) :=
  List.pairwise_lt_range' alignment positive

theorem mem_slotsFrom (positive : 0 < alignment) (multiple : alignment ∣ position) {slot : Nat} :
    slot ∈ slotsFrom alignment position stop ↔
      alignment ∣ slot ∧ position ≤ slot ∧ slot + magicLength ≤ stop := by
  have inside (index : Nat) :
      index < (stop + alignment - (position + magicLength)) / alignment ↔
        position + alignment * index + magicLength ≤ stop := by
    rw [← Nat.succ_le_iff, Nat.le_div_iff_mul_le positive, Nat.succ_mul, Nat.mul_comm index]
    rw [magicLength]
    omega
  rw [slotsFrom, List.mem_range']
  constructor
  · rintro ⟨index, below, rfl⟩
    exact ⟨Nat.dvd_add multiple (Nat.dvd_mul_right _ _), Nat.le_add_right _ _,
      (inside index).1 below⟩
  · rintro ⟨multipleToo, above, room⟩
    obtain ⟨index, apart⟩ := Nat.dvd_sub multipleToo multiple
    have split : slot = position + alignment * index := by omega
    exact ⟨index, (inside index).2 (split ▸ room), split⟩

/-- The range is nonempty and in bounds; the alignment is a power of two. -/
structure Proper (range : Span) (alignment : UInt32) (bounds : Span) : Prop where
  nonempty : range.start < range.stop
  part : bounds.start ≤ range.start ∧ range.stop ≤ bounds.stop
  power : alignment.toNat.isPowerOfTwo

variable {flash : Flash} {magic : UInt64}

/-- The eight bytes at a position are the magic word, lowest byte first. -/
def Bears (flash : Flash) (magic : UInt64) (position : Nat) : Prop :=
  ∃ bytes, flash.read position magicLength = .ok bytes ∧
    bytes.toList = littleEndian magicLength magic.toNat

/-- The eight bytes at a position are another word than the magic one. -/
def Misses (flash : Flash) (magic : UInt64) (position : Nat) : Prop :=
  ∃ bytes, flash.read position magicLength = .ok bytes ∧
    bytes.toList ≠ littleEndian magicLength magic.toNat

/-- The eight bytes at a position cannot be read. -/
def Withheld (flash : Flash) (position : Nat) : Prop :=
  ∃ error, flash.read position magicLength = .error error

/-- A search that missed some slots stops at the next one, or finds nothing. -/
def Stops (flash : Flash) (magic : UInt64) (search : Flash → Checked Nat) (missed : List Nat) :
    List Nat → Prop
  | [] => search flash = reject .failedToLocateMagic ∧ flash.Reads search (missed.map wordAt)
  | slot :: _ => flash.Reads search ((missed ++ [slot]).map wordAt) ∧
      (Bears flash magic slot ∧ search flash = .ok slot ∨
        Withheld flash slot ∧ search flash = reject .runtimeFailure)

/-- A search reads a slot and goes on if the word is not there. -/
def LooksAt (magic : UInt64) (position : Nat) (search next : Flash → Checked Nat) : Prop :=
  ∀ flash : Flash, search flash =
    (Checked.ofFlash (flash.read position magicLength) >>= fun bytes =>
      if bytes.toList = littleEndian magicLength magic.toNat then .ok position else next flash)

/-- A search with room for a word looks there. -/
theorem looksAt_findFrom (magic : UInt64) (positive : 0 < alignment)
    (room : position + magicLength ≤ stop) :
    LooksAt magic position (fun flash => findFrom flash alignment magic position stop)
      fun flash => findFrom flash alignment magic (position + alignment) stop := by
  intro flash
  have counted : Offset.sub stop position = .ok (stop - position) :=
    Offset.sub_eq_ok.2 ⟨by omega, rfl⟩
  have enough : ¬ stop - position < magicLength := by omega
  have word (bytes : Vector UInt8 magicLength) : littleEndianValue bytes.toList = magic.toNat ↔
      bytes.toList = littleEndian magicLength magic.toNat :=
    littleEndianValue_eq_iff bytes.length_toList magic.toNat_lt
  change findFrom flash alignment magic position stop = _
  rw [findFrom, dif_pos ⟨positive, by rw [magicLength] at room; omega⟩, counted]
  simp only [if_neg enough, Flash.number]
  cases flash.read position magicLength with
  | error error => rfl
  | ok bytes =>
      simp only [Except.map, word]
      rfl

/-- A search without room for a word finds nothing. -/
theorem findFrom_of_short (flash : Flash) (magic : UInt64)
    (short : stop < position + magicLength) :
    findFrom flash alignment magic position stop = reject .failedToLocateMagic := by
  rw [findFrom]
  split
  next inside =>
    rw [Offset.sub_eq_ok.2 ⟨Nat.le_of_lt inside.2, rfl⟩]
    exact if_pos (by omega)
  next => rfl

section Steps

variable {search next : Flash → Checked Nat} {missed rest : List Nat}

/-- A search stops at a slot that cannot be read. -/
theorem LooksAt.stops_of_withheld (looks : LooksAt magic position search next)
    (withheld : Withheld flash position) :
    Stops flash magic search [] (position :: rest) := by
  obtain ⟨error, answer⟩ := withheld
  have failed : Checked.ofFlash (flash.read position magicLength) = reject .runtimeFailure := by
    rw [answer]
    rfl
  refine ⟨?_, .inr ⟨⟨error, answer⟩, ?_⟩⟩
  · rw [funext looks]
    exact (flash.reads_read position magicLength).bind_of_error failed
  · rw [looks, failed]
    rfl

/-- A search stops at a slot that holds the word. -/
theorem LooksAt.stops_of_bears (looks : LooksAt magic position search next)
    (bears : Bears flash magic position) : Stops flash magic search [] (position :: rest) := by
  obtain ⟨bytes, answer, word⟩ := bears
  refine ⟨?_, .inl ⟨⟨bytes, answer, word⟩, ?_⟩⟩
  · rw [funext looks]
    refine (flash.reads_read position magicLength).bind (ofFlash_eq_ok.2 answer) ?_
    simpa only [if_pos word] using flash.reads_const (.ok position)
  · rw [looks, ofFlash_bind answer, if_pos word]

/-- A search that misses a slot stops where it would have without that slot. -/
theorem LooksAt.stops_of_misses (looks : LooksAt magic position search next)
    (misses : Misses flash magic position) (stops : Stops flash magic next missed rest) :
    Stops flash magic search (position :: missed) rest := by
  obtain ⟨bytes, answer, different⟩ := misses
  have same : search flash = next flash := by
    rw [looks, ofFlash_bind answer, if_neg different]
  have reads {more : List Extent} (made : flash.Reads next more) :
      flash.Reads search (wordAt position :: more) := by
    rw [funext looks]
    refine (flash.reads_read position magicLength).bind (ofFlash_eq_ok.2 answer) ?_
    simpa only [if_neg different] using made
  cases rest with
  | nil => exact ⟨same.trans stops.1, reads stops.2⟩
  | cons slot later => exact ⟨reads stops.1, same ▸ stops.2⟩

/-- A search that has stopped found nothing exactly if it missed all slots. -/
theorem Stops.failed_iff (misses : ∀ slot ∈ missed, Misses flash magic slot)
    (stops : Stops flash magic search missed rest) :
    search flash = reject .failedToLocateMagic ↔
      ∀ slot ∈ missed ++ rest, Misses flash magic slot := by
  cases rest with
  | nil => simpa [stops.1] using misses
  | cons slot later =>
      have hit : ¬ Misses flash magic slot := by
        rintro ⟨bytes, answer, different⟩
        rcases stops.2 with ⟨⟨found, same, word⟩, -⟩ | ⟨⟨error, failed⟩, -⟩
        · rw [same] at answer
          exact different (Except.ok.inj answer ▸ word)
        · rw [failed] at answer
          cases answer
      refine iff_of_false ?_ fun all => hit (all slot (by simp))
      rcases stops.2 with ⟨-, found⟩ | ⟨-, failed⟩
      · simp [found, reject]
      · simp [failed, reject]

/-- The reads of a search that has stopped are slots. -/
theorem Stops.readsWithin {region : Extent}
    (inside : ∀ slot ∈ missed ++ rest, (wordAt slot).Within region)
    (stops : Stops flash magic search missed rest) : flash.ReadsWithin search region := by
  cases rest with
  | nil =>
      refine ⟨_, stops.2, ?_⟩
      simpa using inside
  | cons slot later =>
      refine ⟨_, stops.1, ?_⟩
      intro read member
      obtain ⟨place, among, rfl⟩ := List.mem_map.1 member
      refine inside place ?_
      simp only [List.mem_append, List.mem_cons, List.not_mem_nil, or_false] at among ⊢
      exact among.imp_right .inl

end Steps

/-- A slot holds the word, holds another one or cannot be read. -/
theorem bears_or_misses_or_withheld (flash : Flash) (magic : UInt64) (position : Nat) :
    Bears flash magic position ∨ Misses flash magic position ∨ Withheld flash position := by
  cases answer : flash.read position magicLength with
  | error error => exact .inr (.inr ⟨error, answer⟩)
  | ok bytes =>
      by_cases word : bytes.toList = littleEndian magicLength magic.toNat
      · exact .inl ⟨bytes, answer, word⟩
      · exact .inr (.inl ⟨bytes, answer, word⟩)

/-- A search reads slot after slot until it stops. -/
theorem findFrom_stops (flash : Flash) (magic : UInt64) (positive : 0 < alignment)
    (position stop : Nat) :
    ∃ missed rest, slotsFrom alignment position stop = missed ++ rest ∧
      (∀ slot ∈ missed, Misses flash magic slot) ∧
      Stops flash magic (fun other => findFrom other alignment magic position stop) missed
        rest := by
  induction left : stop - position using Nat.strongRecOn generalizing position with
  | ind left ih =>
    by_cases room : position + magicLength ≤ stop
    · have looks := looksAt_findFrom magic positive room
      rw [slotsFrom_of_room positive room]
      rcases bears_or_misses_or_withheld flash magic position with bears | misses | withheld
      · exact ⟨[], _, rfl, by simp, looks.stops_of_bears bears⟩
      · obtain ⟨missed, rest, split, others, stops⟩ :=
          ih (stop - (position + alignment)) (by rw [magicLength] at room; omega)
            (position + alignment) rfl
        exact ⟨position :: missed, rest, congrArg _ split,
          List.forall_mem_cons.2 ⟨misses, others⟩, looks.stops_of_misses misses stops⟩
      · exact ⟨[], _, rfl, by simp, looks.stops_of_withheld withheld⟩
    · have nothing (other : Flash) : findFrom other alignment magic position stop =
          reject .failedToLocateMagic := findFrom_of_short other magic (by omega)
      refine ⟨[], [], slotsFrom_of_short positive (by omega), by simp, nothing flash, ?_⟩
      simp only [nothing]
      exact flash.reads_const _

variable {range bounds : Span} {step : UInt32}

/-- An improper search reads nothing. -/
theorem find_of_not_proper (flash : Flash) (magic : UInt64)
    (improper : ¬ Proper range step bounds) :
    find flash range step magic bounds = reject .invalidArgument := by
  by_cases nonempty : range.start < range.stop
  · by_cases part : bounds.start ≤ range.start ∧ range.stop ≤ bounds.stop
    · have power : ¬ Offset.isPowerOfTwo step.toNat = true := fun power =>
        improper ⟨nonempty, part, Offset.isPowerOfTwo_iff.1 power⟩
      rw [find, ensure_bind nonempty, ensure_bind part, ensure_bind_of_not power]
    · rw [find, ensure_bind nonempty, ensure_bind_of_not part]
  · rw [find, ensure_bind_of_not nonempty]

/-- A proper search begins at the first multiple of the alignment. -/
theorem find_of_proper (flash : Flash) (magic : UInt64) (proper : Proper range step bounds) :
    find flash range step magic bounds =
      findFrom flash step.toNat magic (Offset.roundUp range.start.toNat step.toNat)
        range.stop.toNat := by
  have positive := Nat.pos_of_isPowerOfTwo proper.power
  have whole : step.toNat - 1 + 1 = step.toNat := Nat.sub_add_cancel positive
  rw [find, ensure_bind proper.nonempty, ensure_bind proper.part,
    ensure_bind (Offset.isPowerOfTwo_iff.2 proper.power), Offset.sub_bind positive, whole]

theorem mem_slots (positive : 0 < alignment) {slot : Nat} :
    slot ∈ slots alignment range ↔
      alignment ∣ slot ∧ range.start.toNat ≤ slot ∧ slot + magicLength ≤ range.stop.toNat := by
  have low := @Offset.le_roundUp range.start.toNat alignment positive
  rw [slots, mem_slotsFrom positive (Offset.dvd_roundUp _ _)]
  constructor
  · rintro ⟨multiple, above, room⟩
    exact ⟨multiple, Nat.le_trans low above, room⟩
  · rintro ⟨multiple, above, room⟩
    exact ⟨multiple, Offset.roundUp_le positive multiple above, room⟩

/-- A search reads its slots in order until one is no miss. -/
theorem find_sweeps (flash : Flash) (range : Span) (step : UInt32) (magic : UInt64)
    (bounds : Span) :
    let search : Flash → Checked Nat := fun other => find other range step magic bounds
    let places := slots step.toNat range
    (¬ Proper range step bounds →
      search flash = reject .invalidArgument ∧ flash.Reads search []) ∧
    (Proper range step bounds →
      places.Pairwise (· < ·) ∧
      (∀ slot, slot ∈ places ↔ step.toNat ∣ slot ∧ range.start.toNat ≤ slot ∧
        slot + magicLength ≤ range.stop.toNat) ∧
      (∃ missed rest, places = missed ++ rest ∧ (∀ slot ∈ missed, Misses flash magic slot) ∧
        Stops flash magic search missed rest) ∧
      (search flash = reject .failedToLocateMagic ↔ ∀ slot ∈ places, Misses flash magic slot) ∧
      flash.ReadsWithin search
        ⟨range.start.toNat, range.stop.toNat - range.start.toNat⟩) := by
  intro search places
  constructor
  · intro improper
    have nothing : search = fun _ => reject .invalidArgument :=
      funext fun other => find_of_not_proper other magic improper
    rw [nothing]
    exact ⟨rfl, flash.reads_const _⟩
  · intro proper
    have positive := Nat.pos_of_isPowerOfTwo proper.power
    have begins : search = fun other => findFrom other step.toNat magic
        (Offset.roundUp range.start.toNat step.toNat) range.stop.toNat :=
      funext fun other => find_of_proper other magic proper
    obtain ⟨missed, rest, split, misses, stops⟩ := findFrom_stops flash magic positive
      (Offset.roundUp range.start.toNat step.toNat) range.stop.toNat
    rw [← begins] at stops
    have whole : places = missed ++ rest := split
    have inside : ∀ slot ∈ missed ++ rest, (wordAt slot).Within
        ⟨range.start.toNat, range.stop.toNat - range.start.toNat⟩ := by
      intro slot member
      obtain ⟨-, low, high⟩ := (mem_slots positive).1 (whole ▸ member)
      have ordered := UInt32.lt_iff_toNat_lt.1 proper.nonempty
      refine ⟨low, ?_⟩
      simp only [wordAt]
      omega
    refine ⟨slotsFrom_pairwise positive, fun slot => mem_slots positive,
      ⟨missed, rest, whole, misses, stops⟩, ?_, stops.readsWithin inside⟩
    rw [whole]
    exact stops.failed_iff misses

/-- A range over the end of a flash has an unreadable slot. -/
theorem find_over_end :
    let flash := Flash.ofBytes (List.replicate 24 0)
    let search (range : Span) : Flash → Checked Nat := fun other =>
      find other range 8 0x0123456789abcdef ⟨0, 32⟩
    Proper ⟨4, 32⟩ 8 ⟨0, 32⟩ ∧ slots 8 ⟨4, 32⟩ = [8, 16, 24] ∧
      search ⟨4, 32⟩ flash = reject .runtimeFailure ∧
      (¬ ∀ slot ∈ slots 8 ⟨4, 32⟩, Misses flash 0x0123456789abcdef slot) ∧
      flash.ReadsWithin (search ⟨4, 32⟩) ⟨4, 28⟩ ∧
      ¬ Proper ⟨4, 4⟩ 8 ⟨0, 32⟩ ∧ flash.Reads (search ⟨4, 4⟩) [] := by
  intro flash search
  have proper : Proper ⟨4, 32⟩ 8 ⟨0, 32⟩ := ⟨by decide, by decide, 3, rfl⟩
  have improper : ¬ Proper ⟨4, 4⟩ 8 ⟨0, 32⟩ := fun proper => absurd proper.nonempty (by decide)
  have answer : search ⟨4, 32⟩ flash = reject .runtimeFailure := by
    unfold search flash
    cbv
  obtain ⟨-, whole⟩ := find_sweeps flash ⟨4, 32⟩ 8 0x0123456789abcdef ⟨0, 32⟩
  obtain ⟨-, -, -, failed, within⟩ := whole proper
  obtain ⟨empty, -⟩ := find_sweeps flash ⟨4, 4⟩ 8 0x0123456789abcdef ⟨0, 32⟩
  refine ⟨proper, by decide, answer, ?_, within, improper, (empty improper).2⟩
  intro missed
  have nothing : search ⟨4, 32⟩ flash = reject .failedToLocateMagic := failed.2 missed
  rw [answer] at nothing
  simp [reject] at nothing

end Scan

end SignedFirmware
