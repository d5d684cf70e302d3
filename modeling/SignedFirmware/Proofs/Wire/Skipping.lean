import Mathlib.Data.List.DropRight
import SignedFirmware.Proofs.Wire.Standing

namespace SignedFirmware

namespace Reader

/-- The reads that skip `count` bytes are counted, and they come to an end. -/
inductive SkipsIn : (count : Nat) → (data : Bytes) → (reads : Nat) →
    EStateM.Result WireError Bytes Unit → Prop where
  | done {data : Bytes} : SkipsIn 0 data 0 (.ok () data)
  | read {count reads : Nat} {data piece rest : Bytes}
      {result : EStateM.Result WireError Bytes Unit} (more : 0 < count)
      (taken : bytes (min count 8) data = .ok piece rest)
      (others : SkipsIn (count - min count 8) rest reads result) :
      SkipsIn count data (reads + 1) result
  | stop {count : Nat} {data rest : Bytes} {error : WireError} (more : 0 < count)
      (refused : bytes (min count 8) data = .error error rest) :
      SkipsIn count data 1 (.error error rest)

/-- The reads that skip `count` bytes include the one that is refused. -/
def pieceReads (count : Nat) (data : Bytes) : Nat :=
  if count ≤ data.length then (count + 7) / 8 else data.length / 8 + 1

/-- A skip leaves the last bytes, or `kept` if there are too few. -/
structure SkipEnds (data : Bytes) (count : Nat) (kept : Bytes)
    (result : EStateM.Result WireError Bytes Unit) : Prop where
  completed {rest : Bytes} : result = .ok () rest ↔
    count ≤ data.length ∧ rest = data.rtake (data.length - count)
  exhausted {error : WireError} {rest : Bytes} : result = .error error rest ↔
    data.length < count ∧ error = .bufferExhausted ∧ rest = kept

variable {count : Nat} {data : Bytes}

theorem skipEnds_of_cases {kept : Bytes} {result : EStateM.Result WireError Bytes Unit}
    (completes : count ≤ data.length → result = .ok () (data.drop count))
    (exhausts : data.length < count → result = .error .bufferExhausted kept) :
    SkipEnds data count kept result := by
  rcases Nat.lt_or_ge data.length count with short | long
  · rw [exhausts short]
    exact ⟨by simp [Nat.not_le_of_lt short], by simp [short, eq_comm]⟩
  · have last : data.rtake (data.length - count) = data.drop count := by
      rw [List.rtake, Nat.sub_sub_self long]
    rw [completes long]
    exact ⟨by simp [long, last, eq_comm], by simp [Nat.not_lt_of_le long]⟩

/-- The last bytes of a byte string are those of its end. -/
theorem rtake_drop {taken kept : Nat} (within : taken + kept ≤ data.length) :
    (data.drop taken).rtake kept = data.rtake kept := by
  rw [List.rtake, List.rtake, List.drop_drop, List.length_drop]
  congr 1
  omega

theorem skipByPieces_zero : skipByPieces 0 = pure () := by
  rw [skipByPieces, dif_pos rfl]

theorem skipByPieces_of_pos (more : 0 < count) :
    skipByPieces count = (do
      let _ ← bytes (min count 8)
      skipByPieces (count - min count 8)) := by
  rw [skipByPieces, dif_neg (Nat.ne_of_gt more)]

/-- A skip by reads goes on after a read that has enough bytes. -/
theorem skipByPieces_of_taken (more : 0 < count) (enough : min count 8 ≤ data.length) :
    skipByPieces count data =
      skipByPieces (count - min count 8) (data.drop (min count 8)) := by
  rw [skipByPieces_of_pos more, device_bind_of_ok (bytes_of_le enough)]

/-- A skip by reads ends at a read that has too few bytes. -/
theorem skipByPieces_of_refused (more : 0 < count) (few : data.length < min count 8) :
    skipByPieces count data = .error .bufferExhausted data := by
  rw [skipByPieces_of_pos more]
  exact device_bind_eq_error.2 (.inl (bytes_of_short few))

theorem skipByPieces_of_le (long : count ≤ data.length) :
    skipByPieces count data = .ok () (data.drop count) := by
  induction count using Nat.strongRecOn generalizing data with
  | ind count ih =>
      rcases Nat.eq_zero_or_pos count with rfl | more
      · rw [skipByPieces_zero]
        rfl
      · have later : count - min count 8 ≤ (data.drop (min count 8)).length := by
          rw [List.length_drop]
          omega
        rw [skipByPieces_of_taken more (by omega), ih _ (by omega) later, List.drop_drop,
          Nat.add_sub_cancel' (Nat.min_le_left _ _)]

/-- With too few bytes the refused read has fewer than eight bytes before it. -/
theorem skipByPieces_of_short (short : data.length < count) :
    skipByPieces count data = .error .bufferExhausted (data.rtake (data.length % 8)) := by
  induction count using Nat.strongRecOn generalizing data with
  | ind count ih =>
      have more : 0 < count := Nat.zero_lt_of_lt short
      rcases Nat.lt_or_ge data.length (min count 8) with few | enough
      · have all : data.rtake (data.length % 8) = data := by
          rw [Nat.mod_eq_of_lt (by omega), List.rtake, Nat.sub_self, List.drop_zero]
        rw [skipByPieces_of_refused more few, all]
      · have whole : min count 8 = 8 := by omega
        have later : (data.drop 8).length < count - 8 := by
          rw [List.length_drop]
          omega
        have same : (data.drop 8).length % 8 = data.length % 8 := by
          rw [List.length_drop]
          omega
        rw [skipByPieces_of_taken more enough, whole, ih _ (by omega) later, same,
          rtake_drop (by omega)]

/-- Thirteen bytes hold one read, and five bytes are left before the next one. -/
example : skipByPieces 20 (zeroBytes 13) = .error .bufferExhausted (zeroBytes 5) :=
  skipByPieces_of_short (by decide)

theorem pieceReads_of_taken (more : 0 < count) (enough : min count 8 ≤ data.length) :
    pieceReads count data = pieceReads (count - min count 8) (data.drop (min count 8)) + 1 := by
  simp only [pieceReads, List.length_drop]
  split <;> split <;> omega

theorem pieceReads_of_refused (few : data.length < min count 8) : pieceReads count data = 1 := by
  rw [pieceReads, if_neg (by omega)]
  omega

/-- The reads of a skip come to an end, whatever is skipped. -/
theorem skipByPieces_skipsIn (count : Nat) (data : Bytes) :
    SkipsIn count data (pieceReads count data) (skipByPieces count data) := by
  induction count using Nat.strongRecOn generalizing data with
  | ind count ih =>
      rcases Nat.eq_zero_or_pos count with rfl | more
      · rw [skipByPieces_zero]
        exact .done
      · rcases Nat.lt_or_ge data.length (min count 8) with few | enough
        · rw [pieceReads_of_refused few, skipByPieces_of_refused more few]
          exact .stop more (bytes_of_short few)
        · rw [pieceReads_of_taken more enough, skipByPieces_of_taken more enough]
          exact .read more (bytes_of_le enough) (ih _ (by omega) _)

/-- The reads of a skip can end in one way only. -/
theorem SkipsIn.unique {reads : Nat} {result : EStateM.Result WireError Bytes Unit}
    (skips : SkipsIn count data reads result) :
    reads = pieceReads count data ∧ result = skipByPieces count data := by
  induction skips with
  | done =>
      rw [skipByPieces_zero]
      exact ⟨rfl, rfl⟩
  | @read count reads data piece rest result more taken others ih =>
      rcases Nat.lt_or_ge data.length (min count 8) with few | enough
      · rw [bytes_of_short few] at taken
        cases taken
      · rw [bytes_of_le enough] at taken
        obtain ⟨-, rfl⟩ := EStateM.Result.ok.inj taken
        rw [pieceReads_of_taken more enough, skipByPieces_of_taken more enough]
        exact ⟨congrArg (· + 1) ih.1, ih.2⟩
  | @stop count data rest error more refused =>
      rcases Nat.lt_or_ge data.length (min count 8) with few | enough
      · rw [bytes_of_short few] at refused
        obtain ⟨rfl, rfl⟩ := EStateM.Result.error.inj refused
        rw [pieceReads_of_refused few, skipByPieces_of_refused more few]
        exact ⟨rfl, rfl⟩
      · rw [bytes_of_le enough] at refused
        cases refused

theorem skipsIn_iff {reads : Nat} {result : EStateM.Result WireError Bytes Unit} :
    SkipsIn count data reads result ↔
      reads = pieceReads count data ∧ result = skipByPieces count data := by
  constructor
  · exact SkipsIn.unique
  · rintro ⟨rfl, rfl⟩
    exact skipByPieces_skipsIn count data

/-- Both skips leave the same bytes, or fail with all or a few left. -/
theorem skips_agree (data : Bytes) (count : Nat) :
    SkipEnds data count data (skip count data) ∧
      SkipEnds data count (data.rtake (data.length % 8)) (skipByPieces count data) ∧
      ∀ reads result, SkipsIn count data reads result ↔
        reads = pieceReads count data ∧ result = skipByPieces count data := by
  refine ⟨skipEnds_of_cases ?_ ?_, ?_, fun _ _ => skipsIn_iff⟩
  · intro long
    rw [skip, if_pos long]
  · intro short
    rw [skip, if_neg (Nat.not_le_of_lt short)]
  · exact skipEnds_of_cases skipByPieces_of_le skipByPieces_of_short

end Reader

end SignedFirmware
