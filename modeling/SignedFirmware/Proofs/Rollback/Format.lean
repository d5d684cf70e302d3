import SignedFirmware.Proofs.Rollback.Codec
import SignedFirmware.Proofs.Wire.Offsets
import SignedFirmware.Proofs.Wire.Reserved

namespace SignedFirmware

namespace RollbackRecord

/-- The long words that stand at an offset, one after the other. -/
def versionsAt (bytes : Bytes) (offset count : Nat) : List UInt64 :=
  (List.range count).map fun index => .ofNat (numberAt bytes (offset + 8 * index) 8)

/-- The bytes at the offsets 4 to 7 and 36 to 39 are reserved. -/
def Head.ofBytes (bytes : Bytes) : Head where
  formatVersion := .ofNat (numberAt bytes 0 4)
  securityVersion := .ofNat (numberAt bytes 8 8)
  timestamp := .ofNat (numberAt bytes 16 8)
  minimum := .ofNat (numberAt bytes 24 8)
  count := .ofNat (numberAt bytes 32 4)

/-- The length fits the count, and the own version is neither zero nor forbidden. -/
structure Formed (bytes : Bytes) : Prop where
  length : bytes.length = 40 + 8 * numberAt bytes 32 4
  count : numberAt bytes 32 4 ≤ 11
  formatVersion : numberAt bytes 0 4 = 1
  securityVersion : numberAt bytes 8 8 ≠ 0
  minimum : numberAt bytes 24 8 ≤ numberAt bytes 8 8
  denylist : ∀ index < numberAt bytes 32 4,
    numberAt bytes (40 + 8 * index) 8 ≠ numberAt bytes 8 8

/-- The values of a record are the numbers that stand in a byte string. -/
structure StandsIn (record : RollbackRecord) (bytes : Bytes) : Prop where
  securityVersion : record.securityVersion.toNat = numberAt bytes 8 8
  timestamp : record.timestamp.toNat = numberAt bytes 16 8
  minimum : record.minimum.toNat = numberAt bytes 24 8
  denylist : record.denylist.map UInt64.toNat =
    (List.range (numberAt bytes 32 4)).map fun index => numberAt bytes (40 + 8 * index) 8

variable {bytes : Bytes} {record : RollbackRecord}

@[simp] theorem length_versionsAt (bytes : Bytes) (offset count : Nat) :
    (versionsAt bytes offset count).length = count := by
  simp [versionsAt]

/-- The fixed part is read from every byte string that is long enough. -/
theorem yields_readHead (long : 40 ≤ bytes.length) :
    readHead.Yields bytes 0 (Head.ofBytes bytes) 40 := by
  refine (Reader.yields_uint32 (by omega)).bind ?_
  refine (Reader.yields_skip (by omega)).bind ?_
  refine (Reader.yields_uint64 (by omega)).bind ?_
  refine (Reader.yields_uint64 (by omega)).bind ?_
  refine (Reader.yields_uint64 (by omega)).bind ?_
  refine (Reader.yields_uint32 (by omega)).bind ?_
  exact (Reader.yields_skip (by omega)).bind rfl

/-- As many versions are read as there is room for. -/
theorem yields_readVersions {offset count : Nat} (inside : offset + 8 * count ≤ bytes.length) :
    (readVersions count).Yields bytes offset (versionsAt bytes offset count)
      (offset + 8 * count) := by
  induction count generalizing offset with
  | zero => rfl
  | succ count ih =>
      have first : versionsAt bytes offset (count + 1) =
          .ofNat (numberAt bytes offset 8) :: versionsAt bytes (offset + 8) count := by
        simp [versionsAt, List.range_succ_eq_map, Nat.mul_add, Nat.add_assoc, Nat.add_comm]
      have rest := ih (show offset + 8 + 8 * count ≤ bytes.length by omega)
      rw [show offset + 8 + 8 * count = offset + 8 * (count + 1) by omega] at rest
      rw [first, readVersions]
      exact (Reader.yields_uint64 (by omega)).bind (rest.bind rfl)

/-- The answer of the reader for enough bytes. -/
theorem parse_eq (long : 40 ≤ bytes.length) :
    parse bytes =
      if numberAt bytes 0 4 ≠ 1 then .error .badVersion
      else if 11 < numberAt bytes 32 4 then .error .tooManyEntries
      else if bytes.length ≠ 40 + 8 * numberAt bytes 32 4 then .error .badSize
      else ofValues (Head.ofBytes bytes) (versionsAt bytes 40 (numberAt bytes 32 4)) := by
  have taken : readHead bytes = .ok (Head.ofBytes bytes) (bytes.drop 40) := yields_readHead long
  have version : (Head.ofBytes bytes).formatVersion = formatVersion ↔ numberAt bytes 0 4 = 1 := by
    rw [← UInt32.toNat_inj, Head.ofBytes, UInt32.toNat_ofNat_of_lt' (numberAt_lt bytes 0 4)]
    rfl
  have count : (Head.ofBytes bytes).count.toNat = numberAt bytes 32 4 :=
    UInt32.toNat_ofNat_of_lt' (numberAt_lt bytes 32 4)
  have most : maxDenylist = 11 := rfl
  have size : baseLength = 40 := rfl
  rw [parse, if_neg (show ¬ bytes.length < baseLength from Nat.not_lt.2 long), taken]
  simp only [ne_eq, version, count, most, size]
  by_cases length : bytes.length = 40 + 8 * numberAt bytes 32 4
  · have versions : readVersions (numberAt bytes 32 4) (bytes.drop 40) =
        .ok (versionsAt bytes 40 (numberAt bytes 32 4)) (bytes.drop bytes.length) := by
      have read := @yields_readVersions bytes 40 (numberAt bytes 32 4) (Nat.le_of_eq length.symm)
      rwa [← length] at read
    rw [versions]
  · simp only [length, not_false_eq_true, if_true]

/-- The own version of a record is not zero, and the record allows it. -/
theorem ofValues_eq_ok {head : Head} {denylist : List UInt64} :
    ofValues head denylist = .ok record ↔
      (record.securityVersion = head.securityVersion ∧ record.timestamp = head.timestamp ∧
        record.minimum = head.minimum ∧ record.denylist = denylist) ∧
      record.securityVersion ≠ 0 ∧ record.allows record.securityVersion = true := by
  obtain ⟨version, timestamp, minimum, versions, fits⟩ := record
  unfold ofValues
  constructor
  · intro made
    split at made
    next few =>
      dsimp only at made
      split at made
      next => cases made
      next nonzero =>
        split at made
        next allowed =>
          cases made
          exact ⟨⟨rfl, rfl, rfl, rfl⟩, nonzero, allowed⟩
        next => cases made
    next => cases made
  · rintro ⟨⟨same, rfl, rfl, rfl⟩, nonzero, allowed⟩
    dsimp only at same nonzero allowed
    subst same
    rw [dif_pos fits]
    dsimp only
    rw [if_neg nonzero, if_pos allowed]

/-- A long word with the value of a number is that number. -/
theorem eq_ofNat_numberAt {word : UInt64} {offset : Nat} :
    word = .ofNat (numberAt bytes offset 8) ↔ word.toNat = numberAt bytes offset 8 := by
  rw [← UInt64.toNat_inj, UInt64.toNat_ofNat_of_lt' (numberAt_lt bytes offset 8)]

theorem eq_versionsAt {versions : List UInt64} {offset count : Nat} :
    versions = versionsAt bytes offset count ↔
      versions.map UInt64.toNat =
        (List.range count).map fun index => numberAt bytes (offset + 8 * index) 8 := by
  have numbers : (versionsAt bytes offset count).map UInt64.toNat =
      (List.range count).map fun index => numberAt bytes (offset + 8 * index) 8 := by
    rw [versionsAt, List.map_map]
    exact List.map_congr_left fun index _ => UInt64.toNat_ofNat_of_lt' (numberAt_lt bytes _ 8)
  rw [← numbers]
  exact (List.map_inj_right fun _ _ => UInt64.toNat_inj.1).symm

/-- A record stands in a byte string if it has the values there. -/
theorem standsIn_iff :
    record.StandsIn bytes ↔
      record.securityVersion = (Head.ofBytes bytes).securityVersion ∧
      record.timestamp = (Head.ofBytes bytes).timestamp ∧
      record.minimum = (Head.ofBytes bytes).minimum ∧
      record.denylist = versionsAt bytes 40 (numberAt bytes 32 4) := by
  simp only [Head.ofBytes, eq_ofNat_numberAt, eq_versionsAt]
  constructor
  · intro stands
    exact ⟨stands.securityVersion, stands.timestamp, stands.minimum, stands.denylist⟩
  · intro given
    rcases given with ⟨version, timestamp, minimum, denylist⟩
    exact ⟨version, timestamp, minimum, denylist⟩

theorem allows_eq_true {version : UInt64} :
    record.allows version = true ↔ record.minimum ≤ version ∧ version ∉ record.denylist := by
  simp [allows]

theorem allows_eq_false {version : UInt64} :
    record.allows version = false ↔ version < record.minimum ∨ version ∈ record.denylist := by
  rw [← Bool.not_eq_true, allows_eq_true, Decidable.not_and_iff_not_or_not, UInt64.not_le,
    Decidable.not_not]

/-- A record allows its own version if the numbers in its bytes say so. -/
theorem StandsIn.allows_iff (stands : record.StandsIn bytes) :
    record.allows record.securityVersion = true ↔
      numberAt bytes 24 8 ≤ numberAt bytes 8 8 ∧
        ∀ index < numberAt bytes 32 4,
          numberAt bytes (40 + 8 * index) 8 ≠ numberAt bytes 8 8 := by
  have listed : record.securityVersion ∈ record.denylist ↔
      record.securityVersion.toNat ∈ record.denylist.map UInt64.toNat := by
    simp [UInt64.toNat_inj]
  rw [allows_eq_true, UInt64.le_iff_toNat_le, stands.minimum, stands.securityVersion, listed,
    stands.denylist, stands.securityVersion]
  simp

/-- A byte string is read exactly if it is a record. -/
theorem parse_eq_ok : parse bytes = .ok record ↔ Formed bytes ∧ record.StandsIn bytes := by
  by_cases long : 40 ≤ bytes.length
  case neg =>
    have short : bytes.length < baseLength := Nat.lt_of_not_le long
    rw [parse, if_pos short]
    constructor
    · intro parsed
      cases parsed
    · rintro ⟨formed, -⟩
      have length := formed.length
      omega
  rw [parse_eq long]
  constructor
  · intro parsed
    split at parsed
    next => cases parsed
    next version =>
      split at parsed
      next => cases parsed
      next few =>
        split at parsed
        next => cases parsed
        next length =>
          obtain ⟨values, nonzero, allowed⟩ := ofValues_eq_ok.1 parsed
          have stands : record.StandsIn bytes := standsIn_iff.2 values
          obtain ⟨minimum, denylist⟩ := stands.allows_iff.1 allowed
          refine ⟨⟨Decidable.not_not.1 length, Nat.le_of_not_lt few, Decidable.not_not.1 version,
            ?_, minimum, denylist⟩, stands⟩
          rw [← stands.securityVersion]
          exact fun zero => nonzero (UInt64.toNat_inj.1 zero)
  · rintro ⟨formed, stands⟩
    rw [if_neg (Decidable.not_not.2 formed.formatVersion), if_neg (Nat.not_lt.2 formed.count),
      if_neg (Decidable.not_not.2 formed.length)]
    refine ofValues_eq_ok.2 ⟨standsIn_iff.1 stands, ?_,
      stands.allows_iff.2 ⟨formed.minimum, formed.denylist⟩⟩
    intro zero
    apply formed.securityVersion
    rw [← stands.securityVersion, zero]
    rfl

/-- The bytes of a record always fit into the slot. -/
theorem length_le_of_parse (parsed : parse bytes = .ok record) : bytes.length ≤ slotLength := by
  obtain ⟨formed, -⟩ := parse_eq_ok.1 parsed
  have length := formed.length
  have few := formed.count
  rw [slotLength]
  omega

/-- A record lets an image of its own version take over. -/
theorem allows_of_parse (parsed : parse bytes = .ok record) :
    record.allows record.securityVersion = true := by
  obtain ⟨formed, stands⟩ := parse_eq_ok.1 parsed
  exact stands.allows_iff.2 ⟨formed.minimum, formed.denylist⟩

/-- Every byte string that is a record is read. -/
theorem exists_parse_iff : (∃ record, parse bytes = .ok record) ↔ Formed bytes := by
  constructor
  · rintro ⟨record, parsed⟩
    exact (parse_eq_ok.1 parsed).1
  · intro formed
    have few : (versionsAt bytes 40 (numberAt bytes 32 4)).length ≤ 11 := by
      rw [length_versionsAt]
      exact formed.count
    let head := Head.ofBytes bytes
    exact ⟨⟨head.securityVersion, head.timestamp, head.minimum, _, few⟩,
      parse_eq_ok.2 ⟨formed, standsIn_iff.2 ⟨rfl, rfl, rfl, rfl⟩⟩⟩

theorem StandsIn.length_denylist (stands : record.StandsIn bytes) :
    record.denylist.length = numberAt bytes 32 4 := by
  simpa using congrArg List.length stands.denylist

/-- The fields of a record take up all of its bytes. -/
theorem lead_of_parse (parsed : parse bytes = .ok record) : Field.Lead record.fields bytes [] := by
  obtain ⟨formed, stands⟩ := parse_eq_ok.1 parsed
  obtain ⟨version, timestamp, minimum, denylist⟩ := standsIn_iff.1 stands
  have length := formed.length
  have head : record.head = Head.ofBytes bytes := by
    simp only [RollbackRecord.head, Head.ofBytes, Head.mk.injEq]
    refine ⟨?_, version, timestamp, minimum, ?_⟩
    · rw [formed.formatVersion]
      rfl
    · rw [stands.length_denylist]
  have front := takes_readHead.1 (yields_readHead (show 40 ≤ bytes.length by omega))
  have back := (readVersions_eq_ok.1
    (@yields_readVersions bytes 40 (numberAt bytes 32 4) (Nat.le_of_eq length.symm))).2
  rw [← length, List.drop_length, ← denylist] at back
  rw [← head] at front
  exact Field.lead_append.2 ⟨bytes.drop 40, front, back⟩

/-- The reserved bytes of a record are two words of its fixed part. -/
theorem reserved_fields (record : RollbackRecord) :
    Field.reserved 0 record.fields = [4, 5, 6, 7, 36, 37, 38, 39] := by
  have versions : ∀ field ∈ record.denylist.map Field.uint64, field.reservedLength = 0 := by
    simp [Field.reservedLength]
  rw [fields, Field.reserved_append, Field.reserved_eq_nil versions]
  rfl

/-- The bytes of a record are written back with zeros at the reserved places. -/
theorem encode_of_parse (parsed : parse bytes = .ok record) :
    record.encode = clearAt [4, 5, 6, 7, 36, 37, 38, 39] bytes := by
  rw [encode, Field.encodeAll_of_lead (lead_of_parse parsed), reserved_fields]

end RollbackRecord

namespace RecordPlan

variable {plan : RecordPlan}

/-- The record of a plan, or what is wrong with the plan. -/
theorem record_eq (plan : RecordPlan) :
    plan.record =
      if few : plan.denylist.length ≤ 11 then
        if plan.securityVersion = 0 then .error (.badRecord .zeroVersion)
        else if plan.minimum ≤ plan.securityVersion ∧ plan.securityVersion ∉ plan.denylist then
          .ok ⟨plan.securityVersion, plan.timestamp, plan.minimum, plan.denylist, few⟩
        else .error (.badRecord .selfInconsistent)
      else .error (.badRecord .tooManyEntries) := by
  by_cases few : plan.denylist.length ≤ 11
  · rw [record, dif_pos few, dif_pos few]
    dsimp only
    rw [RollbackRecord.parse_encode]
    simp only [RollbackRecord.allows_eq_true]
    by_cases zero : plan.securityVersion = 0
    · simp only [zero, if_true]
    · by_cases allowed :
          plan.minimum ≤ plan.securityVersion ∧ plan.securityVersion ∉ plan.denylist
      · simp only [zero, allowed, if_false, not_false_eq_true, and_self, if_true]
      · simp only [zero, allowed, if_false]
  · rw [record, dif_neg few, dif_neg few]

/-- A plan has a record if a reader would take it. -/
theorem exists_record_iff :
    (∃ record, plan.record = .ok record) ↔
      plan.denylist.length ≤ 11 ∧ plan.securityVersion ≠ 0 ∧
        plan.minimum ≤ plan.securityVersion ∧ plan.securityVersion ∉ plan.denylist := by
  rw [record_eq]
  by_cases few : plan.denylist.length ≤ 11
  · by_cases zero : plan.securityVersion = 0 <;>
      by_cases allowed :
        plan.minimum ≤ plan.securityVersion ∧ plan.securityVersion ∉ plan.denylist <;>
      simp [few, zero, allowed]
  · simp [few]

/-- This says what can be wrong with a plan. -/
theorem record_eq_error {error : BuildError} (refused : plan.record = .error error) :
    (error = .badRecord .tooManyEntries ∧ 11 < plan.denylist.length) ∨
      (error = .badRecord .zeroVersion ∧ plan.securityVersion = 0) ∨
      (error = .badRecord .selfInconsistent ∧
        ¬ (plan.minimum ≤ plan.securityVersion ∧ plan.securityVersion ∉ plan.denylist)) := by
  rw [record_eq] at refused
  split at refused
  next few =>
    split at refused
    next zero =>
      cases refused
      exact .inr (.inl ⟨rfl, zero⟩)
    next =>
      split at refused
      next => cases refused
      next forbidden =>
        cases refused
        exact .inr (.inr ⟨rfl, forbidden⟩)
  next many =>
    cases refused
    exact .inl ⟨rfl, Nat.lt_of_not_le many⟩

end RecordPlan

namespace RollbackRecord

/-- Exactly the records are read, and exactly the consistent ones and plans are written. -/
theorem codec_exact (bytes : Bytes) (record : RollbackRecord) (plan : RecordPlan) :
    ((∃ found, parse bytes = .ok found) ↔ Formed bytes) ∧
    (∀ found, parse bytes = .ok found →
      found.StandsIn bytes ∧ found.encodedLength = bytes.length ∧ bytes.length ≤ 128 ∧
        Sink.writeAll found.fields Sink.growing =
          .ok () ⟨clearAt [4, 5, 6, 7, 36, 37, 38, 39] bytes, none⟩) ∧
    (∃ written, Sink.writeAll record.fields Sink.growing = .ok () ⟨written, none⟩ ∧
      written.length = record.encodedLength ∧
      parse written =
        if record.securityVersion = 0 then .error .zeroVersion
        else if record.allows record.securityVersion then .ok record
        else .error .selfInconsistent) ∧
    ((∃ found, plan.record = .ok found) ↔
      plan.denylist.length ≤ 11 ∧ plan.securityVersion ≠ 0 ∧
        plan.minimum ≤ plan.securityVersion ∧ plan.securityVersion ∉ plan.denylist) ∧
    (∀ found, plan.record = .ok found → found.Describes plan) ∧
    (11 < plan.denylist.length → plan.record = .error (.badRecord .tooManyEntries)) ∧
    ∀ error, plan.record = .error error →
      error = .badRecord .tooManyEntries ∨ error = .badRecord .zeroVersion ∨
        error = .badRecord .selfInconsistent := by
  refine ⟨exists_parse_iff, ?_, ?_, RecordPlan.exists_record_iff, ?_, ?_, ?_⟩
  · intro found parsed
    obtain ⟨formed, stands⟩ := parse_eq_ok.1 parsed
    have length := formed.length
    have encoded : found.encodedLength = bytes.length := by
      rw [encodedLength, stands.length_denylist, length]
      rfl
    refine ⟨stands, encoded, length_le_of_parse parsed, ?_⟩
    rw [Sink.writeAll_growing, ← encode_of_parse parsed]
    rfl
  · exact ⟨record.encode, Sink.writeAll_growing _, record.length_encode, record.parse_encode⟩
  · intro found made
    exact (RecordPlan.record_eq_ok.1 made).1
  · intro many
    rw [RecordPlan.record_eq, dif_neg (Nat.not_le.2 many)]
  · intro error refused
    rcases RecordPlan.record_eq_error refused with ⟨same, -⟩ | ⟨same, -⟩ | ⟨same, -⟩
    · exact .inl same
    · exact .inr (.inl same)
    · exact .inr (.inr same)

/-- Reserved words are read as they stand and written as zeros. -/
theorem codec_reserved_words :
    (∃ found,
      parse [1, 0, 0, 0, 170, 187, 204, 221, 5, 0, 0, 0, 0, 0, 0, 0, 7, 0, 0, 0, 0, 0, 0, 0,
        3, 0, 0, 0, 0, 0, 0, 0, 2, 0, 0, 0, 9, 9, 9, 9, 4, 0, 0, 0, 0, 0, 0, 0,
        4, 0, 0, 0, 0, 0, 0, 0] = .ok found ∧
      found.denylist.map UInt64.toNat = [4, 4] ∧
      Sink.writeAll found.fields Sink.growing = .ok ()
        ⟨[1, 0, 0, 0, 0, 0, 0, 0, 5, 0, 0, 0, 0, 0, 0, 0, 7, 0, 0, 0, 0, 0, 0, 0,
          3, 0, 0, 0, 0, 0, 0, 0, 2, 0, 0, 0, 0, 0, 0, 0, 4, 0, 0, 0, 0, 0, 0, 0,
          4, 0, 0, 0, 0, 0, 0, 0], none⟩) ∧
    (⟨5, 7, 3, List.replicate 12 4⟩ : RecordPlan).record =
      .error (.badRecord .tooManyEntries) := by
  have exact := codec_exact
    [1, 0, 0, 0, 170, 187, 204, 221, 5, 0, 0, 0, 0, 0, 0, 0, 7, 0, 0, 0, 0, 0, 0, 0,
      3, 0, 0, 0, 0, 0, 0, 0, 2, 0, 0, 0, 9, 9, 9, 9, 4, 0, 0, 0, 0, 0, 0, 0,
      4, 0, 0, 0, 0, 0, 0, 0]
    ⟨5, 7, 3, [], by decide⟩ ⟨5, 7, 3, List.replicate 12 4⟩
  obtain ⟨found, parsed⟩ := exact.1.2
    ⟨by decide, by decide, by decide, by decide, by decide, by decide⟩
  obtain ⟨stands, -, -, written⟩ := exact.2.1 found parsed
  exact ⟨⟨found, parsed, stands.denylist, written⟩, exact.2.2.2.2.2.1 (by decide)⟩

end RollbackRecord

end SignedFirmware
