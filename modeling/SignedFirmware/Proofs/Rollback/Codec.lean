import SignedFirmware.Blueprint.Basic
import SignedFirmware.Proofs.Wire.Standing

namespace SignedFirmware

/-- A record has the values of a plan. -/
structure RollbackRecord.Describes (record : RollbackRecord) (plan : RecordPlan) : Prop where
  securityVersion : record.securityVersion = plan.securityVersion
  timestamp : record.timestamp = plan.timestamp
  minimum : record.minimum = plan.minimum
  denylist : record.denylist = plan.denylist

namespace RollbackRecord

/-- The fields of the fixed part of a record. -/
def Head.fields (head : Head) : List Field :=
  [.uint32 head.formatVersion, .zeros 4, .uint64 head.securityVersion, .uint64 head.timestamp,
    .uint64 head.minimum, .uint32 head.count, .zeros 4]

theorem takes_readHead : Reader.Takes readHead Head.fields := by
  intro bytes rest head
  rw [← true_and (Field.Lead _ _ _)]
  refine Reader.takes_part Reader.takes_uint32 Head.formatVersion fun {formatVersion bytes} => ?_
  refine Reader.takes_part (Reader.takes_skip 4) (fun _ => ()) fun {_ bytes} => ?_
  refine Reader.takes_part Reader.takes_uint64 Head.securityVersion fun {version bytes} => ?_
  refine Reader.takes_part Reader.takes_uint64 Head.timestamp fun {timestamp bytes} => ?_
  refine Reader.takes_part Reader.takes_uint64 Head.minimum fun {minimum bytes} => ?_
  refine Reader.takes_part Reader.takes_uint32 Head.count fun {count bytes} => ?_
  refine Reader.takes_part (Reader.takes_skip 4) (fun _ => ()) fun {_ bytes} => ?_
  obtain ⟨_, _, _, _, _⟩ := head
  simp [eq_comm, and_assoc]

/-- A denylist is read from the long words of its versions. -/
theorem readVersions_eq_ok {count : Nat} {bytes rest : Bytes} {versions : List UInt64} :
    readVersions count bytes = .ok versions rest ↔
      versions.length = count ∧ Field.Lead (versions.map .uint64) bytes rest := by
  induction count generalizing bytes versions rest with
  | zero =>
      rw [readVersions, device_pure_eq_ok, List.length_eq_zero_iff]
      constructor
      · rintro ⟨rfl, rfl⟩
        simp
      · rintro ⟨rfl, same⟩
        exact ⟨rfl, same⟩
  | succ count ih =>
      simp only [readVersions, device_bind_eq_ok, device_pure_eq_ok, ih]
      constructor
      · intro given
        rcases given with ⟨version, middle, head, others, _, ⟨rfl, tail⟩, rfl, rfl⟩
        have front := Reader.takes_uint64.1 head
        exact ⟨rfl, Field.lead_append.2 ⟨middle, front, tail⟩⟩
      · intro given
        rcases given with ⟨length, leads⟩
        cases versions with
        | nil => cases length
        | cons version others =>
            obtain ⟨middle, front, tail⟩ := Field.lead_append.1
              (show Field.Lead ([.uint64 version] ++ others.map .uint64) bytes rest from leads)
            exact ⟨version, middle, Reader.takes_uint64.2 front, others, rest,
              ⟨Nat.succ.inj length, tail⟩, rfl, rfl⟩

/-- The fixed part of a record on the wire. -/
def head (record : RollbackRecord) : Head where
  formatVersion := formatVersion
  securityVersion := record.securityVersion
  timestamp := record.timestamp
  minimum := record.minimum
  count := UInt32.ofNat record.denylist.length

theorem count_head (record : RollbackRecord) :
    record.head.count.toNat = record.denylist.length := by
  have fits := record.fits
  rw [head, UInt32.toNat_ofNat_of_lt' (by rw [UInt32.size]; omega)]

@[simp] theorem length_encode (record : RollbackRecord) :
    record.encode.length = record.encodedLength := by
  have versions (denylist : List UInt64) :
      (Field.encodeAll (denylist.map .uint64)).length = 8 * denylist.length := by
    induction denylist with
    | nil => rfl
    | cons version rest ih =>
        rw [List.map_cons, Field.encodeAll_cons, List.length_append, ih, Field.encode,
          length_littleEndian, List.length_cons]
        omega
  rw [encode, fields, Field.encodeAll_append, List.length_append, versions]
  simp [Field.encode, encodedLength, baseLength]

/-- A record is read back from its encoding unless its values are inconsistent. -/
theorem parse_encode (record : RollbackRecord) :
    parse record.encode =
      if record.securityVersion = 0 then .error .zeroVersion
      else if record.allows record.securityVersion then .ok record
      else .error .selfInconsistent := by
  have few := record.fits
  have count := record.count_head
  have long : ¬ record.encode.length < baseLength := by
    rw [length_encode, encodedLength]
    omega
  have split : record.encode = Field.encodeAll record.head.fields ++
      (Field.encodeAll (record.denylist.map .uint64) ++ []) := by
    rw [List.append_nil, ← Field.encodeAll_append]
    rfl
  have taken : readHead record.encode =
      .ok record.head (Field.encodeAll (record.denylist.map .uint64) ++ []) := by
    rw [split]
    exact takes_readHead.2 (Field.lead_encodeAll _ _)
  have versions : readVersions record.denylist.length
      (Field.encodeAll (record.denylist.map .uint64) ++ []) = .ok record.denylist [] :=
    readVersions_eq_ok.2 ⟨rfl, Field.lead_encodeAll _ _⟩
  have known : ¬ record.head.formatVersion ≠ formatVersion := by simp [head]
  have room : ¬ maxDenylist < record.denylist.length := by
    simp only [maxDenylist, slotLength, baseLength]
    omega
  have length : ¬ record.encode.length ≠ baseLength + 8 * record.denylist.length :=
    by simp [encodedLength]
  rw [parse, if_neg long, taken]
  dsimp only
  rw [if_neg known, count, if_neg room, if_neg length, versions]
  dsimp only
  rw [ofValues, dif_pos few]
  rfl

/-- A record that is read back at all is read back as it was. -/
theorem parse_encode_eq_ok {record found : RollbackRecord} :
    parse record.encode = .ok found ↔
      found = record ∧ record.securityVersion ≠ 0 ∧
        record.allows record.securityVersion = true := by
  rw [parse_encode]
  by_cases zero : record.securityVersion = 0
  · simp [zero]
  · by_cases allowed : record.allows record.securityVersion = true
    · simp [zero, allowed, eq_comm]
    · simp [zero, allowed]

end RollbackRecord

/-- A plan has the record of its values if a reader would take it. -/
theorem RecordPlan.record_eq_ok {plan : RecordPlan} {record : RollbackRecord} :
    plan.record = .ok record ↔
      record.Describes plan ∧ RollbackRecord.parse record.encode = .ok record := by
  unfold RecordPlan.record
  constructor
  · intro result
    split at result
    next fits =>
      dsimp only at result
      split at result
      next found parsed =>
        obtain rfl := Except.ok.inj result
        obtain ⟨rfl, -⟩ := RollbackRecord.parse_encode_eq_ok.1 parsed
        exact ⟨⟨rfl, rfl, rfl, rfl⟩, parsed⟩
      next => cases result
    next => cases result
  · intro given
    rcases given with ⟨⟨version, timestamp, minimum, denylist⟩, parsed⟩
    obtain ⟨_, _, _, _, fits⟩ := record
    dsimp only at version timestamp minimum denylist
    subst version timestamp minimum denylist
    rw [dif_pos fits]
    dsimp only
    rw [parsed]

end SignedFirmware
