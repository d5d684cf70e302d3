import SignedFirmware.Proofs.Rollback.Keeping

namespace SignedFirmware

namespace Rollback

/-- An image carries a record whose bytes stand in its flash. -/
def Bears (flash : Flash) (descriptor : Descriptor) (bytes : Bytes) (record : RollbackRecord) :
    Prop :=
  ∃ payload content, descriptor.findRollbackRecord flash = .ok (some payload) ∧
    flash.read payload.offset payload.length = .ok content ∧ content.toList = bytes ∧
    RollbackRecord.parse bytes = .ok record

/-- What is kept is a well-formed record that fits into the slot, or nothing. -/
def Intact (kept : Option Bytes) : Prop :=
  ∀ bytes ∈ kept,
    bytes.length ≤ RollbackRecord.slotLength ∧ ∃ record, RollbackRecord.parse bytes = .ok record

/-- What is kept later is the same record or a newer one. -/
def Lasts (earlier later : Option Bytes) : Prop :=
  ∀ bytes ∈ earlier, later = some bytes ∨
    ∃ old newBytes new, RollbackRecord.parse bytes = .ok old ∧ later = some newBytes ∧
      RollbackRecord.parse newBytes = .ok new ∧ old.timestamp < new.timestamp

theorem intact_of_parse {kept : Option Bytes}
    (parsed : ∀ bytes ∈ kept, ∃ record, RollbackRecord.parse bytes = .ok record) : Intact kept := by
  intro bytes present
  obtain ⟨record, read⟩ := parsed bytes present
  exact ⟨RollbackRecord.length_le_of_parse read, record, read⟩

theorem lasts_self (kept : Option Bytes) : Lasts kept kept :=
  fun _ present => .inl present

theorem Lasts.trans {first second third : Option Bytes} (front : Lasts first second)
    (back : Lasts second third) : Lasts first third := by
  intro bytes present
  rcases front bytes present with same | ⟨old, newBytes, new, parsed, replaced, read, newer⟩
  · exact back bytes same
  · rcases back newBytes replaced with same | ⟨middle, lastBytes, last, again, kept, found, later⟩
    · exact .inr ⟨old, newBytes, new, parsed, same, read, newer⟩
    · rw [read] at again
      obtain rfl := Except.ok.inj again
      exact .inr ⟨old, lastBytes, last, parsed, kept, found, UInt64.lt_trans newer later⟩

/-- An image, the states of storage before and after, and the decision. -/
structure Attempt (σ : Type) where
  flash : Flash
  descriptor : Descriptor
  before : σ
  result : Except Halt RollbackOutcome
  after : σ

variable {σ : Type}

def attempt (storage : RecordStorage (StateM σ)) (flash : Flash) (descriptor : Descriptor)
    (before : σ) : Attempt σ :=
  let (result, after) := (enforce flash descriptor (some storage)).run before
  ⟨flash, descriptor, before, result, after⟩

/-- The attempts to move to one image after the other. -/
def attempts (storage : RecordStorage (StateM σ)) : List (Flash × Descriptor) → σ →
    List (Attempt σ)
  | [], _ => []
  | (flash, descriptor) :: rest, before =>
      let made := attempt storage flash descriptor before
      made :: attempts storage rest made.after

/-- The record that is kept guards the attempt. -/
structure Attempt.Guarded (attempt : Attempt σ) (record : σ → Option Bytes) : Prop where
  intact : Intact (record attempt.after)
  lasts : Lasts (record attempt.before) (record attempt.after)
  changes : record attempt.after ≠ record attempt.before → attempt.result = .ok .stored
  replaces : attempt.result = .ok .stored →
    ∃ newBytes new, record attempt.after = some newBytes ∧
      Bears attempt.flash attempt.descriptor newBytes new ∧
      ∀ bytes ∈ record attempt.before, ∀ old, RollbackRecord.parse bytes = .ok old →
        old.timestamp < new.timestamp
  allows : ∀ bytes ∈ record attempt.before, ∀ old, RollbackRecord.parse bytes = .ok old →
    ∀ outcome, attempt.result = .ok outcome →
      ∃ newBytes new, Bears attempt.flash attempt.descriptor newBytes new ∧
        old.minimum ≤ new.securityVersion ∧ new.securityVersion ∉ old.denylist
  readable : attempt.result ≠ .error (.rejected .storedImageMauvDataInvalid)

section Steps

variable {flash : Flash} {descriptor : Descriptor} {kept later : Option Bytes}
  {result : Except Halt RollbackOutcome}

theorem bears_of_readCarried {carried : Carried}
    (read : readCarried flash descriptor = .ok (some carried)) :
    Bears flash descriptor carried.bytes carried.record := by
  obtain ⟨payload, content, located, -, answer, same, parsed⟩ := readCarried_eq_some.1 read
  exact ⟨payload, content, located, answer, same, parsed⟩

theorem Bears.intact {bytes : Bytes} {record : RollbackRecord}
    (bears : Bears flash descriptor bytes record) : Intact (some bytes) := by
  obtain ⟨-, -, -, -, -, parsed⟩ := bears
  apply intact_of_parse
  intro other same
  obtain rfl := Option.some.inj same
  exact ⟨record, parsed⟩

/-- A record that is kept is the one that is found. -/
theorem found_of_parse {stored : Option RollbackRecord} {bytes : Bytes} {old : RollbackRecord}
    (found : readStored (handedBack kept) = .ok stored) (present : bytes ∈ kept)
    (parsed : RollbackRecord.parse bytes = .ok old) : stored = some old := by
  obtain rfl : kept = some bytes := present
  have read := readStored_of_parse parsed
  exact Except.ok.inj (found.symm.trans read)

/-- A replacement is a newer record of the image. -/
theorem replaced_spec {stored : Option RollbackRecord} {carried : Option Carried}
    {outcome : RollbackOutcome} {newBytes : Bytes}
    (read : readCarried flash descriptor = .ok carried)
    (found : readStored (handedBack kept) = .ok stored)
    (decided : Rollback.decide stored carried = .ok (outcome, some newBytes)) :
    outcome = .stored ∧ ∃ new, Bears flash descriptor newBytes new ∧
      ∀ bytes ∈ kept, ∀ old, RollbackRecord.parse bytes = .ok old →
        old.timestamp < new.timestamp := by
  rcases decide_eq_ok decided with ⟨-, -, -, nothing⟩ | ⟨new, rfl, -, choice⟩
  · cases nothing
  · rcases choice with ⟨rfl, replaced, newer⟩ | ⟨-, nothing, -⟩
    · obtain rfl := Option.some.inj replaced
      refine ⟨rfl, new.record, bears_of_readCarried read, ?_⟩
      intro bytes present old parsed
      exact newer old (found_of_parse found present parsed)
    · cases nothing

/-- An image that is accepted bears a record that the kept one allows. -/
theorem accepted_spec {stored : Option RollbackRecord} {carried : Option Carried}
    {outcome : RollbackOutcome} {change : Option Bytes}
    (read : readCarried flash descriptor = .ok carried)
    (found : readStored (handedBack kept) = .ok stored)
    (decided : Rollback.decide stored carried = .ok (outcome, change)) {bytes : Bytes}
    (present : bytes ∈ kept) {old : RollbackRecord}
    (parsed : RollbackRecord.parse bytes = .ok old) :
    ∃ newBytes new, Bears flash descriptor newBytes new ∧ old.minimum ≤ new.securityVersion ∧
      new.securityVersion ∉ old.denylist := by
  have stored_eq := found_of_parse found present parsed
  rcases decide_eq_ok decided with ⟨nothing, -⟩ | ⟨new, rfl, allowed, -⟩
  · rw [stored_eq] at nothing
    cases nothing
  · obtain ⟨least, listed⟩ := allowed old stored_eq
    exact ⟨new.bytes, new.record, bears_of_readCarried read, least, listed⟩

namespace Outcome

theorem intact (outcome : Outcome flash descriptor kept result later) (intact : Intact kept) :
    Intact later := by
  cases outcome with
  | replaced read found decided =>
      obtain ⟨-, new, bears, -⟩ := replaced_spec read found decided
      exact bears.intact
  | _ => exact intact

/-- Only a replacement changes the record, and it is by a newer one. -/
theorem lasts (outcome : Outcome flash descriptor kept result later) (intact : Intact kept) :
    Lasts kept later := by
  cases outcome with
  | @replaced _ _ _ newBytes read found decided =>
      obtain ⟨-, new, ⟨_, _, _, _, _, again⟩, newer⟩ := replaced_spec read found decided
      intro bytes present
      obtain ⟨-, old, parsed⟩ := intact bytes present
      exact .inr ⟨old, newBytes, new, parsed, rfl, again, newer bytes present old parsed⟩
  | _ => exact lasts_self kept

theorem changes (outcome : Outcome flash descriptor kept result later) (changed : later ≠ kept) :
    result = .ok .stored := by
  cases outcome with
  | replaced read found decided =>
      obtain ⟨rfl, -⟩ := replaced_spec read found decided
      rfl
  | _ => exact absurd rfl changed

theorem replaces (outcome : Outcome flash descriptor kept (.ok .stored) later) :
    ∃ newBytes new, later = some newBytes ∧ Bears flash descriptor newBytes new ∧
      ∀ bytes ∈ kept, ∀ old, RollbackRecord.parse bytes = .ok old →
        old.timestamp < new.timestamp := by
  cases outcome with
  | left read found decided =>
      rcases decide_eq_ok decided with ⟨-, -, other, -⟩ | ⟨new, -, -, choice⟩
      · cases other
      · rcases choice with ⟨-, change, -⟩ | ⟨other, -⟩
        · cases change
        · cases other
  | @replaced _ _ _ newBytes read found decided =>
      obtain ⟨-, new, bears, newer⟩ := replaced_spec read found decided
      exact ⟨newBytes, new, rfl, bears, newer⟩

theorem allows {decision : RollbackOutcome}
    (outcome : Outcome flash descriptor kept (.ok decision) later) {bytes : Bytes}
    (present : bytes ∈ kept) {old : RollbackRecord}
    (parsed : RollbackRecord.parse bytes = .ok old) :
    ∃ newBytes new, Bears flash descriptor newBytes new ∧ old.minimum ≤ new.securityVersion ∧
      new.securityVersion ∉ old.denylist := by
  cases outcome with
  | left read found decided => exact accepted_spec read found decided present parsed
  | replaced read found decided => exact accepted_spec read found decided present parsed

/-- An intact record is never found to be corrupt. -/
theorem readable (outcome : Outcome flash descriptor kept result later) (intact : Intact kept) :
    result ≠ .error (.rejected .storedImageMauvDataInvalid) := by
  rintro rfl
  cases outcome with
  | unread failed =>
      have reasons := readCarried_unread _ failed
      simp [UnreadHalt] at reasons
  | corrupt failed =>
      cases kept with
      | none => cases failed
      | some bytes =>
          obtain ⟨-, old, parsed⟩ := intact bytes rfl
          cases (readStored_of_parse parsed).symm.trans failed
  | refused read found decided =>
      have reasons := decide_eq_error decided
      simp at reasons

end Outcome

end Steps

variable {storage : RecordStorage (StateM σ)} {record : σ → Option Bytes}

/-- One attempt keeps the protection up. -/
theorem guarded_attempt (keeps : storage.Keeps record) (flash : Flash) (descriptor : Descriptor)
    {before : σ} (intact : Intact (record before)) :
    (attempt storage flash descriptor before).Guarded record := by
  have outcome : Outcome flash descriptor (record before)
      (attempt storage flash descriptor before).result
      (record (attempt storage flash descriptor before).after) :=
    outcome_enforce keeps flash descriptor before
  exact
    { intact := outcome.intact intact
      lasts := outcome.lasts intact
      changes := outcome.changes
      replaces := fun stored => Outcome.replaces (stored ▸ outcome)
      allows := fun bytes present old parsed decision passed =>
        Outcome.allows (passed ▸ outcome) present parsed
      readable := outcome.readable intact }

/-- Along every sequence of attempts the record stays well-formed and is never lost. -/
theorem attempts_guarded (keeps : storage.Keeps record) (images : List (Flash × Descriptor))
    (start : σ)
    (wellFormed : ∀ bytes ∈ record start, ∃ held, RollbackRecord.parse bytes = .ok held) :
    let made := attempts storage images start
    let points := record start :: made.map fun attempt => record attempt.after
    (∀ kept ∈ points, Intact kept) ∧ points.Pairwise Lasts ∧
      ∀ attempt ∈ made, attempt.Guarded record := by
  have intact := intact_of_parse wellFormed
  clear wellFormed
  -- That the kept record is intact carries the induction from one attempt to the next.
  induction images generalizing start with
  | nil => simpa [attempts] using intact
  | cons image rest ih =>
      obtain ⟨flash, descriptor⟩ := image
      have first := guarded_attempt keeps flash descriptor intact
      obtain ⟨sound, ordered, others⟩ := ih _ first.intact
      simp only [attempts, List.map_cons]
      refine ⟨List.forall_mem_cons.2 ⟨intact, sound⟩, List.pairwise_cons.2 ⟨?_, ordered⟩,
        List.forall_mem_cons.2 ⟨first, others⟩⟩
      intro later member
      rcases List.mem_cons.1 member with rfl | after
      · exact first.lasts
      · exact first.lasts.trans ((List.pairwise_cons.1 ordered).1 later after)

/-- A schedule says which stores fail; after its end none does. -/
def flakySlot : RecordStorage (StateM (Option Bytes × List Bool)) where
  retrieve slotLength := fun state => (.ok (state.1.map fun bytes =>
    (bytes.length, bytes.take slotLength)), state)
  store bytes := fun (kept, schedule) =>
    match schedule with
    | true :: rest => (.error .io, (kept, rest))
    | false :: rest => (.ok (), (some bytes, rest))
    | [] => (.ok (), (some bytes, []))

theorem flakySlot_keeps : flakySlot.Keeps Prod.fst where
  retrieve slotLength before answer after result := by
    cases result
    exact ⟨rfl, fun found same => (Except.ok.inj same).symm⟩
  store bytes before answer after result := by
    obtain ⟨kept, schedule⟩ := before
    cases schedule with
    | nil =>
        cases result
        exact .inl ⟨rfl, rfl⟩
    | cons fails rest =>
        cases fails with
        | true =>
            cases result
            exact .inr ⟨.io, rfl, rfl⟩
        | false =>
            cases result
            exact .inl ⟨rfl, rfl⟩

/-- A flash of a blob with one rollback record, with a descriptor for it. -/
def blobImage (version timestamp minimum : UInt64) : Flash × Descriptor :=
  let record : RollbackRecord := ⟨version, timestamp, minimum, [], Nat.zero_le _⟩
  let blob : Extent := ⟨0, 56⟩
  (Flash.ofBytes (Field.encodeAll [.uint32 magics.blob, .zeros 4, .uint32 Blob.rollbackType,
      .uint32 (UInt32.ofNat record.encodedLength), .raw record.encode]),
    ⟨0, 1, 0, 0, 0, Vector.replicate 32 0, 0, .zero, 0, .prod, 0, .sha256, .rsa2048, 0, 56, [],
      ⟨⟨0, 0⟩, none, some blob, ⟨56, 0⟩, ⟨0, 56⟩⟩⟩)

/-- A store fails, the next succeeds, and an older image is refused. -/
theorem attempts_flaky :
    let images := [blobImage 5 1 4, blobImage 5 1 4, blobImage 3 2 0, blobImage 6 2 5]
    let made := attempts flakySlot images (none, [true])
    made.map Attempt.result = [.error (.rejected .storingNewImageMauvData), .ok .stored,
      .error (.rejected .storedImageMauvDoesNotAllowUpdateToPayload), .ok .stored] ∧
    ∀ attempt ∈ made, attempt.Guarded Prod.fst := by
  intro images made
  refine ⟨by with_unfolding_all rfl, ?_⟩
  exact (attempts_guarded flakySlot_keeps images (none, [true]) (by simp)).2.2

end Rollback

end SignedFirmware
