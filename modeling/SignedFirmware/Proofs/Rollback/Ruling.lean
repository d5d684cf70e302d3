import SignedFirmware.Proofs.Recovery

namespace SignedFirmware

/-- A call of an operation of storage. -/
inductive StorageCall where
  | retrieve (slotLength : Nat)
  | store (bytes : Bytes)
  deriving DecidableEq, Repr

namespace RecordStorage

variable {σ : Type}

/-- This is storage that notes each call. -/
def logged (storage : RecordStorage (StateM σ)) :
    RecordStorage (StateM (σ × List StorageCall)) where
  retrieve slotLength := fun (state, calls) =>
    let (answer, after) := storage.retrieve slotLength state
    (answer, after, calls ++ [.retrieve slotLength])
  store bytes := fun (state, calls) =>
    let (answer, after) := storage.store bytes state
    (answer, after, calls ++ [.store bytes])

theorem logged_watches (storage : RecordStorage (StateM σ)) : storage.logged.Watches storage where
  retrieve _ _ _ := ⟨_, rfl⟩
  store _ _ _ := ⟨_, rfl⟩

end RecordStorage

namespace Rollback

/-- The record of an image must fit into the slot and be well-formed. -/
inductive CarriedReading (flash : Flash) (descriptor : Descriptor) :
    Except Halt (Option Carried) → Prop where
  | unlocated {halt : Halt} (failed : descriptor.findRollbackRecord flash = .error halt) :
      CarriedReading flash descriptor (.error halt)
  | absent (located : descriptor.findRollbackRecord flash = .ok none) :
      CarriedReading flash descriptor (.ok none)
  | oversized {place : Extent} (located : descriptor.findRollbackRecord flash = .ok (some place))
      (long : RollbackRecord.slotLength < place.length) :
      CarriedReading flash descriptor (.error (.rejected .invalidImageMauvData))
  | malformed {place : Extent} {bytes : Vector UInt8 place.length} {error : RecordError}
      (located : descriptor.findRollbackRecord flash = .ok (some place))
      (answer : flash.read place.offset place.length = .ok bytes)
      (invalid : RollbackRecord.parse bytes.toList = .error error) :
      CarriedReading flash descriptor (.error (.rejected .invalidImageMauvData))
  | present {place : Extent} {bytes : Vector UInt8 place.length} {record : RollbackRecord}
      (located : descriptor.findRollbackRecord flash = .ok (some place))
      (answer : flash.read place.offset place.length = .ok bytes)
      (valid : RollbackRecord.parse bytes.toList = .ok record) :
      CarriedReading flash descriptor (.ok (some ⟨record, bytes.toList⟩))

/-- The stored record is the front of the slot, with zeros behind the copy. -/
inductive StoredReading : Option (Nat × Bytes) → Except Halt (Option RollbackRecord) → Prop where
  | absent : StoredReading none (.ok none)
  | oversized {length : Nat} {copied : Bytes} (long : RollbackRecord.slotLength < length) :
      StoredReading (some (length, copied)) (.error (.rejected .storedImageMauvDataInvalid))
  | malformed {length : Nat} {copied : Bytes} {error : RecordError}
      (invalid : RollbackRecord.parse
        ((copied ++ zeroBytes RollbackRecord.slotLength).take length) = .error error) :
      StoredReading (some (length, copied)) (.error (.rejected .storedImageMauvDataInvalid))
  | present {length : Nat} {copied : Bytes} {record : RollbackRecord}
      (fits : length ≤ RollbackRecord.slotLength)
      (valid : RollbackRecord.parse
        ((copied ++ zeroBytes RollbackRecord.slotLength).take length) = .ok record) :
      StoredReading (some (length, copied)) (.ok (some record))

/-- Storage is asked once, and called again for a first or newer record. -/
inductive Ruling {σ : Type} (flash : Flash) (descriptor : Descriptor)
    (storage : RecordStorage (StateM σ)) (before : σ) :
    Except Halt RollbackOutcome → List StorageCall → Prop where
  | unread {halt : Halt} (reading : CarriedReading flash descriptor (.error halt)) :
      Ruling flash descriptor storage before (.error halt) []
  | unanswered {carried : Option Carried} {error : StorageError} {between : σ}
      (reading : CarriedReading flash descriptor (.ok carried))
      (retrieved : storage.retrieve RollbackRecord.slotLength before = (.error error, between)) :
      Ruling flash descriptor storage before
        (.error (.rejected .retrievingStoredImageMauvData)) [.retrieve RollbackRecord.slotLength]
  | corrupt {carried : Option Carried} {answer : Option (Nat × Bytes)} {between : σ} {halt : Halt}
      (reading : CarriedReading flash descriptor (.ok carried))
      (retrieved : storage.retrieve RollbackRecord.slotLength before = (.ok answer, between))
      (held : StoredReading answer (.error halt)) :
      Ruling flash descriptor storage before (.error halt) [.retrieve RollbackRecord.slotLength]
  | nothing {answer : Option (Nat × Bytes)} {between : σ}
      (reading : CarriedReading flash descriptor (.ok none))
      (retrieved : storage.retrieve RollbackRecord.slotLength before = (.ok answer, between))
      (held : StoredReading answer (.ok none)) :
      Ruling flash descriptor storage before (.ok .nothingToEnforce)
        [.retrieve RollbackRecord.slotLength]
  | missing {answer : Option (Nat × Bytes)} {between : σ} {old : RollbackRecord}
      (reading : CarriedReading flash descriptor (.ok none))
      (retrieved : storage.retrieve RollbackRecord.slotLength before = (.ok answer, between))
      (held : StoredReading answer (.ok (some old))) :
      Ruling flash descriptor storage before
        (.error (.rejected .storedImageMauvExpectsPayloadImageMauv))
        [.retrieve RollbackRecord.slotLength]
  | disallowed {answer : Option (Nat × Bytes)} {between : σ} {old : RollbackRecord} {new : Carried}
      (reading : CarriedReading flash descriptor (.ok (some new)))
      (retrieved : storage.retrieve RollbackRecord.slotLength before = (.ok answer, between))
      (held : StoredReading answer (.ok (some old)))
      (refused : new.record.securityVersion < old.minimum ∨
        new.record.securityVersion ∈ old.denylist) :
      Ruling flash descriptor storage before
        (.error (.rejected .storedImageMauvDoesNotAllowUpdateToPayload))
        [.retrieve RollbackRecord.slotLength]
  | accepted {answer : Option (Nat × Bytes)} {between : σ} {old : RollbackRecord} {new : Carried}
      (reading : CarriedReading flash descriptor (.ok (some new)))
      (retrieved : storage.retrieve RollbackRecord.slotLength before = (.ok answer, between))
      (held : StoredReading answer (.ok (some old)))
      (least : old.minimum ≤ new.record.securityVersion)
      (unlisted : new.record.securityVersion ∉ old.denylist)
      (notNewer : new.record.timestamp ≤ old.timestamp) :
      Ruling flash descriptor storage before (.ok .accepted) [.retrieve RollbackRecord.slotLength]
  | stored {answer : Option (Nat × Bytes)} {between after : σ} {stored : Option RollbackRecord}
      {new : Carried} (reading : CarriedReading flash descriptor (.ok (some new)))
      (retrieved : storage.retrieve RollbackRecord.slotLength before = (.ok answer, between))
      (held : StoredReading answer (.ok stored))
      (newer : ∀ old ∈ stored, old.minimum ≤ new.record.securityVersion ∧
        new.record.securityVersion ∉ old.denylist ∧ old.timestamp < new.record.timestamp)
      (taken : storage.store new.bytes between = (.ok (), after)) :
      Ruling flash descriptor storage before (.ok .stored)
        [.retrieve RollbackRecord.slotLength, .store new.bytes]
  | unstored {answer : Option (Nat × Bytes)} {between after : σ} {stored : Option RollbackRecord}
      {new : Carried} {error : StorageError}
      (reading : CarriedReading flash descriptor (.ok (some new)))
      (retrieved : storage.retrieve RollbackRecord.slotLength before = (.ok answer, between))
      (held : StoredReading answer (.ok stored))
      (newer : ∀ old ∈ stored, old.minimum ≤ new.record.securityVersion ∧
        new.record.securityVersion ∉ old.denylist ∧ old.timestamp < new.record.timestamp)
      (refused : storage.store new.bytes between = (.error error, after)) :
      Ruling flash descriptor storage before (.error (.rejected .storingNewImageMauvData))
        [.retrieve RollbackRecord.slotLength, .store new.bytes]

section Readings

variable {flash : Flash} {descriptor : Descriptor} {span : Span} {platform : Platform}
  {source : Flash} {position : Nat}

theorem CarriedReading.eq {result : Except Halt (Option Carried)}
    (reading : CarriedReading flash descriptor result) : readCarried flash descriptor = result := by
  cases reading with
  | unlocated failed =>
      rw [readCarried, failed]
      rfl
  | absent located =>
      rw [readCarried, located]
      rfl
  | oversized located long =>
      rw [readCarried, located]
      exact ensure_bind_of_not (Nat.not_le_of_lt long)
  | @malformed place bytes error located answer invalid =>
      rw [readCarried, located]
      change (ensure (place.length ≤ RollbackRecord.slotLength) .invalidImageMauvData >>= _) = _
      by_cases short : place.length ≤ RollbackRecord.slotLength
      · rw [ensure_bind short, ofFlash_bind answer, invalid]
        rfl
      · exact ensure_bind_of_not short
  | @present place bytes record located answer valid =>
      have short := RollbackRecord.length_le_of_parse valid
      rw [Vector.length_toList] at short
      exact readCarried_eq_some.2 ⟨place, bytes, located, short, answer, rfl, valid⟩

/-- A rule for the record of an image applies if it can be read. -/
theorem carriedReading_total (parsed : descriptor.Parsed source position span platform)
    (readable : flash.Readable span) :
    CarriedReading flash descriptor (readCarried flash descriptor) := by
  cases located : descriptor.findRollbackRecord flash with
  | error halt =>
      have reading := CarriedReading.unlocated located
      rwa [reading.eq]
  | ok found =>
      cases found with
      | none =>
          have reading := CarriedReading.absent located
          rwa [reading.eq]
      | some place =>
          obtain ⟨low, high⟩ := Descriptor.record_inside parsed located
          obtain ⟨bytes, answer⟩ := readable low high
          cases result : RollbackRecord.parse bytes.toList with
          | error error =>
              have reading := CarriedReading.malformed located answer result
              rwa [reading.eq]
          | ok record =>
              have reading := CarriedReading.present located answer result
              rwa [reading.eq]

theorem StoredReading.eq {answer : Option (Nat × Bytes)}
    {result : Except Halt (Option RollbackRecord)} (reading : StoredReading answer result) :
    readStored answer = result := by
  cases reading with
  | absent => rfl
  | oversized long => exact ensure_bind_of_not (Nat.not_le_of_lt long)
  | @malformed length copied error invalid =>
      rw [readStored]
      by_cases short : length ≤ RollbackRecord.slotLength
      · rw [ensure_bind short, invalid]
        rfl
      · exact ensure_bind_of_not short
  | present fits valid =>
      rw [readStored, ensure_bind fits, valid]
      rfl

/-- One of the rules for the answer of storage applies. -/
theorem storedReading_total (answer : Option (Nat × Bytes)) :
    StoredReading answer (readStored answer) := by
  cases answer with
  | none => exact .absent
  | some slot =>
      obtain ⟨length, copied⟩ := slot
      cases result : RollbackRecord.parse
          ((copied ++ zeroBytes RollbackRecord.slotLength).take length) with
      | error error =>
          have reading := StoredReading.malformed result
          rwa [reading.eq]
      | ok record =>
          by_cases fits : length ≤ RollbackRecord.slotLength
          · have reading := StoredReading.present fits result
            rwa [reading.eq]
          · have reading := @StoredReading.oversized length copied (Nat.lt_of_not_le fits)
            rwa [reading.eq]

end Readings

variable {σ : Type} {flash : Flash} {descriptor : Descriptor}
  {storage : RecordStorage (StateM σ)} {before : σ}

/-- The calls of storage in an attempt, in order. -/
def storageCalls (storage : RecordStorage (StateM σ)) (flash : Flash) (descriptor : Descriptor)
    (before : σ) : List StorageCall :=
  (attempt storage.logged flash descriptor (before, [])).after.2

/-- The calls that are noted in an attempt are made along its run. -/
theorem attempt_calls (storage : RecordStorage (StateM σ)) (flash : Flash)
    (descriptor : Descriptor) (before : σ) :
    ((attempt storage flash descriptor before).result,
        storageCalls storage flash descriptor before) =
      match readCarried flash descriptor with
      | .error halt => (.error halt, [])
      | .ok carried =>
          match storage.retrieve RollbackRecord.slotLength before with
          | (.error _, _) => (.error (.rejected .retrievingStoredImageMauvData),
              [.retrieve RollbackRecord.slotLength])
          | (.ok answer, between) =>
              match readStored answer >>= fun stored => Rollback.decide stored carried with
              | .error halt => (.error halt, [.retrieve RollbackRecord.slotLength])
              | .ok (outcome, none) => (.ok outcome, [.retrieve RollbackRecord.slotLength])
              | .ok (outcome, some bytes) =>
                  match (storage.store bytes between).1 with
                  | .ok () => (.ok outcome, [.retrieve RollbackRecord.slotLength, .store bytes])
                  | .error _ => (.error (.rejected .storingNewImageMauvData),
                      [.retrieve RollbackRecord.slotLength, .store bytes]) := by
  have same := @run_watched σ flash descriptor _ _ _ storage.logged_watches before []
  have result : (attempt storage flash descriptor before).result =
      (attempt storage.logged flash descriptor (before, [])).result :=
    congrArg Prod.fst same.symm
  rw [result, storageCalls, attempt, run_enforce_eq]
  clear same result
  cases readCarried flash descriptor with
  | error halt => rfl
  | ok carried =>
      simp only [RecordStorage.logged]
      rcases storage.retrieve RollbackRecord.slotLength before with ⟨error | answer, between⟩
      · rfl
      · dsimp only
        rcases readStored answer >>= fun stored => Rollback.decide stored carried with
          halt | ⟨outcome, none | bytes⟩
        · rfl
        · rfl
        · dsimp only
          rcases storage.store bytes between with ⟨error | ⟨⟩, after⟩ <;> rfl

/-- The decision on both records says what is still called. -/
theorem attempt_calls_of_readings {carried : Option Carried} {answer : Option (Nat × Bytes)}
    {between : σ} {stored : Option RollbackRecord}
    (reading : CarriedReading flash descriptor (.ok carried))
    (retrieved : storage.retrieve RollbackRecord.slotLength before = (.ok answer, between))
    (held : StoredReading answer (.ok stored)) :
    ((attempt storage flash descriptor before).result,
        storageCalls storage flash descriptor before) =
      match Rollback.decide stored carried with
      | .error halt => (.error halt, [.retrieve RollbackRecord.slotLength])
      | .ok (outcome, none) => (.ok outcome, [.retrieve RollbackRecord.slotLength])
      | .ok (outcome, some bytes) =>
          match (storage.store bytes between).1 with
          | .ok () => (.ok outcome, [.retrieve RollbackRecord.slotLength, .store bytes])
          | .error _ => (.error (.rejected .storingNewImageMauvData),
              [.retrieve RollbackRecord.slotLength, .store bytes]) := by
  rw [attempt_calls, reading.eq, retrieved]
  dsimp only
  rw [held.eq]
  rfl

/-- A newer record that the stored one allows is to be stored. -/
theorem decide_of_newer {stored : Option RollbackRecord} {new : Carried}
    (newer : ∀ old ∈ stored, old.minimum ≤ new.record.securityVersion ∧
      new.record.securityVersion ∉ old.denylist ∧ old.timestamp < new.record.timestamp) :
    Rollback.decide stored (some new) = .ok (.stored, some new.bytes) := by
  cases stored with
  | none => rfl
  | some old =>
      obtain ⟨least, unlisted, later⟩ := newer old rfl
      rw [Rollback.decide, ensure_bind (RollbackRecord.allows_eq_true.2 ⟨least, unlisted⟩),
        if_neg (UInt64.not_le.2 later)]
      rfl

/-- What the rules say is what the attempt does. -/
theorem Ruling.eq {result : Except Halt RollbackOutcome} {calls : List StorageCall}
    (ruling : Ruling flash descriptor storage before result calls) :
    ((attempt storage flash descriptor before).result,
      storageCalls storage flash descriptor before) = (result, calls) := by
  cases ruling with
  | unread reading => rw [attempt_calls, reading.eq]
  | unanswered reading retrieved => rw [attempt_calls, reading.eq, retrieved]
  | corrupt reading retrieved held =>
      rw [attempt_calls, reading.eq, retrieved]
      dsimp only
      rw [held.eq]
      rfl
  | nothing reading retrieved held => exact attempt_calls_of_readings reading retrieved held
  | missing reading retrieved held => exact attempt_calls_of_readings reading retrieved held
  | disallowed reading retrieved held refused =>
      rw [attempt_calls_of_readings reading retrieved held, Rollback.decide,
        ensure_bind_of_not (Bool.not_eq_true _ ▸ RollbackRecord.allows_eq_false.2 refused)]
      rfl
  | accepted reading retrieved held least unlisted notNewer =>
      rw [attempt_calls_of_readings reading retrieved held, Rollback.decide,
        ensure_bind (RollbackRecord.allows_eq_true.2 ⟨least, unlisted⟩), if_pos notNewer]
      rfl
  | stored reading retrieved held newer taken =>
      rw [attempt_calls_of_readings reading retrieved held, decide_of_newer newer]
      dsimp only
      rw [taken]
  | unstored reading retrieved held newer refused =>
      rw [attempt_calls_of_readings reading retrieved held, decide_of_newer newer]
      dsimp only
      rw [refused]

/-- Storage either takes a record that is to be stored or refuses it. -/
theorem ruling_of_newer {answer : Option (Nat × Bytes)} {between : σ}
    {stored : Option RollbackRecord} {new : Carried}
    (reading : CarriedReading flash descriptor (.ok (some new)))
    (retrieved : storage.retrieve RollbackRecord.slotLength before = (.ok answer, between))
    (held : StoredReading answer (.ok stored))
    (newer : ∀ old ∈ stored, old.minimum ≤ new.record.securityVersion ∧
      new.record.securityVersion ∉ old.denylist ∧ old.timestamp < new.record.timestamp) :
    ∃ result calls, Ruling flash descriptor storage before result calls := by
  obtain ⟨taken, after, storing⟩ : ∃ taken after,
      storage.store new.bytes between = (taken, after) := ⟨_, _, rfl⟩
  cases taken with
  | error error => exact ⟨_, _, .unstored reading retrieved held newer storing⟩
  | ok _ => exact ⟨_, _, .stored reading retrieved held newer storing⟩

/-- A rule applies to every attempt that can read its image. -/
theorem ruling_total (storage : RecordStorage (StateM σ)) (before : σ)
    (reading : CarriedReading flash descriptor (readCarried flash descriptor)) :
    ∃ result calls, Ruling flash descriptor storage before result calls := by
  cases carried : readCarried flash descriptor with
  | error halt => exact ⟨_, _, .unread (carried ▸ reading)⟩
  | ok carries =>
      rw [carried] at reading
      obtain ⟨answer, between, retrieved⟩ : ∃ answer between,
          storage.retrieve RollbackRecord.slotLength before = (answer, between) := ⟨_, _, rfl⟩
      cases answer with
      | error error => exact ⟨_, _, .unanswered reading retrieved⟩
      | ok answer =>
          have held := storedReading_total answer
          cases found : readStored answer with
          | error halt => exact ⟨_, _, .corrupt reading retrieved (found ▸ held)⟩
          | ok stored =>
              rw [found] at held
              rcases stored with _ | old <;> rcases carries with _ | new
              · exact ⟨_, _, .nothing reading retrieved held⟩
              · exact ruling_of_newer reading retrieved held (by simp)
              · exact ⟨_, _, .missing reading retrieved held⟩
              · cases allowed : old.allows new.record.securityVersion with
                | false =>
                    have refused := RollbackRecord.allows_eq_false.1 allowed
                    exact ⟨_, _, .disallowed reading retrieved held refused⟩
                | true =>
                    obtain ⟨least, unlisted⟩ := RollbackRecord.allows_eq_true.1 allowed
                    by_cases notNewer : new.record.timestamp ≤ old.timestamp
                    · exact ⟨_, _, .accepted reading retrieved held least unlisted notNewer⟩
                    · apply ruling_of_newer reading retrieved held
                      intro other same
                      obtain rfl := Option.some.inj same
                      exact ⟨least, unlisted, UInt64.not_le.1 notNewer⟩

/-- Every attempt ends and calls storage as the rules say. -/
theorem enforce_ruled {source flash : Flash} {position : Nat} {span : Span} {platform : Platform}
    {descriptor : Descriptor}
    (parsed : Descriptor.parse source position span platform = .ok descriptor)
    (readable : flash.Readable span) :
    (∀ {m : Type → Type} [Monad m] (other : Flash),
      (enforce other descriptor none : ExceptT Halt m RollbackOutcome) = pure .disabled) ∧
    ∀ {σ : Type} (storage : RecordStorage (StateM σ)) (before : σ)
      (result : Except Halt RollbackOutcome) (calls : List StorageCall),
      Ruling flash descriptor storage before result calls ↔
        (attempt storage flash descriptor before).result = result ∧
          storageCalls storage flash descriptor before = calls := by
  refine ⟨fun _ => rfl, ?_⟩
  intro σ storage before result calls
  have reading := carriedReading_total (Descriptor.parse_eq_ok.1 parsed) readable
  constructor
  · intro ruling
    exact Prod.mk.inj ruling.eq
  · rintro ⟨rfl, rfl⟩
    obtain ⟨result, calls, ruling⟩ := ruling_total storage before reading
    obtain ⟨same, sameCalls⟩ := Prod.mk.inj ruling.eq
    rw [same, sameCalls]
    exact ruling

/-- An image is refused after one call or two if storage fails. -/
theorem guarded_ruled :
    ∃ (image : Bytes) (descriptor : Descriptor) (record : RollbackRecord),
      Descriptor.parse (Flash.ofBytes image) 0 ⟨0, UInt32.ofNat image.length⟩
        ⟨none, none, fun _ => none⟩ = .ok descriptor ∧
      (Flash.ofBytes image).Readable ⟨0, UInt32.ofNat image.length⟩ ∧
      record.securityVersion = 5 ∧
      (attempt (steadySlot false true) (Flash.ofBytes image) descriptor none).result =
        .error (.rejected .retrievingStoredImageMauvData) ∧
      storageCalls (steadySlot false true) (Flash.ofBytes image) descriptor none =
        [.retrieve 128] ∧
      (attempt (steadySlot true false) (Flash.ofBytes image) descriptor none).result =
        .error (.rejected .storingNewImageMauvData) ∧
      storageCalls (steadySlot true false) (Flash.ofBytes image) descriptor none =
        [.retrieve 128, .store record.encode] := by
  obtain ⟨draft, image, after, drafted, built⟩ := Blueprint.guarded_built
  have planned : ⟨5, 1600000000, 4, [1, 2]⟩ ∈ Blueprint.guarded.rollback := rfl
  obtain ⟨record, describes, carried⟩ :=
    Blueprint.carried_of_build drafted built planned (by decide)
  have parsed := @Blueprint.parsed_of_build _ _ _ _ _ _ _ _ _ drafted built
    ⟨none, none, fun _ => none⟩ (by simp)
  have readable : (Flash.ofBytes image).Readable ⟨0, UInt32.ofNat image.length⟩ :=
    (Blueprint.build_carried drafted built).1.answers.read
  have reading := carriedReading_total parsed readable
  rw [carried] at reading
  obtain ⟨-, ruled⟩ := enforce_ruled (Descriptor.parse_eq_ok.2 parsed) readable
  obtain ⟨unread, unreadCalls⟩ :=
    (ruled (steadySlot false true) none _ _).1 (.unanswered reading rfl)
  obtain ⟨unstored, unstoredCalls⟩ :=
    (ruled (steadySlot true false) none _ _).1 (.unstored reading rfl .absent (by simp) rfl)
  exact ⟨image, draft.descriptor, record, Descriptor.parse_eq_ok.2 parsed, readable,
    describes.securityVersion, unread, unreadCalls, unstored, unstoredCalls⟩

end Rollback

end SignedFirmware
