import SignedFirmware.Proofs.Rollback.Attempts

namespace SignedFirmware

namespace RecordStorage

variable {σ : Type}

/-- Each operation of storage either always succeeds or never does. -/
structure Steady (storage : RecordStorage (StateM σ)) (retrieves stores : Bool) : Prop where
  retrieve : ∀ slotLength state, (storage.retrieve slotLength state).1.isOk = retrieves
  store : ∀ bytes state, (storage.store bytes state).1.isOk = stores

/-- This is storage that notes each record that it stored. -/
def noted (storage : RecordStorage (StateM σ)) : RecordStorage (StateM (σ × List Bytes)) where
  retrieve slotLength := fun (state, stored) =>
    let (answer, after) := storage.retrieve slotLength state
    (answer, after, stored)
  store bytes := fun (state, stored) =>
    match storage.store bytes state with
    | (.ok (), after) => (.ok (), after, stored ++ [bytes])
    | (.error error, after) => (.error error, after, stored)

/-- Storage with a log answers like storage without one. -/
structure Watches {τ : Type} (watched : RecordStorage (StateM (σ × τ)))
    (storage : RecordStorage (StateM σ)) : Prop where
  retrieve : ∀ slotLength state log, ∃ later, watched.retrieve slotLength (state, log) =
    ((storage.retrieve slotLength state).1, (storage.retrieve slotLength state).2, later)
  store : ∀ bytes state log, ∃ later, watched.store bytes (state, log) =
    ((storage.store bytes state).1, (storage.store bytes state).2, later)

/-- Storage answers like other storage while their states are related. -/
structure Follows {τ : Type} (storage : RecordStorage (StateM σ))
    (leader : RecordStorage (StateM τ)) (related : σ → τ → Prop) : Prop where
  retrieve : ∀ slotLength {state model}, related state model →
    (storage.retrieve slotLength state).1 = (leader.retrieve slotLength model).1 ∧
      related (storage.retrieve slotLength state).2 (leader.retrieve slotLength model).2
  store : ∀ bytes {state model}, related state model →
    (storage.store bytes state).1 = (leader.store bytes model).1 ∧
      related (storage.store bytes state).2 (leader.store bytes model).2

theorem Watches.follows {τ : Type} {watched : RecordStorage (StateM (σ × τ))}
    {storage : RecordStorage (StateM σ)} (watches : watched.Watches storage) :
    watched.Follows storage fun state model => state.1 = model where
  retrieve slotLength state model same := by
    obtain rfl := same
    obtain ⟨later, retrieved⟩ := watches.retrieve slotLength state.1 state.2
    rw [retrieved]
    exact ⟨rfl, rfl⟩
  store bytes state model same := by
    obtain rfl := same
    obtain ⟨later, stored⟩ := watches.store bytes state.1 state.2
    rw [stored]
    exact ⟨rfl, rfl⟩

theorem noted_watches (storage : RecordStorage (StateM σ)) : storage.noted.Watches storage where
  retrieve _ _ log := ⟨log, rfl⟩
  store bytes state log := by
    simp only [noted]
    rcases storage.store bytes state with ⟨error | ⟨⟩, after⟩ <;> exact ⟨_, rfl⟩

end RecordStorage

namespace Rollback

section Runs

variable {σ : Type} {flash : Flash} {descriptor : Descriptor}

/-- An attempt asks storage for its record once, and stores at most once. -/
theorem run_enforce_eq (storage : RecordStorage (StateM σ)) (before : σ) :
    (enforce flash descriptor (some storage)).run before =
      match readCarried flash descriptor with
      | .error halt => (.error halt, before)
      | .ok carried =>
          match storage.retrieve RollbackRecord.slotLength before with
          | (.error _, between) => (.error (.rejected .retrievingStoredImageMauvData), between)
          | (.ok answer, between) =>
              match readStored answer >>= fun stored => Rollback.decide stored carried with
              | .error halt => (.error halt, between)
              | .ok (outcome, none) => (.ok outcome, between)
              | .ok (outcome, some bytes) =>
                  match storage.store bytes between with
                  | (.ok (), after) => (.ok outcome, after)
                  | (.error _, after) =>
                      (.error (.rejected .storingNewImageMauvData), after) := by
  simp only [enforce, run_bind_eq, run_lift_eq, run_answered_eq]
  cases readCarried flash descriptor with
  | error halt => rfl
  | ok carried =>
      dsimp only
      rcases storage.retrieve RollbackRecord.slotLength before with ⟨error | answer, between⟩
      · rfl
      · dsimp only
        cases readStored answer with
        | error halt => rfl
        | ok stored =>
            have found : (Except.ok stored >>= fun stored => Rollback.decide stored carried) =
                Rollback.decide stored carried := rfl
            rw [found]
            dsimp only
            rcases Rollback.decide stored carried with halt | ⟨outcome, none | bytes⟩
            · rfl
            · rfl
            · dsimp only
              rw [run_bind_eq, run_answered_eq]
              rcases storage.store bytes between with ⟨error | ⟨⟩, after⟩ <;> rfl

/-- Attempts on storages of which one follows the other come to the same. -/
theorem run_follows {τ : Type} {storage : RecordStorage (StateM σ)}
    {leader : RecordStorage (StateM τ)} {related : σ → τ → Prop}
    (follows : storage.Follows leader related) {before : σ} {model : τ}
    (start : related before model) :
    let run := (enforce flash descriptor (some storage)).run before
    let expected := (enforce flash descriptor (some leader)).run model
    run.1 = expected.1 ∧ related run.2 expected.2 := by
  simp only [run_enforce_eq]
  cases readCarried flash descriptor with
  | error halt => exact ⟨rfl, start⟩
  | ok carried =>
      have retrieved := follows.retrieve RollbackRecord.slotLength start
      dsimp only
      revert retrieved
      rcases storage.retrieve RollbackRecord.slotLength before with ⟨answer, between⟩
      rcases leader.retrieve RollbackRecord.slotLength model with ⟨_, modelBetween⟩
      rintro ⟨rfl, middle⟩
      cases answer with
      | error error => exact ⟨rfl, middle⟩
      | ok answer =>
          dsimp only
          rcases readStored answer >>= fun stored => Rollback.decide stored carried with
            halt | ⟨outcome, none | bytes⟩
          · exact ⟨rfl, middle⟩
          · exact ⟨rfl, middle⟩
          · have stored := follows.store bytes middle
            dsimp only
            revert stored
            rcases storage.store bytes between with ⟨taken, after⟩
            rcases leader.store bytes modelBetween with ⟨_, modelAfter⟩
            rintro ⟨rfl, last⟩
            cases taken with
            | error error => exact ⟨rfl, last⟩
            | ok _ => exact ⟨rfl, last⟩

/-- Watching the storage changes nothing about an attempt. -/
theorem run_watched {τ : Type} {watched : RecordStorage (StateM (σ × τ))}
    {storage : RecordStorage (StateM σ)} (watches : watched.Watches storage) (before : σ)
    (log : τ) :
    let run := (enforce flash descriptor (some watched)).run (before, log)
    (run.1, run.2.1) = (enforce flash descriptor (some storage)).run before := by
  have start : (before, log).1 = before := rfl
  obtain ⟨same, states⟩ := run_follows watches.follows start
  exact Prod.ext same states

end Runs

/-- The result of an attempt and what is stored, from what the operations do. -/
def settle (retrieves stores : Bool) (flash : Flash) (descriptor : Descriptor)
    (kept : Option Bytes) : Except Halt RollbackOutcome × Option Bytes :=
  match readCarried flash descriptor with
  | .error halt => (.error halt, none)
  | .ok carried =>
      if retrieves then
        match readStored (handedBack kept) >>= fun stored => Rollback.decide stored carried with
        | .error halt => (.error halt, none)
        | .ok (outcome, none) => (.ok outcome, none)
        | .ok (outcome, some bytes) =>
            if stores then (.ok outcome, some bytes)
            else (.error (.rejected .storingNewImageMauvData), none)
      else
        (.error (.rejected .retrievingStoredImageMauvData), none)

variable {σ : Type} {storage : RecordStorage (StateM σ)} {record : σ → Option Bytes}
  {retrieves stores : Bool}

/-- An attempt comes to what it settles to, and what is stored is kept. -/
theorem run_settles (keeps : storage.Keeps record) (steady : storage.Steady retrieves stores)
    (flash : Flash) (descriptor : Descriptor) (before : σ) (stored : List Bytes) :
    let settled := settle retrieves stores flash descriptor (record before)
    ∃ after, (enforce flash descriptor (some storage.noted)).run (before, stored) =
        (settled.1, after, stored ++ settled.2.toList) ∧
      record after = settled.2.or (record before) := by
  simp only [run_enforce_eq, RecordStorage.noted, settle]
  cases readCarried flash descriptor with
  | error halt => exact ⟨before, by simp⟩
  | ok carried =>
      obtain ⟨answer, between, retrieved⟩ : ∃ answer between,
          storage.retrieve RollbackRecord.slotLength before = (answer, between) := ⟨_, _, rfl⟩
      have answers := steady.retrieve RollbackRecord.slotLength before
      obtain ⟨same, handed⟩ := keeps.retrieve _ _ _ _ retrieved
      rw [retrieved] at answers ⊢
      dsimp only at answers ⊢
      cases answer with
      | error error =>
          obtain rfl : false = retrieves := answers
          exact ⟨between, by simp, same⟩
      | ok answer =>
          obtain rfl : true = retrieves := answers
          obtain rfl : answer = handedBack (record before) := handed answer rfl
          dsimp only
          rcases readStored (handedBack (record before)) >>= fun stored =>
            Rollback.decide stored carried with halt | ⟨outcome, none | bytes⟩
          · exact ⟨between, by simp, same⟩
          · exact ⟨between, by simp, same⟩
          · obtain ⟨taken, after, storing⟩ : ∃ taken after,
                storage.store bytes between = (taken, after) := ⟨_, _, rfl⟩
            have takes := steady.store bytes between
            have replaced := keeps.store _ _ _ _ storing
            dsimp only
            rw [storing] at takes ⊢
            dsimp only at takes ⊢
            rcases replaced with ⟨rfl, now⟩ | ⟨error, rfl, still⟩
            · obtain rfl : true = stores := takes
              exact ⟨after, by simp, now⟩
            · obtain rfl : false = stores := takes
              exact ⟨after, by simp, still.trans same⟩

section Settling

variable {flash : Flash} {descriptor : Descriptor} {kept : Option Bytes}

/-- An attempt stores nothing or the record of the image, and says so. -/
theorem settle_cases (retrieves stores : Bool) (flash : Flash) (descriptor : Descriptor)
    (kept : Option Bytes) :
    (∃ result, settle retrieves stores flash descriptor kept = (result, none) ∧
      result ≠ .ok .stored) ∨
    ∃ new, readCarried flash descriptor = .ok (some new) ∧ retrieves = true ∧
      settle retrieves stores flash descriptor kept = (.ok .stored, some new.bytes) := by
  unfold settle
  cases read : readCarried flash descriptor with
  | error halt => exact .inl ⟨_, rfl, by simp⟩
  | ok carried =>
      cases retrieves with
      | false => exact .inl ⟨_, rfl, by simp⟩
      | true =>
          dsimp only
          cases found : readStored (handedBack kept) >>= fun stored =>
              Rollback.decide stored carried with
          | error halt => exact .inl ⟨_, rfl, by simp⟩
          | ok decision =>
              obtain ⟨outcome, change⟩ := decision
              obtain ⟨stored, -, decided⟩ := bind_eq_ok.1 found
              rcases decide_eq_ok decided with ⟨-, -, rfl, rfl⟩ | ⟨new, rfl, -, choice⟩
              · exact .inl ⟨_, rfl, by simp⟩
              · rcases choice with ⟨rfl, rfl, -⟩ | ⟨rfl, rfl, -⟩
                · cases stores with
                  | false => exact .inl ⟨_, rfl, by simp⟩
                  | true => exact .inr ⟨new, rfl, rfl, rfl⟩
                · exact .inl ⟨_, rfl, by simp⟩

/-- The record of an image is stored when none is kept. -/
theorem settle_first {carried : Carried}
    (read : readCarried flash descriptor = .ok (some carried)) :
    settle true true flash descriptor none = (.ok .stored, some carried.bytes) := by
  rw [settle, read]
  rfl

/-- The kept record is accepted again, but not stored. -/
theorem settle_own {carried : Carried}
    (read : readCarried flash descriptor = .ok (some carried)) (stores : Bool) :
    settle true stores flash descriptor (some carried.bytes) = (.ok .accepted, none) := by
  obtain ⟨-, -, -, -, -, -, parsed⟩ := readCarried_eq_some.1 read
  have found : readStored (handedBack (some carried.bytes)) = .ok (some carried.record) :=
    readStored_of_parse parsed
  have decided : Rollback.decide (some carried.record) (some carried) = .ok (.accepted, none) := by
    simp [Rollback.decide, RollbackRecord.allows_of_parse parsed, ensure, bind, Except.bind, pure,
      Except.pure]
  simp only [settle, read, found, if_true, bind, Except.bind, decided]

/-- What an attempt settles to is settled. -/
theorem settle_again (retrieves stores : Bool) (flash : Flash) (descriptor : Descriptor)
    (kept : Option Bytes) :
    let first := settle retrieves stores flash descriptor kept
    let second := settle retrieves stores flash descriptor (first.2.or kept)
    (first.1 = .ok .stored → second.1 = .ok .accepted) ∧
      (first.1 ≠ .ok .stored → second.1 = first.1) ∧ second.2 = none := by
  rcases settle_cases retrieves stores flash descriptor kept with
    ⟨result, settled, other⟩ | ⟨new, read, rfl, settled⟩
  · simp [settled, other]
  · simp [settled, settle_own read]

end Settling

/-- The records that are stored in an attempt. -/
def storedRecords (storage : RecordStorage (StateM σ)) (flash : Flash) (descriptor : Descriptor)
    (before : σ) : List Bytes :=
  (attempt storage.noted flash descriptor (before, [])).after.2

/-- An attempt comes to what it settles to, and that is kept after it. -/
theorem attempt_settles (keeps : storage.Keeps record) (steady : storage.Steady retrieves stores)
    (flash : Flash) (descriptor : Descriptor) (before : σ) :
    let made := attempt storage flash descriptor before
    let settled := settle retrieves stores flash descriptor (record before)
    made.result = settled.1 ∧ storedRecords storage flash descriptor before = settled.2.toList ∧
      record made.after = settled.2.or (record before) := by
  obtain ⟨after, noted, kept⟩ := run_settles keeps steady flash descriptor before []
  have plain := @run_watched σ flash descriptor _ _ _ storage.noted_watches before []
  rw [noted] at plain
  refine ⟨congrArg Prod.fst plain.symm, ?_, ?_⟩
  · exact congrArg (·.2.2) noted
  · have same := congrArg Prod.snd plain
    exact (congrArg record same.symm).trans kept

/-- A second attempt accepts what the first one stored and changes nothing. -/
theorem attempt_twice (keeps : storage.Keeps record) (steady : storage.Steady retrieves stores)
    (flash : Flash) (descriptor : Descriptor) (before : σ) :
    let first := attempt storage flash descriptor before
    let second := attempt storage flash descriptor first.after
    (first.result = .ok .stored → second.result = .ok .accepted) ∧
      (first.result ≠ .ok .stored → second.result = first.result) ∧
      storedRecords storage flash descriptor first.after = [] ∧
      record second.after = record first.after := by
  intro first second
  obtain ⟨result, -, kept⟩ := attempt_settles keeps steady flash descriptor before
  obtain ⟨resultAgain, storedAgain, keptAgain⟩ :=
    attempt_settles keeps steady flash descriptor first.after
  obtain ⟨accepted, same, nothing⟩ :=
    settle_again retrieves stores flash descriptor (record before)
  rw [← kept] at accepted same nothing
  refine ⟨?_, ?_, ?_, ?_⟩
  · intro stored
    exact resultAgain.trans (accepted (result.symm.trans stored))
  · intro other
    exact resultAgain.trans ((same (result ▸ other)).trans result.symm)
  · rw [storedAgain, nothing]
    rfl
  · rw [keptAgain, nothing]
    rfl

/-- Each operation of this storage always fails or never does. -/
def steadySlot (retrieves stores : Bool) : RecordStorage (StateM (Option Bytes)) where
  retrieve slotLength := fun kept =>
    if retrieves then (.ok (kept.map fun bytes => (bytes.length, bytes.take slotLength)), kept)
    else (.error .io, kept)
  store bytes := fun kept => if stores then (.ok (), some bytes) else (.error .io, kept)

theorem steadySlot_keeps (retrieves stores : Bool) : (steadySlot retrieves stores).Keeps id where
  retrieve slotLength before answer after result := by
    cases retrieves with
    | false =>
        cases result
        exact ⟨rfl, by simp⟩
    | true =>
        cases result
        exact ⟨rfl, fun found same => (Except.ok.inj same).symm⟩
  store bytes before answer after result := by
    cases stores with
    | false =>
        cases result
        exact .inr ⟨.io, rfl, rfl⟩
    | true =>
        cases result
        exact .inl ⟨rfl, rfl⟩

theorem steadySlot_steady (retrieves stores : Bool) :
    (steadySlot retrieves stores).Steady retrieves stores where
  retrieve _ _ := by cases retrieves <;> rfl
  store _ _ := by cases stores <;> rfl

/-- An image is stored at first and then accepted; a corrupt record fails twice. -/
theorem blobImage_twice :
    let image := blobImage 5 1 4
    let made := attempt (steadySlot true true) image.1 image.2
    (made none).result = .ok .stored ∧ (made (made none).after).result = .ok .accepted ∧
      (made (some [1, 2, 3])).result = .error (.rejected .storedImageMauvDataInvalid) ∧
      (made (made (some [1, 2, 3])).after).result = (made (some [1, 2, 3])).result := by
  intro image made
  have stored : (made none).result = .ok .stored := by with_unfolding_all rfl
  have corrupt : (made (some [1, 2, 3])).result =
      .error (.rejected .storedImageMauvDataInvalid) := by with_unfolding_all rfl
  have keeps := steadySlot_keeps true true
  have steady := steadySlot_steady true true
  obtain ⟨accepted, -⟩ := attempt_twice keeps steady image.1 image.2 none
  obtain ⟨-, same, -⟩ := attempt_twice keeps steady image.1 image.2 (some [1, 2, 3])
  have other : (made (some [1, 2, 3])).result ≠ .ok .stored := by simp [corrupt]
  exact ⟨stored, accepted stored, corrupt, same other⟩

end Rollback

end SignedFirmware
