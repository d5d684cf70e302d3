import SignedFirmware.Proofs.Rollback.Effects
import SignedFirmware.Proofs.Search
import SignedFirmware.Proofs.Sha2

namespace SignedFirmware

open Checked

/-- A halt rejects for a reason of the image or of the policy. -/
def Halt.Benign (halt : Halt) : Prop :=
  ∃ reason, halt = .rejected reason ∧ (reason.tier = .structural ∨ reason.tier = .policy)

/-- On devices that do not fail only benign halts are needed. -/
theorem tolerates_benign {σ : Type} {flash : Flash} {span : Span} {platform : Platform}
    {engine : HashEngine σ} {verifier : Verifier σ} (answers : flash.Answers span)
    (completes : engine.Completes) (decides : verifier.Decides) (provides : platform.Provides) :
    Tolerates Halt.Benign flash span platform engine verifier where
  image {reason} harmless := by
    refine ⟨reason, rfl, ?_⟩
    cases tier : reason.tier with
    | fatal => exact absurd tier harmless
    | structural => exact .inl rfl
    | policy => exact .inr rfl
  flash := .inl answers
  engine := .inl completes
  verifier := .inl decides
  platform := .inl provides

namespace Settings
variable {σ : Type} {settings : Settings}

/-- The checks of a context end with a rejection. -/
theorem ends_check {allowed : Halt → Prop} (harmless : ∀ reason, allowed (.rejected reason))
    (settings : Settings) (flash : Flash) : (settings.check flash).Ends allowed := by
  have sized : (Checked.ofFlash flash.size).Ends allowed := by
    cases flash.size with
    | ok size => exact ends_ok size
    | error error => exact ends_reject (harmless _)
  apply ends_ensure_bind (harmless _)
  intro _
  apply ends_ensure_bind (harmless _)
  intro _
  apply ends_bind sized
  intro size _
  exact ends_ensure (harmless _)

/-- A search through bytes ends with a rejection, whatever the devices are. -/
theorem ends_search {allowed : Halt → Prop} (harmless : ∀ reason, allowed (.rejected reason))
    (settings : Settings) (image : Bytes) (platform : Platform) (engine : HashEngine σ)
    (verifier : Verifier σ) (capacity : Nat) (before : σ) :
    (settings.search (Flash.ofBytes image) platform engine verifier capacity).Ends allowed
      before := by
  have tolerates : Tolerates allowed (Flash.ofBytes image) settings.span platform engine verifier :=
    ⟨fun _ => harmless _, .inr (harmless _), .inr (harmless _), .inr (harmless _),
      .inr (harmless _)⟩
  intro halt after failed
  cases checked : settings.check (Flash.ofBytes image) with
  | error cause =>
      rw [search, checked, device_bind_eq_error] at failed
      rcases failed with early | ⟨_, _, passed, -⟩
      · obtain ⟨same, -⟩ := run_eq_error.1 early
        obtain rfl := Except.error.inj same
        exact ends_check harmless settings _ _ checked
      · cases passed
  | ok _ =>
      simp only [check, bind_eq_ok, ensure_eq_ok, ofFlash_eq_ok, exists_answer] at checked
      obtain ⟨nonempty, power, size, sized, inside⟩ := checked
      have fits : settings.span.stop.toNat ≤ image.length :=
        Nat.le_trans (UInt32.le_iff_toNat_le.1 inside) (Flash.le_of_size_ofBytes sized)
      have answers := Flash.answers_ofBytes fits
      have power := Offset.isPowerOfTwo_iff.1 power
      rw [search_eq_walk nonempty power sized inside answers.read] at failed
      refine ends_walk (harmless _) (by simp) ?_ halt after failed
      intro position member between
      exact ends_validateCandidate tolerates (mem_candidates.1 member).2.1 between

end Settings

namespace Context

variable {σ : Type} {capacity : Nat} {context : Context} {flash : Flash} {platform : Platform}
  {engine : HashEngine σ} {verifier : Verifier σ} {table : RegionTable capacity} {state : σ}

/-- A validation that succeeds records the candidate that was accepted. -/
theorem validate_eq_ok
    (accepted : (context.validate flash platform engine verifier table state).1.result = .ok ()) :
    ∃ position before descriptor key found after,
      context.settings.alignment.toNat ∣ position ∧
      context.settings.validateCandidate flash platform engine verifier capacity position before =
        .ok (descriptor, key, found) after ∧
      context.validate flash platform engine verifier table state =
        (⟨.ok (), ⟨context.settings, .valid, some key, some descriptor⟩, found⟩, after) := by
  rw [validate_eq_conclude] at accepted ⊢
  cases result : context.settings.search flash platform engine verifier capacity state with
  | error halt after =>
      rw [result] at accepted
      cases accepted
  | ok value after =>
      obtain ⟨descriptor, key, found⟩ := value
      obtain ⟨-, position, before, multiple, passed⟩ := Settings.search_eq_ok result
      exact ⟨position, before, descriptor, key, found, after, multiple, passed, rfl⟩

/-- If the devices do not fail, every halt of a validation is benign. -/
theorem validate_never_fatal {size : UInt32}
    (nonempty : context.settings.span.start < context.settings.span.stop)
    (power : context.settings.alignment.toNat.isPowerOfTwo)
    (sized : flash.size = .ok size) (inside : context.settings.span.stop ≤ size)
    (answers : flash.Answers context.settings.span) (completes : engine.Completes)
    (decides : verifier.Decides) (provides : platform.Provides) (table : RegionTable capacity)
    (state : σ) :
    let validation := (context.validate flash platform engine verifier table state).1
    (∀ halt, validation.result = .error halt → halt.Benign) ∧
    (validation.result = .ok () → ∀ {m : Type → Type} [Monad m] [LawfulMonad m]
      (storage : Option (RecordStorage m)),
      Effects.Ends Halt.Benign (validation.context.enforceRollback flash storage)) := by
  have tolerates := tolerates_benign answers completes decides provides
  constructor
  · intro halt failed
    rw [validate_eq_conclude, Settings.search_eq_walk nonempty power sized inside answers.read]
      at failed
    have ends : Run.Ends Halt.Benign
        (walk (context.settings.validateCandidate flash platform engine verifier capacity)
          (context.settings.candidates flash) none) state := by
      apply ends_walk (tolerates.image (by decide)) (by simp)
      intro position member before
      exact Settings.ends_validateCandidate tolerates (Settings.mem_candidates.1 member).2.1 before
    cases result : walk (context.settings.validateCandidate flash platform engine verifier capacity)
        (context.settings.candidates flash) none state with
    | ok value after =>
        rw [result] at failed
        cases failed
    | error cause after =>
        rw [result] at failed
        obtain rfl := Except.error.inj failed
        exact ends cause after result
  · intro accepted m _ _ storage
    obtain ⟨position, before, descriptor, key, found, after, -, passed, concluded⟩ :=
      validate_eq_ok accepted
    rw [concluded]
    exact Rollback.ends_enforce tolerates (Settings.validateCandidate_eq_ok.1 passed).1 storage

/-- Two magic words with no descriptor behind them bring no validation down. -/
theorem decoys_never_fatal :
    let decoy := littleEndian 8 magics.descriptor.toNat
    let flash := Flash.ofBytes (decoy ++ decoy)
    let context := Context.new ⟨⟨0, 16⟩, 8, 0, none⟩
    let platform : Platform := ⟨some true, some false, fun _ => none⟩
    let verifier : Verifier (Option Sha2.Session) := ⟨fun _ _ => throw .untrustedKey⟩
    let validation :=
      (context.validate flash platform Sha2.engine verifier (.empty 16) none).1
    (∀ halt, validation.result = .error halt → halt.Benign) ∧
    (validation.result = .ok () → ∀ storage : Option (RecordStorage Id),
      Effects.Ends Halt.Benign (validation.context.enforceRollback flash storage)) := by
  intro decoy flash context platform verifier validation
  have answers : flash.Answers ⟨0, 16⟩ := Flash.answers_ofBytes (by decide)
  have size : flash.size = .ok 16 := Flash.size_ofBytes (by decide)
  have decides : verifier.Decides := by
    intro block digest before after error failed
    exact .inl (EStateM.Result.error.inj failed).1.symm
  obtain ⟨benign, accepted⟩ :=
    @validate_never_fatal _ 16 context flash platform Sha2.engine verifier 16 (by decide)
      (by decide) size (by decide) answers Sha2.engine_completes decides ⟨rfl, rfl⟩ (.empty 16)
      none
  exact ⟨benign, fun passed storage => accepted passed storage⟩

end Context

end SignedFirmware
