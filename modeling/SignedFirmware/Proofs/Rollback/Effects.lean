import SignedFirmware.Proofs.Rollback.Endings
import SignedFirmware.Image.Validation

namespace SignedFirmware

/-- A computation has a twin whose values carry proofs of the property. -/
def Always {m : Type → Type} [Monad m] {α : Type} (holds : α → Prop) (computation : m α) : Prop :=
  ∃ certified : m { value : α // holds value }, Subtype.val <$> certified = computation

/-- A step in a monad can end early with allowed halts only. -/
def Effects.Ends {m : Type → Type} [Monad m] {α : Type} (allowed : Halt → Prop)
    (step : ExceptT Halt m α) : Prop :=
  Always (fun result => ∀ halt, result = .error halt → allowed halt) step.run

section Laws

variable {m : Type → Type} [Monad m] [LawfulMonad m] {α β : Type}

theorem always_pure {holds : α → Prop} {value : α} (known : holds value) :
    Always holds (pure value : m α) :=
  ⟨pure ⟨value, known⟩, by simp⟩

/-- A sequence has a property if its second part always has it. -/
theorem always_bind {before : α → Prop} {holds : β → Prop} {computation : m α} {next : α → m β}
    (first : Always before computation)
    (second : ∀ value, before value → Always holds (next value)) :
    Always holds (computation >>= next) := by
  obtain ⟨certified, rfl⟩ := first
  have continued (value : { value : α // before value }) :
      Subtype.val <$> (second value.1 value.2).choose = next value.1 :=
    (second value.1 value.2).choose_spec
  refine ⟨certified >>= fun value => (second value.1 value.2).choose, ?_⟩
  rw [map_bind, bind_map_left]
  exact bind_congr continued

/-- A property of all values is one of the value of a run. -/
theorem always_run {σ : Type} {holds : α → Prop} {computation : StateM σ α}
    (always : Always holds computation) (before : σ) : holds (computation before).1 := by
  obtain ⟨certified, rfl⟩ := always
  exact (certified before).1.2

namespace Effects

variable {allowed : Halt → Prop}

theorem ends_pure (value : α) : Ends allowed (pure value : ExceptT Halt m α) := by
  apply always_pure
  intro halt equal
  cases equal

theorem ends_lift {step : Checked α} (ends : step.Ends allowed) :
    Ends allowed (step.lift : ExceptT Halt m α) :=
  always_pure ends

/-- An operation of the monad itself does not end early. -/
theorem ends_operation (operation : m α) : Ends allowed (liftM operation : ExceptT Halt m α) := by
  have succeeds (value : α) : ∀ halt, (Except.ok value : Except Halt α) = .error halt →
      allowed halt := by
    intro halt equal
    cases equal
  exact ⟨(fun value => ⟨.ok value, succeeds value⟩) <$> operation, by simp⟩

theorem ends_throw {halt : Halt} (harmless : allowed halt) :
    Ends allowed (throw halt : ExceptT Halt m α) := by
  apply always_pure
  intro other equal
  cases equal
  exact harmless

/-- A sequence of steps ends as allowed if both parts do. -/
theorem ends_bind {step : ExceptT Halt m α} {next : α → ExceptT Halt m β}
    (first : Ends allowed step) (second : ∀ value, Ends allowed (next value)) :
    Ends allowed (step >>= next) := by
  rw [Ends, ExceptT.run_bind]
  apply always_bind first
  intro result known
  cases result with
  | ok value => exact second value
  | error halt =>
      apply always_pure
      intro other equal
      cases equal
      exact known halt rfl

end Effects

end Laws

namespace Rollback

variable {m : Type → Type} [Monad m] [LawfulMonad m] {allowed : Halt → Prop}

theorem ends_answered {α : Type} {reason : Reason} (harmless : allowed (.rejected reason))
    (operation : m (Except StorageError α)) : Effects.Ends allowed (answered reason operation) := by
  unfold answered
  apply Effects.ends_bind (Effects.ends_operation operation)
  intro answer
  split
  next => exact Effects.ends_pure _
  next => exact Effects.ends_throw harmless

/-- The protection against rollback ends as allowed, whatever its storage answers. -/
theorem ends_enforce {σ : Type} {flash : Flash} {span : Span} {platform : Platform}
    {engine : HashEngine σ} {verifier : Verifier σ} {descriptor : Descriptor} {position : Nat}
    (tolerates : Tolerates allowed flash span platform engine verifier)
    (parsed : descriptor.Parsed flash position span platform)
    (storage : Option (RecordStorage m)) :
    Effects.Ends allowed (enforce flash descriptor storage) := by
  cases storage with
  | none => exact Effects.ends_pure _
  | some storage =>
      unfold enforce
      apply Effects.ends_bind (Effects.ends_lift (ends_readCarried tolerates parsed))
      intro carried
      apply Effects.ends_bind (ends_answered (tolerates.image (by decide)) _)
      intro answer
      apply Effects.ends_bind (Effects.ends_lift (ends_readStored tolerates answer))
      intro stored
      apply Effects.ends_bind (Effects.ends_lift (ends_decide tolerates stored carried))
      intro decision
      rcases decision with ⟨outcome, record⟩
      cases record with
      | none => exact Effects.ends_pure outcome
      | some record =>
          apply Effects.ends_bind (ends_answered (tolerates.image (by decide)) _)
          intro _
          exact Effects.ends_pure outcome

end Rollback

end SignedFirmware
