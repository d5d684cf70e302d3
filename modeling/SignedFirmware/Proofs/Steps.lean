import SignedFirmware.Flash

/-! Rules for steps of a check: when a sequence succeeds and which halts it can end with. -/

namespace SignedFirmware

/-- A step without a value has a single possible answer. -/
@[simp] theorem exists_answer {holds : Unit → Prop} : (∃ answer, holds answer) ↔ holds () :=
  ⟨fun ⟨_, known⟩ => known, fun known => ⟨(), known⟩⟩

/-- A sequence fails in its first part or in its second. -/
theorem bind_eq_error {ε α β : Type} {step : Except ε α} {next : α → Except ε β} {error : ε} :
    (step >>= next) = .error error ↔
      step = .error error ∨ ∃ value, step = .ok value ∧ next value = .error error := by
  cases step <;> simp [bind, Except.bind]

@[simp] theorem pure_ne_error {ε α : Type} {value : α} {error : ε} :
    (pure value : Except ε α) ≠ .error error := by
  simp [pure, Except.pure]

section Devices

variable {ε δ σ α β : Type}

/-- A sequence of device steps succeeds if both parts succeed. -/
theorem device_bind_eq_ok {step : EStateM ε σ α} {next : α → EStateM ε σ β} {before after : σ}
    {value : β} :
    (step >>= next) before = .ok value after ↔
      ∃ found between, step before = .ok found between ∧ next found between = .ok value after := by
  change EStateM.bind step next before = _ ↔ _
  unfold EStateM.bind
  cases step before <;> simp [and_assoc]

/-- After a device step that succeeds comes what follows its value. -/
theorem device_bind_of_ok {step : EStateM ε σ α} {next : α → EStateM ε σ β} {before between : σ}
    {found : α} (first : step before = .ok found between) :
    (step >>= next) before = next found between := by
  change EStateM.bind step next before = _
  unfold EStateM.bind
  rw [first]

/-- A sequence of device steps fails in its first part or in its second. -/
theorem device_bind_eq_error {step : EStateM ε σ α} {next : α → EStateM ε σ β} {before after : σ}
    {error : ε} :
    (step >>= next) before = .error error after ↔
      step before = .error error after ∨
        ∃ found between, step before = .ok found between ∧
          next found between = .error error after := by
  change EStateM.bind step next before = _ ↔ _
  unfold EStateM.bind
  cases step before <;> simp [and_assoc]

/-- After a device step only what follows its values matters. -/
theorem device_bind_congr {step : EStateM ε σ α} {left right : α → EStateM ε σ β} {before : σ}
    (same : ∀ value between, step before = .ok value between →
      left value between = right value between) :
    (step >>= left) before = (step >>= right) before := by
  change EStateM.bind step left before = EStateM.bind step right before
  unfold EStateM.bind
  cases result : step before with
  | ok value between => exact same value between result
  | error error between => rfl

@[simp] theorem device_pure_eq_ok {value result : α} {before after : σ} :
    (pure value : EStateM ε σ α) before = .ok result after ↔ value = result ∧ before = after := by
  change EStateM.Result.ok value before = _ ↔ _
  simp

@[simp] theorem device_pure_ne_error {value : α} {before after : σ} {error : ε} :
    (pure value : EStateM ε σ α) before ≠ .error error after := by
  change EStateM.Result.ok value before ≠ _
  simp

@[simp] theorem device_throw_ne_ok {error : ε} {before after : σ} {value : α} :
    (throw error : EStateM ε σ α) before ≠ .ok value after := by
  change EStateM.Result.error error before ≠ _
  simp

@[simp] theorem adaptExcept_eq_ok {convert : ε → δ} {step : EStateM ε σ α} {before after : σ}
    {value : α} :
    EStateM.adaptExcept convert step before = .ok value after ↔ step before = .ok value after := by
  unfold EStateM.adaptExcept
  cases step before <;> simp

@[simp] theorem adaptExcept_eq_error {convert : ε → δ} {step : EStateM ε σ α} {before after : σ}
    {error : δ} :
    EStateM.adaptExcept convert step before = .error error after ↔
      ∃ cause, convert cause = error ∧ step before = .error cause after := by
  unfold EStateM.adaptExcept
  cases step before with
  | ok value state => simp
  | error cause state =>
      simp only [EStateM.Result.error.injEq]
      exact ⟨fun ⟨same, state⟩ => ⟨cause, same, rfl, state⟩, fun ⟨_, same, equal, state⟩ =>
        ⟨equal ▸ same, state⟩⟩

/-- The errors of a sequence are converted in both its parts. -/
theorem adaptExcept_bind (convert : ε → δ) (step : EStateM ε σ α) (next : α → EStateM ε σ β) :
    EStateM.adaptExcept convert (step >>= next) =
      EStateM.adaptExcept convert step >>= fun value =>
        EStateM.adaptExcept convert (next value) := by
  funext state
  change EStateM.adaptExcept convert (EStateM.bind step next) state =
    EStateM.bind (EStateM.adaptExcept convert step) _ state
  simp only [EStateM.adaptExcept, EStateM.bind]
  cases step state <;> rfl

@[simp] theorem run_eq_ok {step : Checked α} {before after : σ} {value : α} :
    step.run before = .ok value after ↔ step = .ok value ∧ before = after := by
  unfold Checked.run
  cases step <;> simp

@[simp] theorem run_eq_error {step : Checked α} {before after : σ} {halt : Halt} :
    step.run before = .error halt after ↔ step = .error halt ∧ before = after := by
  unfold Checked.run
  cases step <;> simp

end Devices

section Effects

variable {ε σ α β : Type} {step : ExceptT ε (StateM σ) α} {next : α → ExceptT ε (StateM σ) β}
  {before : σ}

/-- A sequence of steps stops at the first one that ends early. -/
theorem run_bind_eq :
    (step >>= next).run before =
      match step.run before with
      | (.ok value, between) => (next value).run between
      | (.error error, between) => (.error error, between) := by
  rw [ExceptT.run_bind]
  change StateT.bind _ _ before = _
  simp only [StateT.bind, bind]
  rcases step.run before with ⟨result, between⟩
  cases result <;> rfl

/-- After a step that succeeds comes what follows its value. -/
theorem run_bind_of_ok {value : α} {between : σ} (first : step.run before = (.ok value, between)) :
    (step >>= next).run before = (next value).run between := by
  rw [run_bind_eq, first]

/-- After an operation on the state comes what follows its value. -/
theorem state_bind_eq {operation : StateM σ α} {next : α → StateM σ β} :
    (operation >>= next) before = next (operation before).1 (operation before).2 := rfl

/-- An operation on the state itself does not end early. -/
theorem run_liftM_eq {operation : StateM σ α} :
    (liftM operation : ExceptT ε (StateM σ) α).run before =
      (.ok (operation before).1, (operation before).2) := rfl

end Effects

@[simp] theorem require_eq_ok {α : Type} {answer : Option α} {reason : Reason} {value : α} :
    require answer reason = .ok value ↔ answer = some value := by
  cases answer <;> simp [require]

@[simp] theorem ofFlash_eq_ok {α : Type} {answer : Except FlashError α} {value : α} :
    Checked.ofFlash answer = .ok value ↔ answer = .ok value := by
  cases answer <;> simp [Checked.ofFlash]

theorem toOption_eq_some {ε α : Type} {answer : Except ε α} {value : α} :
    answer.toOption = some value ↔ answer = .ok value := by
  cases answer <;> simp [Except.toOption]

/-- A condition may be replaced by an equivalent one. -/
theorem ensure_congr {left right : Prop} [Decidable left] [Decidable right] {reason : Reason}
    (same : left ↔ right) : ensure left reason = ensure right reason := by
  unfold ensure
  simp only [same]

/-- A condition that holds is passed. -/
theorem ensure_bind {α : Type} {condition : Prop} [Decidable condition] {reason : Reason}
    {next : Unit → Checked α} (holds : condition) :
    (ensure condition reason >>= next) = next () := by
  rw [ensure, if_pos holds]
  rfl

/-- A condition that does not hold ends a sequence with its reason. -/
theorem ensure_bind_of_not {α : Type} {condition : Prop} [Decidable condition] {reason : Reason}
    {next : Unit → Checked α} (fails : ¬ condition) :
    (ensure condition reason >>= next) = reject reason := by
  rw [ensure, if_neg fails]
  rfl

/-- An answer of a flash is passed on. -/
theorem ofFlash_bind {α β : Type} {answer : Except FlashError α} {value : α}
    {next : α → Checked β} (given : answer = .ok value) :
    (Checked.ofFlash answer >>= next) = next value := by
  rw [given]
  rfl

/-- After a step only what follows its values matters. -/
theorem checked_bind_congr {α β : Type} {step : Checked α} {left right : α → Checked β}
    (same : ∀ value, step = .ok value → left value = right value) :
    (step >>= left) = (step >>= right) := by
  cases result : step with
  | ok value => exact same value result
  | error halt => rfl

/-- If what follows a step is converted, the whole is. -/
theorem checked_bind_map_congr {α β γ : Type} {convert : β → γ} {step : Checked α}
    {left : α → Checked γ} {right : α → Checked β}
    (same : ∀ value, step = .ok value → left value = convert <$> right value) :
    (step >>= left) = convert <$> (step >>= right) := by
  rw [map_bind]
  exact checked_bind_congr same

namespace Offset

theorem add_of_lt {left right : Nat} (fits : left + right < limit) :
    add left right = .ok (left + right) := add_eq_ok.2 ⟨fits, rfl⟩

/-- A sum that is an offset is passed on. -/
theorem add_bind {left right : Nat} (fits : left + right < limit) {α : Type}
    {next : Nat → Checked α} : (add left right >>= next) = next (left + right) := by
  rw [add_of_lt fits]
  rfl

/-- A difference that is an offset is passed on. -/
theorem sub_bind {left right : Nat} (fits : right ≤ left) {α : Type} {next : Nat → Checked α} :
    (sub left right >>= next) = next (left - right) := by
  rw [sub_eq_ok.2 ⟨fits, rfl⟩]
  rfl

end Offset

/-- A step can end early with allowed halts only. -/
def Checked.Ends {α : Type} (allowed : Halt → Prop) (step : Checked α) : Prop :=
  ∀ halt, step = .error halt → allowed halt

/-- A step on devices can end early with allowed halts only. -/
def Run.Ends {σ α : Type} (allowed : Halt → Prop) (step : Run σ α) (before : σ) : Prop :=
  ∀ halt after, step before = .error halt after → allowed halt

namespace Checked

variable {α β : Type} {allowed : Halt → Prop}

theorem ends_ok (value : α) : Ends allowed (.ok value) := by
  intro halt equal
  cases equal

theorem ends_pure (value : α) : Ends allowed (pure value : Checked α) := ends_ok value

theorem ends_reject {reason : Reason} (harmless : allowed (.rejected reason)) :
    Ends allowed (reject reason : Checked α) := by
  intro halt equal
  cases equal
  exact harmless

theorem ends_ensure {condition : Prop} [Decidable condition] {reason : Reason}
    (harmless : allowed (.rejected reason)) : Ends allowed (ensure condition reason) := by
  unfold ensure
  split
  · exact ends_ok ()
  · exact ends_reject harmless

theorem ends_require {answer : Option α} {reason : Reason}
    (harmless : answer.isSome = true ∨ allowed (.rejected reason)) :
    Ends allowed (require answer reason) := by
  cases answer with
  | some value => exact ends_ok value
  | none => exact ends_reject (harmless.resolve_left (by simp))

/-- A sequence ends as allowed if both of its parts do. -/
theorem ends_bind {step : Checked α} {next : α → Checked β} (first : step.Ends allowed)
    (second : ∀ value, step = .ok value → (next value).Ends allowed) :
    (step >>= next).Ends allowed := by
  intro halt equal
  cases result : step with
  | error cause =>
      rw [result] at equal
      obtain rfl := Except.error.inj equal
      exact first cause result
  | ok value =>
      rw [result] at equal
      exact second value result halt equal

/-- The step after a condition is only taken when the condition holds. -/
theorem ends_ensure_bind {condition : Prop} [Decidable condition] {reason : Reason}
    {next : Unit → Checked α} (harmless : allowed (.rejected reason))
    (ends : condition → (next ()).Ends allowed) :
    (ensure condition reason >>= next).Ends allowed := by
  apply ends_bind (ends_ensure harmless)
  intro answer passed
  rw [ensure_eq_ok] at passed
  exact ends passed

/-- The step after an optional result takes its value. -/
theorem ends_require_bind {answer : Option α} {reason : Reason} {next : α → Checked β}
    (harmless : allowed (.rejected reason))
    (ends : ∀ value, answer = some value → (next value).Ends allowed) :
    (require answer reason >>= next).Ends allowed := by
  apply ends_bind (ends_require (.inr harmless))
  intro value present
  rw [require_eq_ok] at present
  exact ends value present

end Checked

namespace Run

variable {σ α β : Type} {allowed : Halt → Prop} {before : σ}

theorem ends_run {step : Checked α} (ends : step.Ends allowed) :
    Ends allowed (step.run : Run σ α) before := by
  intro halt after equal
  rw [run_eq_error] at equal
  exact ends halt equal.1

theorem ends_pure (value : α) : Ends allowed (pure value : Run σ α) before := by
  intro halt after equal
  exact absurd equal device_pure_ne_error

/-- A sequence on devices ends as allowed if both parts do. -/
theorem ends_bind {step : Run σ α} {next : α → Run σ β} (first : step.Ends allowed before)
    (second : ∀ value between, step before = .ok value between →
      (next value).Ends allowed between) : (step >>= next).Ends allowed before := by
  intro halt after equal
  rcases device_bind_eq_error.1 equal with failed | ⟨value, between, passed, failed⟩
  · exact first halt after failed
  · exact second value between passed halt after failed

end Run

end SignedFirmware
