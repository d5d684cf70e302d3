import SignedFirmware.Proofs.Steps

namespace SignedFirmware

/-- A condition, with the reason that is reported if it does not hold. -/
structure Requirement where
  holds : Prop
  reason : Reason

/-- The first requirement in a list that does not hold has the given reason. -/
def Requirement.Refuse (requirements : List Requirement) (reason : Reason) : Prop :=
  ∃ before failing after, requirements = before ++ failing :: after ∧
    (∀ earlier ∈ before, earlier.holds) ∧ ¬ failing.holds ∧ failing.reason = reason

/-- The first requirement that does not hold ends a step with its reason. -/
def Checked.Demands {α : Type} (step : Checked α) : List Requirement → Prop
  | [] => ∃ value, step = .ok value
  | requirement :: rest =>
      (requirement.holds → step.Demands rest) ∧
        (¬ requirement.holds → step = reject requirement.reason)

namespace Requirement

variable {requirement : Requirement} {rest : List Requirement} {reason : Reason}

theorem not_refuse_nil : ¬ Refuse [] reason := by
  rintro ⟨before, failing, after, split, -⟩
  simp at split

theorem refuse_cons :
    Refuse (requirement :: rest) reason ↔
      ¬ requirement.holds ∧ requirement.reason = reason ∨
        requirement.holds ∧ Refuse rest reason := by
  constructor
  · rintro ⟨before, failing, after, split, earlier, fails, named⟩
    cases before with
    | nil =>
        obtain ⟨rfl, -⟩ := List.cons.inj split
        exact .inl ⟨fails, named⟩
    | cons first before =>
        obtain ⟨rfl, others⟩ := List.cons.inj split
        obtain ⟨holds, earlier⟩ := List.forall_mem_cons.1 earlier
        exact .inr ⟨holds, before, failing, after, others, earlier, fails, named⟩
  · rintro (⟨fails, named⟩ | ⟨holds, before, failing, after, rfl, earlier, fails, named⟩)
    · exact ⟨[], requirement, rest, rfl, by simp, fails, named⟩
    · exact ⟨requirement :: before, failing, after, rfl,
        List.forall_mem_cons.2 ⟨holds, earlier⟩, fails, named⟩

end Requirement

section Steps

variable {α β : Type} {step : Checked α} {requirements rest : List Requirement}
  {requirement : Requirement} {reason : Reason}

/-- A step succeeds exactly if its requirements hold. -/
theorem Checked.Demands.ok_iff (demands : step.Demands requirements) :
    (∃ value, step = .ok value) ↔ ∀ requirement ∈ requirements, requirement.holds := by
  induction requirements with
  | nil => exact iff_of_true demands (by simp)
  | cons first rest ih =>
      rw [List.forall_mem_cons]
      by_cases holds : first.holds
      · rw [ih (demands.1 holds)]
        exact (and_iff_right holds).symm
      · rw [demands.2 holds]
        exact iff_of_false (by simp) fun all => holds all.1

/-- A step is refused exactly for the first requirement that does not hold. -/
theorem Checked.Demands.reject_iff (demands : step.Demands requirements) :
    step = reject reason ↔ Requirement.Refuse requirements reason := by
  induction requirements with
  | nil =>
      obtain ⟨value, rfl⟩ := demands
      exact iff_of_false (by simp [reject]) Requirement.not_refuse_nil
  | cons first rest ih =>
      rw [Requirement.refuse_cons]
      by_cases holds : first.holds
      · rw [ih (demands.1 holds)]
        simp [holds]
      · rw [demands.2 holds]
        simp [holds, reject]

/-- A step that demands requirements ends with a value or with a reason. -/
theorem Checked.Demands.ne_overflow (demands : step.Demands requirements) :
    step ≠ .error .overflow := by
  induction requirements with
  | nil =>
      obtain ⟨value, rfl⟩ := demands
      simp
  | cons first rest ih =>
      by_cases holds : first.holds
      · exact ih (demands.1 holds)
      · rw [demands.2 holds]
        simp [reject]

/-- A requirement that holds anyway can be added. -/
theorem demands_of_holds (holds : requirement.holds) (demands : step.Demands rest) :
    step.Demands (requirement :: rest) :=
  ⟨fun _ => demands, fun fails => absurd holds fails⟩

theorem demands_ite {condition holds : Prop} [Decidable condition] (same : condition ↔ holds)
    (follows : holds → step.Demands rest) :
    (if condition then step else reject reason).Demands (⟨holds, reason⟩ :: rest) := by
  constructor
  · intro known
    rw [if_pos (same.2 known)]
    exact follows known
  · intro unknown
    exact if_neg (mt same.1 unknown)

/-- A condition that is ensured is a requirement. -/
theorem demands_ensure_bind {condition holds : Prop} [Decidable condition] {next : Unit → Checked β}
    (same : condition ↔ holds) (follows : holds → (next ()).Demands rest) :
    (ensure condition reason >>= next).Demands (⟨holds, reason⟩ :: rest) := by
  constructor
  · intro known
    rw [ensure_bind (same.2 known)]
    exact follows known
  · intro unknown
    exact ensure_bind_of_not (mt same.1 unknown)

/-- It is a requirement that a value that is needed is there. -/
theorem demands_require_bind {answer : Option α} {holds : Prop} {next : α → Checked β}
    (same : answer.isSome ↔ holds)
    (follows : ∀ value, answer = some value → (next value).Demands rest) :
    (require answer reason >>= next).Demands (⟨holds, reason⟩ :: rest) := by
  cases answer with
  | none => exact ⟨fun known => absurd (same.2 known) (by simp), fun _ => rfl⟩
  | some value => exact demands_of_holds (same.1 rfl) (follows value rfl)

end Steps

end SignedFirmware
