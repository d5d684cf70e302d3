import SignedFirmware.Reason

namespace SignedFirmware

/-- This says why a check ended without accepting. -/
inductive Halt where
  | rejected (reason : Reason)
  | overflow
  deriving DecidableEq, Repr

/-- This says whether the search goes on to the next candidate. -/
def Halt.isStructural : Halt → Bool
  | .rejected reason => reason.tier == .structural
  | .overflow => false

/-- A step of a check that depends on nothing but its arguments. -/
abbrev Checked (α : Type) := Except Halt α

/-- A step of a check works with devices of state `σ`. -/
abbrev Run (σ α : Type) := EStateM Halt σ α

/-- This ends a step with a reason. -/
def reject {α : Type} (reason : Reason) : Checked α := .error (.rejected reason)

/-- This ends a step with a reason unless a condition holds. -/
def ensure (condition : Prop) [Decidable condition] (reason : Reason) : Checked Unit :=
  if condition then .ok () else reject reason

/-- A step needs the value of an optional result. -/
def require {α : Type} (value : Option α) (reason : Reason) : Checked α :=
  match value with
  | some value => .ok value
  | none => reject reason

/-- This runs a step that needs no device among steps that do. -/
def Checked.run {σ α : Type} (step : Checked α) : Run σ α := fun state =>
  match step with
  | .ok value => .ok value state
  | .error halt => .error halt state

/-- A step that needs no device runs in any monad. -/
def Checked.lift {m : Type → Type} [Monad m] {α : Type} (step : Checked α) : ExceptT Halt m α :=
  ExceptT.mk (pure step)

@[simp] theorem reject_ne_ok {α : Type} {reason : Reason} {value : α} :
    (reject reason : Checked α) ≠ .ok value := by
  simp [reject]

@[simp] theorem ensure_eq_ok {condition : Prop} [Decidable condition] {reason : Reason}
    {answer : Unit} : ensure condition reason = .ok answer ↔ condition := by
  unfold ensure
  split <;> simp_all

@[simp] theorem pure_eq_ok {ε α : Type} {value result : α} :
    (pure value : Except ε α) = .ok result ↔ value = result := by
  simp [pure, Except.pure]

@[simp] theorem ensure_bind_eq_ok {α : Type} {condition : Prop} [Decidable condition]
    {reason : Reason} {next : Unit → Checked α} {value : α} :
    (ensure condition reason >>= next) = .ok value ↔ condition ∧ next () = .ok value := by
  unfold ensure
  split <;> simp_all [bind, Except.bind, reject]

@[simp] theorem require_bind_eq_ok {α β : Type} {answer : Option α} {reason : Reason}
    {next : α → Checked β} {value : β} :
    (require answer reason >>= next) = .ok value ↔
      ∃ found, answer = some found ∧ next found = .ok value := by
  cases answer <;> simp [require, bind, Except.bind, reject]

theorem bind_eq_ok {ε α β : Type} {step : Except ε α} {next : α → Except ε β} {value : β} :
    (step >>= next) = .ok value ↔ ∃ found, step = .ok found ∧ next found = .ok value := by
  cases step <;> simp [bind, Except.bind]

namespace Offset

/-- Offsets are smaller than this number. -/
def limit : Nat := 0x100000000

/-- This adds two offsets, if the sum is an offset. -/
def add? (left right : Nat) : Option Nat :=
  if left + right < limit then some (left + right) else none

/-- This adds two offsets whose sum the format bounds. -/
def add (left right : Nat) : Checked Nat :=
  if left + right < limit then .ok (left + right) else .error .overflow

/-- This subtracts an offset from one that the format bounds from below. -/
def sub (left right : Nat) : Checked Nat :=
  if right ≤ left then .ok (left - right) else .error .overflow

theorem add_eq_ok {left right sum : Nat} :
    add left right = .ok sum ↔ left + right < limit ∧ left + right = sum := by
  unfold add
  split
  next inside => simp [inside]
  next outside => simp [outside]

theorem sub_eq_ok {left right difference : Nat} :
    sub left right = .ok difference ↔ right ≤ left ∧ left - right = difference := by
  unfold sub
  split
  next inside => simp [inside]
  next outside => simp [outside]

theorem add?_eq_some {left right sum : Nat} :
    add? left right = some sum ↔ left + right < limit ∧ left + right = sum := by
  unfold add?
  split
  next inside => simp [inside]
  next outside => simp [outside]

theorem add?_eq_none {left right : Nat} : add? left right = none ↔ limit ≤ left + right := by
  unfold add?
  split
  next inside => simp [inside]
  next outside => simp [Nat.le_of_not_lt outside]

/-- This says whether a number is a power of two. -/
def isPowerOfTwo (number : Nat) : Bool := 1 <<< number.log2 == number

/-- The test for a power of two is exact. -/
theorem isPowerOfTwo_iff {number : Nat} :
    isPowerOfTwo number = true ↔ number.isPowerOfTwo := by
  rw [isPowerOfTwo, beq_iff_eq, Nat.one_shiftLeft]
  constructor
  · intro same
    exact ⟨number.log2, same.symm⟩
  · rintro ⟨exponent, rfl⟩
    rw [Nat.log2_two_pow]

/-- This rounds a number up to a multiple of `step`. -/
def roundUp (number step : Nat) : Nat := (number + (step - 1)) / step * step

theorem le_roundUp {number step : Nat} (positive : 0 < step) : number ≤ roundUp number step := by
  have split := Nat.div_add_mod (number + (step - 1)) step
  have small := Nat.mod_lt (number + (step - 1)) positive
  rw [Nat.mul_comm] at split
  unfold roundUp
  omega

end Offset

end SignedFirmware
