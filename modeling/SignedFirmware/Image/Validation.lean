import SignedFirmware.Image.RegionTable
import SignedFirmware.Image.Scan
import SignedFirmware.Image.SignatureCheck
import SignedFirmware.Image.Transition
import SignedFirmware.Rollback.Enforcement

namespace SignedFirmware

/-- This says what to validate, and what the running firmware is. -/
structure Settings where
  span : Span
  alignment : UInt32
  family : UInt32
  currentType : Option ImageType
  deriving DecidableEq, Repr

namespace Settings

/-- Descriptors lie at multiples of this unless another alignment is set. -/
def defaultAlignment : UInt32 := 64

/-- The settings for an image that lies in a given range. -/
def forSpan (span : Span) : Settings := ⟨span, defaultAlignment, 0, none⟩

/-- The range is nonempty, aligned by a power of two and inside the flash. -/
def check (settings : Settings) (flash : Flash) : Checked Unit := do
  ensure (settings.span.start < settings.span.stop) .invalidContext
  ensure (Offset.isPowerOfTwo settings.alignment.toNat) .invalidContext
  let size ← Checked.ofFlash flash.size
  ensure (settings.span.stop ≤ size) .invalidContext

/-- This runs all checks on the descriptor at `position`. -/
def validateCandidate {σ : Type} (settings : Settings) (flash : Flash) (platform : Platform)
    (engine : HashEngine σ) (verifier : Verifier σ) (capacity position : Nat) :
    Run σ (Descriptor × Nat × RegionTable capacity) := do
  let descriptor ← (Descriptor.parse flash position settings.span platform).run
  (descriptor.checkTransition flash settings.family settings.currentType platform).run
  let key ← descriptor.verifySignature flash engine verifier
  let table ← descriptor.validateRegions flash settings.span engine capacity
  return (descriptor, key, table)

/-- After a structural failure the search goes on. The first failure is the answer. -/
def searchFrom {σ α : Type} (settings : Settings) (flash : Flash) (candidate : Nat → Run σ α)
    (floor : Nat) (failure : Option Halt) : Run σ α := fun state =>
  let exhausted := EStateM.Result.error (failure.getD (.rejected .failedToLocateMagic)) state
  if _inside : floor < settings.span.stop.toNat then
    match _found : Scan.find flash ⟨UInt32.ofNat floor, settings.span.stop⟩ settings.alignment
        magics.descriptor settings.span with
    | .error (.rejected .failedToLocateMagic) => exhausted
    | .error halt => .error halt state
    | .ok position =>
        match candidate position state with
        | .ok value state => .ok value state
        | .error halt state =>
            if halt.isStructural then
              settings.searchFrom flash candidate (position + settings.alignment.toNat)
                (some (failure.getD halt)) state
            else
              .error halt state
  else
    exhausted
termination_by settings.span.stop.toNat - floor
decreasing_by
  have bounds := Scan.bounds_of_find _found
  have stop := settings.span.stop.toNat_lt
  have start : (UInt32.ofNat floor).toNat = floor := UInt32.toNat_ofNat_of_lt'
    (by simp only [UInt32.size]; omega)
  simp only [start, Scan.magicLength] at bounds
  omega

/-- This searches the whole range for a descriptor that passes all checks. -/
def search {σ : Type} (settings : Settings) (flash : Flash) (platform : Platform)
    (engine : HashEngine σ) (verifier : Verifier σ) (capacity : Nat) :
    Run σ (Descriptor × Nat × RegionTable capacity) := do
  (settings.check flash).run
  settings.searchFrom flash
    (settings.validateCandidate flash platform engine verifier capacity)
    settings.span.start.toNat none

end Settings

/-- The result of the latest validation. -/
inductive Verdict where
  | unvalidated
  | valid
  | failed (halt : Halt)
  deriving DecidableEq, Repr

/-- A context holds the settings and the results of the latest validation. -/
structure Context where
  settings : Settings
  verdict : Verdict
  key : Option Nat
  descriptor : Option Descriptor
  deriving DecidableEq, Repr

/-- A validation leaves its result, the context and the caller's table. -/
structure Validation (capacity : Nat) where
  result : Except Halt Unit
  context : Context
  table : RegionTable capacity

namespace Context

/-- The context before the first validation. -/
def new (settings : Settings) : Context := ⟨settings, .unvalidated, none, none⟩

/-- The table receives the regions of the image, or nothing if it is rejected. -/
def validate {σ : Type} {capacity : Nat} (context : Context) (flash : Flash) (platform : Platform)
    (engine : HashEngine σ) (verifier : Verifier σ) (table : RegionTable capacity) (state : σ) :
    Validation capacity × σ :=
  match context.settings.search flash platform engine verifier capacity state with
  | .ok (descriptor, key, table) state =>
      (⟨.ok (), ⟨context.settings, .valid, some key, some descriptor⟩, table⟩, state)
  | .error halt state =>
      (⟨.error halt, ⟨context.settings, .failed halt, none, none⟩, table.clear⟩, state)

/-- Only an image that was found valid is checked for rollback. -/
def enforceRollback {m : Type → Type} [Monad m] (context : Context) (flash : Flash)
    (storage : Option (RecordStorage m)) : ExceptT Halt m RollbackOutcome := do
  match context.verdict, context.descriptor with
  | .valid, some descriptor => Rollback.enforce flash descriptor storage
  | _, _ => throw (.rejected .invalidContext)

end Context

end SignedFirmware
