import SignedFirmware.Proofs.Completeness
import SignedFirmware.Proofs.Safety

namespace SignedFirmware

/-- A call validates with a table of the caller, or enforces with its storage. -/
inductive Call where
  | validate {σ : Type} {capacity : Nat} (flash : Flash) (platform : Platform)
      (engine : HashEngine σ) (verifier : Verifier σ) (table : RegionTable capacity) (state : σ)
  | enforceRollback {τ : Type} (flash : Flash) (storage : Option (RecordStorage (StateM τ)))
      (state : τ)

/-- A session remembers what its latest validation returned. -/
structure Session where
  context : Context
  latest : Option (Except Halt Unit)

namespace Session

/-- The session before the first call. -/
def start (settings : Settings) : Session := ⟨.new settings, none⟩

/-- This makes a call. Only a validation changes the context. -/
def call (session : Session) : Call → Session
  | .validate flash platform engine verifier table state =>
      let (validation, _) := session.context.validate flash platform engine verifier table state
      ⟨validation.context, some validation.result⟩
  | .enforceRollback _ _ _ => session

/-- This makes calls one after the other. -/
def run (session : Session) : List Call → Session
  | [] => session
  | first :: rest => (session.call first).run rest

/-- A context has a descriptor and a key exactly if the image was valid. -/
structure Truthful (session : Session) (settings : Settings) : Prop where
  settings : session.context.settings = settings
  verdict : session.context.verdict =
    match session.latest with
    | none => .unvalidated
    | some (.ok ()) => .valid
    | some (.error halt) => .failed halt
  descriptor : session.context.verdict = .valid ↔ session.context.descriptor.isSome = true
  key : session.context.descriptor.isSome = true ↔ session.context.key.isSome = true

end Session

namespace Context

variable {σ : Type} {capacity : Nat} {context : Context} {flash : Flash} {platform : Platform}
  {engine : HashEngine σ} {verifier : Verifier σ} {table : RegionTable capacity} {state : σ}

/-- A validation looks at nothing but the settings of a context. -/
theorem validate_eq_new (context : Context) (flash : Flash) (platform : Platform)
    (engine : HashEngine σ) (verifier : Verifier σ) (table : RegionTable capacity) (state : σ) :
    context.validate flash platform engine verifier table state =
      (Context.new context.settings).validate flash platform engine verifier (.empty capacity)
        state := rfl

/-- A validation that fails leaves an empty table and records nothing but its halt. -/
theorem validate_eq_error {halt : Halt}
    (failed : (context.validate flash platform engine verifier table state).1.result =
      .error halt) :
    (context.validate flash platform engine verifier table state).1 =
      ⟨.error halt, ⟨context.settings, .failed halt, none, none⟩, .empty capacity⟩ := by
  rw [validate_eq_conclude] at failed ⊢
  cases result : context.settings.search flash platform engine verifier capacity state with
  | ok value after =>
      rw [result] at failed
      cases failed
  | error cause after =>
      rw [result] at failed
      cases failed
      rfl

/-- The table of a successful validation holds the regions of its descriptor. -/
theorem validate_tabulates
    (accepted : (context.validate flash platform engine verifier table state).1.result = .ok ()) :
    ∃ descriptor key found,
      (context.validate flash platform engine verifier table state).1 =
        ⟨.ok (), ⟨context.settings, .valid, some key, some descriptor⟩, found⟩ ∧
      found.regions = descriptor.regions ∧ descriptor.regions ≠ [] := by
  obtain ⟨position, before, descriptor, key, found, after, -, passed, concluded⟩ :=
    validate_eq_ok accepted
  obtain ⟨parsed, -, between, -, tabled⟩ := Settings.validateCandidate_eq_ok.1 passed
  have own := parsed.ownOffset.trans parsed.offset.symm
  obtain ⟨-, copied, -⟩ := (Descriptor.validateRegions_eq_ok own).1 tabled
  exact ⟨descriptor, key, found, congrArg Prod.fst concluded, copied,
    List.ne_nil_of_length_pos parsed.someRegions⟩

end Context

namespace Session

theorem truthful_start (settings : Settings) : (start settings).Truthful settings where
  settings := rfl
  verdict := rfl
  descriptor := by simp [start, Context.new]
  key := by simp [start, Context.new]

/-- After each call the context tells the truth about the latest validation. -/
theorem Truthful.call {session : Session} {settings : Settings}
    (truthful : session.Truthful settings) (made : Call) :
    (session.call made).Truthful settings := by
  cases made with
  | enforceRollback flash storage state => exact truthful
  | validate flash platform engine verifier table state =>
      unfold Session.call
      cases result : (session.context.validate flash platform engine verifier table
          state).1.result with
      | error halt =>
          have left := Context.validate_eq_error result
          dsimp only
          rw [left]
          exact ⟨truthful.settings, rfl, by simp, by simp⟩
      | ok _ =>
          obtain ⟨descriptor, key, found, left, -⟩ := Context.validate_tabulates result
          dsimp only
          rw [left]
          exact ⟨truthful.settings, rfl, by simp, by simp⟩

theorem Truthful.run {session : Session} {settings : Settings}
    (truthful : session.Truthful settings) (calls : List Call) :
    (session.run calls).Truthful settings := by
  induction calls generalizing session with
  | nil => exact truthful
  | cons first rest ih => exact ih (truthful.call first)

/-- Without a valid image no storage is asked, in any monad. -/
theorem Truthful.enforceRollback {session : Session} {settings : Settings}
    (truthful : session.Truthful settings) (stale : session.latest ≠ some (.ok ()))
    {m : Type → Type} [Monad m] (flash : Flash) (storage : Option (RecordStorage m)) :
    session.context.enforceRollback flash storage = throw (.rejected .invalidContext) := by
  have invalid : session.context.verdict ≠ .valid := by
    rw [truthful.verdict]
    split
    next => simp
    next same => exact absurd same stale
    next => simp
  unfold Context.enforceRollback
  split
  next same _ => exact absurd same invalid
  next => rfl

/-- Nothing survives the next validation, whatever calls were made before. -/
theorem run_forgets (settings : Settings) (calls : List Call) :
    let session := (start settings).run calls
    session.Truthful settings ∧
    (∀ {σ : Type} {capacity : Nat} (flash : Flash) (platform : Platform) (engine : HashEngine σ)
        (verifier : Verifier σ) (table : RegionTable capacity) (state : σ),
      let validated := session.context.validate flash platform engine verifier table state
      validated = (Context.new settings).validate flash platform engine verifier (.empty capacity)
        state ∧
      match validated.1.result with
      | .ok () => ∃ descriptor, validated.1.context.descriptor = some descriptor ∧
          validated.1.table.regions = descriptor.regions ∧ descriptor.regions ≠ []
      | .error halt => validated.1.context.verdict = .failed halt ∧
          validated.1.table.regions = []) ∧
    (session.latest ≠ some (.ok ()) → ∀ {m : Type → Type} [Monad m] (flash : Flash)
        (storage : Option (RecordStorage m)),
      session.context.enforceRollback flash storage = throw (.rejected .invalidContext)) := by
  intro session
  have truthful : session.Truthful settings := (truthful_start settings).run calls
  refine ⟨truthful, ?_, ?_⟩
  · intro σ capacity flash platform engine verifier table state validated
    constructor
    · have fresh := session.context.validate_eq_new flash platform engine verifier table state
      rwa [truthful.settings] at fresh
    · cases result : validated.1.result with
      | ok _ =>
          obtain ⟨descriptor, key, found, left, copied, some⟩ := Context.validate_tabulates result
          exact ⟨descriptor, by rw [left], by rw [left]; exact copied, some⟩
      | error halt =>
          have left := Context.validate_eq_error result
          exact ⟨by rw [left], by rw [left]; rfl⟩
  · intro stale m _ flash storage
    exact truthful.enforceRollback stale flash storage

/-- The validation of an empty flash forgets about the smallest image. -/
theorem smallest_forgotten :
    ∃ image,
      let settings : Settings := ⟨⟨64, 4160⟩, 64, 0, none⟩
      let platform : Platform := ⟨some true, none, fun _ => none⟩
      let flash := Flash.ofBytes (zeroBytes 64 ++ (image ++ []))
      let first := Call.validate flash platform Sha2.engine Blueprint.zeroVerifier (.empty 1) none
      let second := Call.validate (Flash.ofBytes []) platform Sha2.engine Blueprint.zeroVerifier
        (.empty 1) none
      ((start settings).run [first]).latest = some (.ok ()) ∧
        ((start settings).run [first, second]).latest =
          some (.error (.rejected .invalidContext)) ∧
        ∀ storage : Option (RecordStorage Id),
          ((start settings).run [first, second]).context.enforceRollback flash storage =
            throw (.rejected .invalidContext) := by
  obtain ⟨image, accepted⟩ := Blueprint.validateSmallest_eq_ok
  refine ⟨image, ?_⟩
  intro settings platform flash first second
  obtain ⟨-, fresh, -⟩ := run_forgets settings [first]
  obtain ⟨-, -, rejects⟩ := run_forgets settings [first, second]
  have failed : ((start settings).run [first, second]).latest =
      some (.error (.rejected .invalidContext)) := by
    obtain ⟨same, -⟩ := fresh (Flash.ofBytes []) platform Sha2.engine Blueprint.zeroVerifier
      (.empty 1) none
    have empty : ((Context.new settings).validate (Flash.ofBytes []) platform Sha2.engine
        Blueprint.zeroVerifier (.empty 1) none).1.result = .error (.rejected .invalidContext) := by
      have power : Offset.isPowerOfTwo settings.alignment.toNat = true := by decide
      have checked : settings.check (Flash.ofBytes []) = .error (.rejected .invalidContext) := by
        simp only [Settings.check, power]
        rfl
      have searched : settings.search (Flash.ofBytes []) platform Sha2.engine
          Blueprint.zeroVerifier 1 none = .error (.rejected .invalidContext) none := by
        rw [Settings.search, checked]
        rfl
      exact congrArg (·.1.result) (congrArg ((Context.new settings).conclude (.empty 1)) searched)
    exact (congrArg (fun validated => some validated.1.result) same).trans (congrArg some empty)
  refine ⟨congrArg some accepted, failed, ?_⟩
  intro storage
  exact rejects (by simp [failed]) flash storage

end Session

end SignedFirmware
