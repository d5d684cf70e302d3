import SignedFirmware.Proofs.Search

/-! The log of calls runs next to the devices, and the run without it is the same. -/

namespace SignedFirmware

section Beside

variable {ε δ σ τ α β : Type}

/-- A device step runs next to a log, which it leaves alone. -/
def beside (step : EStateM ε σ α) : EStateM ε (σ × τ) α := fun (state, log) =>
  match step state with
  | .ok value after => .ok value (after, log)
  | .error error after => .error error (after, log)

/-- A result without the log. -/
def forgetLog : EStateM.Result ε (σ × τ) α → EStateM.Result ε σ α
  | .ok value (after, _) => .ok value after
  | .error error (after, _) => .error error after

/-- The log at the end of a step. -/
def keptLog : EStateM.Result ε (σ × τ) α → τ
  | .ok _ (_, log) => log
  | .error _ (_, log) => log

/-- With and without a log a step does the same to the devices. -/
def Watches (logged : EStateM ε (σ × τ) α) (plain : EStateM ε σ α) : Prop :=
  ∀ state log, forgetLog (logged (state, log)) = plain state

/-- A step that succeeds without the log succeeds with it. -/
theorem Watches.eq_ok {logged : EStateM ε (σ × τ) α} {plain : EStateM ε σ α}
    (watches : Watches logged plain) {state after : σ} {value : α}
    (passed : plain state = .ok value after) (log : τ) :
    ∃ later, logged (state, log) = .ok value (after, later) := by
  have same := watches state log
  rw [passed] at same
  cases result : logged (state, log) with
  | ok found final =>
      rw [result] at same
      cases same
      exact ⟨final.2, rfl⟩
  | error error final =>
      rw [result] at same
      cases same

/-- A step that fails without the log fails with it. -/
theorem Watches.eq_error {logged : EStateM ε (σ × τ) α} {plain : EStateM ε σ α}
    (watches : Watches logged plain) {state after : σ} {error : ε}
    (failed : plain state = .error error after) (log : τ) :
    ∃ later, logged (state, log) = .error error (after, later) := by
  have same := watches state log
  rw [failed] at same
  cases result : logged (state, log) with
  | ok found final =>
      rw [result] at same
      cases same
  | error cause final =>
      rw [result] at same
      cases same
      exact ⟨final.2, rfl⟩

theorem watches_beside (step : EStateM ε σ α) : Watches (τ := τ) (beside step) step := by
  intro state log
  unfold beside
  cases result : step state <;> simp only [result] <;> rfl

@[simp] theorem beside_eq_ok {step : EStateM ε σ α} {state after : σ} {log later : τ}
    {value : α} :
    beside step (state, log) = .ok value (after, later) ↔
      step state = .ok value after ∧ log = later := by
  unfold beside
  cases result : step state <;> simp [result, and_assoc]

@[simp] theorem keptLog_beside (step : EStateM ε σ α) (state : σ) (log : τ) :
    keptLog (beside step (state, log)) = log := by
  unfold beside
  cases result : step state <;> simp only [result, keptLog]

theorem watches_pure (value : α) :
    Watches (pure value : EStateM ε (σ × τ) α) (pure value : EStateM ε σ α) :=
  fun _ _ => rfl

theorem watches_throw (error : ε) :
    Watches (throw error : EStateM ε (σ × τ) α) (throw error : EStateM ε σ α) :=
  fun _ _ => rfl

theorem watches_run (step : Checked α) :
    Watches (step.run : Run (σ × τ) α) (step.run : Run σ α) := by
  intro state log
  cases step <;> rfl

theorem Watches.adaptExcept {convert : ε → δ} {logged : EStateM ε (σ × τ) α}
    {plain : EStateM ε σ α} (watches : Watches logged plain) :
    Watches (EStateM.adaptExcept convert logged) (EStateM.adaptExcept convert plain) := by
  intro state log
  have same := watches state log
  unfold EStateM.adaptExcept
  rw [← same]
  cases logged (state, log) <;> rfl

theorem Watches.bind {logged : EStateM ε (σ × τ) α} {plain : EStateM ε σ α}
    {loggedNext : α → EStateM ε (σ × τ) β} {plainNext : α → EStateM ε σ β}
    (first : Watches logged plain)
    (second : ∀ value, Watches (loggedNext value) (plainNext value)) :
    Watches (logged >>= loggedNext) (plain >>= plainNext) := by
  intro state log
  have same := first state log
  change forgetLog (EStateM.bind logged loggedNext (state, log)) =
    EStateM.bind plain plainNext state
  unfold EStateM.bind
  rw [← same]
  cases logged (state, log) with
  | ok value after => exact second value after.1 after.2
  | error error after => rfl

/-- A sequence leaves the log alone if its parts do. -/
theorem beside_bind (step : EStateM ε σ α) (next : α → EStateM ε σ β) :
    beside (τ := τ) (step >>= next) = (beside step >>= fun value => beside (next value)) := by
  funext ⟨state, log⟩
  change beside (EStateM.bind step next) (state, log) =
    EStateM.bind (beside step) (fun value => beside (next value)) (state, log)
  simp only [EStateM.bind, beside]
  cases step state <;> simp only

/-- A conversion of errors leaves the log alone. -/
theorem beside_adaptExcept (convert : ε → δ) (step : EStateM ε σ α) :
    beside (τ := τ) (EStateM.adaptExcept convert step) =
      EStateM.adaptExcept convert (beside step) := by
  funext ⟨state, log⟩
  simp only [EStateM.adaptExcept, beside]
  cases step state <;> simp only

/-- This notes a call and runs it next to the log. -/
def noting (call : τ) (step : EStateM ε σ α) : EStateM ε (σ × List τ) α := fun (state, calls) =>
  beside step (state, calls ++ [call])

theorem watches_noting (call : τ) (step : EStateM ε σ α) : Watches (noting call step) step :=
  fun state calls => watches_beside step state (calls ++ [call])

end Beside

namespace HashEngine

variable {σ τ : Type}

/-- An engine with a log does what one without a log does. -/
structure Watches (logged : HashEngine (σ × τ)) (plain : HashEngine σ) : Prop where
  supports : ∀ algorithm state log, ∃ later, logged.supports algorithm (state, log) =
    ((plain.supports algorithm state).1, (plain.supports algorithm state).2, later)
  start : ∀ algorithm, SignedFirmware.Watches (logged.start algorithm) (plain.start algorithm)
  write : ∀ bytes, SignedFirmware.Watches (logged.write bytes) (plain.write bytes)
  finish : ∀ length, SignedFirmware.Watches (logged.finish length) (plain.finish length)

/-- An engine that works next to a log. -/
def logged (engine : HashEngine σ) (τ : Type) : HashEngine (σ × τ) where
  supports algorithm := fun (state, log) =>
    ((engine.supports algorithm state).1, (engine.supports algorithm state).2, log)
  start algorithm := beside (engine.start algorithm)
  write bytes := beside (engine.write bytes)
  finish length := beside (engine.finish length)

theorem watches_logged (engine : HashEngine σ) : (engine.logged τ).Watches engine where
  supports _ _ log := ⟨log, rfl⟩
  start algorithm := watches_beside (engine.start algorithm)
  write bytes := watches_beside (engine.write bytes)
  finish length := watches_beside (engine.finish length)

theorem begin_logged (engine : HashEngine σ) (algorithm : Algorithm) :
    (engine.logged τ).begin algorithm = beside (engine.begin algorithm) := by
  funext ⟨state, log⟩
  simp only [begin, beside, logged]
  rcases engine.supports algorithm state with ⟨answer, after⟩
  cases answer <;> rfl

theorem writeAll_logged (engine : HashEngine σ) (pieces : List Bytes) :
    (engine.logged τ).writeAll pieces = beside (engine.writeAll pieces) := by
  induction pieces with
  | nil => rfl
  | cons piece rest ih =>
      rw [writeAll, writeAll, beside_bind, ih]
      rfl

/-- A digest leaves the log alone. -/
theorem digest_logged (engine : HashEngine σ) (algorithm : Algorithm) (pieces : List Bytes) :
    (engine.logged τ).digest algorithm pieces = beside (engine.digest algorithm pieces) := by
  simp only [digest, beside_bind, begin_logged, writeAll_logged]
  rfl

variable {loggedEngine : HashEngine (σ × τ)} {engine : HashEngine σ}

theorem Watches.begin (watches : loggedEngine.Watches engine) (algorithm : Algorithm) :
    SignedFirmware.Watches (loggedEngine.begin algorithm) (engine.begin algorithm) := by
  intro state log
  obtain ⟨later, askedToo⟩ := watches.supports algorithm state log
  obtain ⟨answer, after, asked⟩ : ∃ answer after,
      engine.supports algorithm state = (answer, after) := ⟨_, _, rfl⟩
  rw [asked] at askedToo
  cases answer with
  | false =>
      simp only [HashEngine.begin, asked, askedToo]
      rfl
  | true =>
      simp only [HashEngine.begin, asked, askedToo]
      exact watches.start algorithm after later

theorem Watches.writeAll (watches : loggedEngine.Watches engine) (pieces : List Bytes) :
    SignedFirmware.Watches (loggedEngine.writeAll pieces) (engine.writeAll pieces) := by
  induction pieces with
  | nil => exact watches_pure ()
  | cons piece rest ih => exact (watches.write piece).bind fun _ => ih

end HashEngine

namespace Flash

variable {σ τ : Type} (flash : Flash)

/-- A digest of ranges leaves the log alone. -/
theorem digest_logged (engine : HashEngine σ) (algorithm : Algorithm) (extents : List Extent) :
    flash.digest (engine.logged τ) algorithm extents =
      beside (flash.digest engine algorithm extents) := by
  have fed (extent : Extent) : flash.hashExtent (engine.logged τ) extent =
      beside (flash.hashExtent engine extent) := by
    simp only [hashExtent, beside_bind, beside_adaptExcept, HashEngine.writeAll_logged]
    cases (flash.feed extent).error <;> rfl
  have fedAll : flash.hashExtents (engine.logged τ) extents =
      beside (flash.hashExtents engine extents) := by
    induction extents with
    | nil => rfl
    | cons extent rest ih => rw [hashExtents, hashExtents, beside_bind, fed, ih]
  simp only [digest, beside_bind, beside_adaptExcept, HashEngine.begin_logged, fedAll]
  rfl

variable {loggedEngine : HashEngine (σ × τ)} {engine : HashEngine σ}

theorem watches_hashExtents (watches : loggedEngine.Watches engine) (extents : List Extent) :
    Watches (flash.hashExtents loggedEngine extents) (flash.hashExtents engine extents) := by
  induction extents with
  | nil => exact watches_pure ()
  | cons extent rest ih =>
      have first : Watches (flash.hashExtent loggedEngine extent)
          (flash.hashExtent engine extent) := by
        apply (watches.writeAll (flash.feed extent).pieces).adaptExcept.bind
        intro _
        cases (flash.feed extent).error with
        | none => exact watches_pure ()
        | some error => exact watches_throw error
      exact first.bind fun _ => ih

theorem watches_digest (watches : loggedEngine.Watches engine) (algorithm : Algorithm)
    (extents : List Extent) :
    Watches (flash.digest loggedEngine algorithm extents)
      (flash.digest engine algorithm extents) :=
  (watches.begin algorithm).adaptExcept.bind fun _ =>
    (flash.watches_hashExtents watches extents).bind fun _ =>
      (watches.finish algorithm.length).adaptExcept

end Flash

/-- A call of a verifier is a block and a digest. -/
abbrev VerifierCall := SignatureBlock × Bytes

/-- A verifier that notes each of its calls. -/
def Verifier.logged {σ : Type} (verifier : Verifier σ) : Verifier (σ × List VerifierCall) where
  verify block digest := fun (state, calls) =>
    beside (verifier.verify block digest) (state, calls ++ [(block, digest)])

/-- A verifier with a log does what one without a log does. -/
def Verifier.Watches {σ τ : Type} (logged : Verifier (σ × τ)) (plain : Verifier σ) : Prop :=
  ∀ block digest, SignedFirmware.Watches (logged.verify block digest) (plain.verify block digest)

theorem Verifier.watches_logged {σ : Type} (verifier : Verifier σ) :
    verifier.logged.Watches verifier :=
  fun block digest state calls => watches_beside (verifier.verify block digest) state
    (calls ++ [(block, digest)])

namespace Descriptor

variable {σ τ : Type} (flash : Flash) (descriptor : Descriptor)

theorem watches_verifySignature {loggedEngine : HashEngine (σ × τ)} {engine : HashEngine σ}
    {loggedVerifier : Verifier (σ × τ)} {verifier : Verifier σ}
    (watchesEngine : loggedEngine.Watches engine)
    (watchesVerifier : loggedVerifier.Watches verifier) :
    Watches (descriptor.verifySignature flash loggedEngine loggedVerifier)
      (descriptor.verifySignature flash engine verifier) := by
  apply (flash.watches_digest watchesEngine _ _).adaptExcept.bind
  intro digest
  apply (watches_run _).bind
  intro block
  exact (watchesVerifier block digest.toList).adaptExcept

/-- The calls of the verifier in the check of a signature, in order. -/
def verifierCalls (engine : HashEngine σ) (verifier : Verifier σ) (state : σ) :
    List VerifierCall :=
  keptLog (descriptor.verifySignature flash (engine.logged (List VerifierCall)) verifier.logged
    (state, []))

variable {flash descriptor} {engine : HashEngine σ} {before between : σ}
  {digest : Vector UInt8 descriptor.scheme.algorithm.length} {block : SignatureBlock}

/-- Once digest and block are there, the verifier is called once. -/
theorem verifierCalls_eq
    (digested : flash.digest engine descriptor.scheme.algorithm [descriptor.layout.signed] before =
      .ok digest between)
    (read : descriptor.signatureBlock flash = .ok block) (verifier : Verifier σ) :
    descriptor.verifierCalls flash engine verifier before = [(block, digest.toList)] := by
  have logged : flash.digest (engine.logged (List VerifierCall)) descriptor.scheme.algorithm
      [descriptor.layout.signed] (before, []) = .ok digest (between, []) := by
    rw [Flash.digest_logged]
    exact beside_eq_ok.2 ⟨digested, rfl⟩
  rw [verifierCalls, verifySignature_eq logged read]
  have noted : (verifier.logged.verify block digest.toList).adaptExcept
        (fun error => Halt.rejected error.reason) (between, []) =
      beside ((verifier.verify block digest.toList).adaptExcept
        fun error => Halt.rejected error.reason) (between, [(block, digest.toList)]) := by
    rw [beside_adaptExcept]
    rfl
  rw [noted, keptLog_beside]

end Descriptor

namespace Settings

variable {σ τ : Type} (settings : Settings) (flash : Flash) (platform : Platform)
  {loggedEngine : HashEngine (σ × τ)} {engine : HashEngine σ}
  {loggedVerifier : Verifier (σ × τ)} {verifier : Verifier σ} (capacity : Nat)

theorem watches_validateCandidate (watchesEngine : loggedEngine.Watches engine)
    (watchesVerifier : loggedVerifier.Watches verifier) (position : Nat) :
    Watches (settings.validateCandidate flash platform loggedEngine loggedVerifier capacity
        position)
      (settings.validateCandidate flash platform engine verifier capacity position) := by
  apply (watches_run _).bind
  intro descriptor
  apply (watches_run _).bind
  intro _
  have verified := descriptor.watches_verifySignature flash watchesEngine watchesVerifier
  have validated : Watches
      (descriptor.validateRegions flash settings.span loggedEngine capacity)
      (descriptor.validateRegions flash settings.span engine capacity) := by
    apply (watches_run _).bind
    intro checked
    apply (flash.watches_digest watchesEngine _ _).adaptExcept.bind
    intro actual
    exact (watches_run _).bind fun _ => watches_run _
  exact verified.bind fun key => validated.bind fun table => watches_pure (descriptor, key, table)

/-- One step of the search tries the next candidate. -/
theorem searchFrom_eq {α : Type} (candidate : Nat → Run σ α) (floor : Nat)
    (failure : Option Halt) (state : σ) :
    settings.searchFrom flash candidate floor failure state =
      if floor < settings.span.stop.toNat then
        match Scan.find flash ⟨UInt32.ofNat floor, settings.span.stop⟩ settings.alignment
            magics.descriptor settings.span with
        | .error halt =>
            .error (if halt = .rejected .failedToLocateMagic then failure.getD halt else halt) state
        | .ok position =>
            match candidate position state with
            | .ok value after => .ok value after
            | .error halt after =>
                if halt.isStructural then
                  settings.searchFrom flash candidate (position + settings.alignment.toNat)
                    (some (failure.getD halt)) after
                else
                  .error halt after
      else
        .error (failure.getD (.rejected .failedToLocateMagic)) state := by
  fun_cases searchFrom settings flash candidate floor failure state with
  | case1 exhausted inside missing =>
      rw [if_pos inside, missing]
      rfl
  | case2 inside halt other failed =>
      have found : halt ≠ .rejected .failedToLocateMagic := other
      simp only [if_pos inside, failed, found, if_false]
  | case3 inside position found value final passed => simp only [if_pos inside, found, passed]
  | case4 inside position found halt middle failed structural =>
      simp only [if_pos inside, found, failed, structural, if_true]
  | case5 inside position found halt middle failed decisive =>
      simp only [if_pos inside, found, failed, decisive, if_false, Bool.false_eq_true]
  | case6 exhausted outside => rw [if_neg outside]

/-- The search tries the same candidates with the log as without it. -/
theorem watches_searchFrom {α : Type} {logged : Nat → Run (σ × τ) α} {plain : Nat → Run σ α}
    (watches : ∀ position, Watches (logged position) (plain position)) (floor : Nat)
    (failure : Option Halt) :
    Watches (settings.searchFrom flash logged floor failure)
      (settings.searchFrom flash plain floor failure) := by
  intro state log
  -- The induction follows the plain search; every candidate may extend the log.
  fun_induction searchFrom settings flash plain floor failure state generalizing log with
  | case1 floor failure state exhausted inside missing =>
      rw [searchFrom_eq, if_pos inside, missing]
      rfl
  | case2 floor failure state inside halt other failed =>
      have found : halt ≠ .rejected .failedToLocateMagic := other
      rw [searchFrom_eq, if_pos inside, failed]
      simp only [found, if_false, forgetLog]
  | case3 floor failure state inside position found value final passed =>
      obtain ⟨later, tried⟩ := (watches position).eq_ok passed log
      rw [searchFrom_eq, if_pos inside, found]
      simp only [tried, forgetLog]
  | case4 floor failure state inside position found halt middle failed structural ih =>
      obtain ⟨later, tried⟩ := (watches position).eq_error failed log
      rw [searchFrom_eq, if_pos inside, found]
      simp only [tried, structural, if_true, ih later]
  | case5 floor failure state inside position found halt middle failed decisive =>
      obtain ⟨later, tried⟩ := (watches position).eq_error failed log
      rw [searchFrom_eq, if_pos inside, found]
      simp only [tried, decisive, if_false, Bool.false_eq_true, forgetLog]
  | case6 floor failure state exhausted outside =>
      rw [searchFrom_eq, if_neg outside]
      rfl

theorem watches_search (watchesEngine : loggedEngine.Watches engine)
    (watchesVerifier : loggedVerifier.Watches verifier) :
    Watches (settings.search flash platform loggedEngine loggedVerifier capacity)
      (settings.search flash platform engine verifier capacity) :=
  (watches_run _).bind fun _ => settings.watches_searchFrom flash
    (settings.watches_validateCandidate flash platform capacity watchesEngine watchesVerifier) _ _

end Settings

namespace Context

variable {σ : Type} {capacity : Nat} (context : Context) (flash : Flash) (platform : Platform)
  (engine : HashEngine σ) (verifier : Verifier σ)

/-- The calls of the verifier in a validation, in order. -/
def verifierCalls (capacity : Nat) (state : σ) : List VerifierCall :=
  (context.validate flash platform (engine.logged (List VerifierCall)) verifier.logged
    (.empty capacity) (state, [])).2.2

/-- Devices that keep a log change nothing about a validation. -/
theorem validate_watched {τ : Type} {context : Context} {flash : Flash} {platform : Platform}
    {loggedEngine : HashEngine (σ × τ)} {engine : HashEngine σ}
    {loggedVerifier : Verifier (σ × τ)} {verifier : Verifier σ}
    (watchesEngine : loggedEngine.Watches engine)
    (watchesVerifier : loggedVerifier.Watches verifier)
    (table : RegionTable capacity) (state : σ) (log : τ) :
    let logged := context.validate flash platform loggedEngine loggedVerifier table (state, log)
    (logged.1, logged.2.1) = context.validate flash platform engine verifier table state := by
  have watches := context.settings.watches_search flash platform capacity watchesEngine
    watchesVerifier
  unfold validate
  cases result : context.settings.search flash platform engine verifier capacity state with
  | ok value after =>
      obtain ⟨later, searched⟩ := watches.eq_ok result log
      rw [searched]
  | error halt after =>
      obtain ⟨later, searched⟩ := watches.eq_error result log
      rw [searched]

/-- Noting the calls of the verifier changes nothing about a validation. -/
theorem validate_logged (table : RegionTable capacity) (state : σ) (calls : List VerifierCall) :
    let logged := context.validate flash platform (engine.logged (List VerifierCall))
      verifier.logged table (state, calls)
    (logged.1, logged.2.1) = context.validate flash platform engine verifier table state :=
  validate_watched engine.watches_logged verifier.watches_logged table state calls

end Context

end SignedFirmware
