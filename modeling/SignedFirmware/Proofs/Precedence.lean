import SignedFirmware.Proofs.Recording

namespace SignedFirmware

/-- A call is an operation of an engine or of a verifier. -/
inductive DeviceCall where
  | supports (algorithm : Algorithm)
  | start (algorithm : Algorithm)
  | write (bytes : Bytes)
  | finish (length : Nat)
  | verify (block : SignatureBlock) (digest : Bytes)
  deriving DecidableEq, Repr

/-- An engine that notes each of its calls. -/
def HashEngine.noted {σ : Type} (engine : HashEngine σ) : HashEngine (σ × List DeviceCall) where
  supports algorithm := fun (state, calls) =>
    let (answer, after) := engine.supports algorithm state
    (answer, after, calls ++ [.supports algorithm])
  start algorithm := noting (.start algorithm) (engine.start algorithm)
  write bytes := noting (.write bytes) (engine.write bytes)
  finish length := noting (.finish length) (engine.finish length)

/-- A verifier notes each of its calls among those of the engine. -/
def Verifier.noted {σ : Type} (verifier : Verifier σ) : Verifier (σ × List DeviceCall) where
  verify block digest := noting (.verify block digest) (verifier.verify block digest)

theorem HashEngine.watches_noted {σ : Type} (engine : HashEngine σ) :
    engine.noted.Watches engine where
  supports algorithm _ calls := ⟨calls ++ [.supports algorithm], rfl⟩
  start algorithm := watches_noting (DeviceCall.start algorithm) (engine.start algorithm)
  write bytes := watches_noting (DeviceCall.write bytes) (engine.write bytes)
  finish length := watches_noting (DeviceCall.finish length) (engine.finish length)

theorem Verifier.watches_noted {σ : Type} (verifier : Verifier σ) :
    verifier.noted.Watches verifier :=
  fun block digest =>
    watches_noting (DeviceCall.verify block digest) (verifier.verify block digest)

section Walk

variable {σ α : Type} {candidate : Nat → Run σ α} {failure : Option Halt} {before middle : σ}

/-- A walk goes on behind the positions that it skips. -/
theorem walk_append {skipped : List Nat} {failures : List Halt}
    (skips : Skips candidate skipped before failures middle) (rest : List Nat) :
    walk candidate (skipped ++ rest) failure before =
      walk candidate rest (failure.toList ++ failures).head? middle := by
  induction skips generalizing failure with
  | nil => cases failure <;> rfl
  | cons failed structural _ ih =>
      simp only [List.cons_append, walk, failed, structural, if_true, ih]
      cases failure <;> rfl

/-- A walk answers as the first decisive position does. -/
theorem walk_of_decisive {position : Nat} {rest : List Nat}
    (decisive : Decisive (candidate position before)) :
    walk candidate (position :: rest) failure before = candidate position before := by
  cases result : candidate position before with
  | ok value after => simp only [walk, result]
  | error halt after =>
      rw [result] at decisive
      have final : halt.isStructural = false := decisive
      simp only [walk, result, final, if_false, Bool.false_eq_true]

/-- Positions are skipped in one state if each one fails structurally in it. -/
theorem skips_of_forall {positions : List Nat}
    (fails : ∀ position ∈ positions, ∃ halt, candidate position before = .error halt before ∧
      halt.isStructural = true) :
    ∃ failures, Skips candidate positions before failures before := by
  induction positions with
  | nil => exact ⟨[], .nil⟩
  | cons position rest ih =>
      obtain ⟨⟨halt, failed, structural⟩, later⟩ := List.forall_mem_cons.1 fails
      obtain ⟨failures, skips⟩ := ih later
      exact ⟨halt :: failures, .cons failed structural skips⟩

end Walk

namespace Settings

variable {settings : Settings} {flash : Flash} {platform : Platform} {position : Nat}
  {descriptor : Descriptor}

/-- The checks of a candidate that need no cryptography. -/
def screen (settings : Settings) (flash : Flash) (platform : Platform) (position : Nat) :
    Checked Descriptor := do
  let descriptor ← Descriptor.parse flash position settings.span platform
  descriptor.checkTransition flash settings.family settings.currentType platform
  return descriptor

/-- A candidate that does not pass the screen fails before the devices are called. -/
theorem validateCandidate_of_screen {σ : Type} {engine : HashEngine σ} {verifier : Verifier σ}
    {capacity : Nat} {before : σ} {halt : Halt}
    (failed : settings.screen flash platform position = .error halt) :
    settings.validateCandidate flash platform engine verifier capacity position before =
      .error halt before := by
  rw [validateCandidate, device_bind_eq_error]
  cases parsed : Descriptor.parse flash position settings.span platform with
  | error cause =>
      rw [screen, parsed] at failed
      obtain rfl := Except.error.inj failed
      exact .inl rfl
  | ok descriptor =>
      refine .inr ⟨descriptor, before, rfl, ?_⟩
      rw [device_bind_eq_error]
      cases allowed : descriptor.checkTransition flash settings.family settings.currentType
          platform with
      | error cause =>
          simp only [screen, parsed, allowed, bind, Except.bind] at failed
          obtain rfl := Except.error.inj failed
          exact .inl rfl
      | ok _ =>
          simp only [screen, parsed, allowed, bind, Except.bind] at failed
          cases failed

/-- A descriptor can be read, and a signature block starts where one must follow. -/
structure Presents (settings : Settings) (flash : Flash) (platform : Platform) (position : Nat)
    (descriptor : Descriptor) : Prop where
  parsed : Descriptor.parse flash position settings.span platform = .ok descriptor
  signature : flash.number descriptor.layout.signature.offset 4 = .ok magics.signature.toNat

/-- The first candidate in the span that presents a descriptor. -/
structure Foremost (settings : Settings) (flash : Flash) (platform : Platform) (position : Nat)
    (descriptor : Descriptor) : Prop where
  candidate : position ∈ settings.candidates flash
  presents : settings.Presents flash platform position descriptor
  first : ∀ earlier ∈ settings.candidates flash, earlier < position → ∀ other,
    ¬ settings.Presents flash platform earlier other

/-- A readable flash fails to give a descriptor for structural reasons only. -/
theorem parse_structural {halt : Halt} (readable : flash.Readable settings.span)
    (low : settings.span.start.toNat ≤ position)
    (failed : Descriptor.parse flash position settings.span platform = .error halt) :
    halt.isStructural = true := by
  have forgives : Forgives (fun halt => halt.isStructural = true) flash settings.span :=
    { structural := fun tier => by simp [Halt.isStructural, tier]
      reads := .inl readable }
  exact Descriptor.ends_parse forgives low halt failed

/-- A candidate that presents no descriptor fails structurally. -/
theorem screen_of_not_presents (readable : flash.Readable settings.span)
    (low : settings.span.start.toNat ≤ position)
    (absent : ∀ other, ¬ settings.Presents flash platform position other) :
    ∃ halt, settings.screen flash platform position = .error halt ∧
      halt.isStructural = true := by
  cases parsed : Descriptor.parse flash position settings.span platform with
  | error halt =>
      refine ⟨halt, ?_, parse_structural readable low parsed⟩
      rw [screen, parsed]
      rfl
  | ok descriptor =>
      obtain ⟨inside, long, high⟩ := (Descriptor.parse_eq_ok.1 parsed).signature_inside
      obtain ⟨word, read⟩ := readable.number inside (Nat.le_trans (Nat.add_le_add_left long _) high)
      have other : word ≠ magics.signature.toNat := by
        rintro rfl
        exact absent descriptor ⟨parsed, read⟩
      refine ⟨.rejected .invalidDescriptor, ?_, rfl⟩
      simp [screen, parsed, Descriptor.checkTransition, Descriptor.expectMagic, read,
        Checked.ofFlash, ensure, other, reject, bind, Except.bind]

/-- The policy refuses a presented descriptor for no structural reason. -/
theorem Presents.decisive {halt : Halt}
    (presents : settings.Presents flash platform position descriptor)
    (refused : descriptor.checkTransition flash settings.family settings.currentType platform =
      .error halt) : halt.isStructural = false := by
  let final (halt : Halt) : Prop := halt.isStructural = false
  have other {reason : Reason} (tier : reason.tier ≠ .structural) : final (.rejected reason) := by
    simp [final, Halt.isStructural, tier]
  have word : Checked.Ends final
      (Descriptor.expectMagic flash descriptor.layout.signature.offset magics.signature) := by
    rw [Descriptor.expectMagic_eq_ok.2 presents.signature]
    exact Checked.ends_ok ()
  have ends : Checked.Ends final
      (descriptor.checkTransition flash settings.family settings.currentType platform) := by
    apply Checked.ends_bind word
    intro _ _
    apply Checked.ends_ensure_bind (other (by decide))
    intro _
    apply Checked.ends_ensure_bind (other (by decide))
    intro _
    apply Checked.ends_require_bind (other (by decide))
    intro production _
    split
    · apply Checked.ends_require_bind (other (by decide))
      intro allowed _
      exact Checked.ends_ensure (other (by decide))
    · exact Checked.ends_pure ()
  exact ends halt refused

end Settings

namespace Context

variable {context : Context} {flash : Flash} {platform : Platform} {position : Nat}
  {descriptor : Descriptor}

/-- The calls of the devices in a validation, in order. -/
def deviceCalls {σ : Type} (context : Context) (flash : Flash) (platform : Platform)
    (engine : HashEngine σ) (verifier : Verifier σ) (capacity : Nat) (state : σ) :
    List DeviceCall :=
  (context.validate flash platform engine.noted verifier.noted (.empty capacity) (state, [])).2.2

/-- Noting the calls of the devices changes nothing about a validation. -/
theorem validate_noted {σ : Type} {capacity : Nat} (engine : HashEngine σ)
    (verifier : Verifier σ) (table : RegionTable capacity) (state : σ) (calls : List DeviceCall) :
    let noted := context.validate flash platform engine.noted verifier.noted table (state, calls)
    (noted.1, noted.2.1) = context.validate flash platform engine verifier table state :=
  validate_watched engine.watches_noted verifier.watches_noted table state calls

/-- A validation rejects and calls no device, whatever the devices do. -/
def Refuses (context : Context) (flash : Flash) (platform : Platform) (reason : Reason) : Prop :=
  ∀ {σ : Type} {capacity : Nat} (engine : HashEngine σ) (verifier : Verifier σ)
    (table : RegionTable capacity) (state : σ),
    context.validate flash platform engine verifier table state =
      (⟨.error (.rejected reason),
        ⟨context.settings, .failed (.rejected reason), none, none⟩, .empty capacity⟩, state) ∧
    context.deviceCalls flash platform engine verifier capacity state = []

/-- The search arrives at the foremost candidate in its first state. -/
theorem search_of_foremost {σ : Type} {settings : Settings} {size : UInt32} {capacity : Nat}
    {engine : HashEngine σ} {verifier : Verifier σ} {halt : Halt}
    (nonempty : settings.span.start < settings.span.stop)
    (power : settings.alignment.toNat.isPowerOfTwo) (sized : flash.size = .ok size)
    (inside : settings.span.stop ≤ size) (readable : flash.Readable settings.span)
    (foremost : settings.Foremost flash platform position descriptor)
    (refused : descriptor.checkTransition flash settings.family settings.currentType platform =
      .error halt) (state : σ) :
    settings.search flash platform engine verifier capacity state = .error halt state := by
  let candidate := settings.validateCandidate flash platform engine verifier capacity
  obtain ⟨skipped, rest, split⟩ := List.append_of_mem foremost.candidate
  have ordered := Settings.candidates_pairwise settings flash
  rw [split, List.pairwise_append] at ordered
  have fails : ∀ earlier ∈ skipped, ∃ cause, candidate earlier state = .error cause state ∧
      cause.isStructural = true := by
    intro earlier member
    have listed : earlier ∈ settings.candidates flash := by
      rw [split]
      exact List.mem_append_left _ member
    have low := (Settings.mem_candidates.1 listed).2.1
    have before := ordered.2.2 earlier member position List.mem_cons_self
    obtain ⟨cause, failed, structural⟩ :=
      Settings.screen_of_not_presents readable low (foremost.first earlier listed before)
    exact ⟨cause, Settings.validateCandidate_of_screen failed, structural⟩
  obtain ⟨failures, skips⟩ := skips_of_forall fails
  have failed : candidate position state = .error halt state := by
    apply Settings.validateCandidate_of_screen
    rw [Settings.screen, foremost.presents.parsed]
    exact congrArg (· >>= fun _ => pure descriptor) refused
  have decisive : Decisive (candidate position state) := by
    rw [failed]
    exact foremost.presents.decisive refused
  rw [Settings.search_eq_walk nonempty power sized inside readable, split, walk_append skips,
    walk_of_decisive decisive, failed]

/-- The policy refuses the foremost candidate before any device is called. -/
theorem validate_policy_first {size : UInt32}
    (nonempty : context.settings.span.start < context.settings.span.stop)
    (power : context.settings.alignment.toNat.isPowerOfTwo)
    (sized : flash.size = .ok size) (inside : context.settings.span.stop ≤ size)
    (readable : flash.Readable context.settings.span)
    (foremost : context.settings.Foremost flash platform position descriptor) :
    (∀ reason, descriptor.checkTransition flash context.settings.family
        context.settings.currentType platform = .error (.rejected reason) →
      context.Refuses flash platform reason) ∧
    (descriptor.imageType = .dev → platform.production = some true →
      platform.downgradeAllowed = some false →
      (descriptor.family = context.settings.family ∨ descriptor.family = 0 ∨
        context.settings.family = 0) →
      context.Refuses flash platform .devDowngradeDisallowed) := by
  have refuses : ∀ reason, descriptor.checkTransition flash context.settings.family
      context.settings.currentType platform = .error (.rejected reason) →
      context.Refuses flash platform reason := by
    intro reason refused σ capacity engine verifier table state
    have searched {τ : Type} (engine : HashEngine τ) (verifier : Verifier τ) (state : τ) :=
      @search_of_foremost _ _ _ _ _ _ _ capacity engine verifier _ nonempty power sized inside
        readable foremost refused state
    constructor
    · rw [validate_eq_conclude, searched]
      rfl
    · rw [deviceCalls, validate_eq_conclude, searched]
      rfl
  refine ⟨refuses, ?_⟩
  intro dev production downgrade family
  apply refuses
  have word : Descriptor.expectMagic flash descriptor.layout.signature.offset magics.signature =
      .ok () := Descriptor.expectMagic_eq_ok.2 foremost.presents.signature
  have type : descriptor.typeAllowed context.settings.currentType = true := by
    rw [Descriptor.typeAllowed, dev]
  rw [Descriptor.checkTransition, word, production, downgrade, dev,
    Descriptor.familyMatches_iff.2 family, type]
  rfl

/-- A development image of family 7 stands at offset 64. -/
def development : Descriptor where
  offset := 64
  formatMajor := 1
  formatMinor := 0
  ownOffset := 64
  areaSize := 700
  name := Vector.replicate 32 0
  family := 7
  version := .zero
  buildTimestamp := 0
  imageType := .dev
  denylistSize := 0
  hashType := .sha256
  scheme := .rsa2048
  imageSize := 768
  blobSize := 0
  regions := [⟨Vector.replicate 32 0, 0, 768, 0, Attribute.static.bit⟩]
  layout := .tiled 64 1 .sha256 0 0 .rsa2048

/-- A magic word with no descriptor comes before the development descriptor. -/
def developmentBytes : Bytes :=
  littleEndian 8 magics.descriptor.toNat ++ zeroBytes 56 ++ Field.encodeAll development.fields ++
    zeroBytes 40 ++ littleEndian 4 magics.signature.toNat ++ zeroBytes 520

/-- A production device of its family and any device of another one refuse it. -/
theorem development_refused :
    let flash := Flash.ofBytes developmentBytes
    let platform : Platform := ⟨some true, some false, fun _ => none⟩
    (Context.new ⟨⟨0, 768⟩, 64, 7, none⟩).Refuses flash platform .devDowngradeDisallowed ∧
      (Context.new ⟨⟨0, 768⟩, 64, 8, none⟩).Refuses flash platform .invalidImageFamily := by
  intro flash platform
  have length : developmentBytes.length = 768 := by decide +kernel
  have size := Flash.size_ofBytes
    (show developmentBytes.length < Offset.limit by rw [length]; decide)
  rw [length] at size
  have readable : flash.Readable ⟨0, 768⟩ := (Flash.answers_ofBytes (by rw [length]; decide)).read
  have parsed : (Descriptor.parse flash 64 ⟨0, 768⟩ platform).toOption = some development := by
    decide +kernel
  have decoy : (Descriptor.parse flash 0 ⟨0, 768⟩ platform).toOption = none := by
    decide +kernel
  have signature : flash.number development.layout.signature.offset 4 =
      .ok magics.signature.toNat := toOption_eq_some.1 (by decide +kernel)
  have foremost (family : UInt32) :
      (Settings.mk ⟨0, 768⟩ 64 family none).Foremost flash platform 64 development := by
    have listed : (Settings.mk ⟨0, 768⟩ 64 family none).candidates flash = [0, 64] := by
      change Scan.hits flash 64 magics.descriptor 768 0 = [0, 64]
      decide +kernel
    constructor
    case candidate => simp [listed]
    case presents => exact ⟨toOption_eq_some.1 parsed, signature⟩
    case first =>
      intro earlier member before other presents
      obtain rfl : earlier = 0 := by
        rw [listed] at member
        simp only [List.mem_cons, List.not_mem_nil, or_false] at member
        omega
      rw [presents.parsed] at decoy
      cases decoy
  obtain ⟨-, refused⟩ := @validate_policy_first (.new ⟨⟨0, 768⟩, 64, 7, none⟩) flash platform 64
    development 768 (by decide) (by decide) size (by decide) readable (foremost 7)
  obtain ⟨refuses, -⟩ := @validate_policy_first (.new ⟨⟨0, 768⟩, 64, 8, none⟩) flash platform 64
    development 768 (by decide) (by decide) size (by decide) readable (foremost 8)
  have foreign : development.checkTransition flash 8 none platform =
      .error (.rejected .invalidImageFamily) := by
    rw [Descriptor.checkTransition, Descriptor.expectMagic_eq_ok.2 signature]
    rfl
  exact ⟨refused rfl rfl rfl (by decide), refuses .invalidImageFamily foreign⟩

end Context

end SignedFirmware
