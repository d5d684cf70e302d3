import SignedFirmware.Command.Run
import SignedFirmware.Proofs.Recovery
import SignedFirmware.Proofs.Rsa.Signing
import SignedFirmware.Proofs.Safety

namespace SignedFirmware

namespace ValidateOptions

/-- The validation that the options of a command ask for. -/
def validation (options : ValidateOptions) (keys : List Rsa.PublicKey) (image : Bytes) :
    Validation Descriptor.maxRegions :=
  let span : Span := ⟨options.start, options.stop.getD (UInt32.ofNat image.length)⟩
  let settings : Settings :=
    ⟨span, options.alignment.getD 64, options.family, options.currentType⟩
  let platform : Platform := ⟨options.production, options.allowDowngrade, fun _ => none⟩
  ((Context.new settings).validate (Flash.ofBytes image) platform Sha2.engine
    (Rsa.Keyring.verifier ⟨keys⟩) (.empty _) none).1

/-- The result of the protection, and the record that is kept then. -/
def enforcement (options : ValidateOptions) (keys : List Rsa.PublicKey) (image : Bytes)
    (kept : Option Bytes) : Except Halt RollbackOutcome × Option Bytes :=
  ((options.validation keys image).context.enforceRollback (Flash.ofBytes image)
    (options.state.map fun _ => Rollback.steadySlot true true)).run kept

/-- A validation accepts a descriptor that was read from the image, or rejects it. -/
theorem validation_cases (options : ValidateOptions) (keys : List Rsa.PublicKey) (image : Bytes) :
    (∃ reason, (options.validation keys image).result = .error (.rejected reason) ∧
      (options.validation keys image).context.verdict = .failed (.rejected reason)) ∨
    ∃ descriptor position span platform,
      (options.validation keys image).result = .ok () ∧
      (options.validation keys image).context.verdict = .valid ∧
      (options.validation keys image).context.descriptor = some descriptor ∧
      descriptor.Parsed (Flash.ofBytes image) position span platform := by
  simp only [validation, Context.validate_eq_conclude]
  generalize searched : Settings.search _ _ _ _ _ _ _ = found
  cases found with
  | error halt after =>
      have ends := @Settings.ends_search _ (· ≠ .overflow) (by simp) _ _ _ _ _ _ _ halt after
        searched
      cases halt with
      | rejected reason => exact .inl ⟨reason, rfl, rfl⟩
      | overflow => exact absurd rfl ends
  | ok value after =>
      obtain ⟨descriptor, key, table⟩ := value
      obtain ⟨-, position, between, -, passed⟩ := Settings.search_eq_ok searched
      exact .inr ⟨descriptor, position, _, _, rfl, rfl, rfl,
        (Settings.validateCandidate_eq_ok.1 passed).1⟩

variable {options : ValidateOptions} {keys : List Rsa.PublicKey} {image : Bytes}
  {kept : Option Bytes}

theorem enforcement_of_failed {halt : Halt}
    (failed : (options.validation keys image).context.verdict = .failed halt) :
    options.enforcement keys image kept = (.error (.rejected .invalidContext), kept) := by
  rw [enforcement, Context.enforceRollback, failed]
  rfl

theorem enforcement_of_valid {descriptor : Descriptor}
    (valid : (options.validation keys image).context.verdict = .valid)
    (present : (options.validation keys image).context.descriptor = some descriptor) :
    options.enforcement keys image kept =
      (Rollback.enforce (Flash.ofBytes image) descriptor
        (options.state.map fun _ => Rollback.steadySlot true true)).run kept := by
  rw [enforcement, Context.enforceRollback, valid, present]

/-- The record is replaced by that of the image if the outcome says so. -/
theorem enforcement_cases (options : ValidateOptions) (keys : List Rsa.PublicKey) (image : Bytes)
    (kept : Option Bytes) :
    ((options.enforcement keys image kept).1 ≠ .ok .stored ∧
      (options.enforcement keys image kept).2 = kept) ∨
    ∃ descriptor carried, (options.validation keys image).result = .ok () ∧
      (options.validation keys image).context.descriptor = some descriptor ∧
      Rollback.readCarried (Flash.ofBytes image) descriptor = .ok (some carried) ∧
      options.enforcement keys image kept = (.ok .stored, some carried.bytes) := by
  rcases options.validation_cases keys image with ⟨reason, -, failed⟩ |
    ⟨descriptor, _, _, _, accepted, valid, present, -⟩
  · rw [enforcement_of_failed failed]
    exact .inl ⟨by simp, rfl⟩
  · rw [enforcement_of_valid valid present]
    cases options.state with
    | none => exact .inl ⟨nofun, rfl⟩
    | some path =>
        obtain ⟨result, -, later⟩ := Rollback.attempt_settles (Rollback.steadySlot_keeps true true)
          (Rollback.steadySlot_steady true true) (Flash.ofBytes image) descriptor kept
        rcases Rollback.settle_cases true true (Flash.ofBytes image) descriptor kept with
          ⟨_, settled, other⟩ | ⟨carried, read, -, settled⟩
        · rw [id, id, settled] at later
          rw [id, settled] at result
          refine .inl ⟨?_, later⟩
          intro stored
          exact other (result.symm.trans stored)
        · rw [id, id, settled] at later
          rw [id, settled] at result
          exact .inr ⟨descriptor, carried, accepted, present, read, Prod.ext result later⟩

/-- The protection against rollback ends with a rejection if it does not succeed. -/
theorem enforcement_rejects {halt : Halt}
    (failed : (options.enforcement keys image kept).1 = .error halt) :
    ∃ reason, halt = .rejected reason := by
  rcases options.validation_cases keys image with ⟨reason, -, refused⟩ |
    ⟨descriptor, position, span, platform, -, valid, present, parsed⟩
  · rw [enforcement_of_failed refused] at failed
    exact ⟨_, (Except.error.inj failed).symm⟩
  · rw [enforcement_of_valid valid present] at failed
    have tolerates := tolerates_rejections (Flash.ofBytes image) span platform Sha2.engine
      (Rsa.Keyring.verifier ⟨keys⟩)
    have ends := always_run (Rollback.ends_enforce tolerates parsed
      (options.state.map fun _ => Rollback.steadySlot true true)) kept halt failed
    cases halt with
    | rejected reason => exact ⟨reason, rfl⟩
    | overflow => exact absurd rfl ends

/-- The validation of a whole input, at the default alignment. -/
def wholeValidation (options : ValidateOptions) (keys : List Rsa.PublicKey) (image : Bytes) :
    Validation Descriptor.maxRegions :=
  let settings : Settings :=
    ⟨⟨0, UInt32.ofNat image.length⟩, 64, options.family, options.currentType⟩
  let platform : Platform := ⟨options.production, options.allowDowngrade, fun _ => none⟩
  ((Context.new settings).validate (Flash.ofBytes image) platform Sha2.engine
    (Rsa.Keyring.verifier ⟨keys⟩) (.empty _) none).1

theorem validation_eq_wholeValidation (start : options.start = 0) (stop : options.stop = none)
    (alignment : options.alignment = none) (keys : List Rsa.PublicKey) (image : Bytes) :
    options.validation keys image = options.wholeValidation keys image := by
  simp only [validation, wholeValidation, start, stop, alignment, Option.getD_none]

/-- A whole input is expected if its descriptor stands in front. -/
theorem expects_whole {draft : Draft} (front : draft.descriptor.ownOffset = 0)
    (short : image.length < Offset.limit)
    (carries : (Flash.ofBytes image).Carries (Memory.ofBytes image)
      ⟨0, UInt32.ofNat image.length⟩ image)
    (allowed : draft.descriptor.Allowed options.family options.currentType
      ⟨options.production, options.allowDowngrade, fun _ => none⟩) :
    (Context.new ⟨⟨0, UInt32.ofNat image.length⟩, 64, options.family, options.currentType⟩).Expects
      draft Sha2.digest image (Flash.ofBytes image) (Memory.ofBytes image)
      ⟨options.production, options.allowDowngrade, fun _ => none⟩ Sha2.engine where
  carries := carries
  size := ⟨_, Flash.size_ofBytes short, UInt32.le_refl _⟩
  power := show (64 : UInt32).toNat.isPowerOfTwo by decide
  startAligned := Nat.dvd_zero _
  offsetAligned := by
    rw [front]
    exact Nat.dvd_zero _
  first := by
    intro position _ low high
    rw [front] at high
    exact absurd high (Nat.not_lt_of_le low)
  allowed := allowed
  imageSize := nofun
  computes := Sha2.engine_computes
  offersDigest := Sha2.engine_completes draft.descriptor.algorithm_ne_sha384
  offersSigned := Sha2.engine_completes (Scheme.algorithm_ne_sha384 draft.descriptor.scheme)

/-- A trusted signature is accepted if the policy allows the image. -/
theorem validation_of_build {key : Rsa.KeyPair} (sound : key.Sound) {blueprint : Blueprint}
    {draft : Draft} {payload : Bytes} {before after : Option Sha2.Session}
    (drafted : blueprint.draft = .ok draft)
    (built : blueprint.build payload Sha2.engine key.signer before = .ok image after)
    (regular : blueprint.Regular draft.descriptor.areaSize.toNat image.length)
    (front : draft.descriptor.ownOffset = 0)
    (few : blueprint.regions.length ≤ Descriptor.maxRegions)
    (start : options.start = 0) (stop : options.stop = none) (alignment : options.alignment = none)
    (allowed : draft.descriptor.Allowed options.family options.currentType
      ⟨options.production, options.allowDowngrade, fun _ => none⟩) (others : List Rsa.PublicKey) :
    let validation := options.validation (key.publicKey :: others) image
    validation.result = .ok () ∧ validation.context.verdict = .valid ∧
      validation.context.descriptor = some draft.descriptor := by
  obtain ⟨consistent, -, -, planned⟩ := Blueprint.draft_eq_ok drafted
  obtain ⟨signature, between, signs, modulus, formed⟩ :=
    Blueprint.build_eq_ok drafted Sha2.engine_computes built
  obtain ⟨carries, -⟩ := Blueprint.build_carried drafted built
  have length := formed.filled.length
  have short : image.length < Offset.limit := by
    rw [length]
    exact draft.descriptor.imageSize.toNat_lt
  have expects := expects_whole front short carries allowed
  obtain ⟨signed, -⟩ := Rsa.KeyPair.signer_sign_eq_ok.1 signs
  have verified := sound.verify signed others
  have verifies (state : Option Sha2.Session) :
      ∃ after, (Rsa.Keyring.verifier ⟨key.publicKey :: others⟩).verify
        ⟨draft.descriptor.scheme, key.publicKey.modulus, key.publicKey.exponent, signature.toList⟩
        (Sha2.digest draft.descriptor.scheme.algorithm
          ((Memory.ofBytes image).bytes draft.descriptor.layout.signed)).toList state =
            .ok 0 after := by
    simp only [Rsa.Keyring.verifier, verified]
    exact ⟨state, rfl⟩
  have room : draft.descriptor.regions.length ≤ Descriptor.maxRegions := by
    have lengths := congrArg List.length planned
    rw [List.length_map, List.length_map] at lengths
    rwa [← lengths]
  have stops : 0 + draft.descriptor.imageSize.toNat = (UInt32.ofNat image.length).toNat := by
    rw [← length]
    exact carries.stop.symm
  rw [length] at regular
  obtain ⟨final, validated⟩ := formed.accepted consistent rfl modulus expects
    (regular.partitioned drafted (Nat.le_of_eq stops)) verifies room
    (.empty Descriptor.maxRegions) none
  have unmoved : draft.descriptor.moved (0 : UInt32).toNat = draft.descriptor :=
    draft.descriptor.moved_zero
  dsimp only
  rw [validation_eq_wholeValidation start stop alignment, wholeValidation, validated]
  exact ⟨rfl, rfl, congrArg some unmoved⟩

/-- No descriptor is found in fewer bytes than its magic has. -/
theorem validation_of_short {image : Bytes} (start : options.start = 0) (stop : options.stop = none)
    (alignment : options.alignment = none) (some : 0 < image.length)
    (few : image.length < Scan.magicLength) (keys : List Rsa.PublicKey) :
    (options.validation keys image).result = .error (.rejected .failedToLocateMagic) := by
  have fits : image.length < Offset.limit := Nat.lt_trans few (by decide)
  have length : (UInt32.ofNat image.length).toNat = image.length := UInt32.toNat_ofNat_of_lt' fits
  let settings : Settings :=
    ⟨⟨0, UInt32.ofNat image.length⟩, 64, options.family, options.currentType⟩
  have nonempty : settings.span.start < settings.span.stop := by
    rw [UInt32.lt_iff_toNat_lt, length]
    exact some
  have answers : (Flash.ofBytes image).Answers settings.span :=
    Flash.answers_ofBytes (Nat.le_of_eq length)
  have nothing : settings.candidates (Flash.ofBytes image) = [] := by
    apply Scan.hits_eq_nil
    rw [length]
    exact few
  have power : (64 : UInt32).toNat.isPowerOfTwo := by decide
  have searched : settings.search (Flash.ofBytes image)
      ⟨options.production, options.allowDowngrade, fun _ => none⟩ Sha2.engine
      (Rsa.Keyring.verifier ⟨keys⟩) Descriptor.maxRegions none =
        .error (.rejected .failedToLocateMagic) none := by
    rw [Settings.search_eq_walk nonempty power (Flash.size_ofBytes fits) (UInt32.le_refl _)
      answers.read, nothing]
    rfl
  rw [validation_eq_wholeValidation start stop alignment]
  exact congrArg (fun found => ((Context.new settings).conclude (.empty _) found).1.result) searched

/-- The options of a command line that names none. -/
def plain : ValidateOptions where
  keys := []
  start := 0
  stop := none
  alignment := none
  family := 0
  currentType := none
  production := none
  allowDowngrade := none
  state := none
  input := none
  output := none

end ValidateOptions

end SignedFirmware
