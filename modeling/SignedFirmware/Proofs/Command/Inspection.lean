import Mathlib
import SignedFirmware.Proofs.Command.Running

namespace SignedFirmware

namespace Command

section Runs

variable {σ ν : Type} [DecidableEq ν] {files : FileSystem (StateM σ)} {place : String → Option ν}
  {contents : σ → ν → Option Bytes} {standard : StateM σ Bytes} {options : ValidateOptions}
  {keys : List Rsa.PublicKey} {image : Bytes} {before : σ}

/-- The exit status and the report tell what was decided. -/
structure Tells (validation : Validation Descriptor.maxRegions)
    (enforced : Except Halt RollbackOutcome) (status : Nat) (report : Json) : Prop where
  succeeds : status = 0 ↔ validation.result = .ok () ∧ ∃ outcome, enforced = .ok outcome
  valid : report.slots? ["valid"] = some [some (.boolean (status == 0))]
  accepted : ∀ outcome, validation.result = .ok () → enforced = .ok outcome →
    ∃ descriptor, validation.context.descriptor = some descriptor ∧
      report.slots? ["descriptor_offset", "key", "regions", "mauv"] =
        some [some (.ofNat descriptor.offset),
          some (.ofOption Json.ofNat validation.context.key),
          some (.ofList Report.regionJson validation.table.regions),
          some (.ofString outcome.name)]
  rejected : ∀ halt, validation.result = .error halt ∨
      validation.result = .ok () ∧ enforced = .error halt →
    ∃ reason, halt = .rejected reason ∧ status = reason.code ∧
      report.slots? ["reason"] = some [some (.ofString reason.name)]

/-- The report goes to the output. Only a stored record changes the state file. -/
structure Leaves (options : ValidateOptions) (place : String → Option ν) (flash : Flash)
    (validation : Validation Descriptor.maxRegions) (enforced : Except Halt RollbackOutcome)
    (text output : Bytes) (earlier later : ν → Option Bytes) : Prop where
  report : ∀ path ∈ options.output, LeadsTo place later path text ∧ output = []
  standard : options.output = none → output = text
  stored : ∀ path ∈ options.state, enforced = .ok .stored →
    ∃ descriptor payload bytes, validation.context.descriptor = some descriptor ∧
      descriptor.findRollbackRecord flash = .ok (some payload) ∧
      flash.read payload.offset payload.length = .ok bytes ∧
      LeadsTo place later path bytes.toList
  kept : ∀ path ∈ options.state, enforced ≠ .ok .stored → ∀ file, place path = some file →
    later file = earlier file
  rejected : ∀ path ∈ options.state, ∀ halt, validation.result = .error halt →
    ∀ file, place path = some file → later file = earlier file
  others : ∀ file, (∀ path ∈ options.output, place path ≠ some file) →
    (∀ path ∈ options.state, place path ≠ some file) → later file = earlier file

theorem slots_toJson (report : Report) :
    report.toJson.slots? ["valid"] = some [some (.boolean true)] ∧
    report.toJson.slots? ["descriptor_offset", "key", "regions", "mauv"] =
      some [some (.ofNat report.descriptor.offset), some (.ofOption Json.ofNat report.key),
        some (.ofList Report.regionJson report.regions),
        some (.ofString report.outcome.name)] := ⟨rfl, rfl⟩

theorem slots_rejectedJson (reason : Reason) :
    (Report.rejectedJson (.rejected reason)).slots? ["valid"] = some [some (.boolean false)] ∧
    (Report.rejectedJson (.rejected reason)).slots? ["reason"] =
      some [some (.ofString reason.name)] := ⟨rfl, rfl⟩

section Telling

variable {validation : Validation Descriptor.maxRegions} {enforced : Except Halt RollbackOutcome}

/-- What is found on success tells of the context and of the table. -/
theorem tells_of_accepted {descriptor : Descriptor} {outcome : RollbackOutcome}
    (accepted : validation.result = .ok ())
    (present : validation.context.descriptor = some descriptor) (passed : enforced = .ok outcome) :
    let found := findings validation enforced
    Tells validation enforced (statusOf found) (reportOf found) := by
  have known : findings validation enforced = .ok
      ⟨descriptor, validation.context.key, validation.table.regions, outcome⟩ := by
    rw [findings, accepted, present, passed]
    rfl
  dsimp only
  rw [known]
  obtain ⟨valid, members⟩ :=
    slots_toJson ⟨descriptor, validation.context.key, validation.table.regions, outcome⟩
  constructor
  case succeeds => exact ⟨fun _ => ⟨accepted, outcome, passed⟩, fun _ => rfl⟩
  case valid => exact valid
  case accepted =>
    intro other _ same
    obtain rfl := Except.ok.inj (passed.symm.trans same)
    exact ⟨descriptor, present, members⟩
  case rejected =>
    rintro halt (failed | ⟨-, failed⟩)
    · cases accepted.symm.trans failed
    · cases passed.symm.trans failed

/-- What is found on a rejection tells of its reason. -/
theorem tells_of_rejected {reason : Reason}
    (known : findings validation enforced = .error (.rejected reason))
    (failed : ¬ (validation.result = .ok () ∧ ∃ outcome, enforced = .ok outcome))
    (only : ∀ halt, validation.result = .error halt ∨
      validation.result = .ok () ∧ enforced = .error halt → halt = .rejected reason) :
    let found := findings validation enforced
    Tells validation enforced (statusOf found) (reportOf found) := by
  have nonzero : statusOf (.error (.rejected reason)) ≠ 0 := by cases reason <;> decide
  obtain ⟨valid, named⟩ := slots_rejectedJson reason
  dsimp only
  rw [known]
  constructor
  case succeeds => exact ⟨fun zero => absurd zero nonzero, fun passed => absurd passed failed⟩
  case valid =>
    have status : (statusOf (.error (.rejected reason)) == 0) = false := by simpa using nonzero
    rw [status]
    exact valid
  case accepted => exact fun outcome accepted passed => absurd ⟨accepted, outcome, passed⟩ failed
  case rejected => exact fun halt given => ⟨reason, only halt given, rfl, named⟩

end Telling

/-- What an inspection finds tells of what was decided. -/
theorem tells_findings (options : ValidateOptions) (keys : List Rsa.PublicKey) (image : Bytes)
    (kept : Option Bytes) :
    let validation := options.validation keys image
    let enforced := (options.enforcement keys image kept).1
    let found := findings validation enforced
    Tells validation enforced (statusOf found) (reportOf found) := by
  intro validation enforced
  rcases options.validation_cases keys image with ⟨reason, rejected, -⟩ |
    ⟨descriptor, _, _, _, accepted, -, present, -⟩
  · apply @tells_of_rejected _ _ reason
    · rw [findings, rejected]
    · simp [validation, rejected]
    · rintro halt (failed | ⟨passed, -⟩)
      · exact Except.error.inj (failed.symm.trans rejected)
      · cases passed.symm.trans rejected
  · cases result : enforced with
    | ok outcome => exact result ▸ tells_of_accepted accepted present result
    | error halt =>
        obtain ⟨reason, rfl⟩ := ValidateOptions.enforcement_rejects result
        apply @tells_of_rejected _ _ reason
        · rw [findings, accepted, present]
          rfl
        · simp
        · rintro halt (failed | ⟨-, failed⟩)
          · cases failed.symm.trans accepted
          · exact (Except.error.inj failed).symm

/-- The files that a run changes are left as was decided. -/
theorem leaves_changed (finds : Finds options place contents standard keys image before)
    (text : Bytes) :
    let kept := (options.state.bind place).bind (contents before)
    let enforced := options.enforcement keys image kept
    Leaves options place (Flash.ofBytes image) (options.validation keys image) enforced.1 text
      (if options.output.isSome then [] else text) (contents before)
      (changed (options.output.bind place) (some text)
        (changed (options.state.bind place) enforced.2
          (changed (options.output.bind place) (some []) (contents before)))) := by
  intro kept enforced
  generalize result : changed (options.output.bind place) (some text) _ = later
  have standsAfter {path : String} {file : ν} (chosen : path ∈ options.state)
      (located : place path = some file) : later file = enforced.2 := by
    have apart := finds.distinct (by simp [Option.mem_def.1 chosen]) (finds.state path chosen)
    rw [located] at apart
    rw [← result, changed_of_ne apart, Option.mem_def.1 chosen, Option.bind_some, located,
      changed_self]
  have stoodBefore {path : String} {file : ν} (chosen : path ∈ options.state)
      (located : place path = some file) : kept = contents before file := by
    simp [kept, Option.mem_def.1 chosen, located]
  constructor
  case report =>
    intro path chosen
    obtain ⟨file, located⟩ := Option.isSome_iff_exists.1 (finds.output path chosen)
    rw [Option.mem_def.1 chosen, Option.bind_some, located] at result
    rw [← result, chosen]
    exact ⟨⟨file, located, changed_self file⟩, rfl⟩
  case standard =>
    intro absent
    rw [absent]
    rfl
  case stored =>
    intro path chosen stored
    obtain ⟨file, located⟩ := Option.isSome_iff_exists.1 (finds.state path chosen)
    rcases options.enforcement_cases keys image kept with
      ⟨other, -⟩ | ⟨descriptor, carried, -, present, read, enforcing⟩
    · exact absurd stored other
    · obtain ⟨payload, bytes, found, -, answer, same, -⟩ :=
        Rollback.readCarried_eq_some.1 read
      refine ⟨descriptor, payload, bytes, present, found, answer, file, located, ?_⟩
      rw [standsAfter chosen located, same]
      exact congrArg Prod.snd enforcing
  case kept =>
    intro path chosen other file located
    rw [standsAfter chosen located, ← stoodBefore chosen located]
    rcases options.enforcement_cases keys image kept with
      ⟨-, same⟩ | ⟨_, _, -, -, -, enforcing⟩
    · exact same
    · exact absurd (congrArg Prod.fst enforcing) other
  case rejected =>
    intro path chosen halt rejected file located
    rw [standsAfter chosen located, ← stoodBefore chosen located]
    rcases options.enforcement_cases keys image kept with
      ⟨-, same⟩ | ⟨_, _, accepted, -⟩
    · exact same
    · cases rejected.symm.trans accepted
  case others =>
    intro file output state
    have apart {chosen : Option String} (outside : ∀ path ∈ chosen, place path ≠ some file) :
        chosen.bind place ≠ some file := by
      intro same
      obtain ⟨path, member, located⟩ := Option.bind_eq_some_iff.1 same
      exact outside path member located
    rw [← result, changed_of_ne (apart output), changed_of_ne (apart state),
      changed_of_ne (apart output)]

/-- A run reports and keeps exactly what the validation and the protection decide. -/
theorem run_faithful (keeps : files.Keeps place contents) {arguments : List String}
    (asked : Command.ofArguments arguments = .ok (.validate options))
    (finds : Finds options place contents standard keys image before) :
    let validation := options.validation keys image
    let kept := (options.state.bind place).bind (contents before)
    let enforced := (options.enforcement keys image kept).1
    ∃ result after report, run files standard arguments before = (result, after) ∧
      Tells validation enforced result.status report ∧
      Leaves options place (Flash.ofBytes image) validation enforced report.render result.output
        (contents before) (contents after) := by
  intro validation kept enforced
  let found := findings validation enforced
  obtain ⟨after, ran, later⟩ := run_validateImage keeps finds
  refine ⟨⟨statusOf found, if options.output.isSome then [] else (reportOf found).render⟩, after,
    reportOf found, ?_, tells_findings options keys image kept, ?_⟩
  · rw [run, asked]
    dsimp only
    rw [state_bind_eq, ran]
    rfl
  · rw [later]
    exact leaves_changed finds _

end Runs

/-- This file holds a public key with the modulus fifteen. -/
def smallKeyFile : Bytes :=
  [0x30, 0x1a, 0x30, 0x0d, 0x06, 0x09] ++ Rsa.KeyFamily.rsaIdentifier ++
    [0x05, 0x00, 0x03, 0x09, 0x00, 0x30, 0x06, 0x02, 0x01, 0x0f, 0x02, 0x01, 0x03]

/-- An output that is also an input, key or state file loses what it held. -/
theorem overlapping_unfaithful :
    (let options : ValidateOptions :=
        { ValidateOptions.plain with input := some "x", output := some "x" }
      let arguments := ["validate-image", "-i", "x", "-o", "x"]
      Command.ofArguments arguments = .ok (.validate options) ∧
        (options.validation [] [0]).result = .error (.rejected .failedToLocateMagic) ∧
        (run Directory.fileSystem (pure []) arguments ⟨[("x", [0])]⟩).1.status ≠
          Reason.failedToLocateMagic.code) ∧
    (let options : ValidateOptions :=
        { ValidateOptions.plain with keys := ["k"], output := some "k" }
      let arguments := ["validate-image", "--key", "k", "-o", "k"]
      Command.ofArguments arguments = .ok (.validate options) ∧
        trustedKey? smallKeyFile = some ⟨[0x0f], 3⟩ ∧
        (run Directory.fileSystem (pure []) arguments ⟨[("k", smallKeyFile)]⟩).1.status = 64 ∧
        ∀ reason : Reason, reason.code ≠ 64) ∧
    (let options : ValidateOptions :=
        { ValidateOptions.plain with state := some "s", output := some "s" }
      let arguments := ["validate-image", "--mauv-state", "s", "-o", "s"]
      Command.ofArguments arguments = .ok (.validate options) ∧
        (options.validation [] []).result = .error (.rejected .invalidContext) ∧
        (run Directory.fileSystem (pure []) arguments ⟨[]⟩).2.find? "s" ≠ none) := by
  refine ⟨⟨by rfl, ?_, ?_⟩, ⟨by rfl, by decide +kernel, ?_, ?_⟩, by rfl, by cbv, ?_⟩
  · exact ValidateOptions.validation_of_short rfl rfl rfl (by decide) (by decide) []
  · have status : (run Directory.fileSystem (pure []) ["validate-image", "-i", "x", "-o", "x"]
        ⟨[("x", [0])]⟩).1.status = Reason.invalidContext.code := by cbv
    rw [status]
    decide
  · cbv
  · intro reason
    cases reason <;> decide
  · have report : (run Directory.fileSystem (pure []) ["validate-image", "--mauv-state", "s",
        "-o", "s"] ⟨[]⟩).2.find? "s" =
          some (Report.rejectedJson (.rejected .invalidContext)).render := by cbv
    rw [report]
    exact Option.some_ne_none _

/-- The public key of a key pair whose exponents are one. -/
def unitKeyFile : Bytes :=
  [0x30, 0x82, 0x01, 0x1f, 0x30, 0x0d, 0x06, 0x09] ++ Rsa.KeyFamily.rsaIdentifier ++
    [0x05, 0x00, 0x03, 0x82, 0x01, 0x0c, 0x00, 0x30, 0x82, 0x01, 0x07, 0x02, 0x82, 0x01, 0x00] ++
    List.replicate 256 0xff ++ [0x02, 0x01, 0x01]

theorem trustedKey?_unitKeyFile :
    trustedKey? unitKeyFile = some Rsa.KeyPair.unit.publicKey := by
  decide +kernel

/-- A device in production enforces the rollback record in a state file. -/
def guardedOptions : ValidateOptions :=
  { ValidateOptions.plain with
    keys := ["k"]
    production := some true
    state := some "s"
    input := some "i"
    output := some "r" }

/-- A blueprint with a rollback record is built with the key. -/
theorem guarded_signed :
    ∃ draft image after, Blueprint.guarded.draft = .ok draft ∧
      Blueprint.guarded.build [] Sha2.engine Rsa.KeyPair.unit.signer none = .ok image after := by
  have modulus : Rsa.KeyPair.unit.publicKey.modulus.length = Scheme.rsa2048.signatureLength :=
    List.length_replicate
  have usable : Rsa.KeyPair.unit.usable = true := by decide +kernel
  apply Blueprint.guarded_builds Rsa.KeyPair.unit.signer modulus
  intro digest before
  obtain ⟨signature, signed⟩ := Rsa.KeyPair.sign_completes modulus usable digest
  exact ⟨signature, before, Rsa.KeyPair.signer_sign_eq_ok.2 ⟨signed, rfl⟩⟩

/-- The signed image is accepted under the trusted key. -/
theorem guarded_validated {draft : Draft} {image : Bytes} {after : Option Sha2.Session}
    (drafted : Blueprint.guarded.draft = .ok draft)
    (built : Blueprint.guarded.build [] Sha2.engine Rsa.KeyPair.unit.signer none =
      .ok image after) :
    let validation := guardedOptions.validation [Rsa.KeyPair.unit.publicKey] image
    validation.result = .ok () ∧ validation.context.verdict = .valid ∧
      validation.context.descriptor = some draft.descriptor := by
  obtain ⟨known, knownDrafted, -, front, imageSize, areaSize, imageType⟩ :=
    Blueprint.guarded_drafted
  obtain rfl := Except.ok.inj (drafted.symm.trans knownDrafted)
  have length : image.length = 4096 := by
    obtain ⟨signature, between, -, -, formed⟩ :=
      Blueprint.build_eq_ok drafted Sha2.engine_computes built
    rw [formed.filled.length, imageSize]
    rfl
  have regular : Blueprint.guarded.Regular draft.descriptor.areaSize.toNat image.length := by
    rw [areaSize, length]
    exact ⟨⟨rfl, rfl⟩, by decide, by decide⟩
  have allowed : draft.descriptor.Allowed 0 none ⟨some true, none, fun _ => none⟩ := by
    refine ⟨.inr (.inr rfl), ?_, ?_, true, rfl, ?_⟩ <;> simp [imageType]
  exact @ValidateOptions.validation_of_build guardedOptions image _ Rsa.KeyPair.unit_sound _ _ _ _ _
    drafted built regular front (by decide) rfl rfl rfl allowed []

/-- The record of the signed image is stored when none was kept. -/
theorem guarded_accepted :
    ∃ image after, Blueprint.guarded.build [] Sha2.engine Rsa.KeyPair.unit.signer none =
        .ok image after ∧
      (guardedOptions.validation [Rsa.KeyPair.unit.publicKey] image).result = .ok () ∧
      (guardedOptions.enforcement [Rsa.KeyPair.unit.publicKey] image none).1 = .ok .stored := by
  obtain ⟨draft, image, after, drafted, built⟩ := guarded_signed
  obtain ⟨accepted, valid, present⟩ := guarded_validated drafted built
  refine ⟨image, after, built, accepted, ?_⟩
  obtain ⟨record, describes, carried⟩ := Blueprint.carried_of_build drafted built
    (show ⟨5, 1600000000, 4, [1, 2]⟩ ∈ Blueprint.guarded.rollback from rfl) (by decide)
  obtain ⟨result, -⟩ := Rollback.attempt_settles (Rollback.steadySlot_keeps true true)
    (Rollback.steadySlot_steady true true) (Flash.ofBytes image) draft.descriptor none
  rw [id, Rollback.settle_first carried] at result
  rw [ValidateOptions.enforcement_of_valid valid present]
  exact result

/-- The command line that asks for these options. -/
def guardedArguments : List String :=
  ["validate-image", "--key", "k", "--production", "true", "--mauv-state", "s",
    "-i", "i", "-o", "r"]

/-- An image and the trusted key are there, but no state file. -/
def guardedDirectory (image : Bytes) : Directory := ⟨[("i", image), ("k", unitKeyFile)]⟩

/-- A run finds the image and the key in this directory. -/
theorem guarded_finds (image : Bytes) :
    Finds guardedOptions Directory.named? Directory.find? (pure [])
      [Rsa.KeyPair.unit.publicKey] image (guardedDirectory image) := by
  have imageNamed : Directory.named? "i" = some "i" := by cbv
  have keyNamed : Directory.named? "k" = some "k" := by cbv
  have stateNamed : Directory.named? "s" = some "s" := by cbv
  have reportNamed : Directory.named? "r" = some "r" := by cbv
  constructor
  case input =>
    rintro path ⟨rfl⟩
    exact ⟨"i", imageNamed, rfl⟩
  case standard =>
    intro absent
    cases absent
  case keys =>
    exact .cons ⟨unitKeyFile, ⟨"k", keyNamed, rfl⟩, trustedKey?_unitKeyFile⟩ .nil
  case state =>
    rintro path ⟨rfl⟩
    rw [stateNamed]
    rfl
  case output =>
    rintro path ⟨rfl⟩
    rw [reportNamed]
    rfl
  case apart =>
    rintro path ⟨rfl⟩ other member
    have listed : other = "i" ∨ other = "k" ∨ other = "s" := by
      simpa [guardedOptions, ValidateOptions.plain] using member
    rw [reportNamed]
    rcases listed with rfl | rfl | rfl
    · rw [imageNamed]
      decide
    · rw [keyNamed]
      decide
    · rw [stateNamed]
      decide

/-- The state file, which was missing, receives the rollback record of the image. -/
theorem guarded_faithful :
    ∃ (image : Bytes) (built : Option Sha2.Session) (result : CommandResult) (after : Directory)
      (report : Json),
      Blueprint.guarded.build [] Sha2.engine Rsa.KeyPair.unit.signer none = .ok image built ∧
      run Directory.fileSystem (pure []) guardedArguments (guardedDirectory image) =
        (result, after) ∧
      result.status = 0 ∧ LeadsTo Directory.named? after.find? "r" report.render ∧
      report.slots? ["valid"] = some [some (.boolean true)] ∧
      ∃ (descriptor : Descriptor) (payload : Extent) (bytes : Vector UInt8 payload.length),
        descriptor.findRollbackRecord (Flash.ofBytes image) = .ok (some payload) ∧
        (Flash.ofBytes image).read payload.offset payload.length = .ok bytes ∧
        LeadsTo Directory.named? after.find? "s" bytes.toList := by
  obtain ⟨image, built, builds, accepted, stored⟩ := guarded_accepted
  have asked : Command.ofArguments guardedArguments = .ok (.validate guardedOptions) := by rfl
  obtain ⟨result, after, report, ran, tells, leaves⟩ :=
    run_faithful Directory.fileSystem_keeps asked (guarded_finds image)
  have nothing : (guardedOptions.state.bind Directory.named?).bind
      (guardedDirectory image).find? = none := by
    have stateNamed : Directory.named? "s" = some "s" := by cbv
    change ((Directory.named? "s").bind (guardedDirectory image).find?) = none
    rw [stateNamed]
    rfl
  rw [nothing] at tells leaves
  have status := tells.succeeds.2 ⟨accepted, _, stored⟩
  have valid := tells.valid
  rw [status] at valid
  obtain ⟨descriptor, payload, bytes, -, found, answer, held⟩ := leaves.stored "s" rfl stored
  exact ⟨image, built, result, after, report, builds, ran, status, (leaves.report "r" rfl).1,
    valid, descriptor, payload, bytes, found, answer, held⟩

end Command

end SignedFirmware
