import SignedFirmware.Proofs.Command.Decision
import SignedFirmware.Proofs.Command.Files
import Mathlib.Data.List.Forall2

namespace SignedFirmware

section Files

variable {σ ν : Type} [DecidableEq ν] {files : FileSystem (StateM σ)} {place : String → Option ν}
  {contents : σ → ν → Option Bytes}

namespace Command

variable {error : CommandError} {path : String} {bytes : Bytes} {before : σ}

theorem run_onFile {α : Type} {operation : StateM σ (Except FileError α)} {value : α} {after : σ}
    (succeeds : operation before = (.ok value, after)) :
    (onFile error operation).run before = (.ok value, after) := by
  rw [onFile, run_bind_of_ok run_liftM_eq, succeeds]
  rfl

/-- A file that is there can be read. -/
theorem run_read (keeps : files.Keeps place contents)
    (present : LeadsTo place (contents before) path bytes) :
    ∃ after, (onFile error (files.read path)).run before = (.ok bytes, after) ∧
      contents after = contents before := by
  obtain ⟨file, named, found⟩ := present
  obtain ⟨after, read, same⟩ := keeps.read before named
  rw [found] at read
  exact ⟨after, run_onFile read, same⟩

/-- The input is opened before the output is created. -/
theorem openFiles_eq (files : FileSystem (StateM σ)) (input output : Option String) :
    openFiles files input output = (do
      openFiles files input none
      openFiles files none output) := by
  cases input <;> cases output <;> simp [openFiles]

/-- The files are opened, which empties the output. -/
theorem run_openFiles (keeps : files.Keeps place contents) {input output : Option String}
    (opened : ∀ path ∈ input, ∃ bytes, LeadsTo place (contents before) path bytes)
    (named : ∀ path ∈ output, (place path).isSome = true) :
    ∃ after, (openFiles files input output).run before = (.ok (), after) ∧
      contents after = changed (output.bind place) (some []) (contents before) := by
  obtain ⟨between, first, same⟩ : ∃ between,
      (openFiles files input none).run before = (.ok (), between) ∧
        contents between = contents before := by
    cases input with
    | none => exact ⟨before, rfl, rfl⟩
    | some path =>
        obtain ⟨bytes, file, located, found⟩ := opened path rfl
        obtain ⟨between, opening, same⟩ := keeps.openFile before located found
        have ran := @run_onFile _ .input _ _ _ _ _ opening
        exact ⟨between, run_bind_of_ok ran, same⟩
  rw [openFiles_eq, run_bind_of_ok first, ← same]
  cases output with
  | none => exact ⟨between, rfl, rfl⟩
  | some path =>
      obtain ⟨file, located⟩ := Option.isSome_iff_exists.1 (named path rfl)
      obtain ⟨after, creating, emptied⟩ := keeps.create between located
      refine ⟨after, run_onFile creating, ?_⟩
      rw [emptied, Option.bind_some, located]
      rfl

/-- The trusted keys are read in order. -/
theorem run_readKeys (keeps : files.Keeps place contents) {found : ν → Option Bytes}
    {paths : List String} {keys : List Rsa.PublicKey}
    (holds : List.Forall₂ (fun path key => ∃ file, LeadsTo place found path file ∧
      trustedKey? file = some key) paths keys) (state : contents before = found) :
    ∃ after, (readKeys files paths).run before = (.ok keys, after) ∧ contents after = found := by
  induction holds generalizing before with
  | nil => exact ⟨before, rfl, state⟩
  | @cons path key paths keys first rest ih =>
      obtain ⟨file, present, trusted⟩ := first
      rw [← state] at present
      obtain ⟨between, read, same⟩ := @run_read _ _ _ _ _ _ .key _ _ _ keeps present
      obtain ⟨after, others, still⟩ := ih (same.trans state)
      have taken : (expect .key (trustedKey? file) : ExceptT CommandError (StateM σ) _).run between
          = (.ok key, between) := by
        rw [trusted]
        rfl
      refine ⟨after, ?_, still⟩
      rw [readKeys, run_bind_of_ok read, run_bind_of_ok taken, run_bind_of_ok others]
      rfl

/-- The report goes to the output, or else to the standard output. -/
theorem run_writeOutput (keeps : files.Keeps place contents) {output : Option String}
    (named : ∀ path ∈ output, (place path).isSome = true) (text : Bytes) :
    ∃ after, (writeOutput files output text).run before =
        (.ok (if output.isSome then [] else text), after) ∧
      contents after = changed (output.bind place) (some text) (contents before) := by
  cases output with
  | none => exact ⟨before, rfl, rfl⟩
  | some path =>
      obtain ⟨file, located⟩ := Option.isSome_iff_exists.1 (named path rfl)
      obtain ⟨after, writing, written⟩ := keeps.write text before located
      refine ⟨after, ?_, ?_⟩
      · rw [writeOutput, run_bind_of_ok (run_onFile writing)]
        rfl
      · rw [written, Option.bind_some, located]
        rfl

/-- A state file answers like a slot that holds what stands in the file. -/
theorem fileStorage_follows (keeps : files.Keeps place contents) {file : ν}
    (located : place path = some file) (found : ν → Option Bytes) :
    (fileStorage files path).Follows (Rollback.steadySlot true true) fun state kept =>
      contents state = changed (some file) kept found where
  retrieve slotLength state kept holds := by
    obtain ⟨after, read, same⟩ := keeps.read state located
    have present : contents state file = kept := by rw [holds, changed_self]
    simp only [fileStorage, state_bind_eq, read, present]
    cases kept with
    | none => exact ⟨rfl, same.trans holds⟩
    | some bytes => exact ⟨rfl, same.trans holds⟩
  store bytes state kept holds := by
    obtain ⟨after, wrote, written⟩ := keeps.write bytes state located
    simp only [fileStorage, state_bind_eq, wrote]
    have replaced : contents after = changed (some file) (some bytes) found := by
      rw [written, holds]
      exact Function.update_idem _ _ _
    exact ⟨rfl, replaced⟩

/-- On a state file the protection does what it does on a slot. -/
theorem run_enforce_file (keeps : files.Keeps place contents) (flash : Flash)
    (descriptor : Descriptor) {state : Option String}
    (named : ∀ path ∈ state, (place path).isSome = true) (before : σ) :
    let kept := (state.bind place).bind (contents before)
    let expected := (Rollback.enforce flash descriptor
      (state.map fun _ => Rollback.steadySlot true true)).run kept
    ∃ after, (Rollback.enforce flash descriptor (state.map (fileStorage files))).run before =
        (expected.1, after) ∧
      contents after = changed (state.bind place) expected.2 (contents before) := by
  intro kept expected
  have start : contents before = changed (state.bind place) kept (contents before) :=
    (changed_bind _ _).symm
  cases state with
  | none => exact ⟨before, rfl, rfl⟩
  | some path =>
      obtain ⟨file, located⟩ := Option.isSome_iff_exists.1 (named path rfl)
      rw [Option.bind_some, located] at start ⊢
      obtain ⟨result, later⟩ :=
        Rollback.run_follows (fileStorage_follows keeps located (contents before)) start
      exact ⟨_, Prod.ext result rfl, later⟩

end Command

end Files

namespace Command

/-- What comes of a validation and of the protection against rollback after it. -/
def findings (validation : Validation Descriptor.maxRegions)
    (enforced : Except Halt RollbackOutcome) : Except Halt Report :=
  match validation.result, validation.context.descriptor with
  | .ok (), some descriptor => enforced.map fun outcome =>
      ⟨descriptor, validation.context.key, validation.table.regions, outcome⟩
  | .ok (), none => .error (.rejected .invalidContext)
  | .error halt, _ => .error halt

/-- The exit status that tells of findings. -/
def statusOf : Except Halt Report → Nat
  | .ok _ => 0
  | .error halt => haltStatus halt

/-- The report that tells of findings. -/
def reportOf : Except Halt Report → Json
  | .ok report => report.toJson
  | .error halt => Report.rejectedJson halt

section Runs

variable {σ ν : Type} {place : String → Option ν} {contents : σ → ν → Option Bytes}
  {standard : StateM σ Bytes} {options : ValidateOptions} {keys : List Rsa.PublicKey}
  {image : Bytes} {before : σ}

/-- The image and the keys are in their files, apart from the output. -/
structure Finds (options : ValidateOptions) (place : String → Option ν)
    (contents : σ → ν → Option Bytes) (standard : StateM σ Bytes) (keys : List Rsa.PublicKey)
    (image : Bytes) (before : σ) : Prop where
  input : ∀ path ∈ options.input, LeadsTo place (contents before) path image
  standard : options.input = none → ∀ between,
    ∃ after, standard between = (image, after) ∧ contents after = contents between
  keys : List.Forall₂ (fun path key => ∃ file, LeadsTo place (contents before) path file ∧
    trustedKey? file = some key) options.keys keys
  state : ∀ path ∈ options.state, (place path).isSome = true
  output : ∀ path ∈ options.output, (place path).isSome = true
  apart : ∀ path ∈ options.output,
    ∀ other ∈ options.input.toList ++ options.keys ++ options.state.toList, place path ≠ place other

theorem Finds.distinct (finds : Finds options place contents standard keys image before)
    {other : String} (member : other ∈ options.input.toList ++ options.keys ++ options.state.toList)
    (named : (place other).isSome = true) : options.output.bind place ≠ place other := by
  cases chosen : options.output with
  | none =>
      intro same
      rw [← same] at named
      cases named
  | some path => exact finds.apart path chosen other member

variable [DecidableEq ν] {files : FileSystem (StateM σ)}

/-- This is what an inspection does when an image has been validated. -/
def inspection {m : Type → Type} [Monad m] (files : FileSystem m) (options : ValidateOptions)
    (image : Bytes) (validation : Validation Descriptor.maxRegions) : ExceptT Halt m Report :=
  match validation.result, validation.context.descriptor with
  | .ok (), some descriptor => do
      let outcome ← validation.context.enforceRollback (Flash.ofBytes image)
        (options.state.map (fileStorage files))
      return ⟨descriptor, validation.context.key, validation.table.regions, outcome⟩
  | .error halt, _ => throw halt
  | .ok (), none => throw (.rejected .invalidContext)

/-- An inspection validates an image first. -/
theorem inspect_eq (files : FileSystem (StateM σ)) (options : ValidateOptions)
    (keys : List Rsa.PublicKey) (image : Bytes) : inspect files options keys image =
      inspection files options image (options.validation keys image) := rfl

/-- An inspection leaves the record that the protection keeps in the state file. -/
theorem run_inspect (keeps : files.Keeps place contents)
    (named : ∀ path ∈ options.state, (place path).isSome = true) (keys : List Rsa.PublicKey)
    (image : Bytes) (before : σ) :
    let kept := (options.state.bind place).bind (contents before)
    let enforced := options.enforcement keys image kept
    ∃ after, (inspect files options keys image).run before =
        (findings (options.validation keys image) enforced.1, after) ∧
      contents after = changed (options.state.bind place) enforced.2 (contents before) := by
  intro kept enforced
  rw [inspect_eq, inspection]
  rcases options.validation_cases keys image with ⟨reason, rejected, failed⟩ |
    ⟨descriptor, _, _, _, accepted, valid, present, -⟩
  · refine ⟨before, ?_, ?_⟩
    · rw [findings, rejected]
      rfl
    · have same : enforced = (.error (.rejected .invalidContext), kept) :=
        ValidateOptions.enforcement_of_failed failed
      rw [same]
      exact (changed_bind _ _).symm
  · obtain ⟨after, ran, later⟩ :=
      run_enforce_file keeps (Flash.ofBytes image) descriptor named before
    have same : enforced = _ := ValidateOptions.enforcement_of_valid valid present
    rw [← same] at ran later
    refine ⟨after, ?_, later⟩
    rw [findings, accepted, present]
    dsimp only
    rw [run_bind_eq, Context.enforceRollback, valid, present]
    dsimp only
    rw [ran]
    cases enforced.1 <;> rfl

/-- What a path leads to stays when the output is emptied. -/
theorem Finds.leadsTo (finds : Finds options place contents standard keys image before)
    {other : String} (member : other ∈ options.input.toList ++ options.keys ++ options.state.toList)
    {bytes : Bytes} (leads : LeadsTo place (contents before) other bytes) :
    LeadsTo place (changed (options.output.bind place) (some []) (contents before)) other
      bytes := by
  refine leads.changed (finds.distinct member ?_)
  obtain ⟨file, located, -⟩ := leads
  rw [located]
  rfl

/-- Whatever is found is reported in the same way. -/
theorem validateImage_eq (files : FileSystem (StateM σ)) (standard : StateM σ Bytes)
    (options : ValidateOptions) :
    validateImage files standard options = (do
      openFiles files options.input options.output
      let keys ← readKeys files options.keys
      let image ← readInput files standard options.input
      let found ← liftM (inspect files options keys image).run
      return ⟨statusOf found, ← writeOutput files options.output (reportOf found).render⟩) := by
  rw [validateImage]
  refine bind_congr fun _ => bind_congr fun _ => bind_congr fun _ => bind_congr fun found => ?_
  cases found <;> rfl

/-- The trusted keys are still in their files when the output was emptied. -/
theorem Finds.run_readKeys (finds : Finds options place contents standard keys image before)
    (keeps : files.Keeps place contents) {opened : σ} (emptied : contents opened =
      changed (options.output.bind place) (some []) (contents before)) :
    ∃ after, (readKeys files options.keys).run opened = (.ok keys, after) ∧
      contents after = contents opened := by
  have trusted : List.Forall₂ (fun path key => ∃ file,
      LeadsTo place (contents opened) path file ∧ trustedKey? file = some key)
      options.keys keys := by
    rw [emptied]
    apply ((List.forall₂_and_left _ _).2 ⟨fun _ member => member, finds.keys⟩).imp
    rintro path key ⟨member, file, leads, read⟩
    exact ⟨file, finds.leadsTo (by simp [member]) leads, read⟩
  exact Command.run_readKeys keeps trusted rfl

/-- The image is still in the input when the output was emptied. -/
theorem Finds.run_readInput (finds : Finds options place contents standard keys image before)
    (keeps : files.Keeps place contents) {opened : σ} (emptied : contents opened =
      changed (options.output.bind place) (some []) (contents before)) :
    ∃ after, (readInput files standard options.input).run opened = (.ok image, after) ∧
      contents after = contents opened := by
  cases chosen : options.input with
  | none =>
      obtain ⟨after, given, left⟩ := finds.standard chosen opened
      refine ⟨after, ?_, left⟩
      rw [readInput, run_liftM_eq, given]
  | some path =>
      have leads := finds.leadsTo (by simp [chosen]) (finds.input path chosen)
      rw [← emptied] at leads
      exact run_read keeps leads

/-- The state file holds the same record when the output was emptied. -/
theorem Finds.kept_eq (finds : Finds options place contents standard keys image before) :
    (options.state.bind place).bind
        (changed (options.output.bind place) (some []) (contents before)) =
      (options.state.bind place).bind (contents before) := by
  cases chosen : options.state with
  | none => rfl
  | some path =>
      obtain ⟨file, located⟩ := Option.isSome_iff_exists.1 (finds.state path chosen)
      have apart := finds.distinct (by simp [chosen]) (finds.state path chosen)
      rw [located] at apart
      rw [Option.bind_some, located]
      exact changed_of_ne apart

/-- A run reports what was found and changes only the output and state files. -/
theorem run_validateImage (keeps : files.Keeps place contents)
    (finds : Finds options place contents standard keys image before) :
    let kept := (options.state.bind place).bind (contents before)
    let enforced := options.enforcement keys image kept
    let found := findings (options.validation keys image) enforced.1
    let text := (reportOf found).render
    ∃ after, (validateImage files standard options).run before =
        (.ok ⟨statusOf found, if options.output.isSome then [] else text⟩, after) ∧
      contents after = changed (options.output.bind place) (some text)
        (changed (options.state.bind place) enforced.2
          (changed (options.output.bind place) (some []) (contents before))) := by
  intro kept enforced found text
  have opens : ∀ path ∈ options.input, ∃ bytes, LeadsTo place (contents before) path bytes :=
    fun path member => ⟨image, finds.input path member⟩
  obtain ⟨opened, opening, emptied⟩ := run_openFiles keeps opens finds.output
  obtain ⟨keyed, readingKeys, keysLeft⟩ := finds.run_readKeys keeps emptied
  obtain ⟨read, reading, left⟩ := finds.run_readInput keeps (keysLeft.trans emptied)
  have same := left.trans (keysLeft.trans emptied)
  obtain ⟨inspected, inspecting, enforcing⟩ := run_inspect keeps finds.state keys image read
  rw [same, finds.kept_eq] at inspecting enforcing
  obtain ⟨after, writing, written⟩ :=
    @run_writeOutput _ _ _ _ _ _ inspected keeps _ finds.output text
  refine ⟨after, ?_, ?_⟩
  · rw [validateImage_eq, run_bind_of_ok opening, run_bind_of_ok readingKeys,
      run_bind_of_ok reading, run_bind_of_ok run_liftM_eq, inspecting, run_bind_of_ok writing]
    rfl
  · rw [written, enforcing]

end Runs

end Command

end SignedFirmware
