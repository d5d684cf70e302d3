import SignedFirmware.Command.Files
import Mathlib.Logic.Function.Basic
import Mathlib.Tactic.SplitIfs

namespace SignedFirmware

/-- Operations take effect at once, and they change only the file that they name. -/
structure FileSystem.Keeps {σ ν : Type} [DecidableEq ν] (files : FileSystem (StateM σ))
    (place : String → Option ν) (contents : σ → ν → Option Bytes) : Prop where
  openFile : ∀ {path file bytes} before, place path = some file →
    contents before file = some bytes →
    ∃ after, files.openFile path before = (.ok (), after) ∧ contents after = contents before
  create : ∀ {path file} before, place path = some file →
    ∃ after, files.create path before = (.ok (), after) ∧
      contents after = Function.update (contents before) file (some [])
  read : ∀ {path file} before, place path = some file →
    ∃ after, files.read path before =
        ((contents before file).elim (.error .notFound) .ok, after) ∧
      contents after = contents before
  write : ∀ {path file} bytes before, place path = some file →
    ∃ after, files.write path bytes before = (.ok (), after) ∧
      contents after = Function.update (contents before) file (some bytes)

section Contents

variable {ν : Type} [DecidableEq ν] {file : Option ν} {bytes : Option Bytes}
  {found : ν → Option Bytes}

/-- A path leads to a file with given contents. -/
def LeadsTo (place : String → Option ν) (found : ν → Option Bytes) (path : String)
    (bytes : Bytes) : Prop :=
  ∃ file, place path = some file ∧ found file = some bytes

/-- This changes what a file holds, if there is a file. -/
def changed (file : Option ν) (bytes : Option Bytes) (found : ν → Option Bytes) :
    ν → Option Bytes :=
  file.elim found fun file => Function.update found file bytes

theorem changed_self (file : ν) : changed (some file) bytes found file = bytes :=
  Function.update_self _ _ _

theorem changed_of_ne {other : ν} (apart : file ≠ some other) :
    changed file bytes found other = found other := by
  cases file with
  | none => rfl
  | some file =>
      apply Function.update_of_ne
      rintro rfl
      exact apart rfl

theorem changed_bind (file : Option ν) (found : ν → Option Bytes) :
    changed file (file.bind found) found = found := by
  cases file with
  | none => rfl
  | some file => exact Function.update_eq_self file found

/-- What a path leads to stays if another file changes. -/
theorem LeadsTo.changed {place : String → Option ν} {path : String} {contents : Bytes}
    (leads : LeadsTo place found path contents) (apart : file ≠ place path) :
    LeadsTo place (changed file bytes found) path contents := by
  obtain ⟨other, located, present⟩ := leads
  rw [located] at apart
  exact ⟨other, located, (changed_of_ne apart).trans present⟩

end Contents

namespace Directory

variable {directory : Directory} {path name : String} {contents : Bytes}

/-- The file that a path names, whether it is there or not. -/
def named? (path : String) : Option String :=
  match resolve ⟨[]⟩ path with
  | .file name => some name
  | _ => none

theorem resolve_of_named (named : named? path = some name) (directory : Directory) :
    directory.resolve path = .file name := by
  unfold named? at named
  split at named
  next found resolved =>
    obtain rfl := Option.some.inj named
    simp only [resolve] at resolved ⊢
    -- Only where a path leads to no file does it matter which files there are.
    generalize (path.splitOn "/").filter (fun part => part != "" && part != ".") = parts
      at resolved ⊢
    cases parts with
    | nil => exact resolved
    | cons first rest =>
        dsimp only at resolved ⊢
        split_ifs at resolved ⊢
        exact resolved
  next => cases named

theorem find?_insert (directory : Directory) (name : String) (contents : Bytes) :
    (directory.insert name contents).find? =
      Function.update directory.find? name (some contents) := by
  funext other
  obtain ⟨files⟩ := directory
  by_cases same : other = name
  · obtain rfl := same
    simp [insert, find?]
  · have distinct : (other == name) = false := by simpa using same
    rw [Function.update_of_ne same, insert, find?, List.lookup_cons, distinct, find?]
    induction files with
    | nil => rfl
    | cons entry rest ih =>
        obtain ⟨found, bytes⟩ := entry
        by_cases replaced : found = name
        · simpa [replaced, List.lookup_cons, distinct] using ih
        · simp only [List.filter_cons, bne_iff_ne, ne_eq, replaced, not_false_eq_true, if_true,
            List.lookup_cons]
          rw [show List.lookup other (rest.filter fun entry => entry.1 != name) = rest.lookup other
            from ih]

/-- A directory keeps the files that its paths name. -/
theorem fileSystem_keeps : fileSystem.Keeps named? find? where
  openFile before named present :=
    ⟨before, by simp [fileSystem, openFile, resolve_of_named named, present], rfl⟩
  create before named :=
    ⟨_, by simp only [fileSystem, write, resolve_of_named named], find?_insert before _ _⟩
  read before named := by
    refine ⟨before, ?_, rfl⟩
    simp only [fileSystem, read, resolve_of_named named]
    split
    next contents present => rw [present]; rfl
    next absent => rw [absent]; rfl
  write bytes before named :=
    ⟨_, by simp only [fileSystem, write, resolve_of_named named], find?_insert before _ bytes⟩

end Directory

end SignedFirmware
