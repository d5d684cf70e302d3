import SignedFirmware.Proofs.Image.Tiling
import SignedFirmware.Proofs.Steps

/-! No log of reads is kept: a check reads what decides its result. -/

namespace SignedFirmware

namespace Flash

/-- A flash answers the given reads as another one does. -/
def Echoes (other flash : Flash) (reads : List Extent) : Prop :=
  ∀ read ∈ reads, other.read read.offset read.length = flash.read read.offset read.length

/-- A flash answers a read. -/
def Grants (flash : Flash) (read : Extent) : Prop :=
  ∃ bytes, flash.read read.offset read.length = .ok bytes

/-- The answers to the reads, up to the first failure, decide a check. -/
structure Reads {α : Type} (flash : Flash) (check : Flash → Checked α) (reads : List Extent) :
    Prop where
  enough : ∀ {other : Flash}, other.Echoes flash reads → check other = check flash
  reached : ∀ {before after : List Extent} {read : Extent}, reads = before ++ read :: after →
    ∀ earlier ∈ before, flash.Grants earlier
  decisive : ∀ {before after : List Extent} {read : Extent}, reads = before ++ read :: after →
    ∀ {other : Flash} {error : FlashError}, other.Echoes flash before →
      other.read read.offset read.length = .error error → check other = reject error.reason

/-- A check reads inside a range only. -/
def ReadsWithin {α : Type} (flash : Flash) (check : Flash → Checked α) (range : Extent) : Prop :=
  ∃ reads, flash.Reads check reads ∧ ∀ read ∈ reads, read.Within range

variable {α β : Type} {flash : Flash} {check : Flash → Checked α} {next : α → Flash → Checked β}
  {reads more : List Extent} {range : Extent} {value : α}

theorem echoes_self (flash : Flash) (reads : List Extent) : flash.Echoes flash reads :=
  fun _ _ => rfl

theorem echoes_append {other : Flash} :
    other.Echoes flash (reads ++ more) ↔ other.Echoes flash reads ∧ other.Echoes flash more :=
  List.forall_mem_append

/-- A step that does not look at the flash makes no reads. -/
theorem reads_const (flash : Flash) (step : Checked α) : flash.Reads (fun _ => step) [] where
  enough _ := rfl
  reached split := by simp at split
  decisive split := by simp at split

/-- A read is one read. -/
theorem reads_read (flash : Flash) (offset length : Nat) :
    flash.Reads (fun other => Checked.ofFlash (other.read offset length)) [⟨offset, length⟩] where
  enough echoes := congrArg Checked.ofFlash (echoes ⟨offset, length⟩ List.mem_cons_self)
  reached split := by
    obtain ⟨rfl, -, -⟩ := List.append_eq_singleton_iff.1 split.symm |>.resolve_right (by simp)
    simp
  decisive split other error _ failed := by
    obtain ⟨-, same⟩ := List.append_eq_singleton_iff.1 split.symm |>.resolve_right (by simp)
    obtain ⟨rfl, -⟩ := List.cons.inj same
    rw [failed]
    rfl

/-- A check that succeeds has had all its reads answered. -/
theorem Reads.granted (made : flash.Reads check reads) (passed : check flash = .ok value) :
    ∀ read ∈ reads, flash.Grants read := by
  intro read member
  obtain ⟨before, after, split⟩ := List.append_of_mem member
  cases answer : flash.read read.offset read.length with
  | ok bytes => exact ⟨bytes, answer⟩
  | error error =>
      have failed := made.decisive split (flash.echoes_self before) answer
      rw [passed] at failed
      cases failed

/-- A step that comes after a failure makes no reads. -/
theorem Reads.bind_of_error (made : flash.Reads check reads) {halt : Halt}
    (failed : check flash = .error halt) :
    flash.Reads (fun other => check other >>= fun found => next found other) reads where
  enough echoes := by rw [made.enough echoes, failed]; rfl
  reached := made.reached
  decisive split _ _ echoes refused := by rw [made.decisive split echoes refused]; rfl

/-- A place in a joined list is in one of its parts. -/
theorem append_split {before after : List Extent} {read : Extent}
    (split : reads ++ more = before ++ read :: after) :
    (∃ rest, reads = before ++ read :: rest) ∨
      ∃ front, before = reads ++ front ∧ more = front ++ read :: after := by
  rcases List.append_eq_append_iff.1 split with ⟨front, first, second⟩ | ⟨rest, first, second⟩
  · exact .inr ⟨front, first, second⟩
  · cases rest with
    | nil => exact .inr ⟨[], by simpa using first.symm, second.symm⟩
    | cons head rest =>
        obtain ⟨rfl, -⟩ := List.cons.inj second
        exact .inl ⟨rest, first⟩

/-- After a step that succeeds come the reads of the next one. -/
theorem Reads.bind (made : flash.Reads check reads) (passed : check flash = .ok value)
    (follows : flash.Reads (next value) more) :
    flash.Reads (fun other => check other >>= fun found => next found other) (reads ++ more) where
  enough {other} echoes := by
    obtain ⟨first, second⟩ := echoes_append.1 echoes
    have same : check other = .ok value := (made.enough first).trans passed
    rw [same, passed]
    exact follows.enough second
  reached split earlier member := by
    rcases append_split split with ⟨rest, first⟩ | ⟨front, rfl, second⟩
    · exact made.reached first earlier member
    · rcases List.mem_append.1 member with inFirst | inSecond
      · exact made.granted passed earlier inFirst
      · exact follows.reached second earlier inSecond
  decisive split other error echoes failed := by
    rcases append_split split with ⟨rest, first⟩ | ⟨front, rfl, second⟩
    · rw [made.decisive first echoes failed]
      rfl
    · obtain ⟨inFirst, inSecond⟩ := echoes_append.1 echoes
      have same : check other = .ok value := (made.enough inFirst).trans passed
      rw [same]
      exact follows.decisive second inSecond failed

theorem readsWithin_const (flash : Flash) (step : Checked α) (range : Extent) :
    flash.ReadsWithin (fun _ => step) range :=
  ⟨[], reads_const flash step, by simp⟩

theorem readsWithin_read (flash : Flash) {offset length : Nat}
    (inside : Extent.Within ⟨offset, length⟩ range) :
    flash.ReadsWithin (fun other => Checked.ofFlash (other.read offset length)) range :=
  ⟨[⟨offset, length⟩], reads_read flash offset length, by simpa using inside⟩

/-- Two steps read inside a range if each of them does. -/
theorem ReadsWithin.bind (made : flash.ReadsWithin check range)
    (follows : ∀ value, check flash = .ok value → flash.ReadsWithin (next value) range) :
    flash.ReadsWithin (fun other => check other >>= fun found => next found other) range := by
  obtain ⟨reads, first, inside⟩ := made
  cases result : check flash with
  | error halt => exact ⟨reads, first.bind_of_error result, inside⟩
  | ok value =>
      obtain ⟨more, second, within⟩ := follows value result
      exact ⟨reads ++ more, first.bind result second, List.forall_mem_append.2 ⟨inside, within⟩⟩

end Flash

end SignedFirmware
