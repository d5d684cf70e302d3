import SignedFirmware.Proofs.Image.Endings
import SignedFirmware.Proofs.Image.Positions
import SignedFirmware.Sha2.Engine

namespace SignedFirmware

section Walk

variable {σ α : Type}

/-- The first failure is the answer if no position passes. -/
def walk (candidate : Nat → Run σ α) : List Nat → Option Halt → Run σ α
  | [], failure => fun state => .error (failure.getD (.rejected .failedToLocateMagic)) state
  | position :: rest, failure => fun state =>
      match candidate position state with
      | .ok value state => .ok value state
      | .error halt state =>
          if halt.isStructural then walk candidate rest (some (failure.getD halt)) state
          else .error halt state

/-- Positions are tried one after the other and all fail structurally. -/
inductive Skips (candidate : Nat → Run σ α) : List Nat → σ → List Halt → σ → Prop where
  | nil {state : σ} : Skips candidate [] state [] state
  | cons {position : Nat} {rest : List Nat} {halt : Halt} {failures : List Halt}
      {before between after : σ} (failed : candidate position before = .error halt between)
      (structural : halt.isStructural = true)
      (skips : Skips candidate rest between failures after) :
      Skips candidate (position :: rest) before (halt :: failures) after

/-- The search does not go on after a candidate with this result. -/
def Decisive : EStateM.Result Halt σ α → Prop
  | .ok _ _ => True
  | .error halt _ => halt.isStructural = false

variable {candidate : Nat → Run σ α} {positions : List Nat} {failure : Option Halt} {state : σ}

/-- A walk answers as the first decisive position does. -/
theorem walk_skips (candidate : Nat → Run σ α) (positions : List Nat) (failure : Option Halt)
    (state : σ) :
    ∃ skipped rest failures middle, positions = skipped ++ rest ∧
      Skips candidate skipped state failures middle ∧
      match rest with
      | [] => walk candidate positions failure state =
          .error ((failure.toList ++ failures).head?.getD (.rejected .failedToLocateMagic)) middle
      | position :: _ => Decisive (candidate position middle) ∧
          walk candidate positions failure state = candidate position middle := by
  induction positions generalizing failure state with
  | nil =>
      refine ⟨[], [], [], state, rfl, .nil, ?_⟩
      cases failure <;> rfl
  | cons position later ih =>
      cases result : candidate position state with
      | ok value after =>
          refine ⟨[], position :: later, [], state, rfl, .nil, ?_⟩
          simp only [result, walk, Decisive, and_self]
      | error halt after =>
          by_cases structural : halt.isStructural = true
          · obtain ⟨skipped, rest, failures, middle, split, skips, ends⟩ :=
              ih (some (failure.getD halt)) after
            refine ⟨position :: skipped, rest, halt :: failures, middle, by rw [split]; rfl,
              .cons result structural skips, ?_⟩
            have step : walk candidate (position :: later) failure state =
                walk candidate later (some (failure.getD halt)) after := by
              simp only [walk, result, structural, if_true]
            have first : (some (failure.getD halt)).toList ++ failures =
                failure.getD halt :: failures := rfl
            rw [step]
            cases rest with
            | nil =>
                rw [first] at ends
                cases failure <;> exact ends
            | cons decisive others => exact ends
          · refine ⟨[], position :: later, [], state, rfl, .nil, ?_⟩
            simp only [result, walk, Decisive, structural, if_false, Bool.false_eq_true, and_self]

/-- A walk ends as allowed if every candidate does. -/
theorem ends_walk {allowed : Halt → Prop} (none : allowed (.rejected .failedToLocateMagic))
    (known : ∀ halt ∈ failure, allowed halt)
    (ends : ∀ position ∈ positions, ∀ before, Run.Ends allowed (candidate position) before) :
    Run.Ends allowed (walk candidate positions failure) state := by
  induction positions generalizing failure state with
  | nil =>
      intro halt after equal
      simp only [walk, EStateM.Result.error.injEq] at equal
      obtain ⟨rfl, -⟩ := equal
      cases failure with
      | none => exact none
      | some halt => exact known halt rfl
  | cons position later ih =>
      obtain ⟨head, tail⟩ := List.forall_mem_cons.1 ends
      intro halt after equal
      cases result : candidate position state with
      | ok value middle =>
          simp only [walk, result] at equal
          cases equal
      | error cause middle =>
          have caused := head state cause middle result
          by_cases structural : cause.isStructural = true
          · simp only [walk, result, structural, if_true] at equal
            refine ih ?_ tail halt after equal
            intro first same
            cases failure with
            | none => exact Option.some.inj same ▸ caused
            | some earlier => exact known first same
          · simp only [walk, result, structural, Bool.false_eq_true, if_false,
              EStateM.Result.error.injEq] at equal
            exact equal.1 ▸ caused

end Walk

namespace Settings

variable {σ α : Type} {settings : Settings} {flash : Flash} {candidate : Nat → Run σ α}
  {floor : Nat} {failure : Option Halt} {before after : σ}

/-- A search that succeeds has found a multiple of the alignment that passes. -/
theorem searchFrom_eq_ok {value : α}
    (result : settings.searchFrom flash candidate floor failure before = .ok value after) :
    ∃ position between, settings.alignment.toNat ∣ position ∧
      candidate position between = .ok value after := by
  fun_induction searchFrom settings flash candidate floor failure before with
  | case1 floor failure state exhausted inside missing => simp [exhausted] at result
  | case2 floor failure state inside halt other failed => cases result
  | case3 floor failure state inside position found value final passed =>
      obtain ⟨rfl, rfl⟩ := EStateM.Result.ok.inj result
      exact ⟨position, state, Scan.dvd_of_find found, passed⟩
  | case4 floor failure state inside position found halt middle failed structural ih =>
      exact ih result
  | case5 floor failure state inside position found halt middle failed decisive =>
      cases result
  | case6 floor failure state exhausted outside => simp [exhausted] at result

/-- The scan from a floor finds the first hit from there on. -/
theorem scan_eq (readable : flash.Readable settings.span)
    (power : settings.alignment.toNat.isPowerOfTwo)
    (low : settings.span.start.toNat ≤ floor) (inside : floor < settings.span.stop.toNat) :
    Scan.find flash ⟨UInt32.ofNat floor, settings.span.stop⟩ settings.alignment magics.descriptor
        settings.span =
      match Scan.hits flash settings.alignment.toNat magics.descriptor
          settings.span.stop.toNat floor with
      | [] => reject .failedToLocateMagic
      | found :: _ => .ok found := by
  have stop := settings.span.stop.toNat_lt
  have same : (UInt32.ofNat floor).toNat = floor :=
    UInt32.toNat_ofNat_of_lt' (by simp only [UInt32.size]; omega)
  have nonempty : UInt32.ofNat floor < settings.span.stop :=
    UInt32.lt_iff_toNat_lt.2 (by rw [same]; exact inside)
  have part : settings.span.start ≤ UInt32.ofNat floor :=
    UInt32.le_iff_toNat_le.2 (by rw [same]; exact low)
  have found := @Scan.find_eq flash magics.descriptor ⟨UInt32.ofNat floor, settings.span.stop⟩
    settings.span settings.alignment readable nonempty ⟨part, UInt32.le_refl _⟩ power
  rwa [same] at found

/-- The search walks over the hits from its floor on. -/
theorem searchFrom_eq_walk (readable : flash.Readable settings.span)
    (power : settings.alignment.toNat.isPowerOfTwo)
    (low : settings.span.start.toNat ≤ floor) :
    settings.searchFrom flash candidate floor failure before =
      walk candidate (Scan.hits flash settings.alignment.toNat magics.descriptor
        settings.span.stop.toNat floor) failure before := by
  have positive := Nat.pos_of_isPowerOfTwo power
  fun_induction searchFrom settings flash candidate floor failure before with
  | case1 floor failure state exhausted inside missing =>
      rw [scan_eq readable power low inside] at missing
      split at missing
      next nothing => rw [nothing]; rfl
      next => cases missing
  | case2 floor failure state inside halt other failed =>
      rw [scan_eq readable power low inside] at failed
      split at failed
      next => exact absurd (Except.error.inj failed).symm other
      next => cases failed
  | case3 floor failure state inside position found value final passed =>
      rw [scan_eq readable power low inside] at found
      split at found
      next => cases found
      next first rest listed =>
        obtain rfl := Except.ok.inj found
        rw [listed]
        simp only [walk, passed]
  | case4 floor failure state inside position found halt middle failed structural ih =>
      rw [scan_eq readable power low inside] at found
      split at found
      next => cases found
      next first rest listed =>
        obtain rfl := Except.ok.inj found
        obtain ⟨hit, above, rfl⟩ := Scan.hits_eq_cons listed
        rw [listed, Scan.hits_step hit.1 positive, ih (by omega)]
        simp only [walk, failed, structural, if_true]
  | case5 floor failure state inside position found halt middle failed decisive =>
      rw [scan_eq readable power low inside] at found
      split at found
      next => cases found
      next first rest listed =>
        obtain rfl := Except.ok.inj found
        rw [listed]
        simp only [walk, failed, decisive, if_false, Bool.false_eq_true]
  | case6 floor failure state exhausted outside =>
      rw [Scan.hits_eq_nil (by rw [Scan.magicLength]; omega)]
      rfl

/-- The checks of a well-formed context pass. -/
theorem check_eq_ok {size : UInt32} (nonempty : settings.span.start < settings.span.stop)
    (power : settings.alignment.toNat.isPowerOfTwo) (sized : flash.size = .ok size)
    (inside : settings.span.stop ≤ size) : settings.check flash = .ok () := by
  simp only [check, bind_eq_ok, ensure_eq_ok, ofFlash_eq_ok, exists_answer]
  exact ⟨nonempty, Offset.isPowerOfTwo_iff.2 power, size, sized, inside⟩

/-- The positions of the descriptor magic in the span, from the lowest one up. -/
def candidates (settings : Settings) (flash : Flash) : List Nat :=
  Scan.hits flash settings.alignment.toNat magics.descriptor settings.span.stop.toNat
    settings.span.start.toNat

/-- A search that succeeds has passed the checks and found an accepted candidate. -/
theorem search_eq_ok {platform : Platform} {engine : HashEngine σ} {verifier : Verifier σ}
    {capacity : Nat} {value : Descriptor × Nat × RegionTable capacity}
    (result : settings.search flash platform engine verifier capacity before = .ok value after) :
    settings.check flash = .ok () ∧ ∃ position between, settings.alignment.toNat ∣ position ∧
      settings.validateCandidate flash platform engine verifier capacity position between =
        .ok value after := by
  rw [search, device_bind_eq_ok] at result
  obtain ⟨_, _, passed, searched⟩ := result
  exact ⟨(run_eq_ok.1 passed).1, searchFrom_eq_ok searched⟩

theorem mem_candidates {position : Nat} :
    position ∈ settings.candidates flash ↔ settings.alignment.toNat ∣ position ∧
      settings.span.start.toNat ≤ position ∧ position + 8 ≤ settings.span.stop.toNat ∧
      flash.number position 8 = .ok magics.descriptor.toNat :=
  Scan.mem_hits.trans and_left_comm

theorem candidates_pairwise (settings : Settings) (flash : Flash) :
    (settings.candidates flash).Pairwise (· < ·) :=
  List.Pairwise.filter _ List.pairwise_lt_range'

/-- A candidate with no other one before it comes first. -/
theorem candidates_eq_cons {position : Nat} (member : position ∈ settings.candidates flash)
    (first : ∀ other ∈ settings.candidates flash, position ≤ other) :
    ∃ rest, settings.candidates flash = position :: rest := by
  have ordered := candidates_pairwise settings flash
  cases listed : settings.candidates flash with
  | nil =>
      rw [listed] at member
      cases member
  | cons head rest =>
      rw [listed] at member first ordered
      have low := first head List.mem_cons_self
      rcases List.mem_cons.1 member with rfl | later
      · exact ⟨rest, rfl⟩
      · have high := (List.pairwise_cons.1 ordered).1 position later
        omega

/-- The search of a well-formed context walks over the candidates. -/
theorem search_eq_walk {size : UInt32} {platform : Platform} {engine : HashEngine σ}
    {verifier : Verifier σ} {capacity : Nat}
    (nonempty : settings.span.start < settings.span.stop)
    (power : settings.alignment.toNat.isPowerOfTwo) (sized : flash.size = .ok size)
    (inside : settings.span.stop ≤ size) (readable : flash.Readable settings.span) (state : σ) :
    settings.search flash platform engine verifier capacity state =
      walk (settings.validateCandidate flash platform engine verifier capacity)
        (settings.candidates flash) none state := by
  have passed : settings.check flash = .ok () := check_eq_ok nonempty power sized inside
  have started : settings.search flash platform engine verifier capacity state =
      settings.searchFrom flash
        (settings.validateCandidate flash platform engine verifier capacity)
        settings.span.start.toNat none state := by
    rw [search, passed]
    rfl
  rw [started, searchFrom_eq_walk readable power (Nat.le_refl _)]
  rfl

end Settings

/-- A reason after which the search stops is of another tier. -/
theorem Reason.tier_of_not_structural {reason : Reason}
    (decisive : (Halt.rejected reason).isStructural = false) :
    reason.tier = .fatal ∨ reason.tier = .policy := by
  rw [Halt.isStructural] at decisive
  cases tier : reason.tier with
  | fatal => exact .inl rfl
  | policy => exact .inr rfl
  | structural => simp [tier] at decisive

namespace Context

variable {σ : Type} {capacity : Nat}

/-- What a validation leaves behind after the result of its search. -/
def conclude (context : Context) (table : RegionTable capacity) :
    EStateM.Result Halt σ (Descriptor × Nat × RegionTable capacity) → Validation capacity × σ
  | .ok (descriptor, key, table) state =>
      (⟨.ok (), ⟨context.settings, .valid, some key, some descriptor⟩, table⟩, state)
  | .error halt state =>
      (⟨.error halt, ⟨context.settings, .failed halt, none, none⟩, table.clear⟩, state)

theorem validate_eq_conclude (context : Context) (flash : Flash) (platform : Platform)
    (engine : HashEngine σ) (verifier : Verifier σ) (table : RegionTable capacity) (state : σ) :
    context.validate flash platform engine verifier table state =
      context.conclude table
        (context.settings.search flash platform engine verifier capacity state) := rfl

/-- A validation tries the candidates in order up to the first decisive one. -/
theorem validate_visits_in_order {context : Context} {flash : Flash} {platform : Platform}
    {engine : HashEngine σ} {verifier : Verifier σ} {table : RegionTable capacity} {size : UInt32}
    (nonempty : context.settings.span.start < context.settings.span.stop)
    (power : context.settings.alignment.toNat.isPowerOfTwo)
    (sized : flash.size = .ok size) (inside : context.settings.span.stop ≤ size)
    (readable : flash.Readable context.settings.span) (state : σ) :
    let candidate := context.settings.validateCandidate flash platform engine verifier capacity
    let positions := context.settings.candidates flash
    positions.Pairwise (· < ·) ∧
    (∀ position, position ∈ positions ↔ context.settings.alignment.toNat ∣ position ∧
      context.settings.span.start.toNat ≤ position ∧
      position + 8 ≤ context.settings.span.stop.toNat ∧
      flash.number position 8 = .ok magics.descriptor.toNat) ∧
    ∃ skipped rest failures middle, positions = skipped ++ rest ∧
      Skips candidate skipped state failures middle ∧
      match rest with
      | [] => context.validate flash platform engine verifier table state =
          context.conclude table
            (.error (failures.head?.getD (.rejected .failedToLocateMagic)) middle)
      | position :: _ =>
          (∀ halt after, candidate position middle = .error halt after →
            ∃ reason, halt = .rejected reason ∧ (reason.tier = .fatal ∨ reason.tier = .policy)) ∧
          context.validate flash platform engine verifier table state =
            context.conclude table (candidate position middle) := by
  intro candidate positions
  refine ⟨?_, ?_, ?_⟩
  · exact Settings.candidates_pairwise context.settings flash
  · intro position
    rw [Settings.mem_candidates]
  · obtain ⟨skipped, rest, failures, middle, split, skips, ends⟩ :=
      walk_skips candidate positions none state
    refine ⟨skipped, rest, failures, middle, split, skips, ?_⟩
    rw [validate_eq_conclude, Settings.search_eq_walk nonempty power sized inside readable]
    cases rest with
    | nil => exact congrArg (context.conclude table) ends
    | cons position later =>
        obtain ⟨decisive, answer⟩ := ends
        refine ⟨?_, congrArg (context.conclude table) answer⟩
        intro halt after failed
        have low : context.settings.span.start.toNat ≤ position := by
          have member : position ∈ positions := by rw [split]; simp
          exact (Settings.mem_candidates.1 member).2.1
        have noOverflow := Settings.ends_validateCandidate
          (tolerates_rejections flash context.settings.span platform engine verifier) low middle
          halt after failed
        rw [failed] at decisive
        cases halt with
        | overflow => exact absurd rfl noOverflow
        | rejected reason => exact ⟨reason, rfl, Reason.tier_of_not_structural decisive⟩

/-- Two magic words with no descriptor behind them are tried in order. -/
theorem validate_visits_decoys :
    let decoy := littleEndian 8 magics.descriptor.toNat
    let flash := Flash.ofBytes (decoy ++ decoy)
    let settings : Settings := ⟨⟨0, 16⟩, 8, 0, none⟩
    let candidate := settings.validateCandidate flash ⟨none, none, fun _ => none⟩ Sha2.engine
      ⟨fun _ _ => throw .untrustedKey⟩ 16
    settings.candidates flash = [0, 8] ∧
      ∃ skipped rest failures middle, [0, 8] = skipped ++ rest ∧
        Skips candidate skipped none failures middle := by
  intro decoy flash settings candidate
  have readable : flash.Readable settings.span := (Flash.answers_ofBytes (by decide)).read
  have size : flash.size = .ok 16 := Flash.size_ofBytes (by decide)
  have listed : settings.candidates flash = [0, 8] := by decide
  obtain ⟨-, -, skipped, rest, failures, middle, split, skips, -⟩ :=
    @validate_visits_in_order _ 16 (.new settings) flash ⟨none, none, fun _ => none⟩ Sha2.engine
      ⟨fun _ _ => throw .untrustedKey⟩ (.empty 16) 16 (by decide) (by decide) size (by decide)
      readable none
  exact ⟨listed, skipped, rest, failures, middle, listed ▸ split, skips⟩

end Context

end SignedFirmware
