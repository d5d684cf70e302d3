import SignedFirmware.Proofs.Completeness
import SignedFirmware.Proofs.Recording
import SignedFirmware.Proofs.Rollback.Mirroring
import SignedFirmware.Proofs.Safety

namespace SignedFirmware

/-- A flash that holds an image answers as the image alone does. -/
theorem Flash.mirrors_ofBytes (front image behind : Bytes) :
    (Flash.ofBytes (front ++ (image ++ behind))).Mirrors (Flash.ofBytes image) front.length 0
      image.length := by
  apply (holds_ofBytes _).mirrors (holds_ofBytes image)
  · intro offset length _ high
    apply read_ofBytes
    simp only [List.length_append]
    omega
  · intro offset length _ high
    exact read_ofBytes high
  · intro offset _ inside
    rw [Memory.ofBytes_append_right, Memory.ofBytes_append_left inside]

/-- It also feeds the image to a hash engine as the image alone does. -/
theorem Flash.mirrorsFeeds_ofBytes (front image behind : Bytes) :
    (Flash.ofBytes (front ++ (image ++ behind))).MirrorsFeeds (Flash.ofBytes image) front.length 0
      image.length := by
  intro extent low high
  obtain ⟨bytes, answer⟩ := read_ofBytes high
  have placed := (mirrors_ofBytes front image behind low high).trans answer
  simp only [feed_ofBytes, Extent.shift, placed, answer]

section Candidates

variable {left right : Flash} {shift start stop alignment : Nat}

/-- The search finds its magic word at the same positions, up to the shift. -/
theorem Scan.hits_shift (mirrors : left.Mirrors right shift start stop)
    (aligned : alignment ∣ shift) (magic : UInt64) :
    Scan.hits left alignment magic (shift + stop) (shift + start) =
      (Scan.hits right alignment magic stop start).map (shift + ·) := by
  -- The alignment divides the offset between the places, so their candidates lie on one grid.
  rw [hits, hits, Nat.add_sub_add_left, ← List.map_add_range', List.filter_map]
  congr 1
  apply List.filter_congr
  intro position member
  rw [List.mem_range'_1] at member
  have same : Hit left alignment magic (shift + stop) (shift + position) ↔
      Hit right alignment magic stop position := by
    have room : shift + position + magicLength ≤ shift + stop ↔ position + magicLength ≤ stop := by
      omega
    rw [Hit, Hit, Nat.dvd_add_right aligned, room]
    refine and_congr_right fun _ => and_congr_right fun inside => ?_
    rw [mirrors.number member.1 inside]
  simp only [Function.comp, same]

/-- A walk over other positions ends alike if each candidate does. -/
theorem walk_map {σ α β : Type} {left : Nat → Run σ β} {right : Nat → Run σ α} (convert : α → β)
    (place : Nat → Nat) {positions : List Nat}
    (same : ∀ position ∈ positions, left (place position) = convert <$> right position)
    (failure : Option Halt) :
    walk left (positions.map place) failure = convert <$> walk right positions failure := by
  induction positions generalizing failure with
  | nil => rfl
  | cons position rest ih =>
      obtain ⟨first, others⟩ := List.forall_mem_cons.1 same
      funext state
      have tried : left (place position) state = EStateM.map convert (right position) state := by
        rw [first]
        rfl
      change walk left (place position :: rest.map place) failure state =
        EStateM.map convert (walk right (position :: rest) failure) state
      cases result : right position state with
      | ok value after => simp only [walk, tried, EStateM.map, result]
      | error halt after =>
          by_cases structural : halt.isStructural = true
          · simp only [walk, tried, EStateM.map, result, structural, if_true, ih others]
            rfl
          · simp only [walk, tried, EStateM.map, result, structural, if_false, Bool.false_eq_true]

end Candidates

/-- The span lies in the flash and can be read there. -/
structure Settings.Suits (settings : Settings) (flash : Flash) : Prop where
  nonempty : settings.span.start < settings.span.stop
  power : settings.alignment.toNat.isPowerOfTwo
  size : ∃ size, flash.size = .ok size ∧ settings.span.stop ≤ size
  readable : flash.Readable settings.span

namespace Settings

variable {σ : Type} {settings : Settings} (platform : Platform) (engine : HashEngine σ)
  (verifier : Verifier σ) (capacity : Nat)

theorem Suits.search_eq {flash : Flash} (suits : settings.Suits flash) :
    settings.search flash platform engine verifier capacity =
      walk (settings.validateCandidate flash platform engine verifier capacity)
        (settings.candidates flash) none := by
  obtain ⟨size, sized, inside⟩ := suits.size
  funext state
  exact search_eq_walk suits.nonempty suits.power sized inside suits.readable state

variable {left right : Flash} {shift : Nat} {leftSpan rightSpan : Span}

/-- The search ends alike at both places, up to the place of the descriptor. -/
theorem search_shift (leftSuits : (settings.within leftSpan).Suits left)
    (rightSuits : (settings.within rightSpan).Suits right)
    (shifted : leftSpan.Shifted rightSpan shift)
    (mirrors : left.Mirrors right shift rightSpan.start.toNat rightSpan.stop.toNat)
    (feeds : left.MirrorsFeeds right shift rightSpan.start.toNat rightSpan.stop.toNat)
    (aligned : settings.alignment.toNat ∣ shift) :
    (settings.within leftSpan).search left platform engine verifier capacity =
      Prod.map (Descriptor.moved shift) id <$>
        (settings.within rightSpan).search right platform engine verifier capacity := by
  have candidates : (settings.within leftSpan).candidates left =
      ((settings.within rightSpan).candidates right).map (shift + ·) := by
    dsimp only [Settings.candidates, within]
    rw [shifted.start, shifted.stop]
    exact Scan.hits_shift mirrors aligned magics.descriptor
  rw [leftSuits.search_eq, rightSuits.search_eq, candidates]
  apply walk_map
  intro position member
  have low := (mem_candidates.1 member).2.1
  exact settings.validateCandidate_shift platform engine verifier capacity shifted mirrors feeds low

end Settings

/-- The span of an image of a given length that starts at an offset. -/
def Span.placed (start length : Nat) : Span := ⟨.ofNat start, .ofNat (start + length)⟩

section Placed

variable {start length : Nat}

theorem Span.start_placed (bounded : start + length < Offset.limit) :
    (Span.placed start length).start.toNat = start :=
  UInt32.toNat_ofNat_of_lt' (by simp only [UInt32.size, Offset.limit] at bounded ⊢; omega)

theorem Span.stop_placed (bounded : start + length < Offset.limit) :
    (Span.placed start length).stop.toNat = start + length :=
  UInt32.toNat_ofNat_of_lt' bounded

/-- A nonempty span goes with every byte string that it lies in. -/
theorem Settings.suits_ofBytes {settings : Settings} {content : Bytes} (positive : 0 < length)
    (inside : start + length ≤ content.length) (short : content.length < Offset.limit)
    (power : settings.alignment.toNat.isPowerOfTwo) :
    (settings.within (.placed start length)).Suits (Flash.ofBytes content) := by
  have first := Span.start_placed (show start + length < Offset.limit by omega)
  have last := Span.stop_placed (show start + length < Offset.limit by omega)
  refine ⟨?_, power, ⟨_, Flash.size_ofBytes short, ?_⟩, ?_⟩
  · rw [UInt32.lt_iff_toNat_lt]
    change (Span.placed start length).start.toNat < (Span.placed start length).stop.toNat
    omega
  · rw [UInt32.le_iff_toNat_le, UInt32.toNat_ofNat_of_lt' short]
    change (Span.placed start length).stop.toNat ≤ _
    omega
  · apply Flash.Answers.read
    apply Flash.answers_ofBytes
    change (Span.placed start length).stop.toNat ≤ _
    omega

variable {front image behind : Bytes}

theorem Flash.mirrors_placed (bounded : image.length < Offset.limit) :
    (Flash.ofBytes (front ++ (image ++ behind))).Mirrors (Flash.ofBytes image) front.length
      (Span.placed 0 image.length).start.toNat (Span.placed 0 image.length).stop.toNat := by
  rw [Span.start_placed (by omega), Span.stop_placed (by omega), Nat.zero_add]
  exact mirrors_ofBytes front image behind

theorem Flash.mirrorsFeeds_placed (bounded : image.length < Offset.limit) :
    (Flash.ofBytes (front ++ (image ++ behind))).MirrorsFeeds (Flash.ofBytes image) front.length
      (Span.placed 0 image.length).start.toNat (Span.placed 0 image.length).stop.toNat := by
  rw [Span.start_placed (by omega), Span.stop_placed (by omega), Nat.zero_add]
  exact mirrorsFeeds_ofBytes front image behind

end Placed

def Context.within (context : Context) (span : Span) : Context :=
  { context with settings := context.settings.within span }

/-- What a validation leaves behind if the image lies in another span. -/
def Validation.moved {capacity : Nat} (shift : Nat) (span : Span)
    (validation : Validation capacity) : Validation capacity :=
  { validation with
    context :=
      { validation.context with
        settings := validation.context.settings.within span
        descriptor := validation.context.descriptor.map (Descriptor.moved shift) } }

namespace Context

variable {σ : Type} {capacity : Nat} {context : Context} {front image behind : Bytes}

/-- Other bytes around an image only move its validation. -/
theorem validate_placed (nonempty : image ≠ [])
    (short : (front ++ (image ++ behind)).length < Offset.limit)
    (power : context.settings.alignment.toNat.isPowerOfTwo)
    (aligned : context.settings.alignment.toNat ∣ front.length) (platform : Platform)
    (engine : HashEngine σ) (verifier : Verifier σ) (table : RegionTable capacity) (state : σ) :
    (context.within (.placed front.length image.length)).validate
        (Flash.ofBytes (front ++ (image ++ behind))) platform engine verifier table state =
      ((context.within (.placed 0 image.length)).validate (Flash.ofBytes image) platform engine
        verifier table state).map
          (Validation.moved front.length (.placed front.length image.length)) id := by
  have positive := List.length_pos_iff.2 nonempty
  have bounded : front.length + image.length < Offset.limit := by
    simp only [List.length_append] at short
    omega
  have shifted : (Span.placed front.length image.length).Shifted (.placed 0 image.length)
      front.length := by
    constructor
    · rw [Span.start_placed bounded, Span.start_placed (by omega), Nat.add_zero]
    · rw [Span.stop_placed bounded, Span.stop_placed (by omega), Nat.zero_add]
  have room : image.length < Offset.limit := by omega
  have placedSuits : (context.settings.within (.placed front.length image.length)).Suits
      (Flash.ofBytes (front ++ (image ++ behind))) :=
    Settings.suits_ofBytes positive (by simp only [List.length_append]; omega) short power
  have ownSuits : (context.settings.within (.placed 0 image.length)).Suits
      (Flash.ofBytes image) :=
    Settings.suits_ofBytes positive (by omega) (by omega) power
  have searched := congrFun (Settings.search_shift platform engine verifier capacity placedSuits
    ownSuits shifted (Flash.mirrors_placed room) (Flash.mirrorsFeeds_placed room) aligned) state
  change _ = EStateM.map _ ((context.settings.within _).search _ _ _ _ _) state at searched
  rw [validate_eq_conclude, validate_eq_conclude]
  change conclude _ _ ((context.settings.within _).search _ _ _ _ _ state) =
    Prod.map _ _ (conclude _ _ ((context.settings.within _).search _ _ _ _ _ state))
  rw [searched]
  unfold EStateM.map
  cases (context.settings.within (.placed 0 image.length)).search (Flash.ofBytes image) platform
      engine verifier capacity state with
  | ok value after => rfl
  | error halt after => rfl

/-- After a validation the protection against rollback decides alike at both places. -/
theorem enforceRollback_shift (context : Context) {left right : Flash} {shift : Nat}
    {leftSpan : Span}
    (mirrors : left.Mirrors right shift context.settings.span.start.toNat
      context.settings.span.stop.toNat)
    (bounded : shift + context.settings.span.stop.toNat < Offset.limit) (platform : Platform)
    (engine : HashEngine σ) (verifier : Verifier σ) (table : RegionTable capacity) (state : σ)
    {m : Type → Type} [Monad m] (storage : Option (RecordStorage m)) :
    let validation := (context.validate right platform engine verifier table state).1
    (validation.moved shift leftSpan).context.enforceRollback left storage =
      validation.context.enforceRollback right storage := by
  intro validation
  have concluded : validation = _ := congrArg Prod.fst
    (validate_eq_conclude context right platform engine verifier table state)
  cases searched : context.settings.search right platform engine verifier capacity state with
  | error halt after =>
      rw [concluded, searched]
      rfl
  | ok value after =>
      obtain ⟨descriptor, key, found⟩ := value
      obtain ⟨-, position, before, -, passed⟩ := Settings.search_eq_ok searched
      have parsed := (Settings.validateCandidate_eq_ok.1 passed).1
      have blob : ∀ extent ∈ descriptor.layout.blob,
          context.settings.span.start.toNat ≤ extent.offset ∧
            extent.offset + extent.length ≤ context.settings.span.stop.toNat := by
        intro extent present
        have low := parsed.start_le
        have high := parsed.inside
        have place := parsed.blob present
        omega
      rw [concluded, searched]
      exact Rollback.enforce_shift mirrors bounded blob storage

/-- A validation ends alike at every aligned place of an image. -/
theorem validate_relocated (nonempty : image ≠ [])
    (short : (front ++ (image ++ behind)).length < Offset.limit)
    (power : context.settings.alignment.toNat.isPowerOfTwo)
    (aligned : context.settings.alignment.toNat ∣ front.length) (platform : Platform)
    (engine : HashEngine σ) (verifier : Verifier σ) (table : RegionTable capacity) (state : σ) :
    let whole := Flash.ofBytes (front ++ (image ++ behind))
    let alone := Flash.ofBytes image
    let there := context.within (.placed front.length image.length)
    let here := context.within (.placed 0 image.length)
    let moved := there.validate whole platform engine verifier table state
    let own := here.validate alone platform engine verifier table state
    moved.1.result = own.1.result ∧
    moved.1.context.verdict = own.1.context.verdict ∧
    moved.1.context.key = own.1.context.key ∧
    moved.1.table = own.1.table ∧
    moved.2 = own.2 ∧
    there.verifierCalls whole platform engine verifier capacity state =
      here.verifierCalls alone platform engine verifier capacity state ∧
    moved.1.context.descriptor = own.1.context.descriptor.map (Descriptor.moved front.length) ∧
    ∀ {m : Type → Type} [Monad m] (storage : Option (RecordStorage m)),
      moved.1.context.enforceRollback whole storage =
        own.1.context.enforceRollback alone storage := by
  intro whole alone there here moved own
  have same : moved = _ :=
    validate_placed nonempty short power aligned platform engine verifier table state
  have calls : there.verifierCalls whole platform engine verifier capacity state =
      here.verifierCalls alone platform engine verifier capacity state := by
    rw [verifierCalls, verifierCalls, validate_placed nonempty short power aligned]
    rfl
  have bounded : front.length + image.length < Offset.limit := by
    simp only [List.length_append] at short
    omega
  rw [same]
  refine ⟨rfl, rfl, rfl, rfl, rfl, calls, rfl, ?_⟩
  intro m _ storage
  have inside : front.length + here.settings.span.stop.toNat < Offset.limit := by
    change front.length + (Span.placed 0 image.length).stop.toNat < _
    rw [Span.stop_placed (by omega), Nat.zero_add]
    exact bounded
  exact enforceRollback_shift here (Flash.mirrors_placed (by omega)) inside platform engine
    verifier table state storage

/-- The smallest image, which is accepted after 64 zeros, is accepted alone. -/
theorem smallest_relocated :
    ∃ image, (Blueprint.validateSmallest image).1.result = .ok () ∧
      ((Context.new ⟨⟨0, 4096⟩, 64, 0, none⟩).validate (Flash.ofBytes image)
        ⟨some true, none, fun _ => none⟩ Sha2.engine Blueprint.zeroVerifier
        (RegionTable.empty 1) none).1.result = .ok () := by
  obtain ⟨image, descriptor, region, length, accepted, -⟩ := Blueprint.validateSmallest_recorded
  have nonempty : image ≠ [] := by
    rintro rfl
    cases length
  have short : (zeroBytes 64 ++ (image ++ [])).length < Offset.limit := by
    rw [List.length_append, List.length_append, length]
    decide
  obtain ⟨result, -⟩ := @validate_relocated _ 1 (.new ⟨⟨0, 4096⟩, 64, 0, none⟩) (zeroBytes 64) image
    [] nonempty short (by decide) (by decide) ⟨some true, none, fun _ => none⟩ Sha2.engine
    Blueprint.zeroVerifier (.empty 1) none
  rw [length] at result
  exact ⟨image, accepted, result.symm.trans accepted⟩

end Context

end SignedFirmware
