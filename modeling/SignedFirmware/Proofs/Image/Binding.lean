import SignedFirmware.Proofs.Completeness
import SignedFirmware.Proofs.Image.Mirroring
import SignedFirmware.Proofs.Safety

namespace SignedFirmware

/-- Two messages are different and have the same digest. -/
def Digests.Collision (hash : Digests) (algorithm : Algorithm) (left right : Bytes) : Prop :=
  left ≠ right ∧ hash algorithm left = hash algorithm right

namespace Descriptor

variable {σ : Type} {capacity : Nat}

/-- The table of the caller is empty after a failure. -/
def checkRegions (flash : Flash) (descriptor : Descriptor) (span : Span) (engine : HashEngine σ)
    (table : RegionTable capacity) (state : σ) : Except Halt Unit × RegionTable capacity :=
  match descriptor.validateRegions flash span engine capacity state with
  | .ok regions _ => (.ok (), regions)
  | .error halt _ => (.error halt, table.clear)

/-- The byte at an offset is static and outside the descriptor's area. -/
def Binds (descriptor : Descriptor) (start offset : Nat) : Prop :=
  descriptor.area.contains offset = false ∧
    ∃ region ∈ descriptor.regions, region.isStatic = true ∧
      start + region.offset.toNat ≤ offset ∧
        offset < start + region.offset.toNat + region.size.toNat

section OneRun

variable {flash : Flash} {descriptor : Descriptor} {span : Span} {after : σ}
  {expected digest : Vector UInt8 descriptor.algorithm.length} {extents : List Extent}
  (engine : HashEngine σ) (table : RegionTable capacity) (state : σ)

theorem checkRegions_of_failed {halt : Halt}
    (failed : descriptor.checkTable flash span capacity = .error halt) :
    descriptor.checkRegions flash span engine table state = (.error halt, .empty capacity) := by
  simp only [checkRegions, validateRegions, bind, EStateM.bind, Checked.run, failed]
  rfl

/-- If the engine refuses its digests, every table that passes is a failure. -/
theorem checkRegions_of_refuses
    (checked : descriptor.checkTable flash span capacity = .ok (expected, extents))
    (refuses : ∀ (pieces : List Bytes) (before : σ), ∃ error after,
      engine.digest descriptor.algorithm pieces before = .error error after) :
    descriptor.checkRegions flash span engine table state =
      (.error (.rejected .runtimeFailure), .empty capacity) := by
  obtain ⟨error, after, refused⟩ := Flash.digest_refused flash refuses extents state
  simp only [checkRegions, validateRegions, bind, EStateM.bind, Checked.run, checked,
    EStateM.adaptExcept, refused]
  rfl

/-- Once the digest is computed it decides. -/
theorem checkRegions_of_digested (room : descriptor.regions.length ≤ capacity)
    (checked : descriptor.checkTable flash span capacity = .ok (expected, extents))
    (digested : flash.digest engine descriptor.algorithm extents state = .ok digest after) :
    descriptor.checkRegions flash span engine table state =
      if digest = expected then (.ok (), ⟨descriptor.regions, room⟩)
      else (.error (.rejected .invalidHash), .empty capacity) := by
  have tabled : descriptor.regionTable? capacity = some ⟨descriptor.regions, room⟩ := dif_pos room
  simp only [checkRegions, validateRegions, bind, EStateM.bind, Checked.run, checked,
    EStateM.adaptExcept, digested, ensure, require, tabled]
  by_cases same : digest = expected
  · rw [if_pos same, if_pos same]
  · rw [if_neg same, if_neg same]
    rfl

end OneRun

section Bound

variable {descriptor : Descriptor} {span : Span}

theorem binds_add (own : span.start.toNat + descriptor.ownOffset.toNat = descriptor.offset)
    {place : Nat} : descriptor.Binds span.start.toNat (span.start.toNat + place) ↔
      place ∈ descriptor.coveredOffsets := by
  have outside : descriptor.area.contains (span.start.toNat + place) =
      descriptor.ownExtent.contains place := by
    rw [Bool.eq_iff_iff, Extent.contains_eq_true, Extent.contains_eq_true]
    simp only [area, ownExtent]
    omega
  rw [Binds, mem_coveredOffsets, outside]
  simp only [Nat.add_assoc, Nat.add_le_add_iff_left, Nat.add_lt_add_iff_left]

/-- Covered bytes are equal exactly if the memories agree on the bytes to bind. -/
theorem coveredBytes_eq_iff
    (own : span.start.toNat + descriptor.ownOffset.toNat = descriptor.offset)
    {left right : Memory} :
    descriptor.coveredBytes left span.start.toNat =
        descriptor.coveredBytes right span.start.toNat ↔
      ∀ offset, descriptor.Binds span.start.toNat offset → left offset = right offset := by
  rw [coveredBytes_inj]
  constructor
  · intro agree offset binds
    have low : span.start.toNat ≤ offset := by
      obtain ⟨-, region, -, -, low, -⟩ := binds
      omega
    obtain ⟨place, rfl⟩ := Nat.exists_eq_add_of_le low
    exact agree place ((binds_add own).1 binds)
  · intro agree place member
    exact agree _ ((binds_add own).2 member)

end Bound

section TwoRuns

variable {source flash other : Flash} {memory otherMemory : Memory} {position : Nat}
  {bounds span : Span} {platform : Platform} {descriptor : Descriptor}

/-- The hash struct lies in the descriptor's area. -/
theorem Parsed.hash_within (parsed : descriptor.Parsed source position bounds platform) :
    descriptor.layout.hash.Within descriptor.area := by
  obtain ⟨low, -, high⟩ := parsed.hash
  have total := parsed.total
  have offset := parsed.offset
  rw [Extent.Within, Descriptor.area]
  dsimp only
  omega

/-- The descriptor's area lies in the span if the regions partition the image. -/
theorem Partitioned.area_inside (partitioned : descriptor.Partitioned span)
    (own : span.start.toNat + descriptor.ownOffset.toNat = descriptor.offset) :
    span.start.toNat ≤ descriptor.area.offset ∧
      descriptor.area.offset + descriptor.area.length ≤ span.stop.toNat := by
  obtain ⟨owner, found, -, holds⟩ := partitioned.owner
  have within := partitioned.inside owner (owner_spec found).1
  simp only [area]
  omega

/-- The hash struct is read only once the table partitions the image. -/
theorem checkTable_congr (parsed : descriptor.Parsed source position bounds platform)
    (own : span.start.toNat + descriptor.ownOffset.toNat = descriptor.offset)
    (holds : flash.Holds memory) (answers : flash.Answers span)
    (otherHolds : other.Holds otherMemory) (otherAnswers : other.Answers span)
    (struct : ∀ offset, descriptor.layout.hash.contains offset = true →
      otherMemory offset = memory offset) :
    descriptor.checkTable other span capacity = descriptor.checkTable flash span capacity := by
  have digest (partitioned : descriptor.Partitioned span) :
      (descriptor.moved 0).expectedDigest other = descriptor.expectedDigest flash := by
    have limit := span.stop.toNat_lt
    obtain ⟨low, high⟩ := partitioned.area_inside own
    obtain ⟨first, last⟩ := parsed.hash_within
    have agrees : other.Agrees flash descriptor.layout.hash := by
      apply otherHolds.agrees holds otherAnswers.read answers.read
      · omega
      · omega
      · intro offset above below
        exact struct offset (Extent.contains_eq_true.2 ⟨above, below⟩)
    exact expectedDigest_shift agrees.mirrors parsed.hash.2.1 (by rw [Offset.limit]; omega)
  have still : span.Shifted span 0 := ⟨(Nat.zero_add _).symm, (Nat.zero_add _).symm⟩
  have same := checkTable_shift still own digest capacity
  rw [Extent.shift_zero, List.map_id_fun, Prod.map_id, id_map] at same
  -- The digest has the length of the descriptor's own algorithm, so the results differ in type.
  have unmoved : HEq (descriptor.checkTable other span capacity)
      ((descriptor.moved 0).checkTable other span capacity) := by rw [moved_zero]
  exact eq_of_heq (unmoved.trans (heq_of_eq same))

variable {engine : HashEngine σ} {hash : Digests}

/-- If the engine completes its digests, that of the covered bytes decides. -/
theorem checkRegions_of_completes
    (own : span.start.toNat + descriptor.ownOffset.toNat = descriptor.offset)
    (holds : flash.Holds memory) (answers : flash.Answers span) (computes : engine.Computes hash)
    (completes : ∀ (pieces : List Bytes) (before : σ), ∃ digest after,
      engine.digest descriptor.algorithm pieces before = .ok digest after)
    {expected : Vector UInt8 descriptor.algorithm.length} {extents : List Extent}
    (checked : descriptor.checkTable flash span capacity = .ok (expected, extents))
    (room : descriptor.regions.length ≤ capacity) (table : RegionTable capacity) (state : σ) :
    descriptor.checkRegions flash span engine table state =
      if hash descriptor.algorithm (descriptor.coveredBytes memory span.start.toNat) = expected then
        (.ok (), ⟨descriptor.regions, room⟩)
      else (.error (.rejected .invalidHash), .empty capacity) := by
  obtain ⟨-, partitioned, -, rfl⟩ := (checkTable_eq_ok own).1 checked
  have clean : ∀ extent ∈ descriptor.digestRanges span.start.toNat,
      (flash.feed extent).error = none := by
    intro extent member
    obtain ⟨low, high⟩ := partitioned.digestRanges_inside own member
    exact answers.feed low high
  obtain ⟨digest, after, digested⟩ := completes
    (flash.pieces (descriptor.digestRanges span.start.toNat)) state
  have fed := Flash.digest_eq_ok.2 ⟨digested, clean⟩
  have value := holds.digest computes fed
  rw [partitioned.bytes_digestRanges own] at value
  rw [checkRegions_of_digested engine table state room checked fed, value]

/-- The check binds the static bytes outside the area, and nothing but them. -/
theorem checkRegions_binds (read : parse source position bounds platform = .ok descriptor)
    (start : bounds.start = span.start) (holds : flash.Holds memory)
    (answers : flash.Answers span) (otherHolds : other.Holds otherMemory)
    (otherAnswers : other.Answers span) (computes : engine.Computes hash)
    (steady : engine.Steady descriptor.algorithm)
    (struct : ∀ offset, descriptor.layout.hash.contains offset = true →
      otherMemory offset = memory offset)
    (table otherTable : RegionTable capacity) (state otherState : σ) :
    let outcome := descriptor.checkRegions flash span engine table state
    let otherOutcome := descriptor.checkRegions other span engine otherTable otherState
    ((∀ offset, descriptor.Binds span.start.toNat offset →
        otherMemory offset = memory offset) → otherOutcome = outcome) ∧
    (outcome.1 = .ok () → (∃ offset, descriptor.Binds span.start.toNat offset ∧
        otherMemory offset ≠ memory offset) →
      otherOutcome = (.error (.rejected .invalidHash), .empty capacity) ∨
        hash.Collision descriptor.algorithm
          (descriptor.coveredBytes memory span.start.toNat)
          (descriptor.coveredBytes otherMemory span.start.toNat)) := by
  intro outcome otherOutcome
  have parsed := parse_eq_ok.1 read
  have own : span.start.toNat + descriptor.ownOffset.toNat = descriptor.offset := by
    rw [← start, parsed.ownOffset, parsed.offset]
  have tables : descriptor.checkTable other span capacity =
      descriptor.checkTable flash span capacity :=
    checkTable_congr parsed own holds answers otherHolds otherAnswers struct
  cases checked : descriptor.checkTable flash span capacity with
  | error halt =>
      have failed : outcome = (.error halt, .empty capacity) :=
        checkRegions_of_failed engine table state checked
      have otherFailed : otherOutcome = (.error halt, .empty capacity) :=
        checkRegions_of_failed engine otherTable otherState (tables.trans checked)
      refine ⟨fun _ => otherFailed.trans failed.symm, fun accepted => ?_⟩
      rw [failed] at accepted
      cases accepted
  | ok value =>
      -- Both tables pass with the same expected digest, so only the computed digests can differ.
      obtain ⟨expected, extents⟩ := value
      rcases steady with completes | refuses
      · have room := ((checkTable_eq_ok own).1 checked).1
        have decided : outcome = _ :=
          checkRegions_of_completes own holds answers computes completes checked room table state
        have otherDecided : otherOutcome = _ :=
          checkRegions_of_completes own otherHolds otherAnswers computes completes
            (tables.trans checked) room otherTable otherState
        constructor
        · intro agree
          rw [(coveredBytes_eq_iff own).2 agree] at otherDecided
          exact otherDecided.trans decided.symm
        · rintro accepted ⟨offset, binds, differs⟩
          have passed : hash descriptor.algorithm
              (descriptor.coveredBytes memory span.start.toNat) = expected := by
            apply Classical.byContradiction
            intro failed
            rw [decided, if_neg failed] at accepted
            cases accepted
          by_cases same : hash descriptor.algorithm
              (descriptor.coveredBytes otherMemory span.start.toNat) = expected
          · right
            refine ⟨fun equal => ?_, passed.trans same.symm⟩
            exact differs ((coveredBytes_eq_iff own).1 equal offset binds).symm
          · left
            exact otherDecided.trans (if_neg same)
      · have failed : outcome = (.error (.rejected .runtimeFailure), .empty capacity) :=
          checkRegions_of_refuses engine table state checked refuses
        have otherFailed : otherOutcome = (.error (.rejected .runtimeFailure), .empty capacity) :=
          checkRegions_of_refuses engine otherTable otherState (tables.trans checked) refuses
        refine ⟨fun _ => otherFailed.trans failed.symm, fun accepted => ?_⟩
        rw [failed] at accepted
        cases accepted

/-- Without a collision no byte behind the smallest descriptor can be altered. -/
theorem smallest_binds :
    ∃ (image : Bytes) (descriptor : Descriptor) (state : Option Sha2.Session),
      let whole := zeroBytes 64 ++ (image ++ [])
      let altered := splice whole 4000 [Memory.ofBytes whole 4000 + 1]
      (descriptor.checkRegions (Flash.ofBytes whole) ⟨64, 4160⟩ Sha2.engine
        (RegionTable.empty 1) state).1 = .ok () ∧
      (descriptor.checkRegions (Flash.ofBytes altered) ⟨64, 4160⟩ Sha2.engine
          (RegionTable.empty 1) state = (.error (.rejected .invalidHash), .empty 1) ∨
        Digests.Collision Sha2.digest descriptor.algorithm
          (descriptor.coveredBytes (Memory.ofBytes whole) 64)
          (descriptor.coveredBytes (Memory.ofBytes altered) 64)) := by
  obtain ⟨image, descriptor, region, length, accepted, recorded, area, regions, static, extent⟩ :=
    Blueprint.validateSmallest_recorded
  obtain ⟨position, before, found, key, table, after, -, passed, concluded⟩ :=
    Context.validate_eq_ok accepted
  have same : descriptor = found := by
    rw [Blueprint.validateSmallest, concluded] at recorded
    exact (Option.some.inj recorded).symm
  subst same
  obtain ⟨parsed, -, between, -, validated⟩ := Settings.validateCandidate_eq_ok.1 passed
  refine ⟨image, descriptor, between, ?_⟩
  intro whole altered
  have total : whole.length = 4160 := by
    rw [List.length_append, List.length_append, length]
    rfl
  have room : 4000 + [Memory.ofBytes whole 4000 + 1].length ≤ whole.length := by
    rw [total, List.length_singleton]
    decide
  have inside : (⟨64, 4160⟩ : Span).stop.toNat ≤ whole.length := Nat.le_of_eq total.symm
  have alteredInside : (⟨64, 4160⟩ : Span).stop.toNat ≤ altered.length := by
    rw [length_splice room]
    exact inside
  have outcome : (descriptor.checkRegions (Flash.ofBytes whole) ⟨64, 4160⟩ Sha2.engine
      (RegionTable.empty 1) between).1 = .ok () := by
    have result : descriptor.validateRegions (Flash.ofBytes whole) ⟨64, 4160⟩ Sha2.engine 1
      between = .ok table after := validated
    rw [checkRegions, result]
  have struct : ∀ offset, descriptor.layout.hash.contains offset = true →
      Memory.ofBytes altered offset = Memory.ofBytes whole offset := by
    intro offset member
    have within := parsed.hash_within
    rw [area, Extent.Within] at within
    rw [Extent.contains_eq_true] at member
    dsimp only at within
    rw [Memory.ofBytes_splice room, if_neg (by omega)]
  have steady : Sha2.engine.Steady descriptor.algorithm :=
    .inl fun pieces before => ⟨_, _, Sha2.engine_digest _ pieces before⟩
  have binds : descriptor.Binds 64 4000 := by
    have place := congrArg Extent.offset extent
    have size := congrArg Extent.length extent
    simp only [Region.extent] at place size
    refine ⟨by rw [area]; rfl, region, by rw [regions]; exact List.mem_singleton_self region,
      static, by omega, by omega⟩
  have differs : Memory.ofBytes altered 4000 ≠ Memory.ofBytes whole 4000 := by
    rw [Memory.ofBytes_splice room, if_pos (by simp)]
    intro same
    have value := congrArg UInt8.toNat same
    have bound := (Memory.ofBytes whole 4000).toNat_lt
    change ((Memory.ofBytes whole 4000) + 1).toNat = _ at value
    rw [UInt8.toNat_add] at value
    change ((Memory.ofBytes whole 4000).toNat + 1) % 256 = _ at value
    omega
  refine ⟨outcome, ?_⟩
  obtain ⟨-, tampered⟩ := checkRegions_binds (parse_eq_ok.2 parsed) rfl (Flash.holds_ofBytes whole)
    (Flash.answers_ofBytes inside) (Flash.holds_ofBytes altered)
    (Flash.answers_ofBytes alteredInside) Sha2.engine_computes steady struct (.empty 1) (.empty 1)
    between between
  exact tampered outcome ⟨4000, binds, differs⟩

end TwoRuns

end Descriptor

end SignedFirmware
