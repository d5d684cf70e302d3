import Mathlib.Algebra.GroupWithZero.Nat
import SignedFirmware.Proofs.Acceptance
import SignedFirmware.Proofs.Image.Binding

namespace SignedFirmware

/-- Of ranges that lie back to back only one contains an offset. -/
theorem Extent.Tile.find?_eq_some {start stop offset : Nat} {regions : List Region}
    (tile : Tile start (regions.map Region.extent) stop) {region : Region}
    (member : region ∈ regions) (contains : region.extent.contains offset = true) :
    regions.find? (fun other => other.extent.contains offset) = some region := by
  induction regions generalizing start with
  | nil => cases member
  | cons head rest ih =>
      obtain ⟨first, follows⟩ := tile
      rcases List.mem_cons.1 member with rfl | later
      · exact List.find?_cons_of_pos contains
      · have after := follows.bounds (List.mem_map_of_mem later)
        have inside := Extent.contains_eq_true.1 contains
        have outside : head.extent.contains offset = false := by
          rw [← Bool.not_eq_true, Extent.contains_eq_true]
          omega
        rw [List.find?_cons, outside]
        exact ih follows later

namespace Descriptor

variable {descriptor : Descriptor} {span : Span} {index : Nat}

/-- The sum of the sizes of the regions before an index of the table. -/
def sizeBefore (descriptor : Descriptor) (index : Nat) : Nat :=
  ((descriptor.regions.take index).map fun region => region.size.toNat).sum

theorem sizeBefore_succ (place : Fin descriptor.regions.length) :
    descriptor.sizeBefore (place + 1) =
      descriptor.sizeBefore place + (descriptor.regions.get place).size.toNat := by
  rw [sizeBefore, List.take_add_one, List.getElem?_eq_getElem place.isLt, List.map_append,
    List.sum_append]
  simp [sizeBefore]

theorem sizeBefore_le {later : Nat} (ordered : index ≤ later) :
    descriptor.sizeBefore index ≤ descriptor.sizeBefore later := by
  induction ordered with
  | refl => exact Nat.le_refl _
  | step _ ih =>
      apply Nat.le_trans ih
      rw [sizeBefore, sizeBefore, List.take_add_one, List.map_append, List.sum_append]
      exact Nat.le_add_right _ _

/-- A region of whole sectors starts where the ones before it end. -/
structure Seated (descriptor : Descriptor) (place : Fin descriptor.regions.length) : Prop where
  contiguous : (descriptor.regions.get place).offset.toNat = descriptor.sizeBefore place
  sectors : InSectors (descriptor.regions.get place)
  room : descriptor.sizeBefore place + (descriptor.regions.get place).size.toNat ≤
    descriptor.imageSize.toNat

/-- A region ends within the span. -/
def Reaches (descriptor : Descriptor) (span : Span) (place : Fin descriptor.regions.length) :
    Prop :=
  span.start.toNat + (descriptor.regions.get place).offset.toNat +
    (descriptor.regions.get place).size.toNat ≤ span.stop.toNat

/-- A region of the table is in its place. -/
def InPlace (descriptor : Descriptor) (span : Span) (place : Fin descriptor.regions.length) :
    Prop :=
  descriptor.Seated place ∧ descriptor.Reaches span place

/-- The descriptor starts in a region of the table. -/
def Owns (descriptor : Descriptor) (owner : Region) : Prop :=
  owner ∈ descriptor.regions ∧ owner.extent.contains descriptor.ownOffset.toNat = true

/-- The region of the descriptor is static and holds all of its area. -/
structure Houses (descriptor : Descriptor) (owner : Region) : Prop where
  owns : descriptor.Owns owner
  static : owner.isStatic = true
  area : descriptor.ownOffset.toNat + descriptor.areaSize.toNat ≤
    owner.offset.toNat + owner.size.toNat

/-- The hash struct of a descriptor starts with its word. -/
def Marked (descriptor : Descriptor) (memory : Memory) : Prop :=
  littleEndianValue (memory.bytes ⟨descriptor.layout.hash.offset, 4⟩) = magics.hash.toNat

/-- The digest is that of the static bytes outside the descriptor's area. -/
def Sound (descriptor : Descriptor) (hash : Digests) (memory : Memory) (start : Nat) : Prop :=
  descriptor.standingDigest memory =
    (hash descriptor.algorithm (descriptor.coveredBytes memory start)).toList

/-- The regions are well-formed and the digest is theirs. -/
structure WellFormed (descriptor : Descriptor) (span : Span) (capacity : Nat) (hash : Digests)
    (memory : Memory) : Prop where
  few : descriptor.regions.length ≤ capacity
  contiguous : ∀ place : Fin descriptor.regions.length,
    (descriptor.regions.get place).offset.toNat = descriptor.sizeBefore place
  sectors : ∀ region ∈ descriptor.regions, InSectors region
  total : descriptor.sizeBefore descriptor.regions.length = descriptor.imageSize.toNat
  inside : span.start.toNat + descriptor.imageSize.toNat ≤ span.stop.toNat
  housed : ∃ owner, descriptor.Houses owner
  marked : descriptor.Marked memory
  sound : descriptor.Sound hash memory span.start.toNat

/-- The regions have room, are all in their places and fill the image. -/
structure Filled (descriptor : Descriptor) (span : Span) (capacity : Nat) : Prop where
  few : descriptor.regions.length ≤ capacity
  inPlace : ∀ place, descriptor.InPlace span place
  total : descriptor.sizeBefore descriptor.regions.length = descriptor.imageSize.toNat

/-- A fault of a table counts only if there is none before it. -/
inductive Fault (descriptor : Descriptor) (span : Span) (capacity : Nat) (hash : Digests)
    (memory : Memory) : Reason → Prop where
  | overfull (crowded : capacity < descriptor.regions.length) :
      Fault descriptor span capacity hash memory .invalidRegionSize
  | misplaced {place : Fin descriptor.regions.length}
      (few : descriptor.regions.length ≤ capacity)
      (before : ∀ earlier < place, descriptor.InPlace span earlier)
      (broken : ¬ descriptor.Seated place) :
      Fault descriptor span capacity hash memory .invalidDescriptor
  | outside {place : Fin descriptor.regions.length}
      (few : descriptor.regions.length ≤ capacity)
      (before : ∀ earlier < place, descriptor.InPlace span earlier)
      (seated : descriptor.Seated place) (beyond : ¬ descriptor.Reaches span place) :
      Fault descriptor span capacity hash memory .invalidRegionInput
  | unfilled (few : descriptor.regions.length ≤ capacity)
      (inPlace : ∀ place, descriptor.InPlace span place)
      (short : descriptor.sizeBefore descriptor.regions.length ≠ descriptor.imageSize.toNat) :
      Fault descriptor span capacity hash memory .invalidDescriptor
  | unowned (filled : descriptor.Filled span capacity)
      (nobody : ∀ region, ¬ descriptor.Owns region) :
      Fault descriptor span capacity hash memory .invalidDescriptor
  | dynamic {owner : Region} (filled : descriptor.Filled span capacity)
      (owns : descriptor.Owns owner) (changing : owner.isStatic = false) :
      Fault descriptor span capacity hash memory .invalidDescriptor
  | straddled {owner : Region} (filled : descriptor.Filled span capacity)
      (owns : descriptor.Owns owner)
      (beyond : owner.offset.toNat + owner.size.toNat <
        descriptor.ownOffset.toNat + descriptor.areaSize.toNat) :
      Fault descriptor span capacity hash memory .invalidDescriptor
  | unmarked {owner : Region} (filled : descriptor.Filled span capacity)
      (houses : descriptor.Houses owner) (unmarked : ¬ descriptor.Marked memory) :
      Fault descriptor span capacity hash memory .invalidDescriptor
  | altered {owner : Region} (filled : descriptor.Filled span capacity)
      (houses : descriptor.Houses owner) (marked : descriptor.Marked memory)
      (unsound : ¬ descriptor.Sound hash memory span.start.toNat) :
      Fault descriptor span capacity hash memory .invalidHash

section Walk

/-- The walk goes on after a region that is in its place. -/
theorem checkPartition_cons {imageSize total : Nat} (bounded : imageSize < Offset.limit)
    (inside : total ≤ imageSize) (span : Span) (region : Region) (rest : List Region) :
    checkPartition imageSize span total (region :: rest) =
      if region.offset.toNat = total ∧
          (region.offset.toNat % sectorSize = 0 ∧ region.size.toNat % sectorSize = 0) ∧
          total + region.size.toNat ≤ imageSize then
        if span.start.toNat + region.offset.toNat + region.size.toNat ≤ span.stop.toNat then
          checkPartition imageSize span (total + region.size.toNat) rest
        else reject .invalidRegionInput
      else reject .invalidDescriptor := by
  rw [checkPartition]
  by_cases contiguous : region.offset.toNat = total
  · by_cases sectors : region.offset.toNat % sectorSize = 0 ∧ region.size.toNat % sectorSize = 0
    · rw [ensure_bind contiguous, ensure_bind sectors, Offset.sub_bind inside]
      by_cases room : total + region.size.toNat ≤ imageSize
      · rw [ensure_bind (by omega), if_pos ⟨contiguous, sectors, room⟩]
        by_cases reaches : span.start.toNat + region.offset.toNat + region.size.toNat ≤
            span.stop.toNat
        · rw [ensure_bind reaches, if_pos reaches, Offset.add_bind (by omega)]
        · rw [ensure_bind_of_not reaches, if_neg reaches]
      · rw [ensure_bind_of_not (by omega), if_neg fun all => room all.2.2]
    · rw [ensure_bind contiguous, ensure_bind_of_not sectors, if_neg fun all => sectors all.2.1]
  · rw [ensure_bind_of_not contiguous, if_neg fun all => contiguous all.1]

/-- The walk passes the regions that are in their places. -/
theorem checkPartition_drop (few : index ≤ descriptor.regions.length)
    (before : ∀ earlier : Fin descriptor.regions.length, earlier < index →
      descriptor.InPlace span earlier) :
    descriptor.sizeBefore index ≤ descriptor.imageSize.toNat ∧
      checkPartition descriptor.imageSize.toNat span 0 descriptor.regions =
        checkPartition descriptor.imageSize.toNat span (descriptor.sizeBefore index)
          (descriptor.regions.drop index) := by
  induction index with
  | zero => exact ⟨Nat.zero_le _, rfl⟩
  | succ index ih =>
      obtain ⟨inside, walked⟩ := ih (by omega) fun earlier less => before earlier (by omega)
      let place : Fin descriptor.regions.length := ⟨index, few⟩
      obtain ⟨seated, reaches⟩ := before place (Nat.lt_succ_self index)
      have next := sizeBefore_succ place
      refine ⟨next ▸ seated.room, ?_⟩
      rw [walked, List.drop_eq_getElem_cons few,
        checkPartition_cons descriptor.imageSize.toNat_lt inside,
        if_pos ⟨seated.contiguous, seated.sectors, seated.room⟩, if_pos (by exact reaches)]
      exact congrArg (checkPartition _ span · _) next.symm

/-- The walk stops at the first region that is out of place. -/
theorem checkPartition_of_first {place : Fin descriptor.regions.length}
    (before : ∀ earlier < place, descriptor.InPlace span earlier) :
    (¬ descriptor.Seated place →
      checkPartition descriptor.imageSize.toNat span 0 descriptor.regions =
        reject .invalidDescriptor) ∧
    (descriptor.Seated place → ¬ descriptor.Reaches span place →
      checkPartition descriptor.imageSize.toNat span 0 descriptor.regions =
        reject .invalidRegionInput) := by
  obtain ⟨inside, walked⟩ := checkPartition_drop (Nat.le_of_lt place.isLt) before
  rw [List.drop_eq_getElem_cons place.isLt,
    checkPartition_cons descriptor.imageSize.toNat_lt inside] at walked
  constructor
  · intro broken
    rw [walked, if_neg fun all => broken ⟨all.1, all.2.1, all.2.2⟩]
  · intro seated beyond
    rw [walked, if_pos ⟨seated.contiguous, seated.sectors, seated.room⟩,
      if_neg (by exact beyond)]

/-- The walk passes the table if all regions are in their places. -/
theorem checkPartition_of_inPlace (inPlace : ∀ place, descriptor.InPlace span place) :
    checkPartition descriptor.imageSize.toNat span 0 descriptor.regions =
      .ok (descriptor.sizeBefore descriptor.regions.length) := by
  obtain ⟨-, walked⟩ := checkPartition_drop (Nat.le_refl _) fun earlier _ => inPlace earlier
  rw [walked, List.drop_length]
  rfl

/-- Either all regions are in their places, or a first one is not. -/
theorem inPlace_or_first (descriptor : Descriptor) (span : Span) :
    (∀ place, descriptor.InPlace span place) ∨
      ∃ place, (∀ earlier < place, descriptor.InPlace span earlier) ∧
        ¬ descriptor.InPlace span place := by
  by_cases all : ∀ place, descriptor.InPlace span place
  · exact .inl all
  · right
    obtain ⟨place, broken⟩ := not_forall.1 all
    clear all
    -- Below a region that is out of place there is another one, unless it is the first.
    induction index : place.val using Nat.strongRecOn generalizing place with
    | ind index ih =>
        subst index
        by_cases first : ∀ earlier < place, descriptor.InPlace span earlier
        · exact ⟨place, first, broken⟩
        · obtain ⟨earlier, left⟩ := not_forall.1 first
          obtain ⟨less, out⟩ := Classical.not_imp.1 left
          exact ih earlier less earlier out rfl

end Walk

section Owners

variable {capacity : Nat}

/-- The regions of a filled table lie back to back. -/
theorem Filled.tile (filled : descriptor.Filled span capacity) :
    Extent.Tile 0 (descriptor.regions.map Region.extent) descriptor.imageSize.toNat := by
  have walked := checkPartition_of_inPlace filled.inPlace
  rw [filled.total] at walked
  exact ((checkPartition_eq_ok descriptor.imageSize.toNat_lt (Nat.zero_le _)).1 walked).1

theorem Filled.owner? (filled : descriptor.Filled span capacity) {owner : Region}
    (owns : descriptor.Owns owner) : descriptor.owner? = some owner :=
  filled.tile.find?_eq_some owns.1 owns.2

/-- A filled table whose descriptor is housed partitions the image. -/
theorem Filled.partitioned (filled : descriptor.Filled span capacity) {owner : Region}
    (houses : descriptor.Houses owner) : descriptor.Partitioned span where
  tile := filled.tile
  sectors region member := by
    obtain ⟨place, rfl⟩ := List.get_of_mem member
    exact (filled.inPlace place).1.sectors
  inside region member := by
    obtain ⟨place, rfl⟩ := List.get_of_mem member
    exact (filled.inPlace place).2
  owner := ⟨owner, filled.owner? houses.owns, houses.static, houses.area⟩

/-- An owner that is missing, may change or is too short is refused. -/
theorem Filled.checkOwner_eq_reject (filled : descriptor.Filled span capacity)
    (unhoused : ∀ owner, ¬ descriptor.Houses owner) :
    descriptor.checkOwner = reject .invalidDescriptor := by
  rw [checkOwner]
  cases found : descriptor.owner? with
  | none => rfl
  | some owner =>
      obtain ⟨member, low, high⟩ := Partitioned.owner_spec found
      have owns : descriptor.Owns owner := ⟨member, Extent.contains_eq_true.2 ⟨low, high⟩⟩
      have bounds := filled.tile.bounds (List.mem_map_of_mem (f := Region.extent) member)
      have limit := descriptor.imageSize.toNat_lt
      have ownerStop : owner.extent.stop? = some (owner.offset.toNat + owner.size.toNat) :=
        Offset.add?_eq_some.2 ⟨Nat.lt_of_le_of_lt bounds.2 limit, rfl⟩
      change (ensure (owner.isStatic = true) .invalidDescriptor >>= _) = _
      by_cases static : owner.isStatic = true
      · rw [ensure_bind static, ownerStop]
        dsimp only
        cases areaStop : Extent.stop?
            ⟨descriptor.ownOffset.toNat, descriptor.areaSize.toNat⟩ with
        | none => rfl
        | some stop =>
            obtain ⟨-, rfl⟩ := Offset.add?_eq_some.1 areaStop
            exact if_neg fun area => unhoused owner ⟨owns, static, area⟩
      · exact ensure_bind_of_not static

/-- The regions of a filled table and the image end within the span. -/
theorem Filled.inside (filled : descriptor.Filled span capacity)
    (someRegions : 0 < descriptor.regions.length) :
    span.start.toNat + descriptor.imageSize.toNat ≤ span.stop.toNat := by
  obtain ⟨last, length⟩ := Nat.exists_eq_add_of_lt someRegions
  let place : Fin descriptor.regions.length := ⟨last, by omega⟩
  obtain ⟨seated, reaches⟩ := filled.inPlace place
  have total := filled.total
  have whole := sizeBefore_succ place
  have stop : (place : Nat) + 1 = descriptor.regions.length := by
    change last + 1 = _
    omega
  rw [stop, total, ← seated.contiguous] at whole
  rw [Reaches] at reaches
  omega

/-- The walk through a well-formed table comes to its end. -/
theorem WellFormed.filled {hash : Digests} {memory : Memory}
    (wellFormed : descriptor.WellFormed span capacity hash memory) :
    descriptor.Filled span capacity where
  few := wellFormed.few
  total := wellFormed.total
  inPlace place := by
    have contiguous := wellFormed.contiguous place
    have inside := wellFormed.inside
    have next := sizeBefore_succ place
    have room := descriptor.sizeBefore_le (Nat.succ_le_of_lt place.isLt)
    rw [wellFormed.total, Nat.succ_eq_add_one, next] at room
    refine ⟨⟨contiguous, wellFormed.sectors _ (List.get_mem _ _), room⟩, ?_⟩
    rw [Reaches]
    omega

end Owners

section Checks

variable {source flash : Flash} {memory : Memory} {position capacity : Nat} {bounds : Span}
  {platform : Platform}

/-- The digest of a housed descriptor is read after its word. -/
theorem Partitioned.expectedDigest (partitioned : descriptor.Partitioned span)
    (parsed : descriptor.Parsed source position bounds platform)
    (own : span.start.toNat + descriptor.ownOffset.toNat = descriptor.offset)
    (holds : flash.Holds memory) (readable : flash.Readable span) :
    (¬ descriptor.Marked memory → descriptor.expectedDigest flash = reject .invalidDescriptor) ∧
    (descriptor.Marked memory → ∃ expected, descriptor.expectedDigest flash = .ok expected) := by
  have limit := span.stop.toNat_lt
  have headerLength : Layout.sectionHeaderLength = 8 := rfl
  obtain ⟨low, high⟩ := partitioned.area_inside own
  obtain ⟨first, last⟩ := parsed.hash_within
  have length := parsed.hash.2.1
  obtain ⟨head, answer⟩ := @readable descriptor.layout.hash.offset Layout.sectionHeaderLength
    (by omega) (by omega)
  obtain ⟨digest, digestAnswer⟩ := @readable
    (descriptor.layout.hash.offset + Layout.sectionHeaderLength) descriptor.algorithm.length
    (by omega) (by omega)
  have word : littleEndianValue (head.toList.take 4) =
      littleEndianValue (memory.bytes ⟨descriptor.layout.hash.offset, 4⟩) := by
    rw [holds.read answer, Memory.take_bytes memory (by decide)]
  constructor
  · intro unmarked
    rw [Descriptor.expectedDigest, ofFlash_bind answer,
      ensure_bind_of_not fun same => unmarked (word.symm.trans same)]
  · intro marked
    exact ⟨digest, expectedDigest_eq_ok.2 ⟨⟨head, answer, word.trans marked⟩,
      by rw [Offset.limit]; omega, digestAnswer⟩⟩

/-- A table is refused for its fault, unless only the digest is wrong. -/
theorem checkTable_of_fault {hash : Digests} {reason : Reason}
    (parsed : descriptor.Parsed source position bounds platform)
    (own : span.start.toNat + descriptor.ownOffset.toNat = descriptor.offset)
    (holds : flash.Holds memory) (readable : flash.Readable span)
    (fault : descriptor.Fault span capacity hash memory reason) (other : reason ≠ .invalidHash) :
    descriptor.checkTable flash span capacity = reject reason := by
  have unhoused (filled : descriptor.Filled span capacity)
      (nowhere : ∀ owner, ¬ descriptor.Houses owner) :
      descriptor.checkTable flash span capacity = reject .invalidDescriptor := by
    rw [checkTable, ensure_bind filled.few, checkPartition_of_inPlace filled.inPlace]
    change (ensure _ _ >>= _) = _
    rw [ensure_bind filled.total, filled.checkOwner_eq_reject nowhere]
    rfl
  cases fault with
  | overfull crowded => exact ensure_bind_of_not (Nat.not_le_of_lt crowded)
  | misplaced few before broken =>
      rw [checkTable, ensure_bind few, (checkPartition_of_first before).1 broken]
      rfl
  | outside few before seated beyond =>
      rw [checkTable, ensure_bind few, (checkPartition_of_first before).2 seated beyond]
      rfl
  | unfilled few inPlace short =>
      rw [checkTable, ensure_bind few, checkPartition_of_inPlace inPlace]
      exact ensure_bind_of_not short
  | unowned filled nobody =>
      exact unhoused filled fun owner houses => nobody owner houses.owns
  | @dynamic owner filled owns changing =>
      apply unhoused filled
      intro housing houses
      obtain rfl : housing = owner :=
        Option.some.inj ((filled.owner? houses.owns).symm.trans (filled.owner? owns))
      rw [houses.static] at changing
      cases changing
  | @straddled owner filled owns beyond =>
      apply unhoused filled
      intro housing houses
      obtain rfl : housing = owner :=
        Option.some.inj ((filled.owner? houses.owns).symm.trans (filled.owner? owns))
      exact Nat.not_le_of_lt beyond houses.area
  | unmarked filled houses unmarked =>
      have partitioned := filled.partitioned houses
      obtain ⟨-, owned⟩ := partitioned_iff.2 partitioned
      obtain ⟨refused, -⟩ := partitioned.expectedDigest parsed own holds readable
      rw [checkTable, ensure_bind filled.few, checkPartition_of_inPlace filled.inPlace]
      change (ensure _ _ >>= _) = _
      rw [ensure_bind filled.total, owned, refused unmarked]
      rfl
  | altered => exact absurd rfl other

end Checks

section Decision

variable {σ : Type} {source flash : Flash} {memory : Memory} {position capacity : Nat}
  {bounds : Span} {platform : Platform} {engine : HashEngine σ} {hash : Digests}

/-- Every table is well-formed or has a fault. -/
theorem wellFormed_or_fault (someRegions : 0 < descriptor.regions.length) (span : Span)
    (capacity : Nat) (hash : Digests) (memory : Memory) :
    descriptor.WellFormed span capacity hash memory ∨
      ∃ reason, descriptor.Fault span capacity hash memory reason := by
  by_cases few : descriptor.regions.length ≤ capacity
  · rcases inPlace_or_first descriptor span with inPlace | ⟨place, before, out⟩
    · by_cases total :
          descriptor.sizeBefore descriptor.regions.length = descriptor.imageSize.toNat
      · have filled : descriptor.Filled span capacity := ⟨few, inPlace, total⟩
        by_cases owned : ∃ owner, descriptor.Owns owner
        · obtain ⟨owner, owns⟩ := owned
          by_cases static : owner.isStatic = true
          · by_cases area : descriptor.ownOffset.toNat + descriptor.areaSize.toNat ≤
                owner.offset.toNat + owner.size.toNat
            · have houses : descriptor.Houses owner := ⟨owns, static, area⟩
              by_cases marked : descriptor.Marked memory
              · by_cases sound : descriptor.Sound hash memory span.start.toNat
                · have partitioned := filled.partitioned houses
                  exact .inl ⟨few, fun place => (inPlace place).1.contiguous,
                    partitioned.sectors, total, filled.inside someRegions, ⟨owner, houses⟩,
                    marked, sound⟩
                · exact .inr ⟨_, .altered filled houses marked sound⟩
              · exact .inr ⟨_, .unmarked filled houses marked⟩
            · exact .inr ⟨_, .straddled filled owns (Nat.lt_of_not_le area)⟩
          · exact .inr ⟨_, .dynamic filled owns (by simpa using static)⟩
        · exact .inr ⟨_, .unowned filled fun owner owns => owned ⟨owner, owns⟩⟩
      · exact .inr ⟨_, .unfilled few inPlace total⟩
    · by_cases seated : descriptor.Seated place
      · exact .inr ⟨_, .outside few before seated fun reaches => out ⟨seated, reaches⟩⟩
      · exact .inr ⟨_, .misplaced few before seated⟩
  · exact .inr ⟨_, .overfull (Nat.lt_of_not_le few)⟩

/-- After the walk and the owner, the digest decides. -/
theorem checkRegions_of_marked
    (parsed : descriptor.Parsed source position bounds platform)
    (own : span.start.toNat + descriptor.ownOffset.toNat = descriptor.offset)
    (holds : flash.Holds memory) (answers : flash.Answers span) (computes : engine.Computes hash)
    (offers : engine.Offers descriptor.algorithm) (filled : descriptor.Filled span capacity)
    {owner : Region} (houses : descriptor.Houses owner) (marked : descriptor.Marked memory)
    (table : RegionTable capacity) (state : σ) :
    (descriptor.Sound hash memory span.start.toNat →
      descriptor.checkRegions flash span engine table state =
        (.ok (), ⟨descriptor.regions, filled.few⟩)) ∧
    (¬ descriptor.Sound hash memory span.start.toNat →
      descriptor.checkRegions flash span engine table state =
        (.error (.rejected .invalidHash), .empty capacity)) := by
  have partitioned := filled.partitioned houses
  obtain ⟨-, reads⟩ := partitioned.expectedDigest parsed own holds answers.read
  obtain ⟨expected, stored⟩ := reads marked
  obtain ⟨-, standing⟩ := digest_standing holds stored
  have checked := (checkTable_eq_ok own).2 ⟨filled.few, partitioned, stored, rfl⟩
  have decided := checkRegions_of_completes own holds answers computes offers checked filled.few
    table state
  constructor
  · intro sound
    rw [Sound, ← standing] at sound
    rw [decided, if_pos (Vector.toList_inj.1 sound).symm]
  · intro unsound
    rw [Sound, ← standing] at unsound
    rw [decided, if_neg fun same => unsound (congrArg Vector.toList same).symm]

theorem checkRegions_of_wellFormed
    (parsed : descriptor.Parsed source position bounds platform)
    (own : span.start.toNat + descriptor.ownOffset.toNat = descriptor.offset)
    (holds : flash.Holds memory) (answers : flash.Answers span) (computes : engine.Computes hash)
    (offers : engine.Offers descriptor.algorithm)
    (wellFormed : descriptor.WellFormed span capacity hash memory) (table : RegionTable capacity)
    (state : σ) :
    descriptor.checkRegions flash span engine table state =
      (.ok (), ⟨descriptor.regions, wellFormed.few⟩) := by
  obtain ⟨owner, houses⟩ := wellFormed.housed
  exact (checkRegions_of_marked parsed own holds answers computes offers wellFormed.filled houses
    wellFormed.marked table state).1 wellFormed.sound

theorem checkRegions_of_fault
    (parsed : descriptor.Parsed source position bounds platform)
    (own : span.start.toNat + descriptor.ownOffset.toNat = descriptor.offset)
    (holds : flash.Holds memory) (answers : flash.Answers span) (computes : engine.Computes hash)
    (offers : engine.Offers descriptor.algorithm) {reason : Reason}
    (fault : descriptor.Fault span capacity hash memory reason) (table : RegionTable capacity)
    (state : σ) :
    descriptor.checkRegions flash span engine table state =
      (.error (.rejected reason), .empty capacity) := by
  by_cases altered : reason = .invalidHash
  · subst altered
    cases fault with
    | altered filled houses marked unsound =>
        exact (checkRegions_of_marked parsed own holds answers computes offers filled houses marked
          table state).2 unsound
  · exact checkRegions_of_failed engine table state
      (checkTable_of_fault parsed own holds answers.read fault altered)

/-- The check accepts exactly the well-formed tables and refuses others for their fault. -/
theorem checkRegions_exact (read : parse source position bounds platform = .ok descriptor)
    (start : bounds.start = span.start) (holds : flash.Holds memory)
    (answers : flash.Answers span) (computes : engine.Computes hash)
    (offers : engine.Offers descriptor.algorithm) (table : RegionTable capacity) (state : σ) :
    let outcome := descriptor.checkRegions flash span engine table state
    (outcome.1 = .ok () ↔ descriptor.WellFormed span capacity hash memory) ∧
    (∀ reason, outcome.1 = .error (.rejected reason) ↔
      descriptor.Fault span capacity hash memory reason) ∧
    outcome.1 ≠ .error .overflow ∧
    outcome.2.regions = if outcome.1 = .ok () then descriptor.regions else [] := by
  intro outcome
  have parsed := parse_eq_ok.1 read
  have own : span.start.toNat + descriptor.ownOffset.toNat = descriptor.offset := by
    rw [← start, parsed.ownOffset, parsed.offset]
  have accepts (wellFormed : descriptor.WellFormed span capacity hash memory) :
      outcome = (.ok (), ⟨descriptor.regions, wellFormed.few⟩) :=
    checkRegions_of_wellFormed parsed own holds answers computes offers wellFormed table state
  have refuses {reason : Reason} (fault : descriptor.Fault span capacity hash memory reason) :
      outcome = (.error (.rejected reason), .empty capacity) :=
    checkRegions_of_fault parsed own holds answers computes offers fault table state
  rcases wellFormed_or_fault parsed.someRegions span capacity hash memory with
    wellFormed | ⟨reason, fault⟩
  · have result := accepts wellFormed
    refine ⟨⟨fun _ => wellFormed, fun _ => by rw [result]⟩, fun other => ⟨fun refused => ?_,
      fun fault => by rw [refuses fault]⟩, by rw [result]; simp, by rw [result]; rfl⟩
    rw [result] at refused
    cases refused
  · have result := refuses fault
    refine ⟨⟨fun accepted => ?_, fun wellFormed => by rw [accepts wellFormed]⟩, fun other =>
      ⟨fun refused => ?_, fun fault => by rw [refuses fault]⟩, by rw [result]; simp,
      by rw [result]; rfl⟩
    · rw [result] at accepted
      cases accepted
    · rw [result] at refused
      cases refused
      exact fault

/-- The smallest image is refused where the range ends one byte earlier. -/
theorem smallest_exact :
    ∃ (image : Bytes) (descriptor : Descriptor) (state : Option Sha2.Session),
      let whole := zeroBytes 64 ++ (image ++ [])
      let outcome (stop : UInt32) := descriptor.checkRegions (Flash.ofBytes whole) ⟨64, stop⟩
        Sha2.engine (RegionTable.empty 1) state
      (outcome 4160).1 = .ok () ∧
        descriptor.WellFormed ⟨64, 4160⟩ 1 Sha2.digest (Memory.ofBytes whole) ∧
        (outcome 4159).1 = .error (.rejected .invalidRegionInput) := by
  obtain ⟨image, descriptor, region, length, accepted, recorded, area, regions, static, extent⟩ :=
    Blueprint.validateSmallest_recorded
  obtain ⟨position, before, found, key, table, after, -, passed, concluded⟩ :=
    Context.validate_eq_ok accepted
  have same : descriptor = found := by
    rw [Blueprint.validateSmallest, concluded] at recorded
    exact (Option.some.inj recorded).symm
  subst same
  obtain ⟨parsed, -, between, -, validated⟩ := Settings.validateCandidate_eq_ok.1 passed
  refine ⟨image, descriptor, between, ?_⟩
  intro whole outcome
  have total : whole.length = 4160 := by
    rw [List.length_append, List.length_append, length]
    rfl
  have offers : Sha2.engine.Offers descriptor.algorithm :=
    Sha2.engine_completes descriptor.algorithm_ne_sha384
  have holds := Flash.holds_ofBytes whole
  have fits : (⟨64, 4160⟩ : Span).stop.toNat ≤ whole.length := Nat.le_of_eq total.symm
  have short : (⟨64, 4159⟩ : Span).stop.toNat ≤ whole.length := by
    rw [total]
    decide
  have passes : (outcome 4160).1 = .ok () := by
    have result : descriptor.validateRegions (Flash.ofBytes whole) ⟨64, 4160⟩ Sha2.engine 1
      between = .ok table after := validated
    simp only [outcome, checkRegions, result]
  obtain ⟨exactly, -⟩ := checkRegions_exact (parse_eq_ok.2 parsed) rfl holds
    (Flash.answers_ofBytes fits) Sha2.engine_computes offers (.empty 1) between
  have shorter : (⟨64, 4160⟩ : Span).start = (⟨64, 4159⟩ : Span).start := rfl
  obtain ⟨-, refuses, -⟩ := checkRegions_exact (parse_eq_ok.2 parsed) shorter holds
    (Flash.answers_ofBytes short) Sha2.engine_computes offers (.empty 1) between
  have wellFormed := exactly.1 passes
  refine ⟨passes, wellFormed, (refuses _).2 ?_⟩
  let place : Fin descriptor.regions.length := ⟨0, parsed.someRegions⟩
  have only : descriptor.regions.get place = region := by
    simp [place, regions]
  apply @Fault.outside descriptor ⟨64, 4159⟩ 1 _ _ place wellFormed.few
  · intro earlier less
    exact absurd (Fin.lt_def.1 less) (Nat.not_lt_zero _)
  · exact (wellFormed.filled.inPlace place).1
  · have start := congrArg Extent.offset extent
    have size := congrArg Extent.length extent
    simp only [Region.extent] at start size
    rw [Reaches, only, start, size]
    decide

end Decision

end Descriptor

end SignedFirmware
