import SignedFirmware.Proofs.Image.Placement

namespace SignedFirmware

/-- A flash answers shifted reads as another one does the unshifted. -/
def Flash.Mirrors (left right : Flash) (shift start stop : Nat) : Prop :=
  ∀ {offset length : Nat}, start ≤ offset → offset + length ≤ stop →
    left.read (shift + offset) length = right.read offset length

/-- One span is another one moved by an offset. -/
structure Span.Shifted (left right : Span) (shift : Nat) : Prop where
  start : left.start.toNat = shift + right.start.toNat
  stop : left.stop.toNat = shift + right.stop.toNat

namespace Flash.Mirrors

variable {left right : Flash} {shift start stop : Nat}

theorem number (mirrors : left.Mirrors right shift start stop) {offset width : Nat}
    (low : start ≤ offset) (high : offset + width ≤ stop) :
    left.number (shift + offset) width = right.number offset width := by
  rw [Flash.number, Flash.number, mirrors low high]

/-- A part of a mirrored range is mirrored. -/
theorem part (mirrors : left.Mirrors right shift start stop) {first last : Nat}
    (low : start ≤ first) (high : last ≤ stop) : left.Mirrors right shift first last :=
  fun above below => mirrors (Nat.le_trans low above) (Nat.le_trans below high)

end Flash.Mirrors

/-- A flash feeds shifted ranges as another one feeds the unshifted. -/
def Flash.MirrorsFeeds (left right : Flash) (shift start stop : Nat) : Prop :=
  ∀ {extent : Extent}, start ≤ extent.offset → extent.offset + extent.length ≤ stop →
    left.feed (extent.shift shift) = right.feed extent

namespace Flash

/-- Two flashes answer every read in a range alike. -/
def Agrees (left right : Flash) (extent : Extent) : Prop :=
  ∀ {offset length : Nat}, extent.offset ≤ offset →
    offset + length ≤ extent.offset + extent.length →
    left.read offset length = right.read offset length

variable {left right : Flash} {leftMemory rightMemory : Memory} {span : Span} {extent : Extent}

/-- Two readable flashes mirror each other if they hold the same shifted bytes. -/
theorem Holds.mirrors (leftHolds : left.Holds leftMemory) (rightHolds : right.Holds rightMemory)
    {shift start stop : Nat}
    (leftReads : ∀ {offset length : Nat}, start ≤ offset → offset + length ≤ stop →
      ∃ bytes, left.read (shift + offset) length = .ok bytes)
    (rightReads : ∀ {offset length : Nat}, start ≤ offset → offset + length ≤ stop →
      ∃ bytes, right.read offset length = .ok bytes)
    (same : ∀ offset, start ≤ offset → offset < stop →
      leftMemory (shift + offset) = rightMemory offset) : left.Mirrors right shift start stop := by
  intro offset length low high
  obtain ⟨leftBytes, leftAnswer⟩ := leftReads low high
  obtain ⟨rightBytes, rightAnswer⟩ := rightReads low high
  have bytes : leftMemory.bytes ⟨shift + offset, length⟩ = rightMemory.bytes ⟨offset, length⟩ :=
    Memory.bytes_shift fun index first last => same index (by omega) (by omega)
  rw [← leftHolds.read leftAnswer, ← rightHolds.read rightAnswer, Vector.toList_inj] at bytes
  rw [leftAnswer, rightAnswer, bytes]

/-- Readable flashes agree on a range if they hold the same bytes there. -/
theorem Holds.agrees (leftHolds : left.Holds leftMemory) (rightHolds : right.Holds rightMemory)
    (leftReadable : left.Readable span) (rightReadable : right.Readable span)
    (low : span.start.toNat ≤ extent.offset)
    (high : extent.offset + extent.length ≤ span.stop.toNat)
    (same : ∀ offset, extent.offset ≤ offset → offset < extent.offset + extent.length →
      leftMemory offset = rightMemory offset) : left.Agrees right extent := by
  have mirrors : left.Mirrors right 0 extent.offset (extent.offset + extent.length) := by
    apply leftHolds.mirrors rightHolds
    · intro offset length above below
      rw [Nat.zero_add]
      exact leftReadable (by omega) (by omega)
    · intro offset length above below
      exact rightReadable (by omega) (by omega)
    · intro offset above below
      rw [Nat.zero_add]
      exact same offset above below
  intro offset length above below
  have read := mirrors above below
  rwa [Nat.zero_add] at read

theorem Agrees.mirrors (agrees : left.Agrees right extent) :
    left.Mirrors right 0 extent.offset (extent.offset + extent.length) := by
  intro offset length low high
  rw [Nat.zero_add]
  exact agrees low high

theorem Agrees.stands (agrees : left.Agrees right extent) {offset length : Nat}
    {fields : List Field} (low : extent.offset ≤ offset)
    (high : offset + length ≤ extent.offset + extent.length)
    (stands : right.Stands offset length fields) : left.Stands offset length fields := by
  obtain ⟨bytes, answer, leads⟩ := stands
  exact ⟨bytes, (agrees low high).trans answer, leads⟩

end Flash

/-- Ranges that are fed alike are digested alike. -/
theorem Flash.digest_shift {σ : Type} {left right : Flash} {shift : Nat} {engine : HashEngine σ}
    {algorithm : Algorithm} {extents : List Extent}
    (feeds : ∀ extent ∈ extents, left.feed (extent.shift shift) = right.feed extent) :
    left.digest engine algorithm (extents.map (Extent.shift shift)) =
      right.digest engine algorithm extents := by
  have hashed : left.hashExtents engine (extents.map (Extent.shift shift)) =
      right.hashExtents engine extents := by
    induction extents with
    | nil => rfl
    | cons extent rest ih =>
        obtain ⟨first, others⟩ := List.forall_mem_cons.1 feeds
        rw [List.map_cons, hashExtents, hashExtents, hashExtent, hashExtent, first, ih others]
  rw [digest, digest, hashed]

namespace Layout

variable {base regionCount denylistSize blobSize area : Nat} {algorithm : Algorithm}
  {scheme : Scheme}

/-- Sections that are too long for their area are turned down in one way. -/
theorem place?_bind_eq (room : base + area < Offset.limit) {α : Type}
    (next : Layout → Checked α) :
    (do
      let layout ← require (place? base regionCount algorithm denylistSize blobSize scheme)
        .invalidDescriptor
      let total ← layout.totalLength
      ensure (total ≤ area) .invalidDescriptor
      next layout) =
    if signedLength regionCount algorithm denylistSize blobSize + scheme.blockLength ≤ area then
      next (tiled base regionCount algorithm denylistSize blobSize scheme)
    else reject .invalidDescriptor := by
  by_cases fits : base + signedLength regionCount algorithm denylistSize blobSize +
      scheme.blockLength < Offset.limit
  · have total : (tiled base regionCount algorithm denylistSize blobSize scheme).totalLength =
        .ok (signedLength regionCount algorithm denylistSize blobSize + scheme.blockLength) := by
      rw [totalLength, signature_tiled]
      exact Offset.add_of_lt (by simp only [tiled]; omega)
    rw [place?_eq_some.2 ⟨fits, rfl⟩]
    change (totalLength _ >>= _) = _
    rw [total]
    change (ensure _ _ >>= _) = _
    unfold ensure
    split <;> rfl
  · have missing : place? base regionCount algorithm denylistSize blobSize scheme = none := by
      cases placed : place? base regionCount algorithm denylistSize blobSize scheme with
      | none => rfl
      | some layout => exact absurd (place?_eq_some.1 placed).1 fits
    rw [missing, if_neg (by omega)]
    rfl

end Layout

namespace Descriptor

variable {left right : Flash} {shift start stop : Nat} {leftSpan rightSpan : Span}
  {platform : Platform}

theorem expectMagic_shift (mirrors : left.Mirrors right shift start stop) {offset : Nat}
    {magic : UInt32} (low : start ≤ offset) (high : offset + 4 ≤ stop) :
    expectMagic left (shift + offset) magic = expectMagic right offset magic := by
  rw [expectMagic, expectMagic, mirrors.number low high]

theorem readHeader_shift (shifted : leftSpan.Shifted rightSpan shift)
    (mirrors : left.Mirrors right shift rightSpan.start.toNat rightSpan.stop.toNat)
    {position : Nat} (low : rightSpan.start.toNat ≤ position) :
    readHeader left (shift + position) leftSpan = readHeader right position rightSpan := by
  have stop := shifted.stop
  have room : shift + position + Layout.headerLength ≤ leftSpan.stop.toNat ↔
      position + Layout.headerLength ≤ rightSpan.stop.toNat := by omega
  rw [readHeader, readHeader, ensure_congr room]
  apply checked_bind_congr
  intro _ passed
  rw [mirrors low (ensure_eq_ok.1 passed)]

theorem sizeValid_shift (shifted : leftSpan.Shifted rightSpan shift) (size : UInt32) :
    sizeValid platform leftSpan size = sizeValid platform rightSpan size := by
  have start := shifted.start
  have stop := shifted.stop
  have fills : (leftSpan.start.toNat + size.toNat == leftSpan.stop.toNat) =
      (rightSpan.start.toNat + size.toNat == rightSpan.stop.toNat) := by
    rw [Bool.eq_iff_iff, beq_iff_eq, beq_iff_eq]
    omega
  rw [sizeValid, sizeValid, fills]

theorem checkHeader_shift (shifted : leftSpan.Shifted rightSpan shift) {header : Header}
    {position : Nat} :
    checkHeader header (shift + position) leftSpan platform =
      checkHeader header position rightSpan platform := by
  have start := shifted.start
  have stop := shifted.stop
  have own : leftSpan.start.toNat + header.ownOffset.toNat = shift + position ↔
      rightSpan.start.toNat + header.ownOffset.toNat = position := by omega
  have area : shift + position + header.areaSize.toNat ≤ leftSpan.stop.toNat ↔
      position + header.areaSize.toNat ≤ rightSpan.stop.toNat := by omega
  rw [checkHeader, checkHeader, ensure_congr own, ensure_congr area, sizeValid_shift shifted]

/-- The words of the sections are checked alike in the mirrored range. -/
theorem checkSections_shift (mirrors : left.Mirrors right shift start stop) {layout : Layout}
    (denylist : ∀ extent ∈ layout.denylist, start ≤ extent.offset ∧ extent.offset + 4 ≤ stop)
    (blob : ∀ extent ∈ layout.blob,
      start ≤ extent.offset ∧ extent.offset + extent.length ≤ stop) :
    checkSections left (layout.shift shift) = checkSections right layout := by
  obtain ⟨hash, denylistPlace, blobPlace, signature, signed⟩ := layout
  have blobs : checkSections left (.shift shift ⟨hash, none, blobPlace, signature, signed⟩) =
      checkSections right ⟨hash, none, blobPlace, signature, signed⟩ := by
    cases blobPlace with
    | none => rfl
    | some extent =>
        obtain ⟨low, high⟩ := blob extent rfl
        change (ensure _ _ >>= _) = (ensure _ _ >>= _)
        apply checked_bind_congr
        intro _ passed
        have room := ensure_eq_ok.1 passed
        rw [Layout.sectionHeaderLength] at room
        exact expectMagic_shift mirrors low (by simp only [Extent.shift] at room; omega)
  cases denylistPlace with
  | none => exact blobs
  | some extent =>
      obtain ⟨low, high⟩ := denylist extent rfl
      change (expectMagic left (shift + extent.offset) _ >>= _) = (expectMagic right _ _ >>= _)
      rw [expectMagic_shift mirrors low high]
      exact checked_bind_congr fun _ _ => blobs

/-- The region table is read alike if it lies in the mirrored range. -/
theorem readRegions_shift (mirrors : left.Mirrors right shift start stop)
    (bounded : shift + stop < Offset.limit) {position index count : Nat} (low : start ≤ position)
    (high : position + Layout.headerLength + (index + count) * Region.entryLength ≤ stop) :
    readRegions left (shift + position) index count = readRegions right position index count := by
  induction count generalizing index with
  | zero => rfl
  | succ count ih =>
      have room : index * Region.entryLength + Region.entryLength ≤
          (index + (count + 1)) * Region.entryLength := by
        rw [Region.entryLength]
        omega
      have place : shift + position + Layout.headerLength + index * Region.entryLength =
          shift + (position + Layout.headerLength + index * Region.entryLength) := by omega
      have later : position + Layout.headerLength + (index + 1 + count) * Region.entryLength ≤
          stop := by rwa [Nat.add_assoc index 1 count, Nat.add_comm 1 count]
      rw [readRegions, readRegions, Offset.add_bind (by omega), Offset.add_bind (by omega),
        Offset.add_bind (by omega), Offset.add_bind (by omega), place,
        mirrors (by omega) (by omega), ih later]

/-- A descriptor is read alike at both places, or refused for the same reason. -/
theorem parse_shift (shifted : leftSpan.Shifted rightSpan shift)
    (mirrors : left.Mirrors right shift rightSpan.start.toNat rightSpan.stop.toNat)
    {position : Nat} (low : rightSpan.start.toNat ≤ position) :
    parse left (shift + position) leftSpan platform =
      Descriptor.moved shift <$> parse right position rightSpan platform := by
  have limit := leftSpan.stop.toNat_lt
  have stop := shifted.stop
  rw [parse, parse, readHeader_shift shifted mirrors low]
  apply checked_bind_map_congr
  intro header _
  rw [checkHeader_shift shifted]
  apply checked_bind_map_congr
  intro _ checked
  -- From here on the area ends inside the span, and every section is held against the area.
  obtain ⟨-, -, -, -, -, area, -⟩ := checkHeader_eq_ok.1 checked
  apply checked_bind_map_congr
  intro imageType _
  apply checked_bind_map_congr
  intro scheme _
  apply checked_bind_map_congr
  intro hashType _
  apply checked_bind_map_congr
  intro algorithm _
  rw [Layout.place?_bind_eq (by rw [Offset.limit]; omega),
    Layout.place?_bind_eq (by rw [Offset.limit]; omega)]
  split
  next room =>
    have first : Layout.headerLength + header.regionCount.toNat * Region.entryLength ≤
        Layout.signedLength header.regionCount.toNat algorithm header.denylistSize.toNat
          header.blobSize.toNat := by
      rw [Layout.signedLength, Nat.mul_comm]
      omega
    have sections : checkSections left (Layout.tiled (shift + position) header.regionCount.toNat
        algorithm header.denylistSize.toNat header.blobSize.toNat scheme) =
        checkSections right (Layout.tiled position header.regionCount.toNat algorithm
          header.denylistSize.toNat header.blobSize.toNat scheme) := by
      rw [Layout.tiled_shift]
      refine checkSections_shift mirrors (fun extent present => ?_) fun extent present => ?_
      · have inside := Layout.denylist_tiled present
        rw [Layout.sectionHeaderLength] at inside
        omega
      · have inside := Layout.blob_tiled present
        omega
    have regions := @readRegions_shift left right shift _ _ mirrors
      (by rw [Offset.limit]; omega) position 0 header.regionCount.toNat low
      (by rw [Nat.zero_add]; omega)
    rw [sections, regions, Layout.tiled_shift]
    apply checked_bind_map_congr
    intro _ _
    rw [map_bind]
    rfl
  next => rfl

section Parsed

variable {position : Nat} {descriptor : Descriptor}

/-- The policy decides alike at both places. -/
theorem checkTransition_shift
    (mirrors : left.Mirrors right shift rightSpan.start.toNat rightSpan.stop.toNat)
    (parsed : descriptor.Parsed right position rightSpan platform) (family : UInt32)
    (currentType : Option ImageType) :
    (descriptor.moved shift).checkTransition left family currentType platform =
      descriptor.checkTransition right family currentType platform := by
  obtain ⟨low, long, high⟩ := parsed.signature_inside
  have word : expectMagic left (descriptor.moved shift).layout.signature.offset
      magics.signature = expectMagic right descriptor.layout.signature.offset magics.signature :=
    expectMagic_shift mirrors low (by omega)
  rw [checkTransition, checkTransition, word]
  rfl

/-- The signature block is read alike at both places. -/
theorem signatureBlock_shift
    (mirrors : left.Mirrors right shift rightSpan.start.toNat rightSpan.stop.toNat)
    (parsed : descriptor.Parsed right position rightSpan platform) :
    (descriptor.moved shift).signatureBlock left = descriptor.signatureBlock right := by
  obtain ⟨low, -, high⟩ := parsed.signature_inside
  dsimp only [signatureBlock, moved, Layout.shift, Extent.shift]
  rw [mirrors low high]

/-- The digest in the hash struct is read alike at both places. -/
theorem expectedDigest_shift
    (mirrors : left.Mirrors right shift descriptor.layout.hash.offset
      (descriptor.layout.hash.offset + descriptor.layout.hash.length))
    (long : descriptor.layout.hash.length =
      Layout.sectionHeaderLength + descriptor.algorithm.length)
    (bounded : shift + (descriptor.layout.hash.offset + descriptor.layout.hash.length) <
      Offset.limit) :
    (descriptor.moved shift).expectedDigest left = descriptor.expectedDigest right := by
  have digest : left.read (shift + descriptor.layout.hash.offset + Layout.sectionHeaderLength)
      descriptor.algorithm.length =
      right.read (descriptor.layout.hash.offset + Layout.sectionHeaderLength)
        descriptor.algorithm.length := by
    rw [Nat.add_assoc]
    exact mirrors (by omega) (by omega)
  dsimp only [expectedDigest, moved, Layout.shift, Extent.shift]
  rw [mirrors (by omega) (by omega), Offset.add_bind (by omega), Offset.add_bind (by omega)]
  apply checked_bind_congr
  intro head _
  exact checked_bind_congr fun _ _ => congrArg Checked.ofFlash digest

theorem checkPartition_shift (shifted : leftSpan.Shifted rightSpan shift) (imageSize total : Nat)
    (regions : List Region) :
    checkPartition imageSize leftSpan total regions =
      checkPartition imageSize rightSpan total regions := by
  have start := shifted.start
  have stop := shifted.stop
  induction regions generalizing total with
  | nil => rfl
  | cons region rest ih =>
      have inside : leftSpan.start.toNat + region.offset.toNat + region.size.toNat ≤
          leftSpan.stop.toNat ↔
          rightSpan.start.toNat + region.offset.toNat + region.size.toNat ≤
            rightSpan.stop.toNat := by omega
      simp only [checkPartition, ensure_congr inside, ih]

/-- A region table that partitions an image does so wherever the image lies. -/
theorem Partitioned.relocate (shifted : leftSpan.Shifted rightSpan shift)
    (partitioned : descriptor.Partitioned rightSpan) :
    (descriptor.moved shift).Partitioned leftSpan where
  tile := partitioned.tile
  sectors := partitioned.sectors
  inside region member := by
    have inside := partitioned.inside region member
    have start := shifted.start
    have stop := shifted.stop
    omega
  owner := partitioned.owner

/-- The ranges that the digest covers are moved along with the image. -/
theorem digestRanges_shift (shift start : Nat) :
    (descriptor.moved shift).digestRanges (shift + start) =
      (descriptor.digestRanges start).map (Extent.shift shift) := by
  have ranges : (descriptor.moved shift).coveredRanges (shift + start) =
      fun region => (descriptor.coveredRanges start region).map (Extent.shift shift) := by
    funext region
    simp only [coveredRanges, moved, area, Nat.add_assoc, Nat.add_sub_add_left,
      apply_ite (List.map _), List.map_cons, List.map_nil, Extent.shift]
  rw [digestRanges, digestRanges, List.map_flatMap, ranges]
  rfl

/-- The region table is checked alike, and what is to be digested moves along. -/
theorem checkTable_shift (shifted : leftSpan.Shifted rightSpan shift)
    (own : rightSpan.start.toNat + descriptor.ownOffset.toNat = descriptor.offset)
    (digest : descriptor.Partitioned rightSpan →
      (descriptor.moved shift).expectedDigest left = descriptor.expectedDigest right)
    (capacity : Nat) :
    (descriptor.moved shift).checkTable left leftSpan capacity =
      Prod.map id (List.map (Extent.shift shift)) <$>
        descriptor.checkTable right rightSpan capacity := by
  have start := shifted.start
  have moved : leftSpan.start.toNat + (descriptor.moved shift).ownOffset.toNat =
      (descriptor.moved shift).offset := by
    simp only [Descriptor.moved]
    omega
  rw [checkTable, checkTable]
  apply checked_bind_map_congr
  intro _ _
  rw [checkPartition_shift shifted]
  apply checked_bind_map_congr
  intro total partition
  apply checked_bind_map_congr
  intro _ whole
  apply checked_bind_map_congr
  intro _ owned
  obtain rfl := ensure_eq_ok.1 whole
  have partitioned : descriptor.Partitioned rightSpan := partitioned_iff.1 ⟨partition, owned⟩
  rw [digest partitioned, partitioned.digestExtents_eq_ok own,
    (partitioned.relocate shifted).digestExtents_eq_ok moved, start, digestRanges_shift]
  exact checked_bind_map_congr fun _ _ => rfl

variable {σ : Type} (engine : HashEngine σ) (verifier : Verifier σ)

/-- The verifier is asked alike at both places. -/
theorem verifySignature_shift
    (mirrors : left.Mirrors right shift rightSpan.start.toNat rightSpan.stop.toNat)
    (feeds : left.MirrorsFeeds right shift rightSpan.start.toNat rightSpan.stop.toNat)
    (parsed : descriptor.Parsed right position rightSpan platform) :
    (descriptor.moved shift).verifySignature left engine verifier =
      descriptor.verifySignature right engine verifier := by
  have low := parsed.start_le
  have inside := parsed.inside
  have fed : ∀ extent ∈ [descriptor.layout.signed],
      left.feed (extent.shift shift) = right.feed extent := by
    simp only [List.forall_mem_singleton, parsed.signed] at inside ⊢
    exact feeds low (by dsimp only; omega)
  rw [verifySignature, verifySignature, signatureBlock_shift mirrors parsed,
    ← Flash.digest_shift fed]
  rfl

/-- The regions are checked alike at both places. -/
theorem validateRegions_shift (shifted : leftSpan.Shifted rightSpan shift)
    (mirrors : left.Mirrors right shift rightSpan.start.toNat rightSpan.stop.toNat)
    (feeds : left.MirrorsFeeds right shift rightSpan.start.toNat rightSpan.stop.toNat)
    (parsed : descriptor.Parsed right position rightSpan platform) (capacity : Nat) :
    (descriptor.moved shift).validateRegions left leftSpan engine capacity =
      descriptor.validateRegions right rightSpan engine capacity := by
  have own := parsed.ownOffset.trans parsed.offset.symm
  have digest : (descriptor.moved shift).expectedDigest left =
      descriptor.expectedDigest right := by
    have limit := leftSpan.stop.toNat_lt
    have stop := shifted.stop
    have low := parsed.start_le
    have inside := parsed.inside
    obtain ⟨above, long, below⟩ := parsed.hash
    exact expectedDigest_shift (mirrors.part (by omega) (by omega)) long
      (by rw [Offset.limit]; omega)
  rw [validateRegions, validateRegions, checkTable_shift shifted own fun _ => digest]
  cases checked : descriptor.checkTable right rightSpan capacity with
  | error halt => rfl
  | ok value =>
      obtain ⟨expected, extents⟩ := value
      obtain ⟨-, partitioned, -, rfl⟩ := (checkTable_eq_ok own).1 checked
      have fed : ∀ extent ∈ descriptor.digestRanges rightSpan.start.toNat,
          left.feed (extent.shift shift) = right.feed extent := by
        intro extent member
        obtain ⟨low, high⟩ := partitioned.digestRanges_inside own member
        exact feeds low high
      change EStateM.adaptExcept _ (left.digest engine _ (List.map _ _)) >>= _ =
        EStateM.adaptExcept _ (right.digest engine _ _) >>= _
      rw [← Flash.digest_shift fed]
      rfl

end Parsed

end Descriptor

def Settings.within (settings : Settings) (span : Span) : Settings := { settings with span }

/-- A candidate passes or fails alike at both places. -/
theorem Settings.validateCandidate_shift {σ : Type} {left right : Flash} {shift : Nat}
    {leftSpan rightSpan : Span} (settings : Settings) (platform : Platform)
    (engine : HashEngine σ) (verifier : Verifier σ) (capacity : Nat)
    (shifted : leftSpan.Shifted rightSpan shift)
    (mirrors : left.Mirrors right shift rightSpan.start.toNat rightSpan.stop.toNat)
    (feeds : left.MirrorsFeeds right shift rightSpan.start.toNat rightSpan.stop.toNat)
    {position : Nat} (low : rightSpan.start.toNat ≤ position) :
    (settings.within leftSpan).validateCandidate left platform engine verifier capacity
        (shift + position) =
      Prod.map (Descriptor.moved shift) id <$>
        (settings.within rightSpan).validateCandidate right platform engine verifier capacity
          position := by
  have parse := @Descriptor.parse_shift left right shift _ _ platform shifted mirrors _ low
  rw [validateCandidate, validateCandidate]
  dsimp only [within]
  rw [parse]
  cases result : Descriptor.parse right position rightSpan platform with
  | error halt => rfl
  | ok descriptor =>
      have parsed := Descriptor.parse_eq_ok.1 result
      have transition := Descriptor.checkTransition_shift mirrors parsed settings.family
        settings.currentType
      have signature := Descriptor.verifySignature_shift engine verifier mirrors feeds parsed
      have regions := Descriptor.validateRegions_shift engine shifted mirrors feeds parsed capacity
      change (Checked.run (Descriptor.checkTransition left (descriptor.moved shift) _ _ _) >>= _) =
        _ <$> (Checked.run (Descriptor.checkTransition right descriptor _ _ _) >>= _)
      rw [transition, signature, regions]
      simp only [map_bind]
      rfl

end SignedFirmware
