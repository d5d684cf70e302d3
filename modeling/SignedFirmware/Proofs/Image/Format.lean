import SignedFirmware.Proofs.Acceptance
import SignedFirmware.Proofs.Image.Mirroring
import SignedFirmware.Proofs.Requirements
import SignedFirmware.Proofs.Wire.Offsets

namespace SignedFirmware

/-- The bytes that a flash shows in a range, if it can be read. -/
def Flash.shown (flash : Flash) (extent : Extent) : Bytes :=
  match flash.read extent.offset extent.length with
  | .ok bytes => bytes.toList
  | .error _ => []

namespace Header

/-- The scheme that a header names, if it is known. -/
def scheme? (header : Header) : Option Scheme := Coded.ofCode? header.scheme.toNat

/-- The algorithm that a header names, if it may protect an image. -/
def algorithm? (header : Header) : Option Algorithm :=
  (Coded.ofCode? header.hashType.toNat).bind HashType.algorithm?

/-- The header, the region table and the hash struct come before the denylist. -/
def denylistStart (header : Header) : Nat :=
  96 + 44 * header.regionCount.toNat + (8 + (header.algorithm?.map Algorithm.length).getD 0)

/-- A denylist has a header of its own. -/
def blobStart (header : Header) : Nat :=
  header.denylistStart +
    if header.denylistSize.toNat = 0 then 0 else 8 + 16 * header.denylistSize.toNat

/-- The length of a descriptor through the signature block. -/
def descriptorLength (header : Header) : Nat :=
  header.blobStart + header.blobSize.toNat + (header.scheme?.map Scheme.blockLength).getD 0

end Header

namespace Descriptor

/-- The requirements on a header, apart from its place. -/
def headerFormat (header : Header) (position : Nat) (span : Span) (platform : Platform) :
    List Requirement :=
  [⟨header.magic = magics.descriptor, .invalidDescriptor⟩,
    ⟨header.formatMajor.toNat ≤ 1, .unsupportedDescriptor⟩,
    ⟨span.start.toNat + header.ownOffset.toNat = position, .invalidDescriptor⟩,
    ⟨1 ≤ header.regionCount.toNat, .invalidDescriptor⟩,
    ⟨header.regionCount.toNat ≤ 16, .unsupportedDescriptor⟩,
    ⟨position + header.areaSize.toNat ≤ span.stop.toNat, .invalidDescriptor⟩,
    ⟨platform.Fits span header.imageSize, .invalidDescriptor⟩]

/-- The requirements on the codes in a header. -/
def codeFormat (header : Header) : List Requirement :=
  [⟨∃ imageType : ImageType, imageType.code = header.imageType, .invalidDescriptor⟩,
    ⟨∃ scheme : Scheme, scheme.code = header.scheme, .invalidSigScheme⟩,
    ⟨HashType.sha256.code = header.hashType ∨ HashType.sha512.code = header.hashType,
      .invalidHashType⟩]

/-- The requirements on the sections that may be absent. -/
def sectionFormat (flash : Flash) (header : Header) (position : Nat) : List Requirement :=
  [⟨0 < header.denylistSize.toNat →
      flash.number (position + header.denylistStart) 4 = .ok magics.denylist.toNat,
      .invalidDescriptor⟩,
    ⟨0 < header.blobSize.toNat → 8 ≤ header.blobSize.toNat, .invalidDescriptor⟩,
    ⟨0 < header.blobSize.toNat →
      flash.number (position + header.blobStart) 4 = .ok magics.blob.toNat, .invalidDescriptor⟩]

/-- The requirements on a descriptor, in the order in which they are checked. -/
def format (flash : Flash) (position : Nat) (span : Span) (platform : Platform) :
    List Requirement :=
  let header := Header.ofBytes (flash.shown ⟨position, 96⟩)
  ⟨position + 96 ≤ span.stop.toNat, .invalidDescriptor⟩ ::
    (headerFormat header position span platform ++ (codeFormat header ++
      ⟨header.descriptorLength ≤ header.areaSize.toNat, .invalidDescriptor⟩ ::
        sectionFormat flash header position))

variable {β : Type} {flash : Flash} {header : Header} {position : Nat} {span : Span}
  {platform : Platform} {rest : List Requirement}

/-- Enough bytes are decoded to the header at their front. -/
theorem decode_header {bytes : Bytes} (long : 96 ≤ bytes.length) :
    decode Header.read bytes = .ok (Header.ofBytes bytes) := by
  have read : Header.read bytes = .ok (Header.ofBytes bytes) (bytes.drop 96) :=
    Header.yields_read long
  rw [decode, read]

theorem demands_readHeader_bind (readable : flash.Readable ⟨0, span.stop⟩)
    {next : Header → Checked β}
    (follows : position + 96 ≤ span.stop.toNat →
      (next (Header.ofBytes (flash.shown ⟨position, 96⟩))).Demands rest) :
    (readHeader flash position span >>= next).Demands
      (⟨position + 96 ≤ span.stop.toNat, .invalidDescriptor⟩ :: rest) := by
  rw [readHeader, bind_assoc]
  refine demands_ensure_bind Iff.rfl fun room => ?_
  obtain ⟨bytes, answer⟩ : ∃ bytes, flash.read position Layout.headerLength = .ok bytes :=
    readable (Nat.zero_le _) room
  have shown : flash.shown ⟨position, Layout.headerLength⟩ = bytes.toList := by
    simp only [Flash.shown, answer]
  rw [bind_assoc, ofFlash_bind answer, decode_header (Nat.le_of_eq bytes.length_toList.symm),
    ← shown]
  exact follows room

theorem demands_checkHeader_bind {next : Unit → Checked β}
    (follows : position + header.areaSize.toNat ≤ span.stop.toNat → (next ()).Demands rest) :
    (checkHeader header position span platform >>= next).Demands
      (headerFormat header position span platform ++ rest) := by
  have version : header.formatMajor ≤ maxFormatMajor ↔ header.formatMajor.toNat ≤ 1 :=
    UInt8.le_iff_toNat_le
  have some : 0 < header.regionCount ↔ 1 ≤ header.regionCount.toNat := UInt8.lt_iff_toNat_lt
  simp only [checkHeader, bind_assoc]
  refine demands_ensure_bind Iff.rfl fun _ => ?_
  refine demands_ensure_bind version fun _ => ?_
  refine demands_ensure_bind Iff.rfl fun _ => ?_
  refine demands_ensure_bind some fun _ => ?_
  refine demands_ensure_bind Iff.rfl fun _ => ?_
  refine demands_ensure_bind Iff.rfl fun area => ?_
  exact demands_ensure_bind sizeValid_iff fun _ => follows area

/-- A code that is needed must belong to a value. -/
theorem demands_imageType_bind {number : UInt8} {next : ImageType → Checked β}
    (follows : ∀ imageType, (next imageType).Demands rest) :
    (require (Coded.ofCode? number.toNat) .invalidDescriptor >>= next).Demands
      (⟨∃ imageType : ImageType, imageType.code = number, .invalidDescriptor⟩ :: rest) := by
  refine demands_require_bind ?_ fun imageType _ => follows imageType
  simp only [Option.isSome_iff_exists, ImageType.ofCode?_eq_some]

theorem demands_scheme_bind {next : Scheme → Checked β}
    (follows : ∀ scheme, header.scheme? = some scheme → (next scheme).Demands rest) :
    (require (Coded.ofCode? header.scheme.toNat) .invalidSigScheme >>= next).Demands
      (⟨∃ scheme : Scheme, scheme.code = header.scheme, .invalidSigScheme⟩ :: rest) := by
  refine demands_require_bind ?_ follows
  simp only [Option.isSome_iff_exists, Scheme.ofCode?_eq_some]

/-- A hash type must be one of the two that may protect an image. -/
theorem demands_hashType_bind {next : HashType → Algorithm → Checked β}
    (follows : ∀ hashType algorithm, header.algorithm? = some algorithm →
      (next hashType algorithm).Demands rest) :
    (do
      let hashType ← require (Coded.ofCode? header.hashType.toNat) .invalidHashType
      let algorithm ← require (HashType.algorithm? hashType) .invalidHashType
      next hashType algorithm).Demands
      (⟨HashType.sha256.code = header.hashType ∨ HashType.sha512.code = header.hashType,
        .invalidHashType⟩ :: rest) := by
  cases found : (Coded.ofCode? header.hashType.toNat : Option HashType) with
  | none =>
      have unknown (hashType : HashType) : hashType.code ≠ header.hashType := by
        intro known
        have present := HashType.ofCode?_eq_some.2 known
        rw [found] at present
        cases present
      exact ⟨fun known => absurd known (not_or.2 ⟨unknown _, unknown _⟩), fun _ => rfl⟩
  | some hashType =>
      have code := HashType.ofCode?_eq_some.1 found
      have algorithm : header.algorithm? = hashType.algorithm? := by
        rw [Header.algorithm?, found]
        rfl
      rw [← code]
      cases hashType with
      | sha256 => exact demands_of_holds (.inl rfl) (follows _ _ algorithm)
      | sha512 => exact demands_of_holds (.inr rfl) (follows _ _ algorithm)
      | none | sha224 | sha384 => exact ⟨fun known => absurd known (by decide), fun _ => rfl⟩

theorem demands_expectMagic_bind {offset : Nat} {magic : UInt32} {holds : Prop}
    {next : Unit → Checked β} (readable : flash.Readable ⟨0, span.stop⟩)
    (inside : offset + 4 ≤ span.stop.toNat)
    (same : flash.number offset 4 = .ok magic.toNat ↔ holds)
    (follows : (next ()).Demands rest) :
    (expectMagic flash offset magic >>= next).Demands (⟨holds, .invalidDescriptor⟩ :: rest) := by
  obtain ⟨word, answer⟩ := readable.number (Nat.zero_le _) inside
  have word_iff : word = magic.toNat ↔ holds := by
    rw [← same, answer, Except.ok.injEq]
  rw [expectMagic, bind_assoc, ofFlash_bind answer]
  exact demands_ensure_bind word_iff fun _ => follows

section Sections

variable {algorithm : Algorithm} {scheme : Scheme}

/-- The denylist of a header lies right after the hash struct. -/
theorem denylist_tiled_eq (known : header.algorithm? = some algorithm) :
    (Layout.tiled position header.regionCount.toNat algorithm header.denylistSize.toNat
      header.blobSize.toNat scheme).denylist =
      if header.denylistSize.toNat = 0 then none
      else some ⟨position + header.denylistStart, 8 + 16 * header.denylistSize.toNat⟩ := by
  simp only [Layout.tiled, Header.denylistStart, known]
  split
  next => rfl
  next =>
    simp only [Option.map_some, Option.getD_some, Layout.headerLength, Region.entryLength,
      Layout.sectionHeaderLength, Nat.add_assoc]
    rfl

/-- The blob of a header lies right after the denylist. -/
theorem blob_tiled_eq (known : header.algorithm? = some algorithm) :
    (Layout.tiled position header.regionCount.toNat algorithm header.denylistSize.toNat
      header.blobSize.toNat scheme).blob =
      if header.blobSize.toNat = 0 then none
      else some ⟨position + header.blobStart, header.blobSize.toNat⟩ := by
  simp only [Layout.tiled, Header.blobStart, Header.denylistStart, known, Layout.denylistLength]
  split
  next => rfl
  next =>
    simp only [Option.map_some, Option.getD_some, Layout.headerLength, Region.entryLength,
      Layout.sectionHeaderLength, Layout.denylistRecordLength, Nat.add_assoc]

theorem signedLength_eq (known : header.algorithm? = some algorithm)
    (schemeKnown : header.scheme? = some scheme) :
    Layout.signedLength header.regionCount.toNat algorithm header.denylistSize.toNat
      header.blobSize.toNat + scheme.blockLength = header.descriptorLength := by
  simp only [Layout.signedLength, Layout.denylistLength, Header.descriptorLength,
    Header.blobStart, Header.denylistStart, known, schemeKnown, Option.map_some, Option.getD_some]
  rfl

/-- This checks the word of a denylist. -/
def checkDenylist (flash : Flash) : Option Extent → Checked Unit
  | none => pure ()
  | some denylist => expectMagic flash denylist.offset magics.denylist

/-- This checks the length and the word of a blob. -/
def checkBlob (flash : Flash) : Option Extent → Checked Unit
  | none => pure ()
  | some blob => do
      ensure (Layout.sectionHeaderLength ≤ blob.length) .invalidDescriptor
      expectMagic flash blob.offset magics.blob

theorem checkSections_eq (flash : Flash) (layout : Layout) :
    checkSections flash layout = (do
      checkDenylist flash layout.denylist
      checkBlob flash layout.blob) := by
  unfold checkSections
  cases layout.denylist <;> cases layout.blob <;> rfl

theorem demands_checkDenylist_bind {offset length : Nat} {next : Unit → Checked β}
    (readable : flash.Readable ⟨0, span.stop⟩)
    (inside : 0 < length → offset + 4 ≤ span.stop.toNat) {size : Nat}
    (follows : (next ()).Demands rest) :
    (checkDenylist flash (if length = 0 then none else some ⟨offset, size⟩) >>= next).Demands
      (⟨0 < length → flash.number offset 4 = .ok magics.denylist.toNat, .invalidDescriptor⟩ ::
        rest) := by
  by_cases absent : length = 0
  · rw [if_pos absent]
    exact demands_of_holds (fun present => absurd absent (Nat.ne_of_gt present)) follows
  · have present : 0 < length := Nat.pos_of_ne_zero absent
    rw [if_neg absent]
    exact demands_expectMagic_bind readable (inside present) (imp_iff_right present).symm
      follows

theorem demands_checkBlob_bind {offset length : Nat} {next : Unit → Checked β}
    (readable : flash.Readable ⟨0, span.stop⟩) (inside : offset + length ≤ span.stop.toNat)
    (follows : (next ()).Demands rest) :
    (checkBlob flash (if length = 0 then none else some ⟨offset, length⟩) >>= next).Demands
      (⟨0 < length → 8 ≤ length, .invalidDescriptor⟩ ::
        ⟨0 < length → flash.number offset 4 = .ok magics.blob.toNat, .invalidDescriptor⟩ ::
          rest) := by
  by_cases absent : length = 0
  · have none (present : 0 < length) : False := absurd absent (Nat.ne_of_gt present)
    rw [if_pos absent]
    exact demands_of_holds (fun present => (none present).elim)
      (demands_of_holds (fun present => (none present).elim) follows)
  · have present : 0 < length := Nat.pos_of_ne_zero absent
    rw [if_neg absent, checkBlob, bind_assoc]
    refine demands_ensure_bind (imp_iff_right present).symm fun long => ?_
    have room : offset + 4 ≤ span.stop.toNat := by
      have word := long present
      omega
    exact demands_expectMagic_bind readable room (imp_iff_right present).symm follows

/-- The region table can be read to its end. -/
theorem readRegions_passes (readable : flash.Readable ⟨0, span.stop⟩) {index count : Nat}
    (inside : position + Layout.headerLength + (index + count) * Region.entryLength ≤
      span.stop.toNat) : ∃ regions, readRegions flash position index count = .ok regions := by
  have limit := span.stop.toNat_lt
  induction count generalizing index with
  | zero => exact ⟨[], rfl⟩
  | succ count ih =>
      simp only [Region.entryLength] at inside ih
      obtain ⟨others, rest⟩ := @ih (index + 1) (by omega)
      obtain ⟨bytes, answer⟩ := @readable (position + Layout.headerLength +
        index * Region.entryLength) Region.entryLength (Nat.zero_le _)
        (by simp only [Region.entryLength]; omega)
      obtain ⟨region, read⟩ := Region.covers_read bytes.toList
        (Nat.le_of_eq bytes.length_toList.symm)
      have decoded : decode Region.read bytes.toList = .ok region := by
        rw [decode, read]
      refine ⟨region :: others, ?_⟩
      rw [readRegions, Offset.add_bind (by rw [Offset.limit]; omega),
        Offset.add_bind (by simp only [Offset.limit, Region.entryLength]; omega),
        ofFlash_bind answer, decoded, rest]
      rfl

end Sections

/-- Reading a descriptor demands the format, whatever stands in flash. -/
theorem parse_demands (readable : flash.Readable ⟨0, span.stop⟩) :
    (parse flash position span platform).Demands (format flash position span platform) := by
  have limit := span.stop.toNat_lt
  refine demands_readHeader_bind readable fun _ => ?_
  generalize Header.ofBytes (flash.shown ⟨position, 96⟩) = header
  refine demands_checkHeader_bind fun area => ?_
  refine demands_imageType_bind fun imageType => ?_
  refine demands_scheme_bind fun scheme schemeKnown => ?_
  refine demands_hashType_bind fun hashType algorithm known => ?_
  have length := signedLength_eq known schemeKnown
  rw [Layout.place?_bind_eq (by rw [Offset.limit]; omega), length]
  refine demands_ite Iff.rfl fun room => ?_
  rw [checkSections_eq, denylist_tiled_eq known, blob_tiled_eq known, bind_assoc]
  have sections : header.blobStart + header.blobSize.toNat ≤ header.descriptorLength :=
    Nat.le_add_right _ _
  refine demands_checkDenylist_bind readable ?_ ?_
  · intro present
    rw [Header.blobStart, if_neg (Nat.ne_of_gt present)] at sections
    omega
  · refine demands_checkBlob_bind readable (by omega) ?_
    have table : position + Layout.headerLength +
        (0 + header.regionCount.toNat) * Region.entryLength ≤ span.stop.toNat := by
      rw [Header.blobStart, Header.denylistStart] at sections
      rw [Layout.headerLength, Region.entryLength]
      omega
    obtain ⟨regions, read⟩ := readRegions_passes readable table
    rw [read]
    exact ⟨_, rfl⟩

/-- A descriptor is read exactly if it meets all requirements, in their order. -/
theorem parse_meets_format (readable : flash.Readable ⟨0, span.stop⟩) (position : Nat)
    (platform : Platform) :
    ((∃ descriptor, parse flash position span platform = .ok descriptor) ↔
      ∀ requirement ∈ format flash position span platform, requirement.holds) ∧
    (∀ reason, parse flash position span platform = reject reason ↔
      Requirement.Refuse (format flash position span platform) reason) ∧
    parse flash position span platform ≠ .error .overflow := by
  have demands : (parse flash position span platform).Demands
      (format flash position span platform) := parse_demands readable
  exact ⟨demands.ok_iff, fun _ => demands.reject_iff, demands.ne_overflow⟩

/-- The smallest image meets all requirements, and zeros miss the magic word. -/
theorem smallest_meets_format :
    ∃ (image : Bytes) (position : Nat),
      let span : Span := ⟨64, 4160⟩
      let platform : Platform := ⟨some true, none, fun _ => none⟩
      let flash := Flash.ofBytes (zeroBytes 64 ++ (image ++ []))
      let zeros := Flash.ofBytes (zeroBytes 96)
      flash.Readable ⟨0, 4160⟩ ∧
        (∀ requirement ∈ format flash position span platform, requirement.holds) ∧
        zeros.Readable ⟨0, 96⟩ ∧
        parse zeros 0 ⟨0, 96⟩ platform = reject .invalidDescriptor := by
  obtain ⟨image, recorded, region, length, accepted, -⟩ := Blueprint.validateSmallest_recorded
  obtain ⟨position, before, descriptor, key, found, after, -, passed, -⟩ :=
    Context.validate_eq_ok accepted
  obtain ⟨parsed, -⟩ := Settings.validateCandidate_eq_ok.1 passed
  refine ⟨image, position, ?_⟩
  intro span platform flash zeros
  have inside : (⟨0, 4160⟩ : Span).stop.toNat ≤ (zeroBytes 64 ++ (image ++ [])).length := by
    rw [List.length_append, List.length_append, length]
    decide
  have readable : flash.Readable ⟨0, 4160⟩ := (Flash.answers_ofBytes inside).read
  have zerosReadable : zeros.Readable ⟨0, 96⟩ :=
    (Flash.answers_ofBytes (by rw [length_zeroBytes]; decide)).read
  refine ⟨readable, ?_, zerosReadable, ?_⟩
  · exact (parse_meets_format readable position platform).1.1 ⟨descriptor, parse_eq_ok.2 parsed⟩
  · have meets := @parse_meets_format zeros ⟨0, 96⟩ zerosReadable 0 platform
    have magic : (Header.ofBytes (zeros.shown ⟨0, 96⟩)).magic ≠ magics.descriptor := by decide
    exact (meets.2.1 _).2 ⟨[_], _, _, rfl, by simp, magic, rfl⟩

end Descriptor

end SignedFirmware
