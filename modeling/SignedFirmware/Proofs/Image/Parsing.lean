import SignedFirmware.Proofs.Image.Tiling
import SignedFirmware.Proofs.Memory
import SignedFirmware.Proofs.Wire.Standing

namespace SignedFirmware

/-- A value is found by its number if no two values share a number. -/
theorem Coded.ofCode?_eq_some {α : Type} [Coded α] (complete : ∀ value : α, value ∈ Coded.all)
    (distinct : ∀ left right : α, Coded.code left = Coded.code right → left = right)
    {number : Nat} {value : α} : Coded.ofCode? number = some value ↔ Coded.code value = number := by
  unfold Coded.ofCode?
  constructor
  · intro found
    simpa using List.find?_some found
  · rintro rfl
    cases found : (Coded.all (α := α)).find? fun other => Coded.code other == Coded.code value with
    | none =>
        have missing := List.find?_eq_none.1 found value (complete value)
        simp at missing
    | some other =>
        have same : Coded.code other = Coded.code value := by simpa using List.find?_some found
        rw [distinct other value same]

theorem ImageType.ofCode?_eq_some {number : UInt8} {imageType : ImageType} :
    Coded.ofCode? number.toNat = some imageType ↔ imageType.code = number := by
  rw [Coded.ofCode?_eq_some (by intro value; cases value <;> simp [Coded.all])
    (by intro left right; cases left <;> cases right <;> simp [Coded.code, ImageType.code])]
  exact UInt8.toNat_inj

theorem Scheme.ofCode?_eq_some {number : UInt8} {scheme : Scheme} :
    Coded.ofCode? number.toNat = some scheme ↔ scheme.code = number := by
  rw [Coded.ofCode?_eq_some (by intro value; cases value <;> simp [Coded.all])
    (by intro left right; cases left <;> cases right <;> simp [Coded.code, Scheme.code])]
  exact UInt8.toNat_inj

theorem HashType.ofCode?_eq_some {number : UInt8} {hashType : HashType} :
    Coded.ofCode? number.toNat = some hashType ↔ hashType.code = number := by
  rw [Coded.ofCode?_eq_some (by intro value; cases value <;> simp [Coded.all])
    (by intro left right; cases left <;> cases right <;> simp [Coded.code, HashType.code])]
  exact UInt8.toNat_inj

@[simp] theorem Version.length_encode (version : Version) :
    (Field.encodeAll version.fields).length = 16 := by
  simp [Version.fields, Field.encode]

@[simp] theorem Header.length_encode (header : Header) :
    (Field.encodeAll header.fields).length = Layout.headerLength := by
  simp [Header.fields, Field.encodeAll_append, Field.encode, Layout.headerLength]

@[simp] theorem Region.length_encode (region : Region) :
    (Field.encodeAll region.fields).length = Region.entryLength := by
  simp [Region.fields, Field.encode, Region.entryLength]

/-- The given fields fill a range of a flash. -/
def Flash.Stands (flash : Flash) (offset length : Nat) (fields : List Field) : Prop :=
  ∃ bytes, flash.read offset length = .ok bytes ∧ Field.Lead fields bytes.toList []

/-- Only one structure stands in a range of a flash. -/
theorem Flash.Stands.unique {α : Type} {reader : Reader α} {fields : α → List Field}
    (takes : reader.Takes fields) {flash : Flash} {offset length : Nat} {first second : α}
    (left : flash.Stands offset length (fields first))
    (right : flash.Stands offset length (fields second)) : first = second := by
  obtain ⟨bytes, answer, leads⟩ := left
  obtain ⟨others, again, follows⟩ := right
  obtain rfl : bytes = others := Except.ok.inj (answer.symm.trans again)
  exact (EStateM.Result.ok.inj ((takes.2 leads).symm.trans (takes.2 follows))).1

/-- The platform decides on the size, or else the image fills the span. -/
def Platform.Fits (platform : Platform) (span : Span) (size : UInt32) : Prop :=
  match platform.sizeValid size with
  | some valid => valid = true
  | none => span.start.toNat + size.toNat = span.stop.toNat

namespace Descriptor

/-- Bytes as long as a structure decode to the value that stands in them. -/
theorem decode_eq_ok {α : Type} {reader : Reader α} {fields : α → List Field}
    (takes : reader.Takes fields) {bytes : Bytes} {value : α}
    (length : bytes.length = (Field.encodeAll (fields value)).length) :
    decode reader bytes = .ok value ↔ Field.Lead (fields value) bytes [] := by
  unfold decode
  constructor
  · intro result
    split at result
    next found rest answer =>
      obtain rfl := Except.ok.inj result
      have leads := takes.1 answer
      have lengths := Field.length_of_lead leads
      rwa [List.length_eq_zero_iff.1 (by omega : rest.length = 0)] at leads
    next => simp at result
  · intro leads
    rw [takes.2 leads]

/-- A demanded word is the one that is read. -/
theorem expectMagic_eq_ok {flash : Flash} {offset : Nat} {magic : UInt32} :
    expectMagic flash offset magic = .ok () ↔ flash.number offset 4 = .ok magic.toNat := by
  simp only [expectMagic, bind_eq_ok, ofFlash_eq_ok, ensure_eq_ok]
  constructor
  · intro given
    rcases given with ⟨word, answer, rfl⟩
    exact answer
  · intro answer
    exact ⟨_, answer, rfl⟩

theorem readHeader_eq_ok {flash : Flash} {position : Nat} {span : Span} {header : Header} :
    readHeader flash position span = .ok header ↔
      position + Layout.headerLength ≤ span.stop.toNat ∧
        flash.Stands position Layout.headerLength header.fields := by
  simp only [readHeader, bind_eq_ok, ensure_eq_ok, ofFlash_eq_ok, exists_answer, Flash.Stands]
  refine and_congr_right fun _ => exists_congr fun bytes => and_congr_right fun _ => ?_
  exact decode_eq_ok Header.takes_read (by simp)

/-- The entries of the region table stand one after the other. -/
theorem readRegions_eq_ok {flash : Flash} {position index count : Nat} {regions : List Region} :
    readRegions flash position index count = .ok regions ↔
      regions.length = count ∧ ∀ entry (inside : entry < regions.length),
        position + Layout.headerLength + (index + entry) * Region.entryLength < Offset.limit ∧
        flash.Stands (position + Layout.headerLength + (index + entry) * Region.entryLength)
          Region.entryLength regions[entry].fields := by
  induction count generalizing index regions with
  | zero =>
      simp only [readRegions, pure_eq_ok, List.length_eq_zero_iff]
      constructor
      · rintro rfl
        simp
      · intro given
        rcases given with ⟨rfl, -⟩
        rfl
  | succ count ih =>
      simp only [readRegions, bind_eq_ok, Offset.add_eq_ok, ofFlash_eq_ok, pure_eq_ok, ih]
      constructor
      · intro given
        rcases given with ⟨_, ⟨-, rfl⟩, _, ⟨fits, rfl⟩, bytes, answer, region, decoded, rest,
          ⟨length, entries⟩, rfl⟩
        refine ⟨by simp [length], fun entry inside => ?_⟩
        cases entry with
        | zero =>
            refine ⟨fits, bytes, answer, ?_⟩
            exact (decode_eq_ok Region.takes_read (by simp)).1 decoded
        | succ entry =>
            have follows := entries entry (by simpa using inside)
            rwa [show index + 1 + entry = index + (entry + 1) by omega] at follows
      · intro given
        rcases given with ⟨length, entries⟩
        cases regions with
        | nil => simp at length
        | cons region rest =>
            obtain ⟨fits, bytes, answer, leads⟩ := entries 0 (by simp)
            refine ⟨_, ⟨by omega, rfl⟩, _, ⟨fits, rfl⟩, bytes, answer, region, ?_,
              rest, ⟨by simpa using length, fun entry inside => ?_⟩, rfl⟩
            · exact (decode_eq_ok Region.takes_read (by simp)).2 leads
            · have follows := entries (entry + 1) (by simpa using inside)
              rwa [show index + (entry + 1) = index + 1 + entry by omega] at follows

/-- Optional sections start with their words, and a blob has room for its header. -/
theorem checkSections_eq_ok {flash : Flash} {layout : Layout} :
    checkSections flash layout = .ok () ↔
      (∀ denylist ∈ layout.denylist,
        flash.number denylist.offset 4 = .ok magics.denylist.toNat) ∧
      ∀ blob ∈ layout.blob, Layout.sectionHeaderLength ≤ blob.length ∧
        flash.number blob.offset 4 = .ok magics.blob.toNat := by
  unfold checkSections
  cases layout.denylist <;> cases layout.blob <;>
    simp [bind_eq_ok, expectMagic_eq_ok]

theorem sizeValid_iff {platform : Platform} {span : Span} {size : UInt32} :
    sizeValid platform span size = true ↔ platform.Fits span size := by
  rw [sizeValid, Platform.Fits]
  cases platform.sizeValid size <;> simp

/-- This says what a descriptor that is read at a position satisfies. -/
structure Parsed (flash : Flash) (position : Nat) (span : Span) (platform : Platform)
    (descriptor : Descriptor) : Prop where
  offset : descriptor.offset = position
  header : flash.Stands position Layout.headerLength descriptor.header.fields
  formatMajor : descriptor.formatMajor ≤ maxFormatMajor
  ownOffset : span.start.toNat + descriptor.ownOffset.toNat = position
  someRegions : 0 < descriptor.regions.length
  fewRegions : descriptor.regions.length ≤ maxRegions
  area : position + descriptor.areaSize.toNat ≤ span.stop.toNat
  imageSize : platform.Fits span descriptor.imageSize
  algorithm : descriptor.hashType.algorithm? = some descriptor.algorithm
  layout : Layout.tiled position descriptor.regions.length descriptor.algorithm
    descriptor.denylistSize.toNat descriptor.blobSize.toNat descriptor.scheme = descriptor.layout
  total : descriptor.layout.signed.length + descriptor.layout.signature.length ≤
    descriptor.areaSize.toNat
  sections : checkSections flash descriptor.layout = .ok ()
  entries : ∀ index (inside : index < descriptor.regions.length),
    flash.Stands (position + Layout.headerLength + index * Region.entryLength)
      Region.entryLength descriptor.regions[index].fields

namespace Parsed

variable {flash : Flash} {position : Nat} {span : Span} {platform : Platform}
  {descriptor : Descriptor}

/-- The same descriptor is read in every span and on every platform. -/
theorem unique {other : Span} {device : Platform} {second : Descriptor}
    (parsed : Parsed flash position span platform descriptor)
    (again : Parsed flash position other device second) : descriptor = second := by
  have header : descriptor.header = second.header :=
    Flash.Stands.unique Header.takes_read parsed.header again.header
  have count : descriptor.regions.length = second.regions.length := by
    have few : descriptor.regions.length ≤ 16 := parsed.fewRegions
    have fewToo : second.regions.length ≤ 16 := again.fewRegions
    have same := congrArg (fun header => header.regionCount.toNat) header
    simp only [Descriptor.header, UInt8.toNat_ofNat'] at same
    omega
  have regions : descriptor.regions = second.regions := by
    apply List.ext_getElem count
    intro index inFirst inSecond
    exact Flash.Stands.unique Region.takes_read (parsed.entries index inFirst)
      (again.entries index inSecond)
  have imageType : descriptor.imageType = second.imageType := by
    have found := ImageType.ofCode?_eq_some.2 (congrArg Header.imageType header)
    exact Option.some.inj (found.symm.trans (ImageType.ofCode?_eq_some.2 rfl))
  have hashType : descriptor.hashType = second.hashType := by
    have found := HashType.ofCode?_eq_some.2 (congrArg Header.hashType header)
    exact Option.some.inj (found.symm.trans (HashType.ofCode?_eq_some.2 rfl))
  have scheme : descriptor.scheme = second.scheme := by
    have found := Scheme.ofCode?_eq_some.2 (congrArg Header.scheme header)
    exact Option.some.inj (found.symm.trans (Scheme.ofCode?_eq_some.2 rfl))
  have offset := parsed.offset.trans again.offset.symm
  have layout := parsed.layout
  have layoutToo := again.layout
  cases descriptor
  cases second
  simp only [Descriptor.header, Header.mk.injEq] at header
  obtain ⟨-, major, minor, own, area, name, family, version, timestamp, -, denylist, -, -, -, size,
    blob⟩ := header
  dsimp only at regions imageType hashType scheme offset
  subst major minor own area name family version timestamp denylist size blob
  subst regions imageType hashType scheme offset
  obtain rfl := layout.symm.trans layoutToo
  rfl

/-- The signed range starts where the descriptor does. -/
theorem signed (parsed : Parsed flash position span platform descriptor) :
    descriptor.layout.signed = ⟨position, Layout.signedLength descriptor.regions.length
      descriptor.algorithm descriptor.denylistSize.toNat descriptor.blobSize.toNat⟩ := by
  rw [← parsed.layout]
  rfl

/-- A blob lies in the signed range. -/
theorem blob (parsed : Parsed flash position span platform descriptor) {extent : Extent}
    (present : extent ∈ descriptor.layout.blob) :
    position ≤ extent.offset ∧
      extent.offset + extent.length ≤ position + descriptor.layout.signed.length := by
  rw [← parsed.layout] at present
  rw [parsed.signed]
  exact Layout.blob_tiled present

/-- The signature block comes right after the signed range. -/
theorem signature (parsed : Parsed flash position span platform descriptor) :
    descriptor.layout.signature =
      ⟨position + descriptor.layout.signed.length, descriptor.scheme.blockLength⟩ := by
  rw [parsed.signed, ← parsed.layout, Layout.signature_tiled]

/-- The hash struct lies in the signed range. -/
theorem hash (parsed : Parsed flash position span platform descriptor) :
    position ≤ descriptor.layout.hash.offset ∧
      descriptor.layout.hash.length = Layout.sectionHeaderLength + descriptor.algorithm.length ∧
      descriptor.layout.hash.offset + descriptor.layout.hash.length ≤
        position + descriptor.layout.signed.length := by
  rw [← parsed.layout]
  simp only [Layout.tiled, Layout.signedLength]
  exact ⟨by omega, trivial, by omega⟩

/-- The signed range and the signature block lie in the span. -/
theorem inside (parsed : Parsed flash position span platform descriptor) :
    position + descriptor.layout.signed.length + descriptor.scheme.blockLength ≤
      span.stop.toNat := by
  have total := parsed.total
  have area := parsed.area
  rw [parsed.signature] at total
  dsimp only at total
  omega

/-- The descriptor does not start before the span. -/
theorem start_le (parsed : Parsed flash position span platform descriptor) :
    span.start.toNat ≤ position := by
  have own := parsed.ownOffset
  omega

/-- The signature block lies in the span and has room for its word. -/
theorem signature_inside (parsed : Parsed flash position span platform descriptor) :
    span.start.toNat ≤ descriptor.layout.signature.offset ∧
      4 ≤ descriptor.layout.signature.length ∧
      descriptor.layout.signature.offset + descriptor.layout.signature.length ≤
        span.stop.toNat := by
  have low := parsed.start_le
  have inside := parsed.inside
  have word := Scheme.le_blockLength descriptor.scheme
  rw [parsed.signature]
  dsimp only
  omega

end Parsed

/-- A header passes if its version, its place and its sizes are right. -/
theorem checkHeader_eq_ok {header : Header} {position : Nat} {span : Span} {platform : Platform} :
    checkHeader header position span platform = .ok () ↔
      header.magic = magics.descriptor ∧ header.formatMajor ≤ maxFormatMajor ∧
      span.start.toNat + header.ownOffset.toNat = position ∧ 0 < header.regionCount ∧
      header.regionCount.toNat ≤ maxRegions ∧
      position + header.areaSize.toNat ≤ span.stop.toNat ∧
      platform.Fits span header.imageSize := by
  simp only [checkHeader, bind_eq_ok, ensure_eq_ok, exists_answer, sizeValid_iff]

/-- A descriptor is read exactly if it stands in flash and passes all checks. -/
theorem parse_eq_ok {flash : Flash} {position : Nat} {span : Span} {platform : Platform}
    {descriptor : Descriptor} :
    parse flash position span platform = .ok descriptor ↔
      Parsed flash position span platform descriptor := by
  have stop := span.stop.toNat_lt
  simp only [parse, bind_eq_ok, readHeader_eq_ok, checkHeader_eq_ok, exists_answer,
    require_eq_ok, ImageType.ofCode?_eq_some, Scheme.ofCode?_eq_some, HashType.ofCode?_eq_some,
    Layout.place?_eq_some, Layout.totalLength, Offset.add_eq_ok, ensure_eq_ok,
    readRegions_eq_ok, pure_eq_ok]
  constructor
  · intro given
    rcases given with ⟨header, ⟨-, stands⟩, ⟨magic, major, own, positive, few, area, size⟩,
      imageType, type, scheme, schemeCode, hashType, hashCode, algorithm, known, layout, ⟨-, tiled⟩,
      _, ⟨-, rfl⟩, total, sections, regions, ⟨count, entries⟩, rfl⟩
    have counted : UInt8.ofNat regions.length = header.regionCount := by rw [count]; simp
    have used : Option.getD hashType.algorithm? .sha256 = algorithm := by rw [known]; rfl
    constructor
    case header =>
      simp only [Descriptor.header, type, schemeCode, hashCode, counted, ← magic]
      exact stands
    case algorithm =>
      rw [Descriptor.algorithm, used]
      exact known
    case layout =>
      rw [Descriptor.algorithm, used, count]
      exact tiled
    case entries =>
      intro index inside
      simpa using (entries index inside).2
    case someRegions =>
      rw [count]
      exact positive
    case fewRegions =>
      rw [count]
      exact few
    all_goals first | assumption | rfl
  · intro parsed
    have few : descriptor.regions.length ≤ 16 := parsed.fewRegions
    have counted : descriptor.header.regionCount.toNat = descriptor.regions.length := by
      simp only [Descriptor.header, UInt8.toNat_ofNat']
      omega
    have area := parsed.area
    have total := parsed.total
    rw [parsed.signature, parsed.signed] at total
    dsimp only at total
    have signedRoom : Layout.headerLength + Region.entryLength * descriptor.regions.length ≤
        Layout.signedLength descriptor.regions.length descriptor.algorithm
          descriptor.denylistSize.toNat descriptor.blobSize.toNat := by
      unfold Layout.signedLength
      omega
    have positive : 0 < descriptor.header.regionCount := by
      have someRegions := parsed.someRegions
      rw [← counted] at someRegions
      exact UInt8.lt_iff_toNat_lt.2 someRegions
    refine ⟨descriptor.header, ⟨by omega, parsed.header⟩, ⟨rfl, parsed.formatMajor,
      parsed.ownOffset, positive, by rw [counted]; exact few, area, parsed.imageSize⟩,
      descriptor.imageType, rfl, descriptor.scheme, rfl, descriptor.hashType, rfl,
      descriptor.algorithm, parsed.algorithm, descriptor.layout, ⟨?_, ?_⟩, _, ⟨?_, rfl⟩,
      parsed.total, parsed.sections, descriptor.regions,
      ⟨counted.symm, fun entry present => ⟨?_, ?_⟩⟩, ?_⟩
    · rw [counted]
      simp only [Descriptor.header, Offset.limit]
      omega
    · rw [counted]
      exact parsed.layout
    · rw [parsed.signature, parsed.signed]
      dsimp only [Offset.limit]
      omega
    · simp only [Region.entryLength, Offset.limit] at signedRoom ⊢
      omega
    · simpa using parsed.entries entry present
    · rw [← parsed.offset]
      rfl

end Descriptor

end SignedFirmware
