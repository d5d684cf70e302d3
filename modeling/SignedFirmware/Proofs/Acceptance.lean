import SignedFirmware.Proofs.Completeness
import SignedFirmware.Proofs.Safety

namespace SignedFirmware

namespace Descriptor

/-- A descriptor is the decoding of a memory from its offset on. -/
structure Decodes (descriptor : Descriptor) (memory : Memory) : Prop where
  header : Header.read (memory.bytes ⟨descriptor.offset, Layout.headerLength⟩) =
    .ok descriptor.header []
  entries : ∀ index (inside : index < descriptor.regions.length),
    Region.read (memory.bytes
      ⟨descriptor.offset + Layout.headerLength + index * Region.entryLength,
        Region.entryLength⟩) = .ok descriptor.regions[index] []
  someRegions : 0 < descriptor.regions.length
  fewRegions : descriptor.regions.length ≤ maxRegions
  formatMajor : descriptor.formatMajor ≤ maxFormatMajor
  algorithm : descriptor.hashType.algorithm? = some descriptor.algorithm

/-- The sections lie back to back in an area inside the span. -/
structure Laid (descriptor : Descriptor) (memory : Memory) (span : Span) : Prop where
  start : span.start.toNat + descriptor.ownOffset.toNat = descriptor.offset
  stop : descriptor.offset + descriptor.areaSize.toNat ≤ span.stop.toNat
  layout : descriptor.layout = Layout.tiled descriptor.offset descriptor.regions.length
    descriptor.algorithm descriptor.denylistSize.toNat descriptor.blobSize.toNat descriptor.scheme
  sections : ∃ stop,
    Extent.Tile descriptor.offset (descriptor.layout.sections descriptor.regions.length) stop ∧
      stop ≤ descriptor.offset + descriptor.areaSize.toNat
  hashMagic : littleEndianValue (memory.bytes ⟨descriptor.layout.hash.offset, 4⟩) =
    magics.hash.toNat
  denylistMagic : ∀ denylist ∈ descriptor.layout.denylist,
    littleEndianValue (memory.bytes ⟨denylist.offset, 4⟩) = magics.denylist.toNat
  blobMagic : ∀ blob ∈ descriptor.layout.blob,
    littleEndianValue (memory.bytes ⟨blob.offset, 4⟩) = magics.blob.toNat
  signatureMagic : littleEndianValue (memory.bytes ⟨descriptor.layout.signature.offset, 4⟩) =
    magics.signature.toNat

/-- The signature block that stands in a memory after its word. -/
def standingBlock (descriptor : Descriptor) (memory : Memory) : SignatureBlock :=
  let modulusStart := descriptor.layout.signature.offset + 4
  let length := descriptor.scheme.signatureLength
  { scheme := descriptor.scheme
    modulus := memory.bytes ⟨modulusStart, length⟩
    exponent := UInt32.ofNat (littleEndianValue (memory.bytes ⟨modulusStart + length, 4⟩))
    signature := memory.bytes ⟨modulusStart + length + 4, length⟩ }

/-- The digest that stands in a memory. -/
def standingDigest (descriptor : Descriptor) (memory : Memory) : Bytes :=
  memory.bytes ⟨descriptor.layout.hash.offset + Layout.sectionHeaderLength,
    descriptor.algorithm.length⟩

/-- The bytes of an image are those that were signed and digested. -/
structure Authentic (descriptor : Descriptor) (hash : Digests) (memory : Memory)
    (settings : Settings) (platform : Platform) : Prop where
  aligned : settings.alignment.toNat ∣ descriptor.offset
  decodes : descriptor.Decodes memory
  laid : descriptor.Laid memory settings.span
  size : platform.Fits settings.span descriptor.imageSize
  allowed : descriptor.Allowed settings.family settings.currentType platform
  partitioned : descriptor.Partitioned settings.span
  digest : descriptor.standingDigest memory =
    (hash descriptor.algorithm
      (descriptor.coveredBytes memory settings.span.start.toNat)).toList

section Standing

variable {flash : Flash} {memory : Memory} {position : Nat} {span : Span} {platform : Platform}
  {descriptor : Descriptor}

/-- Fields that stand in flash are read from the memory. -/
theorem read_standing {α : Type} {reader : Reader α} {fields : α → List Field} {value : α}
    {offset length : Nat} (holds : flash.Holds memory) (takes : reader.Takes fields)
    (stands : flash.Stands offset length (fields value)) :
    reader (memory.bytes ⟨offset, length⟩) = .ok value [] := by
  obtain ⟨bytes, answer, leads⟩ := stands
  rw [← holds.read answer]
  exact takes.2 leads

theorem Parsed.decodes (parsed : descriptor.Parsed flash position span platform)
    (holds : flash.Holds memory) : descriptor.Decodes memory where
  header := by
    rw [parsed.offset]
    exact read_standing holds Header.takes_read parsed.header
  entries index inside := by
    rw [parsed.offset]
    exact read_standing holds Region.takes_read (parsed.entries index inside)
  someRegions := parsed.someRegions
  fewRegions := parsed.fewRegions
  formatMajor := parsed.formatMajor
  algorithm := parsed.algorithm

/-- A signature block has the bytes of the memory after the word. -/
theorem block_standing (holds : flash.Holds memory)
    (long : descriptor.layout.signature.length = descriptor.scheme.blockLength)
    {block : SignatureBlock} (read : descriptor.signatureBlock flash = .ok block) :
    littleEndianValue (memory.bytes ⟨descriptor.layout.signature.offset, 4⟩) =
        magics.signature.toNat ∧
      block = descriptor.standingBlock memory := by
  have short : descriptor.layout.signature.length ≤ SignatureBlock.maxLength :=
    long ▸ blockLength_le descriptor.scheme
  obtain ⟨bytes, answer, magic, rfl⟩ := (signatureBlock_eq_ok short).1 read
  have whole := holds.read answer
  have room : descriptor.layout.signature.length =
      4 + (descriptor.scheme.signatureLength + (4 + descriptor.scheme.signatureLength)) := by
    rw [long, Scheme.blockLength]
    omega
  rw [whole, Memory.take_bytes memory (by omega)] at magic
  refine ⟨magic, ?_⟩
  rw [whole, room]
  simp only [SignatureBlock.ofBytes, standingBlock, Memory.bytes_add, Memory.length_bytes,
    List.take_left', List.drop_left', Nat.add_assoc]

/-- The digest of a hash struct is the one that stands in the memory. -/
theorem digest_standing (holds : flash.Holds memory)
    {expected : Vector UInt8 descriptor.algorithm.length}
    (read : descriptor.expectedDigest flash = .ok expected) :
    littleEndianValue (memory.bytes ⟨descriptor.layout.hash.offset, 4⟩) = magics.hash.toNat ∧
      expected.toList = descriptor.standingDigest memory := by
  obtain ⟨⟨head, answer, magic⟩, -, digest⟩ := expectedDigest_eq_ok.1 read
  rw [holds.read answer, Memory.take_bytes memory (by decide)] at magic
  exact ⟨magic, holds.read digest⟩

/-- The words of all sections stand in the memory. -/
theorem Parsed.laid (parsed : descriptor.Parsed flash position span platform)
    (holds : flash.Holds memory)
    (hashMagic : littleEndianValue (memory.bytes ⟨descriptor.layout.hash.offset, 4⟩) =
      magics.hash.toNat)
    (signatureMagic : littleEndianValue
      (memory.bytes ⟨descriptor.layout.signature.offset, 4⟩) = magics.signature.toNat) :
    descriptor.Laid memory span where
  start := parsed.ownOffset.trans parsed.offset.symm
  stop := by
    rw [parsed.offset]
    exact parsed.area
  layout := by
    rw [parsed.offset]
    exact parsed.layout.symm
  sections := by
    have tile := Layout.tile_sections position descriptor.regions.length descriptor.algorithm
      descriptor.denylistSize.toNat descriptor.blobSize.toNat descriptor.scheme
    have total := parsed.total
    rw [parsed.layout] at tile
    rw [parsed.signature, parsed.signed] at total
    rw [parsed.offset]
    exact ⟨_, tile, by dsimp only at total; omega⟩
  hashMagic := hashMagic
  denylistMagic denylist present :=
    (holds.number ((checkSections_eq_ok.1 parsed.sections).1 denylist present)).symm
  blobMagic blob present :=
    (holds.number ((checkSections_eq_ok.1 parsed.sections).2 blob present).2).symm
  signatureMagic := signatureMagic

end Standing

end Descriptor

namespace Context

variable {σ : Type} {capacity : Nat}

/-- An accepted image is authentic, and its digests and signature were checked. -/
theorem validate_sound {context : Context} {flash : Flash} {memory : Memory} {platform : Platform}
    {engine : HashEngine σ} {hash : Digests} {verifier : Verifier σ}
    {table : RegionTable capacity} {state : σ} (holds : flash.Holds memory)
    (computes : engine.Computes hash)
    (accepted : (context.validate flash platform engine verifier table state).1.result = .ok ()) :
    ∃ descriptor key found before digested verified final,
      context.validate flash platform engine verifier table state =
        (⟨.ok (), ⟨context.settings, .valid, some key, some descriptor⟩, found⟩, final) ∧
      found.regions = descriptor.regions ∧
      descriptor.Authentic hash memory context.settings platform ∧
      flash.digest engine descriptor.scheme.algorithm [descriptor.layout.signed] before =
        .ok (hash descriptor.scheme.algorithm (memory.bytes descriptor.layout.signed)) digested ∧
      verifier.verify (descriptor.standingBlock memory)
        (hash descriptor.scheme.algorithm (memory.bytes descriptor.layout.signed)).toList digested =
          .ok key verified ∧
      flash.digest engine descriptor.algorithm
        (descriptor.digestRanges context.settings.span.start.toNat) verified =
          .ok (hash descriptor.algorithm
            (descriptor.coveredBytes memory context.settings.span.start.toNat)) final := by
  obtain ⟨position, before, descriptor, key, found, final, multiple, passed, concluded⟩ :=
    validate_eq_ok accepted
  obtain ⟨parsed, allowed, verified, signed, tabled⟩ :=
    Settings.validateCandidate_eq_ok.1 passed
  have own := parsed.ownOffset.trans parsed.offset.symm
  obtain ⟨-, allowed⟩ := Descriptor.checkTransition_eq_ok.1 allowed
  obtain ⟨signedDigest, digested, block, computed, read, verifies⟩ :=
    Descriptor.verifySignature_eq_ok.1 signed
  obtain ⟨partitioned, copied, expected, stored, covered⟩ :=
    (Descriptor.validateRegions_eq_ok own).1 tabled
  have signedBytes := holds.digest computes computed
  rw [List.flatMap_singleton] at signedBytes
  have coveredBytes := holds.digest computes covered
  rw [partitioned.bytes_digestRanges own] at coveredBytes
  have long : descriptor.layout.signature.length = descriptor.scheme.blockLength := by
    rw [parsed.signature]
  obtain ⟨signatureMagic, rfl⟩ := Descriptor.block_standing holds long read
  obtain ⟨hashMagic, standing⟩ := Descriptor.digest_standing holds stored
  have authentic : descriptor.Authentic hash memory context.settings platform :=
    { aligned := parsed.offset ▸ multiple
      decodes := parsed.decodes holds
      laid := parsed.laid holds hashMagic signatureMagic
      size := parsed.imageSize
      allowed := allowed
      partitioned := partitioned
      digest := by rw [← standing, coveredBytes] }
  subst signedBytes coveredBytes
  exact ⟨descriptor, key, found, before, digested, verified, final, concluded, copied, authentic,
    computed, verifies, covered⟩

/-- The smallest image is authentic, because its validation succeeds. -/
theorem smallest_authentic :
    ∃ image descriptor, (Blueprint.validateSmallest image).1.result = .ok () ∧
      (Blueprint.validateSmallest image).1.context.descriptor = some descriptor ∧
      descriptor.Authentic Sha2.digest (Memory.ofBytes (zeroBytes 64 ++ (image ++ [])))
        ⟨⟨64, 4160⟩, 64, 0, none⟩ ⟨some true, none, fun _ => none⟩ := by
  obtain ⟨image, accepted⟩ := Blueprint.validateSmallest_eq_ok
  obtain ⟨descriptor, key, found, before, digested, verified, final, concluded, -, authentic, -⟩ :=
    validate_sound (Flash.holds_ofBytes _) Sha2.engine_computes accepted
  refine ⟨image, descriptor, accepted, ?_, authentic⟩
  rw [Blueprint.validateSmallest, concluded]

end Context

end SignedFirmware
