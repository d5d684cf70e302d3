import SignedFirmware.Proofs.Blueprint.Building
import SignedFirmware.Proofs.Blueprint.Regularity
import SignedFirmware.Proofs.Image.Endings
import SignedFirmware.Proofs.Image.Placement

namespace SignedFirmware

/-- A signature block is read back from its encoding. -/
theorem SignatureBlock.ofBytes_encode {block : SignatureBlock}
    (modulus : block.modulus.length = block.scheme.signatureLength) :
    ofBytes block.scheme ((Field.encodeAll block.fields).drop 4) = block := by
  have split : Field.encodeAll block.fields = littleEndian 4 magics.signature.toNat ++
      (block.modulus ++ (littleEndian 4 block.exponent.toNat ++ block.signature)) := by
    simp [fields, Field.encode]
  rw [split, List.drop_left' (length_littleEndian 4 _), ofBytes, ← modulus]
  simp only [List.take_left', List.drop_left', length_littleEndian,
    littleEndianValue_littleEndian]
  have bound := block.exponent.toNat_lt
  rw [Nat.mod_eq_of_lt (by omega), UInt32.ofNat_toNat]

namespace Draft

variable {σ : Type} {draft : Draft} {hash : Digests} {block : SignatureBlock} {image : Bytes}
  {flash : Flash} {memory : Memory} {span : Span} {platform : Platform} {engine : HashEngine σ}
  {verifier : Verifier σ}

namespace Sealed

/-- The descriptor is read back, moved to where the image lies. -/
theorem parsed (held : draft.Sealed block image) (consistent : draft.Consistent)
    (carries : flash.Carries memory span image)
    (size : platform.sizeValid draft.descriptor.imageSize ≠ some false) :
    (draft.descriptor.moved span.start.toNat).Parsed flash
      (span.start.toNat + draft.descriptor.offset) span platform := by
  have places := consistent.places
  have room := consistent.room
  have placed := congrArg Extent.offset consistent.hash
  dsimp only at placed
  have headerLength : Layout.sectionHeaderLength = 8 := rfl
  have stop := carries.stop
  have length := held.filled.length
  constructor
  case offset => rfl
  case header => exact carries.stands (by omega) held.filled.header
  case formatMajor =>
    rw [Descriptor.moved, consistent.formatMajor]
    decide
  case ownOffset => rw [consistent.offset, Descriptor.moved]
  case someRegions => exact consistent.someRegions
  case fewRegions => exact consistent.fewRegions
  case area =>
    simp only [Descriptor.moved]
    omega
  case imageSize =>
    rw [Platform.Fits, Descriptor.moved]
    cases answer : platform.sizeValid draft.descriptor.imageSize with
    | none => simp [stop, length]
    | some valid =>
        cases valid with
        | false => exact absurd answer size
        | true => rfl
  case algorithm => exact consistent.algorithm
  case layout =>
    rw [Layout.tiled_shift]
    exact congrArg (Layout.shift span.start.toNat) consistent.layout
  case total =>
    have signature := congrArg Extent.length consistent.signature
    dsimp only at signature
    simp only [Descriptor.moved, Layout.shift, Extent.shift]
    omega
  case sections =>
    rw [Descriptor.checkSections_eq_ok]
    constructor
    · intro moved present
      obtain ⟨denylist, known, rfl⟩ := Option.map_eq_some_iff.1 present
      have ends := consistent.denylist_le known
      exact carries.number (by omega) (by decide) (held.filled.denylistMagic consistent known)
    · intro moved present
      obtain ⟨blob, known, rfl⟩ := Option.map_eq_some_iff.1 present
      have ends := consistent.blob_le known
      obtain ⟨header, magic⟩ := held.filled.blobMagic consistent known
      exact ⟨header, carries.number (by omega) (by decide) magic⟩
  case entries =>
    intro index inside
    have few : index < draft.descriptor.regions.length := inside
    have bound := Nat.mul_le_mul_right Region.entryLength (Nat.succ_le_of_lt few)
    rw [Nat.succ_mul, Nat.mul_comm draft.descriptor.regions.length] at bound
    have stands := held.filled.entries index few
    rw [Nat.add_assoc span.start.toNat, Nat.add_assoc span.start.toNat]
    exact carries.stands (by omega) stands

/-- The signature block starts with its word. -/
theorem signatureMagic (held : draft.Sealed block image) (consistent : draft.Consistent) :
    (Memory.ofBytes image).bytes ⟨draft.descriptor.layout.signature.offset, 4⟩ =
      littleEndian 4 magics.signature.toNat := by
  have whole := held.signature
  have room : 4 ≤ draft.descriptor.layout.signature.length := by
    rw [consistent.signature]
    exact Scheme.le_blockLength _
  rw [← Memory.take_bytes (Memory.ofBytes image) room, whole]
  simp [SignatureBlock.fields, Field.encode, List.take_left']

/-- The policy sees the descriptor as it was built. -/
theorem checkTransition (held : draft.Sealed block image) (consistent : draft.Consistent)
    (carries : flash.Carries memory span image) {family : UInt32} {currentType : Option ImageType}
    (allowed : draft.descriptor.Allowed family currentType platform) :
    (draft.descriptor.moved span.start.toNat).checkTransition flash family currentType platform =
      .ok () := by
  have places := consistent.places
  have length := held.filled.length
  have word := Scheme.le_blockLength draft.descriptor.scheme
  rw [Descriptor.checkTransition_eq_ok]
  constructor
  · exact carries.number (by omega) (by decide) (held.signatureMagic consistent)
  · exact ⟨allowed.family, allowed.signed, allowed.test, allowed.production⟩

theorem signatureBlock (held : draft.Sealed block image) (consistent : draft.Consistent)
    (carries : flash.Carries memory span image) (scheme : block.scheme = draft.descriptor.scheme)
    (modulus : block.modulus.length = block.scheme.signatureLength) :
    (draft.descriptor.moved span.start.toNat).signatureBlock flash = .ok block := by
  have places := consistent.places
  have length := held.filled.length
  have long := congrArg Extent.length consistent.signature
  dsimp only at long
  have room : 4 ≤ draft.descriptor.layout.signature.length := long ▸ Scheme.le_blockLength _
  have short : (draft.descriptor.moved span.start.toNat).layout.signature.length ≤
      SignatureBlock.maxLength :=
    Nat.le_trans (Nat.le_of_eq long) (Descriptor.blockLength_le draft.descriptor.scheme)
  obtain ⟨bytes, answer, same⟩ := carries.read
    (show draft.descriptor.layout.signature.offset + draft.descriptor.layout.signature.length ≤
      image.length by omega)
  have magic : littleEndianValue (bytes.toList.take 4) = magics.signature.toNat := by
    rw [same, Memory.take_bytes _ room, held.signatureMagic consistent]
    rfl
  have read := SignatureBlock.ofBytes_encode modulus
  rw [scheme, ← held.signature, ← same] at read
  exact (Descriptor.signatureBlock_eq_ok short).2 ⟨bytes, answer, magic, read⟩

/-- The digest that was signed is computed from the flash. -/
theorem signedDigest (held : draft.Sealed block image) (consistent : draft.Consistent)
    (carries : flash.Carries memory span image) (computes : engine.Computes hash)
    (offers : engine.Offers draft.descriptor.scheme.algorithm) (before : σ) :
    ∃ between, flash.digest engine draft.descriptor.scheme.algorithm
        [(draft.descriptor.moved span.start.toNat).layout.signed] before =
      .ok (hash draft.descriptor.scheme.algorithm
        ((Memory.ofBytes image).bytes draft.descriptor.layout.signed)) between := by
  have places := consistent.places
  have length := held.filled.length
  have stop := carries.stop
  have signedPlace := consistent.signed
  have blockPlace := consistent.signature
  have inside : draft.descriptor.layout.signed.offset + draft.descriptor.layout.signed.length ≤
      image.length := by
    have ends : draft.descriptor.layout.signed.offset + draft.descriptor.layout.signed.length =
        draft.descriptor.layout.signature.offset := by
      rw [blockPlace, signedPlace]
    omega
  have clean : ∀ extent ∈ [(draft.descriptor.moved span.start.toNat).layout.signed],
      (flash.feed extent).error = none := by
    intro extent member
    obtain rfl := List.mem_singleton.1 member
    apply carries.answers.feed
    · exact Nat.le_add_right span.start.toNat _
    · simp only [Descriptor.moved, Layout.shift, Extent.shift]
      omega
  obtain ⟨digest, between, digested⟩ := Flash.digest_completes offers clean before
  have value := carries.holds.digest computes digested
  rw [List.flatMap_singleton] at value
  have signedBytes : memory.bytes (draft.descriptor.moved span.start.toNat).layout.signed =
      (Memory.ofBytes image).bytes draft.descriptor.layout.signed := carries.bytes_shift inside
  rw [signedBytes] at value
  exact ⟨between, value ▸ digested⟩

end Sealed

namespace Formed

theorem expectedDigest (formed : draft.Formed hash block image) (consistent : draft.Consistent)
    (carries : flash.Carries memory span image)
    (inside : ∀ region ∈ draft.descriptor.regions,
      region.offset.toNat + region.size.toNat ≤ image.length) :
    (draft.descriptor.moved span.start.toNat).expectedDigest flash =
      .ok (hash (draft.descriptor.moved span.start.toNat).algorithm
        (draft.descriptor.coveredBytes (Memory.ofBytes image) 0)) := by
  have places := consistent.places
  have length := formed.filled.length
  have stop := carries.stop
  have bounded := span.stop.toNat_lt
  have headerLength : Layout.sectionHeaderLength = 8 := rfl
  obtain ⟨head, headAnswer, headBytes⟩ := carries.read
    (show draft.descriptor.layout.hash.offset + Layout.sectionHeaderLength ≤ image.length by omega)
  obtain ⟨digest, answer, digestBytes⟩ := carries.read
    (show draft.descriptor.layout.hash.offset + Layout.sectionHeaderLength +
      draft.descriptor.algorithm.length ≤ image.length by omega)
  rw [formed.digest inside, Vector.toList_inj] at digestBytes
  apply Descriptor.expectedDigest_eq_ok.2
  refine ⟨⟨head, headAnswer, ?_⟩, ?_, ?_⟩
  · rw [headBytes, Memory.take_bytes _ (by decide), formed.filled.hashMagic]
    rfl
  · simp only [Descriptor.moved, Layout.shift, Extent.shift, Offset.limit]
    omega
  · rw [← Nat.add_assoc, digestBytes] at answer
    exact answer

/-- The regions pass if their table does. -/
theorem validateRegions (formed : draft.Formed hash block image) (consistent : draft.Consistent)
    (carries : flash.Carries memory span image) (computes : engine.Computes hash)
    (offers : engine.Offers draft.descriptor.algorithm)
    (partitioned : (draft.descriptor.moved span.start.toNat).Partitioned span) {capacity : Nat}
    (room : draft.descriptor.regions.length ≤ capacity) (before : σ) :
    ∃ after, (draft.descriptor.moved span.start.toNat).validateRegions flash span engine capacity
      before = .ok ⟨draft.descriptor.regions, room⟩ after := by
  have stop := carries.stop
  have own : span.start.toNat + (draft.descriptor.moved span.start.toNat).ownOffset.toNat =
      (draft.descriptor.moved span.start.toNat).offset := by
    rw [Descriptor.moved, consistent.offset]
  have inside : ∀ region ∈ draft.descriptor.regions,
      region.offset.toNat + region.size.toNat ≤ image.length := by
    intro region member
    have within := partitioned.inside region member
    omega
  have clean : ∀ extent ∈ (draft.descriptor.moved span.start.toNat).digestRanges
      span.start.toNat, (flash.feed extent).error = none := by
    intro extent member
    obtain ⟨low, high⟩ := partitioned.digestRanges_inside own member
    exact carries.answers.feed low high
  have offers : engine.Offers (draft.descriptor.moved span.start.toNat).algorithm := offers
  obtain ⟨digest, after, digested⟩ := Flash.digest_completes offers clean before
  have value := carries.holds.digest computes digested
  rw [partitioned.bytes_digestRanges own] at value
  have same : (draft.descriptor.moved span.start.toNat).coveredBytes memory span.start.toNat =
      draft.descriptor.coveredBytes (Memory.ofBytes image) 0 := by
    apply Descriptor.coveredBytes_inj.2
    intro offset member
    obtain ⟨-, region, known, -, low, high⟩ := Descriptor.mem_coveredOffsets.1 member
    have within := inside region known
    rw [Nat.zero_add, carries.byte (by omega)]
  refine ⟨after, (Descriptor.validateRegions_eq_ok own).2 ⟨partitioned, rfl, _,
    formed.expectedDigest consistent carries inside, ?_⟩⟩
  rw [← same, ← value]
  exact digested

end Formed

end Draft

end SignedFirmware
