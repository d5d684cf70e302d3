import SignedFirmware.Proofs.Blueprint.Sections
import SignedFirmware.Proofs.Digests

namespace SignedFirmware

namespace Draft

variable {draft : Draft}

/-- The sections of a draft stand in an image, without digest and signature block. -/
structure Filled (draft : Draft) (image : Bytes) : Prop where
  length : image.length = draft.descriptor.imageSize.toNat
  header : (Memory.ofBytes image).bytes ⟨draft.descriptor.offset, Layout.headerLength⟩ =
    Field.encodeAll draft.descriptor.header.fields
  entries : ∀ index (inside : index < draft.descriptor.regions.length),
    (Memory.ofBytes image).bytes
      ⟨draft.descriptor.offset + Layout.headerLength + index * Region.entryLength,
        Region.entryLength⟩ = Field.encodeAll draft.descriptor.regions[index].fields
  hashMagic : (Memory.ofBytes image).bytes ⟨draft.descriptor.layout.hash.offset, 4⟩ =
    littleEndian 4 magics.hash.toNat
  denylist : ∀ denylist ∈ draft.descriptor.layout.denylist,
    (Memory.ofBytes image).bytes denylist = Field.encodeAll draft.denylistFields
  blob : ∀ blob ∈ draft.descriptor.layout.blob, (Memory.ofBytes image).bytes blob = draft.blob

/-- An image holds a draft, its digest and a signature block. -/
structure Formed (draft : Draft) (hash : Digests) (block : SignatureBlock) (image : Bytes) :
    Prop where
  filled : draft.Filled image
  digest : (∀ region ∈ draft.descriptor.regions,
      region.offset.toNat + region.size.toNat ≤ image.length) →
    (Memory.ofBytes image).bytes
      ⟨draft.descriptor.layout.hash.offset + Layout.sectionHeaderLength,
        draft.descriptor.algorithm.length⟩ =
      (hash draft.descriptor.algorithm
        (draft.descriptor.coveredBytes (Memory.ofBytes image) 0)).toList
  signature : (Memory.ofBytes image).bytes draft.descriptor.layout.signature =
    Field.encodeAll block.fields

/-- An image holds a draft and a signature block, without the digest. -/
structure Sealed (draft : Draft) (block : SignatureBlock) (image : Bytes) : Prop where
  filled : draft.Filled image
  signature : (Memory.ofBytes image).bytes draft.descriptor.layout.signature =
    Field.encodeAll block.fields

theorem Formed.sealed {hash : Digests} {block : SignatureBlock} {image : Bytes}
    (formed : draft.Formed hash block image) : draft.Sealed block image :=
  ⟨formed.filled, formed.signature⟩

namespace Consistent

/-- The hash struct comes right after the region table. -/
theorem hash (consistent : draft.Consistent) :
    draft.descriptor.layout.hash =
      ⟨draft.descriptor.offset + Layout.headerLength +
          Region.entryLength * draft.descriptor.regions.length,
        Layout.sectionHeaderLength + draft.descriptor.algorithm.length⟩ := by
  rw [← consistent.layout]
  rfl

/-- The signed range starts where the descriptor does. -/
theorem signed (consistent : draft.Consistent) :
    draft.descriptor.layout.signed =
      ⟨draft.descriptor.offset, Layout.signedLength draft.descriptor.regions.length
        draft.descriptor.algorithm draft.descriptor.denylistSize.toNat
        draft.descriptor.blobSize.toNat⟩ := by
  rw [← consistent.layout]
  rfl

/-- The signature block comes right after the signed range. -/
theorem signature (consistent : draft.Consistent) :
    draft.descriptor.layout.signature =
      ⟨draft.descriptor.offset + draft.descriptor.layout.signed.length,
        draft.descriptor.scheme.blockLength⟩ := by
  rw [consistent.signed, ← consistent.layout, Layout.signature_tiled]

/-- The signed range ends where the signature block starts. -/
theorem signedStop (consistent : draft.Consistent) :
    draft.descriptor.layout.signed.offset + draft.descriptor.layout.signed.length =
      draft.descriptor.layout.signature.offset := by
  rw [consistent.signature, consistent.signed]

/-- The digest and then the signature block lie in the descriptor's area. -/
theorem places (consistent : draft.Consistent) :
    draft.descriptor.offset ≤ draft.descriptor.layout.hash.offset ∧
      draft.descriptor.layout.hash.offset + Layout.sectionHeaderLength +
          draft.descriptor.algorithm.length =
        draft.descriptor.layout.hash.offset + draft.descriptor.layout.hash.length ∧
      draft.descriptor.layout.hash.offset + draft.descriptor.layout.hash.length ≤
        draft.descriptor.layout.signature.offset ∧
      draft.descriptor.layout.signature.offset + draft.descriptor.scheme.blockLength ≤
        draft.descriptor.offset + draft.descriptor.areaSize.toNat ∧
      draft.descriptor.offset + draft.descriptor.areaSize.toNat ≤
        draft.descriptor.imageSize.toNat := by
  have room := consistent.room
  have area := consistent.area
  rw [consistent.signed] at room
  rw [consistent.signature, consistent.signed, consistent.hash]
  simp only [Layout.signedLength] at room ⊢
  omega

/-- A denylist has a header, and it ends before the signature block. -/
theorem denylist_le (consistent : draft.Consistent) {denylist : Extent}
    (present : denylist ∈ draft.descriptor.layout.denylist) :
    Layout.sectionHeaderLength ≤ denylist.length ∧
      denylist.offset + denylist.length ≤ draft.descriptor.layout.signature.offset := by
  rw [← consistent.layout] at present
  rw [consistent.signature, consistent.signed]
  exact (Layout.denylist_tiled present).2

/-- A blob ends before the signature block. -/
theorem blob_le (consistent : draft.Consistent) {blob : Extent}
    (present : blob ∈ draft.descriptor.layout.blob) :
    blob.offset + blob.length ≤ draft.descriptor.layout.signature.offset := by
  rw [← consistent.layout] at present
  rw [consistent.signature, consistent.signed]
  exact (Layout.blob_tiled present).2

/-- There is no denylist if it would have no entries. -/
theorem denylist_eq_none (consistent : draft.Consistent) :
    draft.descriptor.layout.denylist = none ↔ draft.denylist = [] := by
  rw [← List.length_eq_zero_iff, consistent.denylist, ← consistent.layout]
  by_cases absent : draft.descriptor.denylistSize.toNat = 0 <;> simp [Layout.tiled, absent]

/-- There is no blob if it would be empty. -/
theorem blob_eq_none (consistent : draft.Consistent) :
    draft.descriptor.layout.blob = none ↔ draft.blob = [] := by
  rw [← List.length_eq_zero_iff, consistent.blob, ← consistent.layout]
  by_cases absent : draft.descriptor.blobSize.toNat = 0 <;> simp [Layout.tiled, absent]

/-- A denylist that is present comes right after the hash struct. -/
theorem denylist_mem (consistent : draft.Consistent) {denylist : Extent}
    (present : denylist ∈ draft.descriptor.layout.denylist) :
    draft.denylist ≠ [] ∧ denylist = ⟨draft.descriptor.layout.hash.offset +
      (Layout.sectionHeaderLength + draft.descriptor.algorithm.length),
        Layout.denylistLength draft.denylist.length⟩ := by
  constructor
  · rw [ne_eq, ← consistent.denylist_eq_none]
    intro absent
    rw [absent] at present
    cases present
  · rw [consistent.denylist]
    rw [← consistent.layout] at present ⊢
    by_cases absent : draft.descriptor.denylistSize.toNat = 0
    · simp [Layout.tiled, absent] at present
    · simp only [Layout.tiled, absent, if_false, Option.mem_def, Option.some.injEq] at present
      rw [← present, Layout.denylistLength, if_neg absent]
      rfl

/-- A blob that is present comes right after the denylist. -/
theorem blob_mem (consistent : draft.Consistent) {blob : Extent}
    (present : blob ∈ draft.descriptor.layout.blob) :
    draft.blob ≠ [] ∧ blob = ⟨draft.descriptor.layout.hash.offset +
      (Layout.sectionHeaderLength + draft.descriptor.algorithm.length) +
        Layout.denylistLength draft.denylist.length, draft.blob.length⟩ := by
  constructor
  · rw [ne_eq, ← consistent.blob_eq_none]
    intro absent
    rw [absent] at present
    cases present
  · rw [consistent.denylist, consistent.blob]
    rw [← consistent.layout] at present ⊢
    by_cases absent : draft.descriptor.blobSize.toNat = 0
    · simp [Layout.tiled, absent] at present
    · simp only [Layout.tiled, absent, if_false, Option.mem_def, Option.some.injEq] at present
      exact present.symm

end Consistent

/-- The digest and the signature block do not matter to a filled image. -/
theorem Filled.congr (consistent : draft.Consistent) {left right : Bytes}
    (filled : draft.Filled left) (length : right.length = left.length)
    (agree : ∀ index, index < draft.descriptor.layout.signature.offset →
      index < draft.descriptor.layout.hash.offset + Layout.sectionHeaderLength ∨
        draft.descriptor.layout.hash.offset + draft.descriptor.layout.hash.length ≤ index →
      Memory.ofBytes right index = Memory.ofBytes left index) : draft.Filled right := by
  have same {offset length : Nat}
      (before : offset + length ≤ draft.descriptor.layout.signature.offset)
      (apart : offset + length ≤
          draft.descriptor.layout.hash.offset + Layout.sectionHeaderLength ∨
        draft.descriptor.layout.hash.offset + draft.descriptor.layout.hash.length ≤ offset) :
      (Memory.ofBytes right).bytes ⟨offset, length⟩ =
        (Memory.ofBytes left).bytes ⟨offset, length⟩ := by
    apply Memory.bytes_congr
    intro index low high
    dsimp only at low high
    exact agree index (by omega) (by omega)
  have headerLength : Layout.sectionHeaderLength = 8 := rfl
  have places := consistent.places
  have placed := congrArg Extent.offset consistent.hash
  dsimp only at placed
  constructor
  case length => rw [length, filled.length]
  case header =>
    rw [same (by omega) (by omega)]
    exact filled.header
  case entries =>
    intro index inside
    have room := Nat.mul_le_mul_right Region.entryLength (Nat.succ_le_of_lt inside)
    rw [Nat.succ_mul, Nat.mul_comm draft.descriptor.regions.length] at room
    rw [same (by omega) (by omega)]
    exact filled.entries index inside
  case hashMagic =>
    rw [same (by omega) (by omega)]
    exact filled.hashMagic
  case denylist =>
    intro denylist present
    have place := congrArg Extent.offset (consistent.denylist_mem present).2
    have ends := (consistent.denylist_le present).2
    dsimp only at place
    rw [same ends (by omega)]
    exact filled.denylist denylist present
  case blob =>
    intro blob present
    have place := congrArg Extent.offset (consistent.blob_mem present).2
    have ends := consistent.blob_le present
    dsimp only at place
    rw [same ends (by omega)]
    exact filled.blob blob present

/-- The blank image is the padded payload with the draft's fields in the area. -/
theorem ofBytes_blank (consistent : draft.Consistent) {payload image : Bytes}
    (result : draft.blank payload = .ok image) :
    image.length = draft.descriptor.imageSize.toNat ∧ ∀ index, Memory.ofBytes image index =
      if draft.descriptor.offset ≤ index ∧
          index < draft.descriptor.offset + draft.descriptor.areaSize.toNat then
        Memory.ofBytes (Field.encodeAll draft.fields) (index - draft.descriptor.offset)
      else Memory.ofBytes (payload ++ List.replicate (draft.descriptor.imageSize.toNat -
        payload.length) Blueprint.filler) index := by
  simp only [blank, bind_eq_ok, demand_eq_ok, exists_answer, fill_eq_ok, pure_eq_ok,
    ← consistent.offset] at result
  obtain ⟨short, area, ⟨room, rfl⟩, rfl⟩ := result
  have inside := consistent.area
  have paddedLength : (payload ++ List.replicate (draft.descriptor.imageSize.toNat -
      payload.length) Blueprint.filler).length = draft.descriptor.imageSize.toNat := by
    rw [List.length_append, List.length_replicate]
    omega
  have areaLength : (Field.encodeAll draft.fields ++ zeroBytes (draft.descriptor.areaSize.toNat -
      (Field.encodeAll draft.fields).length)).length = draft.descriptor.areaSize.toNat := by
    rw [List.length_append, length_zeroBytes]
    omega
  have within := inside
  rw [← areaLength, ← paddedLength] at within
  refine ⟨by rw [length_splice within, paddedLength], fun index => ?_⟩
  rw [Memory.ofBytes_splice within, areaLength, Memory.ofBytes_append_zeroBytes]

/-- The blank image holds the fields of the draft from the descriptor's offset on. -/
theorem bytes_blank (consistent : draft.Consistent) {payload image : Bytes}
    (result : draft.blank payload = .ok image) {start length : Nat}
    (within : start + length ≤ draft.descriptor.areaSize.toNat) :
    (Memory.ofBytes image).bytes ⟨draft.descriptor.offset + start, length⟩ =
      (Memory.ofBytes (Field.encodeAll draft.fields ++ [])).bytes ⟨start, length⟩ := by
  obtain ⟨-, placed⟩ := ofBytes_blank consistent result
  apply Memory.bytes_shift
  intro index low high
  rw [placed, if_pos (by omega), Nat.add_sub_cancel_left, List.append_nil]

/-- The image without its digest and its signature block is filled. -/
theorem blank_eq_ok (consistent : draft.Consistent) {payload image : Bytes}
    (result : draft.blank payload = .ok image) : draft.Filled image := by
  obtain ⟨length, -⟩ := ofBytes_blank consistent result
  have found {start length : Nat} := @bytes_blank draft consistent payload image result start length
  have headerLength : Layout.sectionHeaderLength = 8 := rfl
  have signedRoom := consistent.room
  rw [consistent.signed] at signedRoom
  simp only [Layout.signedLength] at signedRoom
  constructor
  case length => exact length
  case header =>
    have place := @found 0 Layout.headerLength (by omega)
    rw [Nat.add_zero] at place
    rw [place, bytes_header]
  case entries =>
    intro index present
    have bound := Nat.mul_le_mul_right Region.entryLength (Nat.succ_le_of_lt present)
    rw [Nat.succ_mul, Nat.mul_comm draft.descriptor.regions.length] at bound
    rw [Nat.add_assoc, found (by omega), bytes_entry present]
  case hashMagic =>
    rw [consistent.hash, Nat.add_assoc, found (by omega), bytes_hashMagic]
  case denylist =>
    intro denylist present
    obtain ⟨-, rfl⟩ := consistent.denylist_mem present
    rw [← consistent.denylist] at signedRoom
    rw [consistent.hash]
    simp only [Nat.add_assoc draft.descriptor.offset]
    rw [found (by omega), bytes_denylist]
  case blob =>
    intro blob present
    obtain ⟨-, rfl⟩ := consistent.blob_mem present
    rw [← consistent.denylist, ← consistent.blob] at signedRoom
    rw [consistent.hash]
    simp only [Nat.add_assoc draft.descriptor.offset]
    rw [found (by omega), bytes_blob]

/-- A denylist starts with its word. -/
theorem Filled.denylistMagic (consistent : draft.Consistent) {image : Bytes}
    (filled : draft.Filled image) {denylist : Extent}
    (present : denylist ∈ draft.descriptor.layout.denylist) :
    (Memory.ofBytes image).bytes ⟨denylist.offset, 4⟩ =
      littleEndian 4 magics.denylist.toNat := by
  have headerLength : Layout.sectionHeaderLength = 8 := rfl
  have room := (consistent.denylist_le present).1
  have nonempty : draft.denylist.isEmpty = false := by
    simpa using (consistent.denylist_mem present).1
  rw [← Memory.take_bytes (Memory.ofBytes image) (show 4 ≤ denylist.length by omega),
    filled.denylist denylist present, denylistFields, nonempty]
  simp [Field.encode, List.take_left']

/-- A blob has room for its header and starts with its word. -/
theorem Filled.blobMagic (consistent : draft.Consistent) {image : Bytes}
    (filled : draft.Filled image) {blob : Extent} (present : blob ∈ draft.descriptor.layout.blob) :
    Layout.sectionHeaderLength ≤ blob.length ∧
      (Memory.ofBytes image).bytes ⟨blob.offset, 4⟩ = littleEndian 4 magics.blob.toNat := by
  obtain ⟨nonempty, place⟩ := consistent.blob_mem present
  obtain ⟨records, split⟩ := consistent.blobHeader.resolve_left nonempty
  have length : blob.length = draft.blob.length := congrArg Extent.length place
  have room : Layout.sectionHeaderLength ≤ blob.length := by
    rw [length, split, List.length_append]
    simp [Field.encode, Layout.sectionHeaderLength]
  refine ⟨room, ?_⟩
  rw [← Memory.take_bytes (Memory.ofBytes image) (show 4 ≤ blob.length by
      rw [Layout.sectionHeaderLength] at room; omega),
    filled.blob blob present, split]
  simp [Field.encode, List.take_left']

section Patches

variable {blank digest digested block image : Bytes}

/-- The digest and the signature block leave all other bytes alone. -/
theorem Filled.patched (consistent : draft.Consistent) (filled : draft.Filled blank)
    (digestLength : digest.length = draft.descriptor.algorithm.length)
    (blockLength : block.length = draft.descriptor.scheme.blockLength)
    (first : digested = splice blank
      (draft.descriptor.layout.hash.offset + Layout.sectionHeaderLength) digest)
    (second : image = splice digested draft.descriptor.layout.signature.offset block) :
    draft.Filled image ∧
      (Memory.ofBytes image).bytes
        ⟨draft.descriptor.layout.hash.offset + Layout.sectionHeaderLength,
          draft.descriptor.algorithm.length⟩ = digest ∧
      (Memory.ofBytes image).bytes draft.descriptor.layout.signature = block ∧
      slice digested draft.descriptor.layout.signed.offset
          (draft.descriptor.layout.signed.offset + draft.descriptor.layout.signed.length) =
        (Memory.ofBytes image).bytes draft.descriptor.layout.signed ∧
      ∀ index, index < draft.descriptor.offset ∨ draft.descriptor.layout.signature.offset +
          draft.descriptor.layout.signature.length ≤ index →
        Memory.ofBytes image index = Memory.ofBytes blank index := by
  have places := consistent.places
  have signature := consistent.signature
  have signatureLength := congrArg Extent.length signature
  have length := filled.length
  have digestInside : draft.descriptor.layout.hash.offset + Layout.sectionHeaderLength +
      digest.length ≤ blank.length := by omega
  have digestedLength : digested.length = blank.length := first ▸ length_splice digestInside
  have blockInside : draft.descriptor.layout.signature.offset + block.length ≤
      digested.length := by omega
  have imageLength : image.length = digested.length := second ▸ length_splice blockInside
  have written (index : Nat) := Memory.ofBytes_splice digestInside index
  have signed (index : Nat) := Memory.ofBytes_splice blockInside index
  rw [← first] at written
  rw [← second] at signed
  have digestBytes := Memory.bytes_splice_within digestInside (show 0 + digest.length ≤ _ by omega)
  have blockBytes := Memory.bytes_splice_within blockInside (show 0 + block.length ≤ _ by omega)
  have apart {extent : Extent}
      (before : extent.offset + extent.length ≤ draft.descriptor.layout.signature.offset) :=
    Memory.bytes_splice_apart blockInside (.inl before)
  rw [← first, Nat.add_zero, Memory.bytes_ofBytes_self, digestLength] at digestBytes
  rw [← second, Nat.add_zero, Memory.bytes_ofBytes_self, blockLength] at blockBytes
  rw [← second] at apart
  refine ⟨?_, ?_, ?_, ?_, ?_⟩
  · apply filled.congr consistent (by omega)
    intro index before outside
    rw [signed, if_neg (by omega), written, if_neg (by omega)]
  · rw [apart (by dsimp only; omega), digestBytes]
  · rw [signature] at blockBytes ⊢
    exact blockBytes
  · have before : draft.descriptor.layout.signed.offset + draft.descriptor.layout.signed.length ≤
        draft.descriptor.layout.signature.offset := Nat.le_of_eq consistent.signedStop
    have inside : draft.descriptor.layout.signed.offset + draft.descriptor.layout.signed.length ≤
        digested.length := by omega
    rw [apart before, ← Memory.bytes_ofBytes digested inside]
  · intro index outside
    dsimp only at signatureLength
    rw [signed, if_neg (by omega), written, if_neg (by omega)]

end Patches

/-- The covered parts of an image are the covered bytes. -/
theorem flatten_digestParts {image : Bytes}
    (inside : ∀ region ∈ draft.descriptor.regions,
      region.offset.toNat + region.size.toNat ≤ image.length) :
    (draft.digestParts image).flatten =
      draft.descriptor.coveredBytes (Memory.ofBytes image) 0 := by
  have parts : ∀ region ∈ draft.descriptor.regions.filter Region.isStatic,
      (draft.coveredParts image region).flatten =
        (draft.descriptor.regionOffsets region).map (Memory.ofBytes image) :=
    fun region member => flatten_coveredParts (inside region (List.mem_filter.1 member).1)
  rw [digestParts, List.flatMap_def, List.flatten_flatten, List.map_map,
    Descriptor.coveredBytes, Descriptor.coveredOffsets, List.map_flatMap, List.flatMap_def]
  simp only [Nat.zero_add]
  exact congrArg List.flatten (List.map_congr_left parts)

end Draft

namespace Scheme

/-- The scheme for a key fixes the length of its modulus. -/
theorem forKey?_eq_some {length : Nat} {algorithm : Algorithm} {scheme : Scheme}
    (found : forKey? length algorithm = some scheme) : length = scheme.signatureLength := by
  unfold forKey? at found
  split at found <;> first | (obtain rfl := Option.some.inj found; rfl) | cases found

/-- A key of the right length is one for the scheme. -/
theorem forKey?_self (scheme : Scheme) :
    forKey? scheme.signatureLength scheme.algorithm = some scheme := by
  cases scheme <;> rfl

end Scheme

namespace SignatureBlock

/-- A signature block is as long as its scheme says if its parts are. -/
theorem length_encode {block : SignatureBlock}
    (modulus : block.modulus.length = block.scheme.signatureLength)
    (signature : block.signature.length = block.scheme.signatureLength) :
    (Field.encodeAll block.fields).length = block.scheme.blockLength := by
  simp [fields, Field.encode, Scheme.blockLength, modulus, signature]
  omega

end SignatureBlock

namespace Draft.Consistent

variable {draft : Draft}

/-- The descriptor's area has room for the fields of a draft. -/
theorem fill_fields (consistent : draft.Consistent) :
    Draft.fill draft.descriptor.areaSize.toNat draft.fields =
      .ok (Field.encodeAll draft.fields ++ zeroBytes (draft.descriptor.areaSize.toNat -
        (Field.encodeAll draft.fields).length)) := by
  have room := consistent.room
  rw [← consistent.length_fields] at room
  exact Draft.fill_eq_ok.2 ⟨Nat.le_trans (Nat.le_add_right _ _) room, rfl⟩

/-- A signature block for the scheme fills its place. -/
theorem fill_block (consistent : draft.Consistent) {block : SignatureBlock}
    (scheme : block.scheme = draft.descriptor.scheme)
    (modulus : block.modulus.length = block.scheme.signatureLength)
    (signature : block.signature.length = block.scheme.signatureLength) :
    Draft.fill draft.descriptor.layout.signature.length block.fields =
      .ok (Field.encodeAll block.fields) := by
  have length := block.length_encode modulus signature
  rw [Draft.fill_eq_ok, length, scheme, consistent.signature]
  simp [zeroBytes]

end Draft.Consistent

namespace Blueprint

variable {σ : Type} {blueprint : Blueprint} {draft : Draft} {payload image : Bytes}
  {engine : HashEngine σ} {hash : Digests} {signer : Signer σ} {before after : σ}

/-- A blueprint that is built has a draft. -/
theorem drafted_of_build
    (built : blueprint.build payload engine signer before = .ok image after) :
    ∃ draft, blueprint.draft = .ok draft := by
  simp only [Blueprint.build, device_bind_eq_ok, perform_eq_ok] at built
  obtain ⟨draft, _, ⟨drafted, -⟩, -⟩ := built
  exact ⟨draft, drafted⟩

/-- The digest was computed first, and the signer signed that of the signed range. -/
theorem build_sealed (drafted : blueprint.draft = .ok draft)
    (built : blueprint.build payload engine signer before = .ok image after) :
    ∃ blank covered middle digest between signature,
      draft.blank payload = .ok blank ∧
        engine.digest draft.descriptor.algorithm (draft.digestParts blank) before =
          .ok covered middle ∧
        engine.digest draft.descriptor.scheme.algorithm
          [(Memory.ofBytes image).bytes draft.descriptor.layout.signed] middle =
            .ok digest between ∧
        signer.sign draft.descriptor.scheme digest.toList
          draft.descriptor.scheme.signatureLength between = .ok signature after ∧
        signer.modulus.length = draft.descriptor.scheme.signatureLength ∧
        draft.Sealed
          ⟨draft.descriptor.scheme, signer.modulus, signer.exponent, signature.toList⟩ image ∧
        (Memory.ofBytes image).bytes
          ⟨draft.descriptor.layout.hash.offset + Layout.sectionHeaderLength,
            draft.descriptor.algorithm.length⟩ = covered.toList ∧
        image.length = blank.length ∧
        ∀ index, index < draft.descriptor.offset ∨ draft.descriptor.layout.signature.offset +
            draft.descriptor.layout.signature.length ≤ index →
          Memory.ofBytes image index = Memory.ofBytes blank index := by
  obtain ⟨consistent, -⟩ := draft_eq_ok drafted
  simp only [Blueprint.build, drafted, device_bind_eq_ok, perform_eq_ok, adaptExcept_eq_ok,
    demand_eq_ok, exists_answer, device_pure_eq_ok, Except.ok.injEq] at built
  obtain ⟨_, _, ⟨rfl, rfl⟩, blank, _, ⟨blanked, rfl⟩, covered, middle, digested, digest,
    between, signed, _, ⟨fits, rfl⟩, signature, _, signs, bytes, _, ⟨placed, rfl⟩, rfl,
    rfl⟩ := built
  have filled := Draft.blank_eq_ok consistent blanked
  have modulus := Scheme.forKey?_eq_some fits
  let block : SignatureBlock :=
    ⟨draft.descriptor.scheme, signer.modulus, signer.exponent, signature.toList⟩
  have signatureLength : block.signature.length = block.scheme.signatureLength := by simp [block]
  have blockLength : (Field.encodeAll block.fields).length = draft.descriptor.scheme.blockLength :=
    block.length_encode modulus signatureLength
  have filledBlock := consistent.fill_block rfl modulus signatureLength
  obtain rfl := Except.ok.inj (filledBlock.symm.trans placed)
  generalize second : splice _ draft.descriptor.layout.signature.offset _ = image
  generalize first : splice blank _ covered.toList = patched at second signed
  obtain ⟨formed, digestBytes, blockBytes, signedBytes, outside⟩ :=
    filled.patched consistent (by simp) blockLength first.symm second.symm
  rw [signedBytes] at signed
  exact ⟨blank, covered, middle, digest, between, signature, blanked, digested, signed, signs,
    modulus, ⟨formed, blockBytes⟩, digestBytes, by rw [formed.length, filled.length], outside⟩

/-- The signer signed the digest of the image's signed range. -/
theorem build_eq_ok (drafted : blueprint.draft = .ok draft) (computes : engine.Computes hash)
    (built : blueprint.build payload engine signer before = .ok image after) :
    ∃ signature between,
      signer.sign draft.descriptor.scheme
          (hash draft.descriptor.scheme.algorithm
            ((Memory.ofBytes image).bytes draft.descriptor.layout.signed)).toList
          draft.descriptor.scheme.signatureLength between = .ok signature after ∧
        signer.modulus.length = draft.descriptor.scheme.signatureLength ∧
        draft.Formed hash
          ⟨draft.descriptor.scheme, signer.modulus, signer.exponent, signature.toList⟩ image := by
  obtain ⟨blank, covered, middle, digest, between, signature, -, digested, signed, signs, modulus,
    held, digestBytes, length, outside⟩ := build_sealed drafted built
  obtain ⟨consistent, -⟩ := draft_eq_ok drafted
  have places := consistent.places
  have block := congrArg Extent.length consistent.signature
  refine ⟨signature, between, ?_, modulus, held.filled, ?_, held.signature⟩
  · have same := computes signed
    rw [List.flatten_cons, List.flatten_nil, List.append_nil] at same
    rw [← same]
    exact signs
  · intro within
    rw [length] at within
    have same := computes digested
    rw [Draft.flatten_digestParts within] at same
    rw [digestBytes, same]
    have unchanged : draft.descriptor.coveredBytes (Memory.ofBytes image) 0 =
        draft.descriptor.coveredBytes (Memory.ofBytes blank) 0 := by
      apply Descriptor.coveredBytes_inj.2
      intro offset member
      rw [Nat.zero_add]
      have apart := (Descriptor.mem_coveredOffsets.1 member).1
      rw [← Bool.not_eq_true, Extent.contains_eq_true] at apart
      simp only [Descriptor.ownExtent, ← consistent.offset] at apart
      dsimp only at block
      exact outside offset (by omega)
    rw [unchanged]

/-- A build succeeds if payload and key fit and the devices do not fail. -/
theorem build_completes (drafted : blueprint.draft = .ok draft)
    (short : payload.length ≤ draft.descriptor.imageSize.toNat) (completes : engine.Completes)
    (modulus : signer.modulus.length = draft.descriptor.scheme.signatureLength)
    (signs : ∀ (digest : Vector UInt8 draft.descriptor.scheme.algorithm.length) before,
      ∃ signature after, signer.sign draft.descriptor.scheme digest.toList
        draft.descriptor.scheme.signatureLength before = .ok signature after) (before : σ) :
    ∃ image after, blueprint.build payload engine signer before = .ok image after := by
  obtain ⟨consistent, -⟩ := draft_eq_ok drafted
  obtain ⟨blank, blanked⟩ : ∃ blank, draft.blank payload = .ok blank := by
    simp only [Draft.blank, consistent.fill_fields, bind_eq_ok, demand_eq_ok, exists_answer,
      pure_eq_ok, Except.ok.injEq]
    exact ⟨_, short, _, rfl, rfl⟩
  obtain ⟨digest, middle, digested⟩ :=
    completes draft.descriptor.algorithm_ne_sha384 (draft.digestParts blank) before
  let patched := splice blank
    (draft.descriptor.layout.hash.offset + Layout.sectionHeaderLength) digest.toList
  let place := draft.descriptor.layout.signed
  obtain ⟨signedDigest, between, signed⟩ :=
    completes (Scheme.algorithm_ne_sha384 draft.descriptor.scheme)
      [slice patched place.offset (place.offset + place.length)] middle
  obtain ⟨signature, after, signs⟩ := signs signedDigest between
  have fits : Scheme.forKey? signer.modulus.length draft.descriptor.scheme.algorithm =
      some draft.descriptor.scheme := by
    rw [modulus, Scheme.forKey?_self]
  have placed := @Draft.Consistent.fill_block draft consistent
    ⟨draft.descriptor.scheme, signer.modulus, signer.exponent, signature.toList⟩ rfl modulus
    (by simp)
  simp only [Blueprint.build, drafted, device_bind_eq_ok, perform_eq_ok, adaptExcept_eq_ok,
    demand_eq_ok, exists_answer, device_pure_eq_ok, Except.ok.injEq]
  exact ⟨_, after, draft, before, ⟨rfl, rfl⟩, blank, before, ⟨blanked, rfl⟩, digest, middle,
    digested, signedDigest, between, signed, between, ⟨fits, rfl⟩, signature, after, signs, _,
    after, ⟨placed, rfl⟩, rfl, rfl⟩

end Blueprint

end SignedFirmware
