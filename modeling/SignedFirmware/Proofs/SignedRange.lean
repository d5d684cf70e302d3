import SignedFirmware.Proofs.Completeness
import SignedFirmware.Proofs.Rollback.Mirroring
import SignedFirmware.Proofs.Safety

namespace SignedFirmware

namespace Descriptor

variable {flash other : Flash} {position : Nat} {span : Span} {platform : Platform}
  {descriptor : Descriptor}

/-- A blob lies in the signed range of its descriptor. -/
theorem Parsed.blob_within (parsed : descriptor.Parsed flash position span platform)
    {blob : Extent} (present : blob ∈ descriptor.layout.blob) :
    blob.Within descriptor.layout.signed := by
  have start := congrArg Extent.offset parsed.signed
  obtain ⟨low, high⟩ := parsed.blob present
  exact ⟨start ▸ low, start ▸ high⟩

/-- The word of a denylist lies in the signed range of its descriptor. -/
theorem Parsed.denylist_inside (parsed : descriptor.Parsed flash position span platform)
    {denylist : Extent} (present : denylist ∈ descriptor.layout.denylist) :
    descriptor.layout.signed.offset ≤ denylist.offset ∧
      denylist.offset + 4 ≤
        descriptor.layout.signed.offset + descriptor.layout.signed.length := by
  rw [← parsed.layout] at present
  obtain ⟨low, long, high⟩ := Layout.denylist_tiled present
  rw [Layout.sectionHeaderLength] at long
  rw [parsed.signed]
  dsimp only
  omega

/-- A descriptor is read from every flash that agrees on its signed range. -/
theorem Parsed.of_agrees (parsed : descriptor.Parsed flash position span platform)
    (agrees : other.Agrees flash descriptor.layout.signed) :
    descriptor.Parsed other position span platform := by
  have start := congrArg Extent.offset parsed.signed
  have length := congrArg Extent.length parsed.signed
  dsimp only [Layout.signedLength] at start length
  refine { parsed with header := ?_, sections := ?_, entries := ?_ }
  · exact agrees.stands (by omega) (by omega) parsed.header
  · have same := @checkSections_shift _ _ 0 _ _ agrees.mirrors descriptor.layout
      (fun denylist present => parsed.denylist_inside present) fun blob present =>
        parsed.blob_within present
    rw [Layout.shift_zero] at same
    exact same.trans parsed.sections
  · intro index inside
    have entry : index * Region.entryLength + Region.entryLength ≤
        Region.entryLength * descriptor.regions.length := by
      rw [Region.entryLength]
      omega
    exact agrees.stands (by omega) (by omega) (parsed.entries index inside)

/-- No byte outside the signed range changes the descriptor or the rollback decision. -/
theorem parse_of_agrees (read : parse flash position span platform = .ok descriptor)
    (agrees : other.Agrees flash descriptor.layout.signed) :
    parse other position span platform = .ok descriptor ∧
    (∀ {m : Type → Type} [Monad m] (storage : Option (RecordStorage m)),
      Rollback.enforce other descriptor storage = Rollback.enforce flash descriptor storage) ∧
    ∀ payload, descriptor.findRollbackRecord flash = .ok (some payload) →
      ∃ blob ∈ descriptor.layout.blob, payload.Within blob ∧
        blob.Within descriptor.layout.signed ∧ payload.Within descriptor.layout.signed := by
  have parsed := parse_eq_ok.1 read
  refine ⟨parse_eq_ok.2 (parsed.of_agrees agrees), ?_, ?_⟩
  · intro m _ storage
    have inside := parsed.inside
    have stop := span.stop.toNat_lt
    have start := congrArg Extent.offset parsed.signed
    have bounded : 0 + (descriptor.layout.signed.offset + descriptor.layout.signed.length) <
        Offset.limit := by
      rw [Offset.limit]
      dsimp only at start
      omega
    have same := Rollback.enforce_shift agrees.mirrors bounded
      (fun blob present => parsed.blob_within present) storage
    rwa [moved_zero] at same
  · intro payload found
    obtain ⟨blob, present, within⟩ := record_mem_blob found
    have signed := parsed.blob_within present
    exact ⟨blob, present, within, signed, within.trans signed⟩

/-- The unsigned word of the signature block may be erased. -/
theorem parse_erased :
    ∃ (image : Bytes) (descriptor : Descriptor),
      let whole := zeroBytes 64 ++ (image ++ [])
      let flash := Flash.ofBytes whole
      let erased := Flash.ofBytes (splice whole descriptor.layout.signature.offset (zeroBytes 4))
      let platform : Platform := ⟨some true, none, fun _ => none⟩
      flash.number descriptor.layout.signature.offset 4 = .ok magics.signature.toNat ∧
      erased.number descriptor.layout.signature.offset 4 = .ok 0 ∧
      parse flash descriptor.offset ⟨64, 4160⟩ platform = .ok descriptor ∧
      parse erased descriptor.offset ⟨64, 4160⟩ platform = .ok descriptor := by
  obtain ⟨image, recorded, region, length, accepted, -⟩ := Blueprint.validateSmallest_recorded
  obtain ⟨position, before, descriptor, key, found, after, -, passed, -⟩ :=
    Context.validate_eq_ok accepted
  obtain ⟨parsed, transition, -⟩ := Settings.validateCandidate_eq_ok.1 passed
  rw [← parsed.offset] at parsed
  refine ⟨image, descriptor, ?_⟩
  intro whole flash erased platform
  have total : whole.length = 4160 := by
    rw [List.length_append, List.length_append, length]
    rfl
  obtain ⟨low, word, high⟩ := parsed.signature_inside
  change descriptor.layout.signature.offset + descriptor.layout.signature.length ≤ 4160 at high
  have room : descriptor.layout.signature.offset + (zeroBytes 4).length ≤ whole.length := by
    rw [length_zeroBytes]
    omega
  have inside : (⟨64, 4160⟩ : Span).stop.toNat ≤ whole.length := Nat.le_of_eq total.symm
  have flashReadable : flash.Readable ⟨64, 4160⟩ := (Flash.answers_ofBytes inside).read
  have erasedReadable : erased.Readable ⟨64, 4160⟩ :=
    (Flash.answers_ofBytes (by rw [length_splice room]; exact inside)).read
  have holds := Flash.holds_ofBytes (splice whole descriptor.layout.signature.offset (zeroBytes 4))
  have read := parse_eq_ok.2 parsed
  have agrees : erased.Agrees flash descriptor.layout.signed := by
    have start := congrArg Extent.offset parsed.signed
    have stop := congrArg Extent.offset parsed.signature
    dsimp only at start stop
    have first : (⟨64, 4160⟩ : Span).start.toNat ≤ descriptor.offset := parsed.start_le
    apply holds.agrees (Flash.holds_ofBytes whole) erasedReadable flashReadable
    · omega
    · change _ ≤ 4160
      omega
    · intro offset above below
      rw [Memory.ofBytes_splice room, if_neg (by omega)]
  refine ⟨(checkTransition_eq_ok.1 transition).1, ?_, read, (parse_of_agrees read agrees).1⟩
  obtain ⟨found, answer⟩ := Flash.Readable.number erasedReadable low
    (show descriptor.layout.signature.offset + 4 ≤ 4160 by omega)
  have zeros := Memory.bytes_splice_within room (show 0 + 4 ≤ (zeroBytes 4).length by decide)
  rw [Nat.add_zero] at zeros
  rw [answer, holds.number answer, zeros]
  rfl

end Descriptor

end SignedFirmware
