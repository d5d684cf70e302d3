import SignedFirmware.Image.Validation
import SignedFirmware.Proofs.Digests
import SignedFirmware.Proofs.Image.Coverage

namespace SignedFirmware

namespace Descriptor

theorem familyMatches_iff {descriptor : Descriptor} {family : UInt32} :
    descriptor.familyMatches family = true ↔
      descriptor.family = family ∨ descriptor.family = 0 ∨ family = 0 := by
  simp [familyMatches, or_assoc]

theorem typeAllowed_iff {descriptor : Descriptor} {currentType : Option ImageType} :
    descriptor.typeAllowed currentType = true ↔
      descriptor.imageType ≠ .unsignedIntegrity ∧
        (descriptor.imageType = .test → currentType = some .test) := by
  unfold typeAllowed
  cases descriptor.imageType <;> simp

/-- The policy lets the device move to the image of a descriptor. -/
structure Allowed (descriptor : Descriptor) (family : UInt32) (currentType : Option ImageType)
    (platform : Platform) : Prop where
  family : descriptor.family = family ∨ descriptor.family = 0 ∨ family = 0
  signed : descriptor.imageType ≠ .unsignedIntegrity
  test : descriptor.imageType = .test → currentType = some .test
  production : ∃ production, platform.production = some production ∧
    (production = true → descriptor.imageType = .dev → platform.downgradeAllowed = some true)

/-- A transition passes if the signature block is there and the policy allows it. -/
theorem checkTransition_eq_ok {flash : Flash} {descriptor : Descriptor} {family : UInt32}
    {currentType : Option ImageType} {platform : Platform} :
    descriptor.checkTransition flash family currentType platform = .ok () ↔
      flash.number descriptor.layout.signature.offset 4 = .ok magics.signature.toNat ∧
        descriptor.Allowed family currentType platform := by
  have dev {production : Bool} :
      (if (production && descriptor.imageType == .dev) = true then do
          let allowed ← require platform.downgradeAllowed .invalidInterface
          ensure (allowed = true) .devDowngradeDisallowed
        else pure () : Checked Unit) = .ok () ↔
        (production = true → descriptor.imageType = .dev →
          platform.downgradeAllowed = some true) := by
    cases production <;> by_cases type : descriptor.imageType = .dev <;>
      simp [type, bind_eq_ok]
  simp only [checkTransition, bind_eq_ok, expectMagic_eq_ok, ensure_eq_ok, exists_answer,
    require_eq_ok, dev, familyMatches_iff, typeAllowed_iff]
  constructor
  · intro given
    rcases given with ⟨magic, family, ⟨signed, test⟩, production⟩
    exact ⟨magic, family, signed, test, production⟩
  · intro given
    rcases given with ⟨magic, family, signed, test, production⟩
    exact ⟨magic, family, ⟨signed, test⟩, production⟩

/-- The block of a scheme is never longer than the longest one. -/
theorem blockLength_le (scheme : Scheme) : scheme.blockLength ≤ SignatureBlock.maxLength := by
  cases scheme <;> decide

/-- The signature block is read if it starts with its word. -/
theorem signatureBlock_eq_ok {flash : Flash} {descriptor : Descriptor}
    (short : descriptor.layout.signature.length ≤ SignatureBlock.maxLength)
    {block : SignatureBlock} :
    descriptor.signatureBlock flash = .ok block ↔
      ∃ bytes, flash.read descriptor.layout.signature.offset descriptor.layout.signature.length =
          .ok bytes ∧
        littleEndianValue (bytes.toList.take 4) = magics.signature.toNat ∧
        SignatureBlock.ofBytes descriptor.scheme (bytes.toList.drop 4) = block := by
  simp only [signatureBlock, bind_eq_ok, ensure_eq_ok, exists_answer, ofFlash_eq_ok, pure_eq_ok,
    short, true_and]

variable {σ : Type} {flash : Flash} {descriptor : Descriptor} {engine : HashEngine σ}
  {verifier : Verifier σ} {span : Span} {capacity : Nat} {before after : σ}

/-- Once digest and block are there, the verifier has the last word. -/
theorem verifySignature_eq {digest : Vector UInt8 descriptor.scheme.algorithm.length}
    {block : SignatureBlock}
    (digested : flash.digest engine descriptor.scheme.algorithm [descriptor.layout.signed] before =
      .ok digest after)
    (read : descriptor.signatureBlock flash = .ok block) (verifier : Verifier σ) :
    descriptor.verifySignature flash engine verifier before =
      ((verifier.verify block digest.toList).adaptExcept fun error => .rejected error.reason)
        after := by
  rw [verifySignature, device_bind_of_ok (adaptExcept_eq_ok.2 digested),
    device_bind_of_ok (run_eq_ok.2 ⟨read, rfl⟩)]

/-- A signature passes if the verifier accepts the digest of the signed range. -/
theorem verifySignature_eq_ok {key : Nat} :
    descriptor.verifySignature flash engine verifier before = .ok key after ↔
      ∃ digest between block,
        flash.digest engine descriptor.scheme.algorithm [descriptor.layout.signed] before =
          .ok digest between ∧
        descriptor.signatureBlock flash = .ok block ∧
        verifier.verify block digest.toList between = .ok key after := by
  simp only [verifySignature, device_bind_eq_ok, adaptExcept_eq_ok, run_eq_ok]
  constructor
  · intro given
    rcases given with ⟨digest, between, digested, block, _, ⟨read, rfl⟩, verified⟩
    exact ⟨digest, between, block, digested, read, verified⟩
  · intro given
    rcases given with ⟨digest, between, block, digested, read, verified⟩
    exact ⟨digest, between, digested, block, between, ⟨read, rfl⟩, verified⟩

/-- The regions pass if their table does and their digest is the expected one. -/
theorem validateRegions_eq_ok
    (own : span.start.toNat + descriptor.ownOffset.toNat = descriptor.offset)
    {table : RegionTable capacity} :
    descriptor.validateRegions flash span engine capacity before = .ok table after ↔
      descriptor.Partitioned span ∧ table.regions = descriptor.regions ∧
        ∃ expected, descriptor.expectedDigest flash = .ok expected ∧
          flash.digest engine descriptor.algorithm (descriptor.digestRanges span.start.toNat)
            before = .ok expected after := by
  have tabled : descriptor.regionTable? capacity = some table ↔
      table.regions = descriptor.regions := by
    unfold regionTable?
    obtain ⟨regions, fits⟩ := table
    constructor
    · intro made
      split at made
      · cases made
        rfl
      · cases made
    · rintro rfl
      simp [fits]
  have room : table.regions = descriptor.regions → descriptor.regions.length ≤ capacity :=
    fun same => same ▸ table.fits
  simp only [validateRegions, device_bind_eq_ok, adaptExcept_eq_ok, run_eq_ok, require_eq_ok,
    ensure_eq_ok, exists_answer, tabled, Prod.exists, checkTable_eq_ok own]
  constructor
  · intro given
    rcases given with ⟨expected, _, _, ⟨⟨-, partitioned, stored, rfl⟩, rfl⟩, actual, _,
      digested, _, ⟨rfl, rfl⟩, same, rfl⟩
    exact ⟨partitioned, same, _, stored, digested⟩
  · intro given
    rcases given with ⟨partitioned, same, expected, stored, digested⟩
    exact ⟨expected, _, before, ⟨⟨room same, partitioned, stored, rfl⟩, rfl⟩, expected, after,
      digested, after, ⟨rfl, rfl⟩, same, rfl⟩

end Descriptor

namespace Settings

/-- A candidate is accepted if its descriptor is read and passes all checks. -/
theorem validateCandidate_eq_ok {σ : Type} {settings : Settings} {flash : Flash}
    {platform : Platform} {engine : HashEngine σ} {verifier : Verifier σ}
    {capacity position key : Nat} {descriptor : Descriptor} {table : RegionTable capacity}
    {before after : σ} :
    settings.validateCandidate flash platform engine verifier capacity position before =
        .ok (descriptor, key, table) after ↔
      descriptor.Parsed flash position settings.span platform ∧
      descriptor.checkTransition flash settings.family settings.currentType platform = .ok () ∧
      ∃ between, descriptor.verifySignature flash engine verifier before = .ok key between ∧
        descriptor.validateRegions flash settings.span engine capacity between =
          .ok table after := by
  simp only [validateCandidate, device_bind_eq_ok, run_eq_ok, Descriptor.parse_eq_ok,
    exists_answer, device_pure_eq_ok, Prod.mk.injEq]
  constructor
  · intro given
    rcases given with ⟨_, _, ⟨parsed, rfl⟩, _, ⟨allowed, rfl⟩, _, between, verified, _, _,
      validated, ⟨rfl, rfl, rfl⟩, rfl⟩
    exact ⟨parsed, allowed, between, verified, validated⟩
  · intro given
    rcases given with ⟨parsed, allowed, between, verified, validated⟩
    exact ⟨_, _, ⟨parsed, rfl⟩, _, ⟨allowed, rfl⟩, _, between, verified, _, _, validated,
      ⟨rfl, rfl, rfl⟩, rfl⟩

end Settings

end SignedFirmware
