import SignedFirmware.Proofs.Blueprint.Admission
import SignedFirmware.Proofs.Search
import SignedFirmware.Proofs.Sha2

namespace SignedFirmware

/-- A validation meets the image first where its span starts. -/
structure Context.Expects {τ : Type} (context : Context) (draft : Draft) (hash : Digests)
    (image : Bytes) (flash : Flash) (memory : Memory) (platform : Platform)
    (engine : HashEngine τ) : Prop where
  carries : flash.Carries memory context.settings.span image
  size : ∃ size, flash.size = .ok size ∧ context.settings.span.stop ≤ size
  power : context.settings.alignment.toNat.isPowerOfTwo
  startAligned : context.settings.alignment.toNat ∣ context.settings.span.start.toNat
  offsetAligned : context.settings.alignment.toNat ∣ draft.descriptor.ownOffset.toNat
  first : ∀ position, context.settings.alignment.toNat ∣ position →
    context.settings.span.start.toNat ≤ position →
    position < context.settings.span.start.toNat + draft.descriptor.ownOffset.toNat →
    littleEndianValue (memory.bytes ⟨position, 8⟩) ≠ magics.descriptor.toNat
  allowed : draft.descriptor.Allowed context.settings.family context.settings.currentType platform
  imageSize : platform.sizeValid draft.descriptor.imageSize ≠ some false
  computes : engine.Computes hash
  offersDigest : engine.Offers draft.descriptor.algorithm
  offersSigned : engine.Offers draft.descriptor.scheme.algorithm

namespace Draft.Formed

variable {τ : Type} {draft : Draft} {hash : Digests} {block : SignatureBlock} {image : Bytes}
  {context : Context} {flash : Flash} {memory : Memory} {platform : Platform}
  {engine : HashEngine τ} {verifier : Verifier τ} {capacity key : Nat}

/-- The descriptor magic stands at the descriptor's offset in the image. -/
theorem descriptorMagic (formed : draft.Formed hash block image) :
    (Memory.ofBytes image).bytes ⟨draft.descriptor.offset, 8⟩ =
      littleEndian 8 magics.descriptor.toNat := by
  have whole := formed.filled.header
  rw [← Memory.take_bytes (Memory.ofBytes image) (show 8 ≤ Layout.headerLength by decide), whole]
  simp [Header.fields, Field.encode, List.take_left', Descriptor.header]

/-- The first candidate is the descriptor of the image. -/
theorem candidates_eq_cons (formed : draft.Formed hash block image)
    (consistent : draft.Consistent)
    (expects : context.Expects draft hash image flash memory platform engine) :
    ∃ rest, context.settings.candidates flash =
      (context.settings.span.start.toNat + draft.descriptor.offset) :: rest := by
  have places := consistent.places
  have placed := congrArg Extent.offset consistent.hash
  have headerLength : Layout.headerLength = 96 := rfl
  dsimp only at placed
  have length := formed.filled.length
  have stop := expects.carries.stop
  apply Settings.candidates_eq_cons
  · rw [Settings.mem_candidates]
    refine ⟨?_, by omega, by omega, ?_⟩
    · rw [consistent.offset]
      exact Nat.dvd_add expects.startAligned expects.offsetAligned
    · exact expects.carries.number (by omega) (by decide) formed.descriptorMagic
  · intro other member
    obtain ⟨multiple, low, -, word⟩ := Settings.mem_candidates.1 member
    have stands := expects.carries.holds.number word
    rw [consistent.offset]
    apply Nat.le_of_not_lt
    intro before
    exact expects.first other multiple low before stands.symm

/-- A regular image is accepted if the verifier accepts its block. -/
theorem accepted (formed : draft.Formed hash block image) (consistent : draft.Consistent)
    (scheme : block.scheme = draft.descriptor.scheme)
    (modulus : block.modulus.length = block.scheme.signatureLength)
    (expects : context.Expects draft hash image flash memory platform engine)
    (partitioned : draft.descriptor.Partitioned context.settings.span)
    (verifies : ∀ state, ∃ after, verifier.verify block
      (hash draft.descriptor.scheme.algorithm
        ((Memory.ofBytes image).bytes draft.descriptor.layout.signed)).toList state =
          .ok key after)
    (room : draft.descriptor.regions.length ≤ capacity) (table : RegionTable capacity)
    (before : τ) :
    ∃ after, context.validate flash platform engine verifier table before =
      (⟨.ok (), ⟨context.settings, .valid, some key,
        some (draft.descriptor.moved context.settings.span.start.toNat)⟩,
        ⟨draft.descriptor.regions, room⟩⟩, after) := by
  have places := consistent.places
  have length := formed.filled.length
  have stop := expects.carries.stop
  have positive := Scheme.le_blockLength draft.descriptor.scheme
  have nonempty : context.settings.span.start < context.settings.span.stop := by
    rw [UInt32.lt_iff_toNat_lt]
    omega
  obtain ⟨size, sized, inside⟩ := expects.size
  obtain ⟨rest, listed⟩ := formed.candidates_eq_cons consistent expects
  have carries := expects.carries
  have parsed := formed.sealed.parsed consistent carries expects.imageSize
  have transition := formed.sealed.checkTransition consistent carries expects.allowed
  obtain ⟨middle, digested⟩ := formed.sealed.signedDigest consistent carries expects.computes
    expects.offersSigned before
  obtain ⟨between, answer⟩ := verifies middle
  have signed := Descriptor.verifySignature_eq_ok.2 ⟨_, middle, block, digested,
    formed.sealed.signatureBlock consistent carries scheme modulus, answer⟩
  obtain ⟨after, validated⟩ := formed.validateRegions consistent carries expects.computes
    expects.offersDigest (partitioned.moved _) room between
  have passed := Settings.validateCandidate_eq_ok.2 ⟨parsed, transition, between, signed, validated⟩
  refine ⟨after, ?_⟩
  rw [Context.validate_eq_conclude, Settings.search_eq_walk nonempty expects.power sized inside
    carries.answers.read, listed]
  simp only [walk, passed]
  rfl

end Draft.Formed

namespace Blueprint

/-- Every validation that expects a regular image accepts it, with its moved descriptor. -/
theorem build_accepted {σ : Type} {blueprint : Blueprint} {draft : Draft} {payload image : Bytes}
    {builder : HashEngine σ} {hash : Digests} {signer : Signer σ} {before after : σ}
    (drafted : blueprint.draft = .ok draft) (computes : builder.Computes hash)
    (built : blueprint.build payload builder signer before = .ok image after)
    (regular : blueprint.Regular draft.descriptor.areaSize.toNat image.length) :
    let descriptor := draft.descriptor
    let digest := hash descriptor.scheme.algorithm
      ((Memory.ofBytes image).bytes descriptor.layout.signed)
    descriptor.ownOffset = blueprint.descriptorOffset ∧
    blueprint.regions.map RegionPlan.region? = descriptor.regions.map some ∧
    ∃ signature between,
      signer.sign descriptor.scheme digest.toList descriptor.scheme.signatureLength between =
        .ok signature after ∧
      ∀ {τ : Type} {context : Context} {flash : Flash} {memory : Memory} {platform : Platform}
        {engine : HashEngine τ} {verifier : Verifier τ} {key capacity : Nat},
        context.Expects draft hash image flash memory platform engine →
        (∀ state, ∃ after, verifier.verify
          ⟨descriptor.scheme, signer.modulus, signer.exponent, signature.toList⟩ digest.toList
          state = .ok key after) →
        blueprint.regions.length ≤ capacity → ∀ (table : RegionTable capacity) (state : τ),
        ∃ accepted found final, context.validate flash platform engine verifier table state =
            (⟨.ok (), ⟨context.settings, .valid, some key, some accepted⟩, found⟩, final) ∧
          accepted = descriptor.moved context.settings.span.start.toNat ∧
          accepted.offset =
            context.settings.span.start.toNat + blueprint.descriptorOffset.toNat ∧
          found.regions = descriptor.regions := by
  obtain ⟨consistent, own, -, planned⟩ := draft_eq_ok drafted
  obtain ⟨signature, between, signs, modulus, formed⟩ := build_eq_ok drafted computes built
  refine ⟨own, planned, signature, between, signs, ?_⟩
  intro τ context flash memory platform engine verifier key capacity expects verifies room table
    state
  have count : draft.descriptor.regions.length = blueprint.regions.length := by
    have lengths := congrArg List.length planned
    rwa [List.length_map, List.length_map, eq_comm] at lengths
  have length := formed.filled.length
  have stop := expects.carries.stop
  rw [length] at regular stop
  have partitioned := regular.partitioned drafted (Nat.le_of_eq stop.symm)
  obtain ⟨final, validated⟩ := formed.accepted consistent rfl modulus expects partitioned
    verifies (count ▸ room) table state
  refine ⟨_, _, final, validated, rfl, ?_, rfl⟩
  rw [← own, ← consistent.offset]
  rfl

/-- One static sector starts with the descriptor. -/
def smallest : Blueprint where
  name := ""
  family := 0
  version := .zero
  buildTimestamp := 0
  imageType := .prod
  hashType := .sha256
  scheme := .rsa2048
  descriptorOffset := 0
  areaSize := none
  imageSize := none
  regions := [⟨"", 0, 4096, 0, [.static]⟩]
  denylist := []
  rollback := none
  records := []

/-- This signer has a modulus of zeros, and its signatures are zeros. -/
def zeroSigner : Signer (Option Sha2.Session) :=
  ⟨zeroBytes 256, 65537, fun _ _ length state => .ok (Vector.replicate length 0) state⟩

/-- This verifier trusts the key of zeros only. -/
def zeroVerifier : Verifier (Option Sha2.Session) :=
  ⟨fun block _ => if block.modulus = zeroBytes 256 then pure 0 else throw .untrustedKey⟩

theorem zeroVerifier_verify {block : SignatureBlock} (known : block.modulus = zeroBytes 256)
    (digest : Bytes) (state : Option Sha2.Session) :
    ∃ after, zeroVerifier.verify block digest state = .ok 0 after := by
  refine ⟨state, ?_⟩
  simp only [zeroVerifier, known, if_true]
  rfl

/-- The image of one sector follows the first 64 bytes. -/
def validateSmallest (image : Bytes) : Validation 1 × Option Sha2.Session :=
  (Context.new ⟨⟨64, 4160⟩, 64, 0, none⟩).validate
    (Flash.ofBytes (zeroBytes 64 ++ (image ++ []))) ⟨some true, none, fun _ => none⟩ Sha2.engine
    zeroVerifier (.empty 1) none

/-- The smallest image is built, and it is expected after 64 zeros. -/
theorem smallest_expected :
    ∃ draft image after, smallest.draft = .ok draft ∧
      smallest.build [] Sha2.engine zeroSigner none = .ok image after ∧
      smallest.Regular draft.descriptor.areaSize.toNat image.length ∧
      (Context.new ⟨⟨64, 4160⟩, 64, 0, none⟩).Expects draft Sha2.digest image
        (Flash.ofBytes (zeroBytes 64 ++ (image ++ [])))
        (Memory.ofBytes (zeroBytes 64 ++ (image ++ []))) ⟨some true, none, fun _ => none⟩
        Sha2.engine := by
  obtain ⟨draft, drafted, imageSize, areaSize, ownOffset, family, imageType, scheme⟩ :
      ∃ draft, smallest.draft = .ok draft ∧ draft.descriptor.imageSize = 4096 ∧
        draft.descriptor.areaSize = 700 ∧ draft.descriptor.ownOffset = 0 ∧
        draft.descriptor.family = 0 ∧ draft.descriptor.imageType = .prod ∧
        draft.descriptor.scheme = .rsa2048 :=
    ⟨_, rfl, rfl, rfl, rfl, rfl, rfl, rfl⟩
  have modulus : zeroSigner.modulus.length = draft.descriptor.scheme.signatureLength := by
    rw [scheme, zeroSigner, length_zeroBytes]
    rfl
  obtain ⟨image, after, built⟩ := @build_completes _ smallest draft [] Sha2.engine zeroSigner
    drafted (Nat.zero_le _) Sha2.engine_completes modulus (fun _ _ => ⟨_, _, rfl⟩) none
  obtain ⟨signature, between, -, -, formed⟩ := build_eq_ok drafted Sha2.engine_computes built
  have length : image.length = 4096 := by
    rw [formed.filled.length, imageSize]
    rfl
  refine ⟨draft, image, after, drafted, built, ?_, ?_⟩
  · rw [areaSize, length]
    exact ⟨⟨rfl, rfl⟩, by decide, by decide⟩
  · constructor
    case carries =>
      apply Flash.carries_ofBytes
      · rfl
      · rw [length]
        rfl
    case size =>
      have total : (zeroBytes 64 ++ (image ++ [])).length = 4160 := by
        rw [List.length_append, List.append_nil, length, length_zeroBytes]
      have known := Flash.size_ofBytes (show _ < Offset.limit by rw [total]; decide)
      rw [total] at known
      exact ⟨_, known, by decide⟩
    case power => decide
    case startAligned => decide
    case offsetAligned =>
      rw [ownOffset]
      exact Nat.dvd_zero _
    case first =>
      intro position _ low high
      rw [ownOffset] at high
      exact absurd high (Nat.not_lt_of_le low)
    case allowed =>
      refine ⟨.inl family, ?_, ?_, true, rfl, ?_⟩ <;> simp [imageType]
    case imageSize => simp
    case computes => exact Sha2.engine_computes
    case offersDigest =>
      exact Sha2.engine_completes draft.descriptor.algorithm_ne_sha384
    case offersSigned =>
      exact Sha2.engine_completes (Scheme.algorithm_ne_sha384 draft.descriptor.scheme)

/-- The smallest image is accepted, with its descriptor moved to where it lies. -/
theorem smallest_accepted :
    ∃ image built accepted found final,
      smallest.build [] Sha2.engine zeroSigner none = .ok image built ∧
      validateSmallest image =
        (⟨.ok (), ⟨⟨⟨64, 4160⟩, 64, 0, none⟩, .valid, some 0, some accepted⟩, found⟩, final) ∧
      accepted.offset = 64 := by
  obtain ⟨draft, image, after, drafted, built, regular, expects⟩ := smallest_expected
  obtain ⟨-, -, signature, between, -, accepts⟩ :=
    build_accepted drafted Sha2.engine_computes built regular
  obtain ⟨accepted, found, final, validated, -, place, -⟩ :=
    @accepts _ _ _ _ _ _ zeroVerifier 0 1 expects (zeroVerifier_verify rfl _) (by decide)
      (.empty 1) none
  exact ⟨image, after, accepted, found, final, built, validated, place⟩

/-- The recorded descriptor has one static region, whose front is its area. -/
theorem validateSmallest_recorded :
    ∃ image descriptor region, image.length = 4096 ∧
      (validateSmallest image).1.result = .ok () ∧
      (validateSmallest image).1.context.descriptor = some descriptor ∧
      descriptor.area = ⟨64, 700⟩ ∧ descriptor.regions = [region] ∧ region.isStatic = true ∧
      region.extent = ⟨0, 4096⟩ := by
  obtain ⟨draft, image, after, drafted, built, regular, expects⟩ := smallest_expected
  obtain ⟨known, region, knownDrafted, areaSize, offset, regions, static, extent⟩ :
      ∃ draft region, smallest.draft = .ok draft ∧ draft.descriptor.areaSize = 700 ∧
        draft.descriptor.offset = 0 ∧ draft.descriptor.regions = [region] ∧
        region.isStatic = true ∧ region.extent = ⟨0, 4096⟩ :=
    ⟨_, _, rfl, rfl, rfl, rfl, rfl, rfl⟩
  obtain rfl := Except.ok.inj (drafted.symm.trans knownDrafted)
  obtain ⟨consistent, -, -, planned⟩ := draft_eq_ok drafted
  obtain ⟨signature, between, -, modulus, formed⟩ :=
    build_eq_ok drafted Sha2.engine_computes built
  have stop := expects.carries.stop
  have length : image.length = 4096 := by
    change 4160 = 64 + image.length at stop
    omega
  rw [formed.filled.length] at regular stop
  have room : draft.descriptor.regions.length ≤ 1 := by
    rw [regions]
    exact Nat.le_refl 1
  obtain ⟨final, validated⟩ := @Draft.Formed.accepted _ draft Sha2.digest _ image _ _ _ _ _
    zeroVerifier 1 0 formed consistent rfl modulus expects
    (regular.partitioned drafted (Nat.le_of_eq stop.symm)) (zeroVerifier_verify rfl _) room
    (.empty 1) none
  have area : (draft.descriptor.moved 64).area = ⟨64, 700⟩ := by
    simp only [Descriptor.area, Descriptor.moved, offset, areaSize]
    rfl
  exact ⟨image, draft.descriptor.moved 64, region, length, congrArg (·.1.result) validated,
    congrArg (·.1.context.descriptor) validated, area, regions, static, extent⟩

/-- The validation of the smallest image succeeds. -/
theorem validateSmallest_eq_ok : ∃ image, (validateSmallest image).1.result = .ok () := by
  obtain ⟨image, descriptor, region, -, accepted, -⟩ := validateSmallest_recorded
  exact ⟨image, accepted⟩

end Blueprint

end SignedFirmware
