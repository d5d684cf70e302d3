import SignedFirmware.Proofs.Completeness
import SignedFirmware.Proofs.Recording

namespace SignedFirmware

/-- What a signer was asked to sign, with the signature it made. -/
structure Signing where
  scheme : Scheme
  digest : Bytes
  signature : Bytes
  deriving DecidableEq, Repr

namespace Signer

variable {σ : Type} (signer : Signer σ)

/-- A signer that notes each signature it makes. -/
def logged : Signer (σ × List Signing) where
  modulus := signer.modulus
  exponent := signer.exponent
  sign scheme digest length := fun (state, signings) =>
    match signer.sign scheme digest length state with
    | .ok signature after =>
        .ok signature (after, signings ++ [⟨scheme, digest, signature.toList⟩])
    | .error error after => .error error (after, signings)

theorem watches_logged (scheme : Scheme) (digest : Bytes) (length : Nat) :
    Watches (signer.logged.sign scheme digest length) (signer.sign scheme digest length) := by
  intro state signings
  simp only [logged]
  cases signer.sign scheme digest length state <;> rfl

variable {signer}

theorem logged_sign_eq_ok {scheme : Scheme} {digest : Bytes} {length : Nat}
    {signature : Vector UInt8 length} {before after : σ} {signings later : List Signing} :
    signer.logged.sign scheme digest length (before, signings) = .ok signature (after, later) ↔
      signer.sign scheme digest length before = .ok signature after ∧
        later = signings ++ [⟨scheme, digest, signature.toList⟩] := by
  simp only [logged]
  cases result : signer.sign scheme digest length before with
  | error error state => simp
  | ok made state =>
      simp only [EStateM.Result.ok.injEq, Prod.mk.injEq]
      constructor
      · rintro ⟨rfl, rfl, rfl⟩
        exact ⟨⟨rfl, rfl⟩, rfl⟩
      · rintro ⟨⟨rfl, rfl⟩, rfl⟩
        exact ⟨rfl, rfl, rfl⟩

end Signer

/-- The denylist section holds the versions in order, or is absent without any. -/
structure Descriptor.Denies (descriptor : Descriptor) (versions : List Version) (image : Bytes) :
    Prop where
  absent : descriptor.layout.denylist = none ↔ versions = []
  present : ∀ denylist ∈ descriptor.layout.denylist,
    (Memory.ofBytes image).bytes denylist =
      littleEndian 4 magics.denylist.toNat ++ zeroBytes 4 ++
        versions.flatMap fun version =>
          littleEndian 4 version.major.toNat ++ littleEndian 4 version.minor.toNat ++
            littleEndian 4 version.point.toNat ++ littleEndian 4 version.subpoint.toNat

/-- An image that holds a draft holds its denylist. -/
theorem Draft.Filled.denies {draft : Draft} {image : Bytes} (filled : draft.Filled image)
    (consistent : draft.Consistent) : draft.descriptor.Denies draft.denylist image := by
  refine ⟨consistent.denylist_eq_none, ?_⟩
  intro denylist known
  have nonempty : draft.denylist.isEmpty = false := by
    simpa using (consistent.denylist_mem known).1
  rw [filled.denylist denylist known, denylistFields, nonempty]
  simp [Field.encodeAll, List.flatMap_assoc, Version.fields, Field.encode]

/-- Names without the character zero are read back. -/
theorem Region.Describes.names {regions : List Region} {plans : List RegionPlan}
    (described : List.Forall₂ Region.Describes regions plans) :
    List.Forall₂ (fun region plan =>
      '\x00' ∉ plan.name.toList → region.name.text? = some plan.name) regions plans :=
  described.imp fun _ _ describes plain => describes.name.text? plain

namespace Blueprint

variable {σ : Type} {blueprint : Blueprint} {draft : Draft} {payload image : Bytes}
  {engine : HashEngine σ} {signer : Signer σ} {before after : σ}

/-- The signatures that are made in a build, in order. -/
def signings (blueprint : Blueprint) (payload : Bytes) (engine : HashEngine σ)
    (signer : Signer σ) (before : σ) : List Signing :=
  keptLog (blueprint.build payload (engine.logged (List Signing)) signer.logged (before, []))

/-- Noting the signatures changes nothing about a build. -/
theorem watches_build (blueprint : Blueprint) (payload : Bytes) (engine : HashEngine σ)
    (signer : Signer σ) :
    Watches (blueprint.build payload (engine.logged (List Signing)) signer.logged)
      (blueprint.build payload engine signer) := by
  have performed {α : Type} (step : Except BuildError α) :
      Watches (perform step : EStateM BuildError (σ × List Signing) α)
        (perform step : EStateM BuildError σ α) := by
    intro state log
    cases step <;> rfl
  have digested (algorithm : Algorithm) (pieces : List Bytes) :
      Watches ((engine.logged (List Signing)).digest algorithm pieces)
        (engine.digest algorithm pieces) := by
    rw [HashEngine.digest_logged]
    exact watches_beside _
  apply (performed _).bind
  intro draft
  apply (performed _).bind
  intro blank
  apply (digested _ _).adaptExcept.bind
  intro covered
  apply (digested _ _).adaptExcept.bind
  intro digest
  apply (performed _).bind
  intro _
  apply (signer.watches_logged _ _ _).adaptExcept.bind
  intro signature
  exact (performed _).bind fun bytes => watches_pure _

/-- A build makes one signature, of the digest of the signed range. -/
theorem build_signs (drafted : blueprint.draft = .ok draft)
    (built : blueprint.build payload engine signer before = .ok image after) :
    ∃ digest signature,
      blueprint.signings payload engine signer before =
          [⟨draft.descriptor.scheme, digest, signature⟩] ∧
        signer.modulus.length = draft.descriptor.scheme.signatureLength ∧
        draft.Sealed ⟨draft.descriptor.scheme, signer.modulus, signer.exponent, signature⟩ image ∧
        ∀ hash : Digests, engine.Computes hash →
          digest = (hash draft.descriptor.scheme.algorithm
            ((Memory.ofBytes image).bytes draft.descriptor.layout.signed)).toList := by
  obtain ⟨later, logged⟩ := (watches_build blueprint payload engine signer).eq_ok built []
  obtain ⟨blank, covered, ⟨middle, middleLog⟩, digest, ⟨between, betweenLog⟩, signature, -,
    digested, signed, signs, modulus, held, -⟩ := build_sealed drafted logged
  rw [HashEngine.digest_logged, beside_eq_ok] at digested signed
  obtain ⟨-, rfl⟩ := digested
  obtain ⟨signed, rfl⟩ := signed
  obtain ⟨-, rfl⟩ := Signer.logged_sign_eq_ok.1 signs
  refine ⟨digest.toList, signature.toList, ?_, modulus, held, ?_⟩
  · rw [signings, logged]
    rfl
  · intro hash computes
    have same := computes signed
    rw [List.flatten_cons, List.flatten_nil, List.append_nil] at same
    rw [same]

/-- A built image is read back, and one call checks its signature. -/
theorem parse_build
    (built : blueprint.build payload engine signer before = .ok image after) :
    ∃ (descriptor : Descriptor) (digest signature : Bytes),
      (∀ platform : Platform, (∀ size, platform.sizeValid size = none) →
        Descriptor.parse (Flash.ofBytes image) blueprint.descriptorOffset.toNat
          ⟨0, UInt32.ofNat image.length⟩ platform = .ok descriptor) ∧
      descriptor.Describes blueprint ∧ descriptor.imageSize.toNat = image.length ∧
      ('\x00' ∉ blueprint.name.toList → descriptor.name.text? = some blueprint.name) ∧
      List.Forall₂ (fun region plan =>
        '\x00' ∉ plan.name.toList → region.name.text? = some plan.name)
        descriptor.regions blueprint.regions ∧
      descriptor.Denies blueprint.denylist image ∧
      blueprint.signings payload engine signer before =
        [⟨blueprint.scheme, digest, signature⟩] ∧
      ∀ hash : Digests, engine.Computes hash →
        ∀ {τ : Type} (reader : HashEngine τ), reader.Computes hash →
          reader.Offers blueprint.scheme.algorithm → ∀ (verifier : Verifier τ) (state : τ),
          let block : SignatureBlock :=
            ⟨blueprint.scheme, signer.modulus, signer.exponent, signature⟩
          descriptor.verifierCalls (Flash.ofBytes image) reader verifier state =
              [(block, digest)] ∧
            ∃ between, descriptor.verifySignature (Flash.ofBytes image) reader verifier state =
              ((verifier.verify block digest).adaptExcept fun error => .rejected error.reason)
                between := by
  obtain ⟨draft, drafted⟩ := drafted_of_build built
  obtain ⟨consistent, describes, denylist, -⟩ := draft_describes drafted
  obtain ⟨digest, signature, signed, modulus, held, value⟩ := build_signs drafted built
  have length := held.filled.length
  have bounded := draft.descriptor.imageSize.toNat_lt
  have stop : (UInt32.ofNat image.length).toNat = image.length :=
    UInt32.toNat_ofNat_of_lt' (by rw [length]; exact bounded)
  have carries : (Flash.ofBytes image).Carries (Memory.ofBytes image)
      ⟨0, UInt32.ofNat image.length⟩ image := by
    have whole := @Flash.carries_ofBytes [] image [] ⟨0, UInt32.ofNat image.length⟩ rfl
      (by simp only [stop, List.length_nil, Nat.zero_add])
    rwa [List.nil_append, List.append_nil] at whole
  refine ⟨draft.descriptor, digest, signature, ?_, describes, length.symm,
    describes.name.text?, Region.Describes.names describes.regions,
    denylist ▸ held.filled.denies consistent, describes.scheme ▸ signed, ?_⟩
  · intro platform unasked
    have parsed := held.parsed consistent carries
      (show platform.sizeValid draft.descriptor.imageSize ≠ some false by rw [unasked]; simp)
    rw [← describes.offset]
    apply Descriptor.parse_eq_ok.2
    simpa using parsed
  · intro hash computes τ reader computesToo offers verifier state block
    obtain ⟨between, digested⟩ := held.signedDigest consistent carries computesToo
      (describes.scheme ▸ offers) state
    have read := held.signatureBlock consistent carries rfl modulus
    have unmoved : draft.descriptor.moved (0 : UInt32).toNat = draft.descriptor :=
      draft.descriptor.moved_zero
    rw [unmoved] at digested read
    rw [describes.scheme] at read
    have calls := Descriptor.verifierCalls_eq digested read verifier
    have answers := Descriptor.verifySignature_eq digested read verifier
    rw [← value hash computes] at calls answers
    exact ⟨calls, between, answers⟩

/-- The descriptor stands in the first of two regions and has a denylist. -/
def bootloader : Blueprint where
  name := "boot"
  family := 3
  version := ⟨1, 2, 3, 4⟩
  buildTimestamp := 1600000000
  imageType := .dev
  hashType := .sha512
  scheme := .rsa2048
  descriptorOffset := 4096
  areaSize := none
  imageSize := none
  regions := [⟨"code", 0, 8192, 7, [.static]⟩, ⟨"data", 8192, 4096, 0, []⟩]
  denylist := [⟨1, 0, 0, 0⟩, ⟨1, 1, 0, 0⟩]
  rollback := none
  records := []

/-- The bootloader is read back with its name, its regions and its denylist. -/
theorem bootloader_parsed :
    ∃ image built descriptor signature digest final,
      bootloader.build [1, 2, 3] Sha2.engine zeroSigner none = .ok image built ∧
      Descriptor.parse (Flash.ofBytes image) 4096 ⟨0, UInt32.ofNat image.length⟩
        ⟨none, none, fun _ => none⟩ = .ok descriptor ∧
      image.length = 12288 ∧ descriptor.name.text? = some "boot" ∧
      descriptor.version = ⟨1, 2, 3, 4⟩ ∧ descriptor.imageType = .dev ∧
      descriptor.regions.length = 2 ∧ descriptor.layout.denylist ≠ none ∧
      bootloader.signings [1, 2, 3] Sha2.engine zeroSigner none =
        [⟨.rsa2048, digest, signature⟩] ∧
      descriptor.verifierCalls (Flash.ofBytes image) Sha2.engine zeroVerifier none =
        [(⟨.rsa2048, zeroBytes 256, 65537, signature⟩, digest)] ∧
      descriptor.verifySignature (Flash.ofBytes image) Sha2.engine zeroVerifier none =
        .ok 0 final := by
  obtain ⟨draft, drafted, size, scheme⟩ : ∃ draft, bootloader.draft = .ok draft ∧
      draft.descriptor.imageSize = 12288 ∧ draft.descriptor.scheme = .rsa2048 :=
    ⟨_, rfl, rfl, rfl⟩
  have short : ([1, 2, 3] : Bytes).length ≤ draft.descriptor.imageSize.toNat := by
    rw [size]
    decide
  have modulus : zeroSigner.modulus.length = draft.descriptor.scheme.signatureLength := by
    rw [scheme, zeroSigner, length_zeroBytes]
    rfl
  obtain ⟨image, built, builds⟩ := @build_completes _ bootloader draft [1, 2, 3] Sha2.engine
    zeroSigner drafted short Sha2.engine_completes modulus (fun _ _ => ⟨_, _, rfl⟩) none
  obtain ⟨descriptor, digest, signature, parsed, describes, length, name, -, denies, signed,
    verified⟩ := parse_build builds
  obtain ⟨called, between, answered⟩ := verified Sha2.digest Sha2.engine_computes Sha2.engine
    Sha2.engine_computes (Sha2.engine_completes (by decide)) zeroVerifier none
  obtain ⟨final, answer⟩ := @zeroVerifier_verify ⟨.rsa2048, zeroBytes 256, 65537, signature⟩ rfl
    digest between
  refine ⟨image, built, descriptor, signature, digest, final, builds,
    parsed ⟨none, none, fun _ => none⟩ (fun _ => rfl), ?_, name (by decide), describes.version,
    describes.imageType, describes.regions.length_eq, ?_, signed, called,
    answered.trans (adaptExcept_eq_ok.2 answer)⟩
  · rw [← length, describes.imageSize]
    rfl
  · rw [ne_eq, denies.absent]
    exact List.cons_ne_nil _ _

end Blueprint

end SignedFirmware
