import SignedFirmware.Proofs.Image.Candidate

namespace SignedFirmware

/-- A verifier that decides may reject the key or the signature. -/
def Verifier.Decides {σ : Type} (verifier : Verifier σ) : Prop :=
  ∀ {block : SignatureBlock} {digest : Bytes} {before after : σ} {error : SignatureError},
    verifier.verify block digest before = .error error after →
      error = .untrustedKey ∨ error = .badSignature

/-- A platform answers what the policy may ask. -/
def Platform.Provides (platform : Platform) : Prop :=
  platform.production.isSome = true ∧ platform.downgradeAllowed.isSome = true

/-- Reasons in the image are allowed, and failures of devices that may fail. -/
structure Tolerates {σ : Type} (allowed : Halt → Prop) (flash : Flash) (span : Span)
    (platform : Platform) (engine : HashEngine σ) (verifier : Verifier σ) : Prop where
  image : ∀ {reason : Reason}, reason.tier ≠ .fatal → allowed (.rejected reason)
  flash : flash.Answers span ∨ allowed (.rejected .runtimeFailure)
  engine : engine.Completes ∨ allowed (.rejected .runtimeFailure)
  verifier : verifier.Decides ∨ allowed (.rejected .runtimeFailure)
  platform : platform.Provides ∨ allowed (.rejected .invalidInterface)

/-- A malformed candidate is allowed, and a failed read unless the flash always answers. -/
structure Forgives (allowed : Halt → Prop) (flash : Flash) (span : Span) : Prop where
  structural : ∀ {reason : Reason}, reason.tier = .structural → allowed (.rejected reason)
  reads : flash.Readable span ∨ allowed (.rejected .runtimeFailure)

theorem Tolerates.forgives {σ : Type} {allowed : Halt → Prop} {flash : Flash} {span : Span}
    {platform : Platform} {engine : HashEngine σ} {verifier : Verifier σ}
    (tolerates : Tolerates allowed flash span platform engine verifier) :
    Forgives allowed flash span where
  structural tier := tolerates.image (by simp [tier])
  reads := tolerates.flash.imp_left fun answers => @answers.read

/-- Without any assumption an allowed end is one that is no overflow. -/
theorem tolerates_rejections {σ : Type} (flash : Flash) (span : Span) (platform : Platform)
    (engine : HashEngine σ) (verifier : Verifier σ) :
    Tolerates (· ≠ .overflow) flash span platform engine verifier where
  image _ := by simp
  flash := .inr (by simp)
  engine := .inr (by simp)
  verifier := .inr (by simp)
  platform := .inr (by simp)

namespace Offset

variable {α : Type} {allowed : Halt → Prop} {left right : Nat} {next : Nat → Checked α}

/-- After an addition that fits, the next step takes the sum. -/
theorem ends_add_bind (fits : left + right < limit)
    (ends : (next (left + right)).Ends allowed) : (add left right >>= next).Ends allowed := by
  rw [add_eq_ok.2 ⟨fits, rfl⟩]
  exact ends

/-- After a subtraction that fits, the next step takes the difference. -/
theorem ends_sub_bind (fits : right ≤ left)
    (ends : (next (left - right)).Ends allowed) : (sub left right >>= next).Ends allowed := by
  rw [sub_eq_ok.2 ⟨fits, rfl⟩]
  exact ends

end Offset

open Checked

section Steps

variable {σ : Type} {allowed : Halt → Prop} {flash : Flash} {span : Span} {platform : Platform}
  {engine : HashEngine σ} {verifier : Verifier σ}

theorem Tolerates.ends_ensure (tolerates : Tolerates allowed flash span platform engine verifier)
    {condition : Prop} [Decidable condition] {reason : Reason} (harmless : reason.tier ≠ .fatal) :
    (ensure condition reason).Ends allowed :=
  Checked.ends_ensure (tolerates.image harmless)

theorem Tolerates.ends_require (tolerates : Tolerates allowed flash span platform engine verifier)
    {α : Type} {answer : Option α} {reason : Reason} (harmless : reason.tier ≠ .fatal) :
    (require answer reason).Ends allowed :=
  Checked.ends_require (.inr (tolerates.image harmless))

theorem Tolerates.ends_ensure_bind
    (tolerates : Tolerates allowed flash span platform engine verifier) {α : Type}
    {condition : Prop} [Decidable condition] {reason : Reason} {next : Unit → Checked α}
    (harmless : reason.tier ≠ .fatal) (ends : condition → (next ()).Ends allowed) :
    (ensure condition reason >>= next).Ends allowed :=
  Checked.ends_ensure_bind (tolerates.image harmless) ends

theorem Tolerates.ends_require_bind
    (tolerates : Tolerates allowed flash span platform engine verifier) {α β : Type}
    {answer : Option α} {reason : Reason} {next : α → Checked β}
    (harmless : reason.tier ≠ .fatal)
    (ends : ∀ value, answer = some value → (next value).Ends allowed) :
    (require answer reason >>= next).Ends allowed :=
  Checked.ends_require_bind (tolerates.image harmless) ends

/-- A read inside the span ends as allowed. -/
theorem Forgives.ends_read (forgives : Forgives allowed flash span) {offset length : Nat}
    (low : span.start.toNat ≤ offset) (high : offset + length ≤ span.stop.toNat) :
    (Checked.ofFlash (flash.read offset length)).Ends allowed := by
  rcases forgives.reads with readable | allows
  · obtain ⟨bytes, answer⟩ := readable low high
    rw [answer]
    exact ends_ok bytes
  · cases flash.read offset length with
    | ok bytes => exact ends_ok bytes
    | error error => exact ends_reject allows

theorem Forgives.ends_number (forgives : Forgives allowed flash span) {offset width : Nat}
    (low : span.start.toNat ≤ offset) (high : offset + width ≤ span.stop.toNat) :
    (Checked.ofFlash (flash.number offset width)).Ends allowed := by
  rcases forgives.reads with readable | allows
  · obtain ⟨word, answer⟩ := Flash.Readable.number readable low high
    rw [answer]
    exact ends_ok word
  · cases flash.number offset width with
    | ok word => exact ends_ok word
    | error error => exact ends_reject allows

/-- A digest of ranges inside the span ends as allowed. -/
theorem Tolerates.ends_digest (tolerates : Tolerates allowed flash span platform engine verifier)
    {algorithm : Algorithm} (offered : algorithm ≠ .sha384) {extents : List Extent}
    (inside : ∀ extent ∈ extents,
      span.start.toNat ≤ extent.offset ∧ extent.offset + extent.length ≤ span.stop.toNat)
    (before : σ) :
    Run.Ends allowed ((flash.digest engine algorithm extents).adaptExcept
      fun error => Halt.rejected error.reason) before := by
  have tolerated : allowed (.rejected .runtimeFailure) →
      Run.Ends allowed ((flash.digest engine algorithm extents).adaptExcept
        fun error => Halt.rejected error.reason) before := by
    intro allows halt after failed
    obtain ⟨error, rfl, -⟩ := adaptExcept_eq_error.1 failed
    exact allows
  rcases tolerates.flash with answers | allows
  · rcases tolerates.engine with completes | allows
    · have clean : ∀ extent ∈ extents, (flash.feed extent).error = none := fun extent member =>
        answers.feed (inside extent member).1 (inside extent member).2
      obtain ⟨digest, final, digested⟩ := Flash.digest_completes (completes offered) clean before
      intro halt after failed
      obtain ⟨error, -, caused⟩ := adaptExcept_eq_error.1 failed
      rw [digested] at caused
      cases caused
    · exact tolerated allows
  · exact tolerated allows

end Steps

namespace Descriptor

variable {σ : Type} {allowed : Halt → Prop} {flash : Flash} {span : Span} {platform : Platform}
  {engine : HashEngine σ} {verifier : Verifier σ}

/-- Bytes that a reader covers are decoded without an error. -/
theorem ends_decode {α : Type} {reader : Reader α} {length : Nat}
    (covers : reader.Covers length) {bytes : Bytes} (long : length ≤ bytes.length) :
    (decode reader bytes).Ends allowed := by
  obtain ⟨value, answer⟩ := covers bytes long
  rw [decode, answer]
  exact ends_ok value

theorem ends_expectMagic (forgives : Forgives allowed flash span)
    {offset : Nat} {magic : UInt32} (low : span.start.toNat ≤ offset)
    (high : offset + 4 ≤ span.stop.toNat) : (expectMagic flash offset magic).Ends allowed :=
  ends_bind (forgives.ends_number low high) fun _ _ => ends_ensure (forgives.structural (by decide))

theorem ends_readHeader (forgives : Forgives allowed flash span)
    {position : Nat} (low : span.start.toNat ≤ position) :
    (readHeader flash position span).Ends allowed := by
  apply ends_ensure_bind (forgives.structural (by decide))
  intro room
  apply ends_bind (forgives.ends_read low room)
  intro bytes _
  exact ends_decode Header.covers_read (Nat.le_of_eq bytes.length_toList.symm)

theorem ends_checkHeader (forgives : Forgives allowed flash span)
    {header : Header} {position : Nat} :
    (checkHeader header position span platform).Ends allowed := by
  apply ends_ensure_bind (forgives.structural (by decide))
  intro _
  apply ends_ensure_bind (forgives.structural (by decide))
  intro _
  apply ends_ensure_bind (forgives.structural (by decide))
  intro _
  apply ends_ensure_bind (forgives.structural (by decide))
  intro _
  apply ends_ensure_bind (forgives.structural (by decide))
  intro _
  apply ends_ensure_bind (forgives.structural (by decide))
  intro _
  exact ends_ensure (forgives.structural (by decide))

/-- The words of the sections that may be absent are read inside the span. -/
theorem ends_checkSections (forgives : Forgives allowed flash span)
    {layout : Layout}
    (denylist : ∀ extent ∈ layout.denylist,
      span.start.toNat ≤ extent.offset ∧ extent.offset + 4 ≤ span.stop.toNat)
    (blob : ∀ extent ∈ layout.blob,
      span.start.toNat ≤ extent.offset ∧ extent.offset + extent.length ≤ span.stop.toNat) :
    (checkSections flash layout).Ends allowed := by
  obtain ⟨hash, denylistPlace, blobPlace, signature, signed⟩ := layout
  have blobEnds :
      (checkSections flash ⟨hash, none, blobPlace, signature, signed⟩).Ends allowed := by
    cases blobPlace with
    | none => exact ends_pure ()
    | some extent =>
        obtain ⟨low, high⟩ := blob extent rfl
        apply ends_ensure_bind (forgives.structural (by decide))
        intro room
        rw [Layout.sectionHeaderLength] at room
        exact ends_expectMagic forgives low (by omega)
  cases denylistPlace with
  | none => exact blobEnds
  | some extent =>
      obtain ⟨low, high⟩ := denylist extent rfl
      exact ends_bind (ends_expectMagic forgives low high) fun _ _ => blobEnds

theorem ends_readRegions (forgives : Forgives allowed flash span)
    {position index count : Nat} (low : span.start.toNat ≤ position)
    (high : position + Layout.headerLength + (index + count) * Region.entryLength ≤
      span.stop.toNat) : (readRegions flash position index count).Ends allowed := by
  have stop := span.stop.toNat_lt
  induction count generalizing index with
  | zero => exact ends_pure []
  | succ count ih =>
      simp only [Region.entryLength] at high
      refine Offset.ends_add_bind (by rw [Offset.limit]; omega) ?_
      refine Offset.ends_add_bind (by rw [Offset.limit, Region.entryLength]; omega) ?_
      apply ends_bind (forgives.ends_read (by omega) (by rw [Region.entryLength]; omega))
      intro bytes _
      have decodes : (decode Region.read bytes.toList).Ends allowed :=
        ends_decode Region.covers_read (by simp)
      apply ends_bind decodes
      intro region _
      apply ends_bind (ih (by rw [Region.entryLength]; omega))
      intro rest _
      exact ends_pure _

/-- Reading a descriptor ends as allowed, whatever stands in flash. -/
theorem ends_parse (forgives : Forgives allowed flash span)
    {position : Nat} (low : span.start.toNat ≤ position) :
    (parse flash position span platform).Ends allowed := by
  have stop := span.stop.toNat_lt
  apply ends_bind (ends_readHeader forgives low)
  intro header _
  apply ends_bind (ends_checkHeader forgives)
  intro _ checked
  obtain ⟨-, -, -, -, -, area, -⟩ := checkHeader_eq_ok.1 checked
  apply ends_require_bind (forgives.structural (by decide))
  intro imageType _
  apply ends_require_bind (forgives.structural (by decide))
  intro scheme _
  apply ends_require_bind (forgives.structural (by decide))
  intro hashType _
  apply ends_require_bind (forgives.structural (by decide))
  intro algorithm _
  apply ends_require_bind (forgives.structural (by decide))
  intro layout placed
  obtain ⟨fits, rfl⟩ := Layout.place?_eq_some.1 placed
  have block := Layout.signature_tiled position header.regionCount.toNat algorithm
    header.denylistSize.toNat header.blobSize.toNat scheme
  refine Offset.ends_add_bind (by rw [block]; simp only [Layout.tiled]; omega) ?_
  apply ends_ensure_bind (forgives.structural (by decide))
  intro room
  rw [block] at room
  simp only [Layout.tiled] at room
  have sections : (checkSections flash (.tiled position header.regionCount.toNat algorithm
      header.denylistSize.toNat header.blobSize.toNat scheme)).Ends allowed := by
    apply ends_checkSections forgives
    · intro extent present
      have inside := Layout.denylist_tiled present
      rw [Layout.sectionHeaderLength] at inside
      omega
    · intro extent present
      have inside := Layout.blob_tiled present
      omega
  have table : (readRegions flash position 0 header.regionCount.toNat).Ends allowed := by
    apply ends_readRegions forgives low
    simp only [Layout.signedLength, Region.entryLength] at room ⊢
    omega
  apply ends_bind sections
  intro _ _
  apply ends_bind table
  intro regions _
  exact ends_pure _

theorem ends_checkTransition (tolerates : Tolerates allowed flash span platform engine verifier)
    {descriptor : Descriptor} {position : Nat} {family : UInt32} {currentType : Option ImageType}
    (parsed : descriptor.Parsed flash position span platform) :
    (descriptor.checkTransition flash family currentType platform).Ends allowed := by
  obtain ⟨low, long, high⟩ := parsed.signature_inside
  have asked {answer : Option Bool} (provided : platform.Provides → answer.isSome = true) :
      (require answer .invalidInterface).Ends allowed :=
    Checked.ends_require (tolerates.platform.imp_left provided)
  have word : (expectMagic flash descriptor.layout.signature.offset
      magics.signature).Ends allowed := ends_expectMagic tolerates.forgives low (by omega)
  apply ends_bind word
  intro _ _
  apply tolerates.ends_ensure_bind (by decide)
  intro _
  apply tolerates.ends_ensure_bind (by decide)
  intro _
  apply ends_bind (asked And.left)
  intro production _
  split
  · apply ends_bind (asked And.right)
    intro permitted _
    exact tolerates.ends_ensure (by decide)
  · exact ends_pure ()

theorem ends_signatureBlock (tolerates : Tolerates allowed flash span platform engine verifier)
    {descriptor : Descriptor} {position : Nat}
    (parsed : descriptor.Parsed flash position span platform) :
    (descriptor.signatureBlock flash).Ends allowed := by
  obtain ⟨low, -, high⟩ := parsed.signature_inside
  apply tolerates.ends_ensure_bind (by decide)
  intro _
  apply ends_bind (tolerates.forgives.ends_read low high)
  intro bytes _
  apply tolerates.ends_ensure_bind (by decide)
  intro _
  exact ends_pure _

/-- The check of a signature ends as allowed. -/
theorem ends_verifySignature (tolerates : Tolerates allowed flash span platform engine verifier)
    {descriptor : Descriptor} {position : Nat}
    (parsed : descriptor.Parsed flash position span platform) (before : σ) :
    Run.Ends allowed (descriptor.verifySignature flash engine verifier) before := by
  have low := parsed.start_le
  have high := parsed.inside
  have inside : ∀ extent ∈ [descriptor.layout.signed],
      span.start.toNat ≤ extent.offset ∧ extent.offset + extent.length ≤ span.stop.toNat := by
    intro extent member
    rw [List.mem_singleton.1 member, parsed.signed]
    rw [parsed.signed] at high
    dsimp only at high ⊢
    omega
  apply Run.ends_bind (tolerates.ends_digest (Scheme.algorithm_ne_sha384 _) inside before)
  intro digest between _
  apply Run.ends_bind (Run.ends_run (ends_signatureBlock tolerates parsed))
  intro block state _ halt after failed
  obtain ⟨error, rfl, caused⟩ := adaptExcept_eq_error.1 failed
  rcases tolerates.verifier with decides | allows
  · rcases decides caused with rfl | rfl
    · exact tolerates.image (by decide)
    · exact tolerates.image (by decide)
  · cases error with
    | untrustedKey => exact tolerates.image (by decide)
    | badSignature => exact tolerates.image (by decide)
    | unsupported => exact allows
    | unspecified => exact allows

/-- The sum of the sizes never leaves the image. -/
theorem ends_checkPartition (tolerates : Tolerates allowed flash span platform engine verifier)
    {imageSize : Nat} (bounded : imageSize < Offset.limit) {total : Nat}
    (inside : total ≤ imageSize) (regions : List Region) :
    (checkPartition imageSize span total regions).Ends allowed := by
  induction regions generalizing total with
  | nil => exact ends_pure total
  | cons region rest ih =>
      apply tolerates.ends_ensure_bind (by decide)
      intro _
      apply tolerates.ends_ensure_bind (by decide)
      intro _
      refine Offset.ends_sub_bind inside ?_
      apply tolerates.ends_ensure_bind (by decide)
      intro fits
      apply tolerates.ends_ensure_bind (by decide)
      intro _
      refine Offset.ends_add_bind (by omega) ?_
      exact ih (by omega)

theorem ends_checkOwner (tolerates : Tolerates allowed flash span platform engine verifier)
    {descriptor : Descriptor} : descriptor.checkOwner.Ends allowed := by
  apply tolerates.ends_require_bind (by decide)
  intro owner _
  apply tolerates.ends_ensure_bind (by decide)
  intro _
  apply tolerates.ends_require_bind (by decide)
  intro areaStop _
  apply tolerates.ends_require_bind (by decide)
  intro ownerStop _
  exact tolerates.ends_ensure (by decide)

theorem ends_expectedDigest (tolerates : Tolerates allowed flash span platform engine verifier)
    {descriptor : Descriptor} {position : Nat}
    (parsed : descriptor.Parsed flash position span platform) :
    (descriptor.expectedDigest flash).Ends allowed := by
  have stop := span.stop.toNat_lt
  have low := parsed.start_le
  have high := parsed.inside
  obtain ⟨above, length, below⟩ := parsed.hash
  have headerLength : Layout.sectionHeaderLength = 8 := rfl
  rw [headerLength] at length
  apply ends_bind (tolerates.forgives.ends_read (by omega) (by omega))
  intro head _
  apply tolerates.ends_ensure_bind (by decide)
  intro _
  refine Offset.ends_add_bind (by rw [Offset.limit]; omega) ?_
  exact tolerates.forgives.ends_read (by omega) (by omega)

/-- The bounds of the ranges fit because the owner holds the area. -/
theorem ends_checkTable (tolerates : Tolerates allowed flash span platform engine verifier)
    {descriptor : Descriptor} {position capacity : Nat}
    (parsed : descriptor.Parsed flash position span platform) :
    (descriptor.checkTable flash span capacity).Ends allowed := by
  have bounded := descriptor.imageSize.toNat_lt
  have own := parsed.ownOffset.trans parsed.offset.symm
  apply tolerates.ends_ensure_bind (by decide)
  intro _
  apply ends_bind (ends_checkPartition tolerates bounded (Nat.zero_le _) _)
  intro total sum
  apply tolerates.ends_ensure_bind (by decide)
  intro whole
  apply ends_bind (ends_checkOwner tolerates)
  intro _ owned
  apply ends_bind (ends_expectedDigest tolerates parsed)
  intro expected _
  obtain ⟨tile, sectors, -, inside⟩ := (checkPartition_eq_ok bounded (Nat.zero_le _)).1 sum
  subst whole
  obtain ⟨owner, found, static, holds, -⟩ := checkOwner_eq_ok.1 owned
  have partitioned : descriptor.Partitioned span :=
    ⟨tile, sectors, inside, owner, found, static, holds⟩
  rw [partitioned.digestExtents_eq_ok own]
  exact ends_bind (ends_ok _) fun _ _ => ends_pure _

/-- The check of the regions ends as allowed. -/
theorem ends_validateRegions (tolerates : Tolerates allowed flash span platform engine verifier)
    {descriptor : Descriptor} {position capacity : Nat}
    (parsed : descriptor.Parsed flash position span platform) (before : σ) :
    Run.Ends allowed (descriptor.validateRegions flash span engine capacity) before := by
  have own := parsed.ownOffset.trans parsed.offset.symm
  apply Run.ends_bind (Run.ends_run (ends_checkTable tolerates parsed))
  intro answer state tabled
  rcases answer with ⟨expected, extents⟩
  obtain ⟨-, partitioned, -, rfl⟩ := (checkTable_eq_ok own).1 (run_eq_ok.1 tabled).1
  have inside : ∀ extent ∈ descriptor.digestRanges span.start.toNat,
      span.start.toNat ≤ extent.offset ∧ extent.offset + extent.length ≤ span.stop.toNat := by
    intro extent member
    exact partitioned.digestRanges_inside own member
  apply Run.ends_bind (tolerates.ends_digest descriptor.algorithm_ne_sha384 inside state)
  intro actual _ _
  apply Run.ends_bind (Run.ends_run (tolerates.ends_ensure (by decide)))
  intro _ _ _
  exact Run.ends_run (tolerates.ends_require (by decide))

end Descriptor

/-- The check of a candidate ends as allowed, whatever stands in flash. -/
theorem Settings.ends_validateCandidate {σ : Type} {allowed : Halt → Prop} {settings : Settings}
    {flash : Flash} {platform : Platform} {engine : HashEngine σ} {verifier : Verifier σ}
    (tolerates : Tolerates allowed flash settings.span platform engine verifier)
    {capacity position : Nat} (low : settings.span.start.toNat ≤ position) (before : σ) :
    Run.Ends allowed (settings.validateCandidate flash platform engine verifier capacity position)
      before := by
  apply Run.ends_bind (Run.ends_run (Descriptor.ends_parse tolerates.forgives low))
  intro descriptor state read
  have parsed := Descriptor.parse_eq_ok.1 (run_eq_ok.1 read).1
  apply Run.ends_bind (Run.ends_run (Descriptor.ends_checkTransition tolerates parsed))
  intro _ state _
  apply Run.ends_bind (Descriptor.ends_verifySignature tolerates parsed state)
  intro key state _
  apply Run.ends_bind (Descriptor.ends_validateRegions tolerates parsed state)
  intro table state _
  exact Run.ends_pure _

end SignedFirmware
