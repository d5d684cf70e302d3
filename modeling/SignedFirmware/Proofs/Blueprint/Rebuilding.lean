import SignedFirmware.Proofs.Blueprint.Sizes
import SignedFirmware.Proofs.Completeness

namespace SignedFirmware

section Fixed

variable {ε δ σ α β : Type}

/-- A step that has once given a value gives it in every state. -/
def Fixed (step : EStateM ε σ α) : Prop :=
  ∀ value before after, step before = .ok value after →
    ∀ state, ∃ later, step state = .ok value later

theorem fixed_pure (value : α) : Fixed (pure value : EStateM ε σ α) := by
  intro found before after passed state
  obtain ⟨rfl, -⟩ := device_pure_eq_ok.1 passed
  exact ⟨state, rfl⟩

theorem fixed_perform (step : Except BuildError α) : Fixed (perform step : EStateM _ σ α) := by
  intro value before after passed state
  obtain ⟨rfl, -⟩ := perform_eq_ok.1 passed
  exact ⟨state, rfl⟩

theorem Fixed.adaptExcept {convert : ε → δ} {step : EStateM ε σ α} (fixed : Fixed step) :
    Fixed (EStateM.adaptExcept convert step) := by
  intro value before after passed state
  obtain ⟨later, again⟩ := fixed _ _ _ (adaptExcept_eq_ok.1 passed) state
  exact ⟨later, adaptExcept_eq_ok.2 again⟩

/-- A sequence is fixed if its parts are. -/
theorem Fixed.bind {step : EStateM ε σ α} {next : α → EStateM ε σ β} (first : Fixed step)
    (second : ∀ value, Fixed (next value)) : Fixed (step >>= next) := by
  intro value before after passed state
  obtain ⟨found, between, head, tail⟩ := device_bind_eq_ok.1 passed
  obtain ⟨middle, headAgain⟩ := first _ _ _ head state
  obtain ⟨later, tailAgain⟩ := second found _ _ _ tail middle
  exact ⟨later, device_bind_eq_ok.2 ⟨found, middle, headAgain, tailAgain⟩⟩

end Fixed

/-- The digest of the same pieces is the same in every state. -/
def HashEngine.Fixed {σ : Type} (engine : HashEngine σ) : Prop :=
  ∀ algorithm pieces, SignedFirmware.Fixed (engine.digest algorithm pieces)

/-- The signature of the same digest is the same in every state. -/
def Signer.Fixed {σ : Type} (signer : Signer σ) : Prop :=
  ∀ scheme digest length, SignedFirmware.Fixed (signer.sign scheme digest length)

/-- What a patch covers does not matter for the patched byte string. -/
theorem splice_congr {left right patch : Bytes} {offset : Nat}
    (agree : ∀ index, index < offset ∨ offset + patch.length ≤ index →
      left[index]? = right[index]?) : splice left offset patch = splice right offset patch := by
  have front : left.take offset = right.take offset := by
    apply List.ext_getElem?
    intro index
    rw [List.getElem?_take, List.getElem?_take]
    split
    next before => exact agree index (.inl before)
    next => rfl
  have back : left.drop (offset + patch.length) = right.drop (offset + patch.length) := by
    apply List.ext_getElem?
    intro index
    rw [List.getElem?_drop, List.getElem?_drop]
    exact agree _ (.inr (Nat.le_add_right _ _))
  rw [splice, splice, front, back]

namespace Blueprint

/-- The payload, filled up to the length of the image. -/
def padded (blueprint : Blueprint) (payload : Bytes) : Bytes :=
  payload ++ List.replicate (blueprint.imageLength - payload.length) filler

/-- Two payloads, when filled up, differ only in the descriptor's area. -/
structure SameOutside (blueprint : Blueprint) (left right : Bytes) : Prop where
  leftShort : left.length ≤ blueprint.imageLength
  rightShort : right.length ≤ blueprint.imageLength
  outside : ∀ index, index < blueprint.descriptorOffset.toNat ∨
    blueprint.descriptorOffset.toNat + blueprint.areaLength ≤ index →
      (blueprint.padded left)[index]? = (blueprint.padded right)[index]?

variable {σ : Type} {blueprint : Blueprint} {draft : Draft} {payload left right image : Bytes}
  {engine : HashEngine σ} {signer : Signer σ} {before after : σ}

theorem length_padded (short : payload.length ≤ blueprint.imageLength) :
    (blueprint.padded payload).length = blueprint.imageLength := by
  rw [padded, List.length_append, List.length_replicate]
  omega

/-- After the payload the image is filled up. -/
theorem getElem?_padded {index : Nat} (beyond : payload.length ≤ index) :
    (blueprint.padded payload)[index]? =
      if index < blueprint.imageLength then some filler else none := by
  have inside : index - payload.length < blueprint.imageLength - payload.length ↔
      index < blueprint.imageLength := by omega
  rw [padded, List.getElem?_append_right beyond, List.getElem?_replicate]
  simp only [inside]

/-- The blank image does not depend on the payload in the descriptor's area. -/
theorem blank_congr (drafted : blueprint.draft = .ok draft)
    (same : blueprint.SameOutside left right) : draft.blank left = draft.blank right := by
  obtain ⟨-, area, image⟩ := draft_measures drafted
  have own : draft.descriptor.ownOffset.toNat = blueprint.descriptorOffset.toNat :=
    congrArg UInt32.toNat (draft_eq_ok drafted).2.1
  simp only [Draft.blank, image, own, demand, same.leftShort, same.rightShort, if_true]
  cases filled : Draft.fill draft.descriptor.areaSize.toNat draft.fields with
  | error error => rfl
  | ok bytes =>
      obtain ⟨room, rfl⟩ := Draft.fill_eq_ok.1 filled
      have spliced := @splice_congr (blueprint.padded left) (blueprint.padded right)
        (Field.encodeAll draft.fields ++ zeroBytes (draft.descriptor.areaSize.toNat -
          (Field.encodeAll draft.fields).length)) blueprint.descriptorOffset.toNat (by
        rw [List.length_append, length_zeroBytes, Nat.add_sub_of_le room, area]
        exact same.outside)
      exact congrArg Except.ok spliced

/-- Payloads that differ only in the descriptor's area are built alike. -/
theorem build_congr (drafted : blueprint.draft = .ok draft)
    (same : blueprint.SameOutside left right) :
    blueprint.build left engine signer = blueprint.build right engine signer := by
  funext state
  have first : perform blueprint.draft state = .ok draft state := by
    rw [drafted]
    rfl
  rw [build, build, device_bind_of_ok first, device_bind_of_ok first, blank_congr drafted same]

/-- A build is fixed if its devices are. -/
theorem fixed_build (engineFixed : engine.Fixed) (signerFixed : signer.Fixed) :
    Fixed (blueprint.build payload engine signer) := by
  apply (fixed_perform _).bind
  intro draft
  apply (fixed_perform _).bind
  intro blank
  apply (engineFixed _ _).adaptExcept.bind
  intro covered
  apply (engineFixed _ _).adaptExcept.bind
  intro digest
  apply (fixed_perform _).bind
  intro _
  apply (signerFixed _ _ _).adaptExcept.bind
  intro signature
  exact (fixed_perform _).bind fun bytes => fixed_pure _

/-- An image differs from the padded payload in the descriptor's area only. -/
theorem build_outside (drafted : blueprint.draft = .ok draft)
    (built : blueprint.build payload engine signer before = .ok image after) :
    payload.length ≤ blueprint.imageLength ∧ image.length = blueprint.imageLength ∧
      (∀ index, index < blueprint.descriptorOffset.toNat ∨
        blueprint.descriptorOffset.toNat + blueprint.areaLength ≤ index →
          image[index]? = (blueprint.padded payload)[index]?) ∧
      ∀ index, blueprint.descriptorOffset.toNat + blueprint.descriptorLength ≤ index →
        index < blueprint.descriptorOffset.toNat + blueprint.areaLength →
          image[index]? = some 0 := by
  obtain ⟨signature, area, size⟩ := draft_measures drafted
  obtain ⟨consistent, own, -, -⟩ := draft_eq_ok drafted
  obtain ⟨blank, -, -, -, -, -, blanked, -, -, -, -, held, -, length, outside⟩ :=
    build_sealed drafted built
  obtain ⟨blankLength, placed⟩ := Draft.ofBytes_blank consistent blanked
  have short : payload.length ≤ blueprint.imageLength := by
    simp only [Draft.blank, bind_eq_ok, demand_eq_ok, exists_answer] at blanked
    exact size ▸ blanked.1
  have offset : draft.descriptor.offset = blueprint.descriptorOffset.toNat :=
    consistent.offset.trans (congrArg UInt32.toNat own)
  have imageLength : image.length = blueprint.imageLength := by rw [length, blankLength, size]
  have places := consistent.places
  have block := congrArg Extent.length consistent.signature
  dsimp only at block
  refine ⟨short, imageLength, ?_, ?_⟩
  · intro index apart
    apply Memory.getElem?_eq_of_ofBytes (imageLength.trans (length_padded short).symm)
    rw [outside index (by omega), placed, if_neg (by omega), size]
    rfl
  · intro index low high
    have fields := consistent.length_fields
    have start := congrArg Extent.offset consistent.signature
    dsimp only at start
    have present : index < image.length := by omega
    have absent : (Field.encodeAll draft.fields).length ≤ index - draft.descriptor.offset := by
      omega
    have zero : Memory.ofBytes image index = 0 := by
      rw [outside index (by omega), placed, if_pos (by omega), Memory.ofBytes,
        List.getD_eq_getElem?_getD, List.getElem?_eq_none absent, Option.getD_none]
    rw [Memory.ofBytes, List.getD_eq_getElem?_getD, List.getElem?_eq_getElem present] at zero
    rw [List.getElem?_eq_getElem present]
    exact congrArg some zero

/-- A build changes only the descriptor's area and ignores the payload there. -/
theorem build_confined (engineFixed : engine.Fixed) (signerFixed : signer.Fixed)
    (built : blueprint.build payload engine signer before = .ok image after) :
    image.length = blueprint.imageLength ∧
      (∀ index, index < blueprint.descriptorOffset.toNat ∨
        blueprint.descriptorOffset.toNat + blueprint.areaLength ≤ index →
          image[index]? = (blueprint.padded payload)[index]?) ∧
      (∀ index, blueprint.descriptorOffset.toNat + blueprint.descriptorLength ≤ index →
        index < blueprint.descriptorOffset.toNat + blueprint.areaLength →
          image[index]? = some 0) ∧
      (∀ other, blueprint.SameOutside other payload →
        ∀ state, ∃ later, blueprint.build other engine signer state = .ok image later) ∧
      ∀ state, ∃ later, blueprint.build image engine signer state = .ok image later := by
  obtain ⟨draft, drafted⟩ := drafted_of_build built
  obtain ⟨short, length, outside, zeros⟩ := build_outside drafted built
  have alike (other : Bytes) (same : blueprint.SameOutside other payload) (state : σ) :
      ∃ later, blueprint.build other engine signer state = .ok image later := by
    rw [build_congr drafted same]
    exact fixed_build engineFixed signerFixed _ _ _ built state
  refine ⟨length, outside, zeros, alike, alike image ⟨Nat.le_of_eq length, short, ?_⟩⟩
  intro index apart
  have whole : blueprint.padded image = image := by
    rw [padded, length, Nat.sub_self, List.replicate_zero, List.append_nil]
  rw [whole]
  exact outside index apart

/-- The SHA-2 engine always answers alike. -/
theorem engine_fixed : Sha2.engine.Fixed := by
  intro algorithm pieces value before after passed state
  rw [Sha2.engine_digest] at passed
  obtain ⟨rfl, -⟩ := EStateM.Result.ok.inj passed
  exact ⟨none, Sha2.engine_digest algorithm pieces state⟩

/-- The signer of zeros always answers alike. -/
theorem zeroSigner_fixed : zeroSigner.Fixed := by
  intro scheme digest length value before after passed state
  obtain ⟨rfl, -⟩ := EStateM.Result.ok.inj passed
  exact ⟨state, rfl⟩

/-- The descriptor has more room than it needs. -/
def roomy : Blueprint := { smallest with areaSize := some 1024 }

/-- A payload with other bytes in the area builds the same image. -/
theorem roomy_rebuilt :
    ∃ image after later again,
      roomy.build [1, 2, 3] Sha2.engine zeroSigner none = .ok image after ∧
      image.length = 4096 ∧ image[1023]? = some 0 ∧ image[1024]? = some 255 ∧
      roomy.build (List.replicate 1024 7) Sha2.engine zeroSigner none = .ok image later ∧
      roomy.build image Sha2.engine zeroSigner none = .ok image again := by
  obtain ⟨draft, drafted, imageSize, scheme⟩ : ∃ draft, roomy.draft = .ok draft ∧
      draft.descriptor.imageSize = 4096 ∧ draft.descriptor.scheme = .rsa2048 :=
    ⟨_, rfl, rfl, rfl⟩
  have short : ([1, 2, 3] : Bytes).length ≤ draft.descriptor.imageSize.toNat := by
    rw [imageSize]
    decide
  have modulus : zeroSigner.modulus.length = draft.descriptor.scheme.signatureLength := by
    rw [scheme, zeroSigner, length_zeroBytes]
    rfl
  obtain ⟨image, after, built⟩ := @build_completes _ roomy draft [1, 2, 3] Sha2.engine zeroSigner
    drafted short Sha2.engine_completes modulus (fun _ _ => ⟨_, _, rfl⟩) none
  have area : roomy.areaLength = 1024 := rfl
  have size : roomy.imageLength = 4096 := rfl
  obtain ⟨length, outside, zeros, alike, again⟩ :=
    build_confined engine_fixed zeroSigner_fixed built
  have same : roomy.SameOutside (List.replicate 1024 7) [1, 2, 3] := by
    refine ⟨by rw [size, List.length_replicate]; decide, by rw [size]; decide, ?_⟩
    intro index apart
    rw [area] at apart
    have beyond : 1024 ≤ index := apart.resolve_left (Nat.not_lt_zero index)
    rw [getElem?_padded (by rwa [List.length_replicate]),
      getElem?_padded (Nat.le_trans (by decide) beyond)]
  obtain ⟨later, alike⟩ := alike _ same none
  obtain ⟨final, again⟩ := again none
  refine ⟨image, after, later, final, built, length, zeros 1023 (by decide) (by decide), ?_, alike,
    again⟩
  rw [outside 1024 (.inr (by decide)), getElem?_padded (by decide), size]
  rfl

end Blueprint

end SignedFirmware
