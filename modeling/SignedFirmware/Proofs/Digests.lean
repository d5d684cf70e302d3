import SignedFirmware.Proofs.Memory
import SignedFirmware.Digest.Engine

namespace SignedFirmware

/-- A family of digest functions has one function for each algorithm. -/
abbrev Digests := (algorithm : Algorithm) → Bytes → Vector UInt8 algorithm.length

theorem Scheme.algorithm_ne_sha384 (scheme : Scheme) : scheme.algorithm ≠ .sha384 := by
  cases scheme <;> decide

theorem Descriptor.algorithm_ne_sha384 (descriptor : Descriptor) :
    descriptor.algorithm ≠ .sha384 := by
  unfold Descriptor.algorithm
  cases descriptor.hashType <;> decide

namespace HashEngine

variable {σ : Type}

/-- Each digest is that of all bytes written since its start. -/
def Computes (engine : HashEngine σ) (hash : Digests) : Prop :=
  ∀ {algorithm : Algorithm} {pieces : List Bytes} {before after : σ}
    {digest : Vector UInt8 algorithm.length},
    engine.digest algorithm pieces before = .ok digest after →
      digest = hash algorithm pieces.flatten

/-- An engine completes every digest by an algorithm. -/
def Offers (engine : HashEngine σ) (algorithm : Algorithm) : Prop :=
  ∀ (pieces : List Bytes) (before : σ),
    ∃ digest after, engine.digest algorithm pieces before = .ok digest after

/-- An engine completes every digest by one of the algorithms of images. -/
def Completes (engine : HashEngine σ) : Prop :=
  ∀ {algorithm : Algorithm}, algorithm ≠ .sha384 → ∀ (pieces : List Bytes) (before : σ),
    ∃ digest after, engine.digest algorithm pieces before = .ok digest after

/-- An engine completes either every digest by an algorithm or none. -/
def Steady (engine : HashEngine σ) (algorithm : Algorithm) : Prop :=
  (∀ (pieces : List Bytes) (before : σ),
    ∃ digest after, engine.digest algorithm pieces before = .ok digest after) ∨
  ∀ (pieces : List Bytes) (before : σ),
    ∃ error after, engine.digest algorithm pieces before = .error error after

theorem writeAll_append (engine : HashEngine σ) (front back : List Bytes) :
    engine.writeAll (front ++ back) = (do engine.writeAll front; engine.writeAll back) := by
  induction front with
  | nil => simp [writeAll]
  | cons piece rest ih => simp [writeAll, ih]

end HashEngine

namespace Flash

variable {σ : Type}

/-- The pieces in which ranges are handed to a hash engine. -/
def pieces (flash : Flash) (extents : List Extent) : List Bytes :=
  extents.flatMap fun extent => (flash.feed extent).pieces

/-- Feeding succeeds if the engine takes all pieces and the flash reports no error. -/
theorem hashExtents_eq_ok {flash : Flash} {engine : HashEngine σ} {extents : List Extent}
    {before after : σ} :
    flash.hashExtents engine extents before = .ok () after ↔
      engine.writeAll (flash.pieces extents) before = .ok () after ∧
        ∀ extent ∈ extents, (flash.feed extent).error = none := by
  induction extents generalizing before with
  | nil => simp [hashExtents, pieces, HashEngine.writeAll]
  | cons extent rest ih =>
      have first {after : σ} : flash.hashExtent engine extent before = .ok () after ↔
          engine.writeAll (flash.feed extent).pieces before = .ok () after ∧
            (flash.feed extent).error = none := by
        simp only [hashExtent, device_bind_eq_ok, adaptExcept_eq_ok]
        cases (flash.feed extent).error with
        | none => simp
        | some error => simp
      have split : flash.pieces (extent :: rest) =
          (flash.feed extent).pieces ++ flash.pieces rest := by simp [pieces]
      rw [hashExtents, device_bind_eq_ok, split, HashEngine.writeAll_append, device_bind_eq_ok]
      simp only [exists_answer, first, ih, List.mem_cons, forall_eq_or_imp]
      constructor
      · intro given
        rcases given with ⟨between, ⟨front, clean⟩, back, others⟩
        exact ⟨⟨between, front, back⟩, clean, others⟩
      · intro given
        rcases given with ⟨⟨between, front, back⟩, clean, others⟩
        exact ⟨between, ⟨front, clean⟩, back, others⟩

/-- A digest of ranges is that of their pieces, unless the flash fails. -/
theorem digest_eq_ok {flash : Flash} {engine : HashEngine σ} {algorithm : Algorithm}
    {extents : List Extent} {before after : σ} {digest : Vector UInt8 algorithm.length} :
    flash.digest engine algorithm extents before = .ok digest after ↔
      engine.digest algorithm (flash.pieces extents) before = .ok digest after ∧
        ∀ extent ∈ extents, (flash.feed extent).error = none := by
  simp only [Flash.digest, HashEngine.digest, device_bind_eq_ok, adaptExcept_eq_ok,
    exists_answer, hashExtents_eq_ok]
  constructor
  · intro given
    rcases given with ⟨started, start, written, ⟨write, clean⟩, finish⟩
    exact ⟨⟨started, start, written, write, finish⟩, clean⟩
  · intro given
    rcases given with ⟨⟨started, start, written, write, finish⟩, clean⟩
    exact ⟨started, start, written, ⟨write, clean⟩, finish⟩

/-- The pieces of ranges hold the bytes of the memory, range after range. -/
theorem Holds.flatten_pieces {flash : Flash} {memory : Memory} (holds : flash.Holds memory)
    {extents : List Extent} (clean : ∀ extent ∈ extents, (flash.feed extent).error = none) :
    (flash.pieces extents).flatten = extents.flatMap memory.bytes := by
  induction extents with
  | nil => rfl
  | cons extent rest ih =>
      have tail := ih fun extent inside => clean extent (List.mem_cons_of_mem _ inside)
      have head := holds.feed (clean extent List.mem_cons_self)
      simp only [pieces, List.flatMap_cons, List.flatten_append] at tail ⊢
      rw [head, tail]

/-- A digest of ranges is the digest of their bytes. -/
theorem Holds.digest {flash : Flash} {memory : Memory} (holds : flash.Holds memory)
    {engine : HashEngine σ} {hash : Digests} (computes : engine.Computes hash)
    {algorithm : Algorithm} {extents : List Extent} {before after : σ}
    {digest : Vector UInt8 algorithm.length}
    (result : flash.digest engine algorithm extents before = .ok digest after) :
    digest = hash algorithm (extents.flatMap memory.bytes) := by
  obtain ⟨digested, clean⟩ := digest_eq_ok.1 result
  rw [computes digested, holds.flatten_pieces clean]

/-- An engine completes the digests of ranges that the flash answers. -/
theorem digest_completes {flash : Flash} {engine : HashEngine σ} {algorithm : Algorithm}
    (offers : engine.Offers algorithm) {extents : List Extent}
    (clean : ∀ extent ∈ extents, (flash.feed extent).error = none) (before : σ) :
    ∃ digest after, flash.digest engine algorithm extents before = .ok digest after := by
  obtain ⟨digest, after, digested⟩ := offers (flash.pieces extents) before
  exact ⟨digest, after, digest_eq_ok.2 ⟨digested, clean⟩⟩

/-- An engine that refuses its digests refuses those of ranges. -/
theorem digest_refused (flash : Flash) {engine : HashEngine σ} {algorithm : Algorithm}
    (refuses : ∀ (pieces : List Bytes) (before : σ),
      ∃ error after, engine.digest algorithm pieces before = .error error after)
    (extents : List Extent) (before : σ) :
    ∃ error after, flash.digest engine algorithm extents before = .error error after := by
  cases result : flash.digest engine algorithm extents before with
  | error error after => exact ⟨error, after, rfl⟩
  | ok digest after =>
      obtain ⟨error, final, refused⟩ := refuses (flash.pieces extents) before
      rw [(digest_eq_ok.1 result).1] at refused
      cases refused

end Flash

end SignedFirmware
