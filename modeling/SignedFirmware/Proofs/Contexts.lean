import SignedFirmware.Digest.Context
import SignedFirmware.Proofs.Digests

namespace SignedFirmware.DigestContext

variable {κ : Type} {contexts : DigestContext κ} {hash : Digests}

/-- The context of a message in pieces. -/
def after (contexts : DigestContext κ) (algorithm : Algorithm) (pieces : List Bytes) : κ :=
  pieces.foldl contexts.update (contexts.new algorithm)

theorem after_nil (contexts : DigestContext κ) (algorithm : Algorithm) :
    contexts.after algorithm [] = contexts.new algorithm := rfl

theorem after_concat (contexts : DigestContext κ) (algorithm : Algorithm) (pieces : List Bytes)
    (part : Bytes) :
    contexts.after algorithm (pieces ++ [part]) =
      contexts.update (contexts.after algorithm pieces) part :=
  List.foldl_append

/-- A context ends with the digest of its joined updates, however they were split. -/
structure Computes (contexts : DigestContext κ) (hash : Digests) : Prop where
  algorithm : ∀ algorithm pieces, contexts.algorithm (contexts.after algorithm pieces) = algorithm
  finish : ∀ algorithm pieces, (contexts.finish (contexts.after algorithm pieces)).toList =
    (hash algorithm pieces.flatten).toList

/-- Writing pieces updates the context with each of them. -/
theorem engine_writeAll (contexts : DigestContext κ) (pieces : List Bytes) (context : κ) :
    contexts.engine.writeAll pieces (some context) =
      .ok () (some (pieces.foldl contexts.update context)) := by
  induction pieces generalizing context with
  | nil => rfl
  | cons piece rest ih =>
      rw [HashEngine.writeAll, device_bind_eq_ok]
      exact ⟨(), some (contexts.update context piece), rfl, ih _⟩

/-- A finish of the right size gives the digest of the message. -/
theorem Computes.engine_finish (computes : contexts.Computes hash) (algorithm : Algorithm)
    (pieces : List Bytes) :
    contexts.engine.finish algorithm.length (some (contexts.after algorithm pieces)) =
      .ok (hash algorithm pieces.flatten) none := by
  have same := congrArg Algorithm.length (computes.algorithm algorithm pieces)
  have digest : (contexts.finish (contexts.after algorithm pieces)).cast same =
      hash algorithm pieces.flatten := by
    rw [← Vector.toList_inj, Vector.toList_cast]
    exact computes.finish algorithm pieces
  simp only [engine, dif_pos same, digest]

theorem Computes.engine_finish_of_ne (computes : contexts.Computes hash) {algorithm : Algorithm}
    {length : Nat} (misfit : length ≠ algorithm.length) (pieces : List Bytes) :
    contexts.engine.finish length (some (contexts.after algorithm pieces)) =
      .error .wrongSize none := by
  have other : (contexts.algorithm (contexts.after algorithm pieces)).length ≠ length := by
    rw [computes.algorithm]
    exact misfit.symm
  simp only [engine, dif_neg other]

/-- A digest is that of the joined pieces, whatever the engine did before. -/
theorem Computes.engine_digest (computes : contexts.Computes hash) (algorithm : Algorithm)
    (pieces : List Bytes) (before : Option κ) :
    contexts.engine.digest algorithm pieces before = .ok (hash algorithm pieces.flatten) none := by
  have begun : contexts.engine.begin algorithm before = .ok () (some (contexts.new algorithm)) :=
    rfl
  have written := contexts.engine_writeAll pieces (contexts.new algorithm)
  rw [HashEngine.digest, device_bind_of_ok begun, device_bind_of_ok written]
  exact computes.engine_finish algorithm pieces

/-- A digest that the engine gives is the right one. -/
theorem Computes.engine_computes (computes : contexts.Computes hash) :
    contexts.engine.Computes hash := by
  intro algorithm pieces before after digest result
  rw [computes.engine_digest] at result
  exact (EStateM.Result.ok.inj result).1.symm

/-- The engine never refuses a digest. -/
theorem Computes.engine_offers (computes : contexts.Computes hash) (algorithm : Algorithm) :
    contexts.engine.Offers algorithm :=
  fun pieces before => ⟨_, _, computes.engine_digest algorithm pieces before⟩

end SignedFirmware.DigestContext
