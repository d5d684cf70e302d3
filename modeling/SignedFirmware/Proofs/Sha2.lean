import SignedFirmware.Proofs.Contexts
import SignedFirmware.Sha2.Engine

namespace SignedFirmware

/-- Nothing is absorbed from an empty message. -/
theorem BlockHash.update_empty_nil {σ : Type} (hash : BlockHash σ) :
    hash.update hash.empty [] = hash.empty := by
  have positive := hash.blockLength_pos
  have none : hash.absorb hash.start [] = (hash.start, []) := by
    rw [absorb]
    simp only [List.take_nil, List.length_nil]
    rw [dif_neg (by omega)]
  simp only [update, empty, List.append_nil, none, List.length_nil, Nat.add_zero]

namespace Sha2

namespace Session

theorem update_start_nil (algorithm : Algorithm) :
    (start algorithm).update [] = start algorithm := by
  cases algorithm <;> simp only [start, update, BlockHash.update_empty_nil]

theorem update_append (session : Session) (front back : Bytes) :
    (session.update front).update back = session.update (front ++ back) := by
  cases session <;> simp only [update, BlockHash.update_append]

/-- A session ends with the digest of its whole message. -/
theorem result_update_start (algorithm : Algorithm) (message : Bytes) :
    ((start algorithm).update message).result.toList = (digest algorithm message).toList := by
  cases algorithm with
  | sha256 =>
      have state := Words32.hash256.finish_update_empty message
      rw [digest]
      simp only [← state]
      rfl
  | sha384 =>
      have state := Words64.hash384.finish_update_empty message
      rw [digest]
      simp only [← state]
      rfl
  | sha512 =>
      have state := Words64.hash512.finish_update_empty message
      rw [digest]
      simp only [← state]
      rfl

end Session

/-- Updating with pieces appends them to the message. -/
theorem foldl_update (algorithm : Algorithm) (pieces : List Bytes) (message : Bytes) :
    pieces.foldl sessions.update ((Session.start algorithm).update message) =
      (Session.start algorithm).update (message ++ pieces.flatten) := by
  induction pieces generalizing message with
  | nil => rw [List.foldl_nil, List.flatten_nil, List.append_nil]
  | cons piece rest ih =>
      have step := Session.update_append (Session.start algorithm) message piece
      rw [List.foldl_cons, List.flatten_cons, ← List.append_assoc, ← ih (message ++ piece), ← step]
      rfl

/-- A session of pieces is that of the joined pieces. -/
theorem sessions_after (algorithm : Algorithm) (pieces : List Bytes) :
    sessions.after algorithm pieces = (Session.start algorithm).update pieces.flatten := by
  have joined := foldl_update algorithm pieces []
  rwa [Session.update_start_nil, List.nil_append] at joined

/-- Sessions compute SHA-2 digests, however a message is split. -/
theorem sessions_computes : sessions.Computes digest where
  algorithm algorithm pieces := by
    rw [sessions_after]
    exact (Session.algorithm_update _ _).trans (Session.algorithm_start algorithm)
  finish algorithm pieces := by
    rw [sessions_after]
    exact Session.result_update_start algorithm pieces.flatten

/-- The published digest of the text abc. -/
example : (digest .sha256 [0x61, 0x62, 0x63]).toList =
    [0xba, 0x78, 0x16, 0xbf, 0x8f, 0x01, 0xcf, 0xea, 0x41, 0x41, 0x40, 0xde, 0x5d, 0xae, 0x22, 0x23,
      0xb0, 0x03, 0x61, 0xa3, 0x96, 0x17, 0x7a, 0x9c, 0xb4, 0x10, 0xff, 0x61, 0xf2, 0x00, 0x15,
      0xad] := by
  decide +kernel

/-- A digest is that of all pieces, whatever the engine did before. -/
theorem engine_digest (algorithm : Algorithm) (pieces : List Bytes) (before : Option Session) :
    engine.digest algorithm pieces before = .ok (digest algorithm pieces.flatten) none :=
  sessions_computes.engine_digest algorithm pieces before

theorem engine_computes : engine.Computes digest := sessions_computes.engine_computes

theorem engine_completes : engine.Completes :=
  fun {algorithm} _ => sessions_computes.engine_offers algorithm

end Sha2

end SignedFirmware
