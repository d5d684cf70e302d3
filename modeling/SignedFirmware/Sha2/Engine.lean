import SignedFirmware.Digest.Context
import SignedFirmware.Sha2.Words32
import SignedFirmware.Sha2.Words64

namespace SignedFirmware.Sha2

def digest (algorithm : Algorithm) (message : Bytes) : Vector UInt8 algorithm.length :=
  match algorithm with
  | .sha256 =>
      ⟨(Words32.hash256.digestState message).bytes.toArray, by simp [Algorithm.length,
        Algorithm.bits]⟩
  | .sha384 =>
      ⟨((Words64.hash384.digestState message).bytes.take 48).toArray, by simp [Algorithm.length,
        Algorithm.bits]⟩
  | .sha512 =>
      ⟨(Words64.hash512.digestState message).bytes.toArray, by simp [Algorithm.length,
        Algorithm.bits]⟩

/-- A digest in the making. -/
inductive Session where
  | sha256 (stream : BlockHash.Stream Words32.State)
  | sha384 (stream : BlockHash.Stream Words64.State)
  | sha512 (stream : BlockHash.Stream Words64.State)

namespace Session

/-- The session of an empty message. -/
def start : Algorithm → Session
  | .sha256 => .sha256 Words32.hash256.empty
  | .sha384 => .sha384 Words64.hash384.empty
  | .sha512 => .sha512 Words64.hash512.empty

def algorithm : Session → Algorithm
  | .sha256 _ => .sha256
  | .sha384 _ => .sha384
  | .sha512 _ => .sha512

/-- This appends a part to the message. -/
def update (part : Bytes) : Session → Session
  | .sha256 stream => .sha256 (Words32.hash256.update stream part)
  | .sha384 stream => .sha384 (Words64.hash384.update stream part)
  | .sha512 stream => .sha512 (Words64.hash512.update stream part)

/-- The digest of the message. -/
def result : (session : Session) → Vector UInt8 session.algorithm.length
  | .sha256 stream =>
      ⟨(Words32.hash256.finish stream).bytes.toArray, by simp [algorithm, Algorithm.length,
        Algorithm.bits]⟩
  | .sha384 stream =>
      ⟨((Words64.hash384.finish stream).bytes.take 48).toArray, by simp [algorithm,
        Algorithm.length, Algorithm.bits]⟩
  | .sha512 stream =>
      ⟨(Words64.hash512.finish stream).bytes.toArray, by simp [algorithm, Algorithm.length,
        Algorithm.bits]⟩

@[simp] theorem algorithm_start (algorithm : Algorithm) :
    (start algorithm).algorithm = algorithm := by
  cases algorithm <;> rfl

@[simp] theorem algorithm_update (part : Bytes) (session : Session) :
    (session.update part).algorithm = session.algorithm := by
  cases session <;> rfl

end Session

/-- Sessions are contexts for all SHA-2 digests. -/
def sessions : DigestContext Session where
  new := Session.start
  algorithm := Session.algorithm
  update session part := session.update part
  finish := Session.result

/-- The engine for all SHA-2 digests. -/
def engine : HashEngine (Option Session) := sessions.engine

end SignedFirmware.Sha2
