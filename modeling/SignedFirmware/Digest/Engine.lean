import SignedFirmware.Bytes
import SignedFirmware.Digest.Algorithm

namespace SignedFirmware

/-- This says why an engine refused an operation. -/
inductive HashError where
  | wrongSize
  | idle
  | unsupported
  | unspecified
  deriving DecidableEq, Repr

def HashError.name : HashError → String
  | .wrongSize => "WrongSize"
  | .idle => "Idle"
  | .unsupported => "Unsupported"
  | .unspecified => "Unspecified"

/-- A hash engine has a state. A refused operation may still change it. -/
structure HashEngine (σ : Type) where
  supports : Algorithm → σ → Bool × σ
  start : Algorithm → EStateM HashError σ Unit
  write : Bytes → EStateM HashError σ Unit
  finish : (length : Nat) → EStateM HashError σ (Vector UInt8 length)

namespace HashEngine

variable {σ : Type}

/-- This starts a digest if the engine supports its algorithm. -/
def begin (engine : HashEngine σ) (algorithm : Algorithm) : EStateM HashError σ Unit := fun state =>
  match engine.supports algorithm state with
  | (true, state) => engine.start algorithm state
  | (false, state) => .error .unsupported state

def writeAll (engine : HashEngine σ) : List Bytes → EStateM HashError σ Unit
  | [] => pure ()
  | piece :: rest => do
      engine.write piece
      engine.writeAll rest

/-- The digest of a message in pieces. -/
def digest (engine : HashEngine σ) (algorithm : Algorithm) (pieces : List Bytes) :
    EStateM HashError σ (Vector UInt8 algorithm.length) := do
  engine.begin algorithm
  engine.writeAll pieces
  engine.finish algorithm.length

end HashEngine

end SignedFirmware
