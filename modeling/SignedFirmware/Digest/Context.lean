import SignedFirmware.Digest.Engine

namespace SignedFirmware

/-- A library begins, extends and finishes its digests in the making. -/
structure DigestContext (κ : Type) where
  new : Algorithm → κ
  algorithm : κ → Algorithm
  update : κ → Bytes → κ
  finish : (context : κ) → Vector UInt8 (algorithm context).length

/-- An engine keeps at most one context. Every finish takes it. -/
def DigestContext.engine {κ : Type} (contexts : DigestContext κ) : HashEngine (Option κ) where
  supports _ state := (true, state)
  start algorithm := set (some (contexts.new algorithm))
  write part := fun state =>
    match state with
    | none => .error .idle none
    | some context => .ok () (some (contexts.update context part))
  finish length := fun state =>
    match state with
    | none => .error .idle none
    | some context =>
        if same : (contexts.algorithm context).length = length then
          .ok ((contexts.finish context).cast same) none
        else
          .error .wrongSize none

end SignedFirmware
