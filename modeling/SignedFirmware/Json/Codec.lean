import SignedFirmware.Json.Value
import SignedFirmware.Wire.Coded

namespace SignedFirmware.Json

/-- The members of a record, in the order of the given keys. -/
def slots? (keys : List String) : Json → Option (List (Option Json))
  | .object members =>
      if members.any fun (key, _) => key.isNone then
        none
      else
        keys.mapM fun key =>
          match members.filter fun (found, _) => found == some key with
          | [] => some none
          | [(_, value)] => some (some value)
          | _ => none
  | .array items =>
      if keys.length < items.length then
        none
      else
        some (items.map some ++ List.replicate (keys.length - items.length) none)
  | _ => none

/-- This reads a member that must be there. -/
def required {α : Type} (decode : Json → Option α) (slot : Option Json) : Option α :=
  slot.bind decode

/-- A member with a default need not be there. -/
def defaulted {α : Type} (default : α) (decode : Json → Option α) : Option Json → Option α
  | none => some default
  | some value => decode value

/-- This reads a value in whose place null may stand. -/
def optional? {α : Type} (decode : Json → Option α) : Json → Option (Option α)
  | .null => some none
  | value => (decode value).map some

def list? {α : Type} (decode : Json → Option α) : Json → Option (List α)
  | .array items => items.mapM decode
  | _ => none

def text? : Json → Option String
  | .string text => text
  | _ => none

/-- This reads a number below a limit. -/
def below? (limit : Nat) (value : Json) : Option Nat := do
  let number ← value.natural?
  if number < limit then return number else none

def uint8? (value : Json) : Option UInt8 := (value.below? UInt8.size).map UInt8.ofNat

def uint16? (value : Json) : Option UInt16 := (value.below? UInt16.size).map UInt16.ofNat

def uint32? (value : Json) : Option UInt32 := (value.below? UInt32.size).map UInt32.ofNat

def uint64? (value : Json) : Option UInt64 := (value.below? UInt64.size).map UInt64.ofNat

/-- An enumeration is read from its name, or from null under its name. -/
def coded? {α : Type} [Coded α] : Json → Option α
  | .string (some name) => Coded.ofName? name
  | .object [(some name, .null)] => Coded.ofName? name
  | _ => none

def ofList {α : Type} (encode : α → Json) (values : List α) : Json := .array (values.map encode)

/-- This writes a value of an enumeration as its name. -/
def ofCoded {α : Type} [Coded α] (value : α) : Json := ofString (Coded.name value)

end SignedFirmware.Json
