import SignedFirmware.Bytes

namespace SignedFirmware

/-- The members of an object are kept in order, with repetitions. -/
inductive Json where
  | null
  | boolean (value : Bool)
  | number (digits : Bytes)
  | string (text : Option String)
  | array (items : List Json)
  | object (members : List (Option String × Json))
  deriving Inhabited

namespace Json

/-- This says whether a byte is a decimal digit. -/
def isDigit (byte : UInt8) : Bool := 0x30 ≤ byte && byte ≤ 0x39

/-- There must be at least one digit. -/
def dropDigits? : Bytes → Option Bytes
  | [] => none
  | first :: rest => if isDigit first then some (rest.dropWhile isDigit) else none

/-- The whole part of a number has no zeros in front. -/
def dropWhole? : Bytes → Option Bytes
  | [] => none
  | first :: rest =>
      if first = 0x30 then some rest
      else if isDigit first then some (rest.dropWhile isDigit)
      else none

/-- This drops the fraction of a number, if it has one. -/
def dropFraction? : Bytes → Option Bytes
  | 0x2e :: rest => dropDigits? rest
  | bytes => some bytes

/-- This drops the exponent of a number, if it has one. -/
def dropExponent? (bytes : Bytes) : Option Bytes :=
  match bytes with
  | [] => some []
  | mark :: rest =>
      if mark = 0x65 ∨ mark = 0x45 then
        match rest with
        | sign :: digits =>
            if sign = 0x2b ∨ sign = 0x2d then dropDigits? digits else dropDigits? rest
        | [] => none
      else
        some bytes

/-- This says whether bytes are a JSON number. -/
def isNumber (bytes : Bytes) : Bool :=
  let unsigned := if bytes.head? = some 0x2d then bytes.tail else bytes
  (do dropExponent? (← dropFraction? (← dropWhole? unsigned))) == some []

/-- The number that decimal digits stand for. -/
def decimalValue (digits : Bytes) : Nat :=
  digits.foldl (fun value digit => 10 * value + (digit.toNat - 0x30)) 0

/-- A number that is written with digits alone has a value. -/
def natural? : Json → Option Nat
  | .number digits => if digits.all isDigit then some (decimalValue digits) else none
  | _ => none

def ofNat (value : Nat) : Json := .number (utf8Bytes (toString value))

def ofString (text : String) : Json := .string (some text)

/-- A value, or null in place of a missing one. -/
def ofOption {α : Type} (encode : α → Json) : Option α → Json
  | none => .null
  | some value => encode value

def record (members : List (String × Json)) : Json :=
  .object (members.map fun (key, value) => (some key, value))

end Json

end SignedFirmware
