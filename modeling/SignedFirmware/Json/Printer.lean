import SignedFirmware.Json.Value

namespace SignedFirmware.Json

def hexDigit (value : Nat) : UInt8 :=
  UInt8.ofNat (if value < 10 then 0x30 + value else 0x61 + (value - 10))

/-- Quotes, backslashes and control characters are escaped. -/
def escapeByte (byte : UInt8) : Bytes :=
  if byte = 0x22 ∨ byte = 0x5c then [0x5c, byte]
  else if byte = 0x08 then [0x5c, 0x62]
  else if byte = 0x09 then [0x5c, 0x74]
  else if byte = 0x0a then [0x5c, 0x6e]
  else if byte = 0x0c then [0x5c, 0x66]
  else if byte = 0x0d then [0x5c, 0x72]
  else if byte < 0x20 then
    [0x5c, 0x75, 0x30, 0x30, hexDigit (byte.toNat / 16), hexDigit (byte.toNat % 16)]
  else [byte]

def quote (text : String) : Bytes :=
  [0x22] ++ (utf8Bytes text).flatMap escapeByte ++ [0x22]

def newLine (depth : Nat) : Bytes := 0x0a :: List.replicate (2 * depth) 0x20

/-- This writes parts on lines of their own, between two brackets. -/
def enclose (depth : Nat) (opening closing : UInt8) : List Bytes → Bytes
  | [] => [opening, closing]
  | first :: rest =>
      [opening] ++ newLine (depth + 1) ++ first ++
        rest.flatMap (fun part => [0x2c] ++ newLine (depth + 1) ++ part) ++
        newLine depth ++ [closing]

mutual

/-- A string that is no text is written as an empty one. -/
def print (depth : Nat) : Json → Bytes
  | .null => utf8Bytes "null"
  | .boolean true => utf8Bytes "true"
  | .boolean false => utf8Bytes "false"
  | .number digits => digits
  | .string text => quote (text.getD "")
  | .array items => enclose depth 0x5b 0x5d (printItems (depth + 1) items)
  | .object members => enclose depth 0x7b 0x7d (printMembers (depth + 1) members)

/-- This writes the items of an array. -/
def printItems (depth : Nat) : List Json → List Bytes
  | [] => []
  | item :: rest => print depth item :: printItems depth rest

/-- This writes the members of an object. -/
def printMembers (depth : Nat) : List (Option String × Json) → List Bytes
  | [] => []
  | (key, value) :: rest =>
      (quote (key.getD "") ++ [0x3a, 0x20] ++ print depth value) :: printMembers depth rest

end

def render (value : Json) : Bytes := value.print 0

end SignedFirmware.Json
