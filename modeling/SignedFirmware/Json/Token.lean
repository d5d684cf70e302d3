import SignedFirmware.Json.Value

namespace SignedFirmware.Json

/-- A token is a mark of punctuation or a value without parts. -/
inductive Token where
  | openArray
  | closeArray
  | openObject
  | closeObject
  | comma
  | colon
  | scalar (value : Json)

/-- The bytes of a string, last one first, and an open surrogate pair. -/
structure Partial where
  reversed : Bytes
  valid : Bool
  pending : Option Nat

/-- This is where the reader stands between two bytes. -/
inductive LexState where
  | between
  | word (reversed : Bytes)
  | string (part : Partial)
  | escape (part : Partial)
  | hex (part : Partial) (count value : Nat)

namespace Partial

def empty : Partial := ⟨[], true, none⟩

/-- An open first half of a pair makes the string no text. -/
def settle (part : Partial) : Partial :=
  match part.pending with
  | none => part
  | some _ => ⟨part.reversed, false, none⟩

def push (part : Partial) (byte : UInt8) : Partial :=
  let part := part.settle
  { part with reversed := byte :: part.reversed }

/-- This appends a character, given by its number. -/
def pushScalar (part : Partial) (value : Nat) : Partial :=
  { part with
    reversed := (String.utf8EncodeChar (Char.ofNat value)).reverse ++ part.reversed }

/-- This appends the UTF-16 unit of an escape. -/
def pushUnit (part : Partial) (unit : Nat) : Partial :=
  if 0xd800 ≤ unit ∧ unit < 0xdc00 then
    { part.settle with pending := some unit }
  else if 0xdc00 ≤ unit ∧ unit < 0xe000 then
    match part.pending with
    | some high =>
        { part with pending := none }.pushScalar
          (0x10000 + (high - 0xd800) * 0x400 + (unit - 0xdc00))
    | none => { part with valid := false }
  else
    part.settle.pushScalar unit

/-- The value of a string whose end has been read. -/
def value (part : Partial) : Json :=
  let part := part.settle
  if part.valid then .string (textOf? part.reversed.reverse) else .string none

end Partial

/-- This says whether a byte is white space. -/
def isBlank (byte : UInt8) : Bool :=
  byte == 0x20 || byte == 0x09 || byte == 0x0a || byte == 0x0d

/-- Words and numbers are made of these bytes. -/
def isWordByte (byte : UInt8) : Bool :=
  isDigit byte || (0x61 ≤ byte && byte ≤ 0x7a) || (0x41 ≤ byte && byte ≤ 0x5a) ||
    byte == 0x2b || byte == 0x2d || byte == 0x2e

/-- The value that a word stands for. -/
def ofWord? (word : Bytes) : Option Json :=
  if word = utf8Bytes "null" then some .null
  else if word = utf8Bytes "true" then some (.boolean true)
  else if word = utf8Bytes "false" then some (.boolean false)
  else if isNumber word then some (.number word)
  else none

/-- The token of a mark of punctuation. -/
def punctuation? (byte : UInt8) : Option Token :=
  if byte = 0x5b then some .openArray
  else if byte = 0x5d then some .closeArray
  else if byte = 0x7b then some .openObject
  else if byte = 0x7d then some .closeObject
  else if byte = 0x2c then some .comma
  else if byte = 0x3a then some .colon
  else none

def hexDigit? (byte : UInt8) : Option Nat :=
  if isDigit byte then some (byte.toNat - 0x30)
  else if 0x61 ≤ byte ∧ byte ≤ 0x66 then some (byte.toNat - 0x61 + 10)
  else if 0x41 ≤ byte ∧ byte ≤ 0x46 then some (byte.toNat - 0x41 + 10)
  else none

/-- The byte that an escape of one letter stands for. -/
def escaped? (byte : UInt8) : Option UInt8 :=
  if byte = 0x22 ∨ byte = 0x5c ∨ byte = 0x2f then some byte
  else if byte = 0x62 then some 0x08
  else if byte = 0x66 then some 0x0c
  else if byte = 0x6e then some 0x0a
  else if byte = 0x72 then some 0x0d
  else if byte = 0x74 then some 0x09
  else none

/-- The state of the reader and its tokens, last one first. -/
structure Lexer where
  state : LexState
  reversed : List Token

namespace Lexer

/-- This reads a byte that starts something new. -/
def start? (reversed : List Token) (byte : UInt8) : Option Lexer :=
  if isBlank byte then some ⟨.between, reversed⟩
  else if byte = 0x22 then some ⟨.string .empty, reversed⟩
  else if isWordByte byte then some ⟨.word [byte], reversed⟩
  else (punctuation? byte).map fun token => ⟨.between, token :: reversed⟩

def endWord? (word : Bytes) (reversed : List Token) : Option (List Token) :=
  (ofWord? word.reverse).map fun value => .scalar value :: reversed

/-- This reads the next byte. -/
def step? (lexer : Lexer) (byte : UInt8) : Option Lexer :=
  match lexer.state with
  | .between => start? lexer.reversed byte
  | .word word =>
      if isWordByte byte then
        some ⟨.word (byte :: word), lexer.reversed⟩
      else do
        start? (← endWord? word lexer.reversed) byte
  | .string part =>
      if byte = 0x22 then some ⟨.between, .scalar part.value :: lexer.reversed⟩
      else if byte = 0x5c then some ⟨.escape part, lexer.reversed⟩
      else if byte < 0x20 then none
      else some ⟨.string (part.push byte), lexer.reversed⟩
  | .escape part =>
      if byte = 0x75 then
        some ⟨.hex part 0 0, lexer.reversed⟩
      else
        (escaped? byte).map fun meant => ⟨.string (part.push meant), lexer.reversed⟩
  | .hex part count value => do
      let value := 16 * value + (← hexDigit? byte)
      if count = 3 then
        return ⟨.string (part.pushUnit value), lexer.reversed⟩
      else
        return ⟨.hex part (count + 1) value, lexer.reversed⟩

end Lexer

def tokens? (text : Bytes) : Option (List Token) := do
  let lexer ← text.foldlM Lexer.step? ⟨.between, []⟩
  match lexer.state with
  | .between => return lexer.reversed.reverse
  | .word word => return (← Lexer.endWord? word lexer.reversed).reverse
  | _ => none

end SignedFirmware.Json
