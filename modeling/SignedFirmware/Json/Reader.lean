import SignedFirmware.Json.Token

namespace SignedFirmware.Json

/-- Parts are kept last one first. An object keeps the key of its next value. -/
inductive Open where
  | array (reversed : List Json)
  | object (reversed : List (Option String × Json)) (key : Option String)

/-- This is what may come next. -/
inductive Expected where
  | value
  | valueOrClose
  | key
  | keyOrClose
  | colon
  | commaOrClose
  | nothing (value : Json)

/-- The open arrays and objects, innermost first, and what may come next. -/
structure Assembly where
  stack : List Open
  expected : Expected

namespace Assembly

/-- This puts a finished value where it belongs. -/
def deliver (value : Json) : List Open → Assembly
  | [] => ⟨[], .nothing value⟩
  | .array reversed :: rest => ⟨.array (value :: reversed) :: rest, .commaOrClose⟩
  | .object reversed key :: rest => ⟨.object ((key, value) :: reversed) none :: rest, .commaOrClose⟩

def closeArray? : List Open → Option Assembly
  | .array reversed :: rest => some (deliver (.array reversed.reverse) rest)
  | _ => none

def closeObject? : List Open → Option Assembly
  | .object reversed _ :: rest => some (deliver (.object reversed.reverse) rest)
  | _ => none

/-- This reads a token where a value may stand. -/
def value? (stack : List Open) : Token → Option Assembly
  | .scalar value => some (deliver value stack)
  | .openArray => some ⟨.array [] :: stack, .valueOrClose⟩
  | .openObject => some ⟨.object [] none :: stack, .keyOrClose⟩
  | _ => none

/-- This reads a token where a key may stand. -/
def key? : List Open → Token → Option Assembly
  | .object reversed _ :: rest, .scalar (.string text) =>
      some ⟨.object reversed text :: rest, .colon⟩
  | _, _ => none

/-- A comma follows a part of the innermost array or object. -/
def comma? : List Open → Option Assembly
  | stack@(.array _ :: _) => some ⟨stack, .value⟩
  | stack@(.object _ _ :: _) => some ⟨stack, .key⟩
  | [] => none

/-- This reads the next token. -/
def step? (assembly : Assembly) (token : Token) : Option Assembly :=
  match assembly.expected, token with
  | .value, token => value? assembly.stack token
  | .valueOrClose, .closeArray => closeArray? assembly.stack
  | .valueOrClose, token => value? assembly.stack token
  | .keyOrClose, .closeObject => closeObject? assembly.stack
  | .keyOrClose, token => key? assembly.stack token
  | .key, token => key? assembly.stack token
  | .colon, .colon => some ⟨assembly.stack, .value⟩
  | .commaOrClose, .comma => comma? assembly.stack
  | .commaOrClose, .closeArray => closeArray? assembly.stack
  | .commaOrClose, .closeObject => closeObject? assembly.stack
  | _, _ => none

end Assembly

/-- This puts tokens together. -/
def ofTokens? (tokens : List Token) : Option Json := do
  let assembly ← tokens.foldlM Assembly.step? ⟨[], .value⟩
  match assembly.expected with
  | .nothing value => return value
  | _ => none

/-- This reads a text, which must hold one value and nothing else. -/
def parse? (text : Bytes) : Option Json := do ofTokens? (← tokens? text)

end SignedFirmware.Json
