import SignedFirmware.Image.ImageType

namespace SignedFirmware

/-- The options of the command that signs an image. -/
structure SignOptions where
  key : String
  layout : String
  input : Option String
  output : Option String
  deriving DecidableEq, Repr

/-- The options of the command that validates an image. -/
structure ValidateOptions where
  keys : List String
  start : UInt32
  stop : Option UInt32
  alignment : Option UInt32
  family : UInt32
  currentType : Option ImageType
  production : Option Bool
  allowDowngrade : Option Bool
  state : Option String
  input : Option String
  output : Option String
  deriving DecidableEq, Repr

/-- This is what the command line asks for. -/
inductive Command where
  | sign (options : SignOptions)
  | validate (options : ValidateOptions)
  | help
  | version
  deriving DecidableEq, Repr

/-- This says what is wrong with a command line. -/
inductive UsageError where
  | missingCommand
  | unknownCommand
  | unknownArgument
  | missingValue
  | repeatedOption
  | missingOption
  | malformedValue
  deriving DecidableEq, Repr

/-- An option has a long name, perhaps a letter, and one or many values. -/
structure OptionSpec where
  long : String
  letter : Option Char
  many : Bool
  deriving DecidableEq, Repr

namespace OptionSpec

def single (long : String) : OptionSpec := ⟨long, none, false⟩

/-- This option names the file that is read. -/
def input : OptionSpec := ⟨"input", some 'i', false⟩

/-- This option names the file that is written. -/
def output : OptionSpec := ⟨"output", some 'o', false⟩

/-- This option names the files of the trusted keys. -/
def trustedKeys : OptionSpec := ⟨"key", none, true⟩

/-- The options of the command that signs an image. -/
def sign : List OptionSpec := [single "key", single "layout", input, output]

/-- The options of the command that validates an image. -/
def validate : List OptionSpec :=
  [trustedKeys, single "start", single "end", single "alignment", single "family",
    single "current-type", single "production", single "allow-dev-downgrade",
    single "mauv-state", input, output]

end OptionSpec

/-- One use of an option with its values. -/
structure Occurrence where
  option : OptionSpec
  values : List String
  deriving DecidableEq, Repr

namespace Arguments

/-- An argument may be a new option or a value of the latest one. -/
inductive Expected where
  | option
  | value
  | optionOnly
  deriving DecidableEq, Repr

/-- The options found so far, the latest one first. -/
structure Progress where
  found : List Occurrence
  expected : Expected
  deriving DecidableEq, Repr

/-- This is what an argument brings about. -/
inductive Step where
  | go (progress : Progress)
  | stop (command : Command)

/-- This adds an option without a value yet. -/
def openOption (found : List Occurrence) (option : OptionSpec) : Progress :=
  ⟨⟨option, []⟩ :: found, .value⟩

/-- This adds an option with its value. -/
def closeOption (found : List Occurrence) (option : OptionSpec) (value : String) (joined : Bool) :
    Progress :=
  ⟨⟨option, [value]⟩ :: found, if option.many && !joined then .value else .optionOnly⟩

/-- This drops the given characters in front of a text. -/
def trimFront (mark : Char) (text : List Char) : List Char := text.dropWhile (· == mark)

/-- This reads an option that is written with its long name. -/
def longOption (specs : List OptionSpec) (found : List Occurrence) (argument : List Char) :
    Except UsageError Step :=
  let body := trimFront '-' argument
  let name := String.ofList (body.takeWhile (· != '='))
  match specs.find? fun option => option.long == name with
  | some option =>
      match body.dropWhile (· != '=') with
      | [] => .ok (.go (openOption found option))
      | value => .ok (.go (closeOption found option (String.ofList (trimFront '=' value)) true))
  | none =>
      if name = "help" then .ok (.stop .help)
      else if name = "version" then .ok (.stop .version)
      else .error .unknownArgument

/-- This reads an option that is written with its letter. -/
def letterOption (specs : List OptionSpec) (found : List Occurrence) (letter : Char)
    (rest : List Char) : Except UsageError Step :=
  match specs.find? fun option => option.letter == some letter with
  | some option =>
      match rest with
      | [] => .ok (.go (openOption found option))
      | value =>
          .ok (.go (closeOption found option (String.ofList (trimFront '=' value))
            (value.head? == some '=')))
  | none =>
      if letter = 'h' then .ok (.stop .help)
      else if letter = 'V' then .ok (.stop .version)
      else .error .unknownArgument

/-- This reads a value that follows its option. -/
def value (progress : Progress) (argument : String) : Except UsageError Step :=
  match progress.expected, progress.found with
  | .value, latest :: earlier =>
      .ok (.go ⟨{ latest with values := latest.values ++ [argument] } :: earlier,
        if latest.option.many then .value else .optionOnly⟩)
  | _, _ => .error .unknownArgument

/-- This reads one argument. A dash alone is a value. -/
def step (specs : List OptionSpec) (progress : Progress) (argument : String) :
    Except UsageError Step :=
  match argument.toList with
  | '-' :: '-' :: _ => longOption specs progress.found argument.toList
  | '-' :: letter :: rest => letterOption specs progress.found letter rest
  | _ => value progress argument

/-- After two dashes nothing may follow. -/
def readAll (specs : List OptionSpec) (progress : Progress) :
    List String → Except UsageError (Except Command (List Occurrence))
  | [] => .ok (.ok progress.found.reverse)
  | argument :: rest =>
      if argument = "--" then
        if rest.isEmpty then .ok (.ok progress.found.reverse) else .error .unknownArgument
      else
        match step specs progress argument with
        | .error error => .error error
        | .ok (.stop command) => .ok (.error command)
        | .ok (.go progress) => readAll specs progress rest

/-- An option for one value is used at most once. -/
def valuesOf (found : List Occurrence) (option : OptionSpec) :
    Except UsageError (List String) := do
  let uses := found.filter fun occurrence => occurrence.option == option
  let values := uses.flatMap Occurrence.values
  if uses.isEmpty then
    return []
  else if values.isEmpty then
    throw .missingValue
  else if !option.many && 1 < uses.length then
    throw .repeatedOption
  else
    return values

/-- The value of an option that is used at most once. -/
def optional {α : Type} (found : List Occurrence) (option : OptionSpec)
    (decode : String → Option α) : Except UsageError (Option α) := do
  match ← valuesOf found option with
  | [] => return none
  | text :: _ =>
      match decode text with
      | some value => return some value
      | none => throw .malformedValue

/-- This reads the value of an option that must be used. -/
def required {α : Type} (found : List Occurrence) (option : OptionSpec)
    (decode : String → Option α) : Except UsageError α := do
  match ← optional found option decode with
  | some value => return value
  | none => throw .missingOption

/-- A 32-bit number, with or without a plus sign. -/
def uint32? (text : String) : Option UInt32 :=
  let digits := match text.toList with
    | '+' :: digits => digits
    | digits => digits
  if digits.isEmpty || !digits.all Char.isDigit then
    none
  else
    let number := digits.foldl (fun number digit => 10 * number + (digit.toNat - 48)) 0
    if number < UInt32.size then some (UInt32.ofNat number) else none

def boolean? : String → Option Bool
  | "true" => some true
  | "false" => some false
  | _ => none

/-- This reads the options of the command that signs an image. -/
def signOptions (found : List Occurrence) : Except UsageError SignOptions := do
  return {
    key := ← required found (.single "key") some
    layout := ← required found (.single "layout") some
    input := ← optional found .input some
    output := ← optional found .output some }

/-- This reads the options of the command that validates an image. -/
def validateOptions (found : List Occurrence) : Except UsageError ValidateOptions := do
  return {
    keys := ← valuesOf found .trustedKeys
    start := (← optional found (.single "start") uint32?).getD 0
    stop := ← optional found (.single "end") uint32?
    alignment := ← optional found (.single "alignment") uint32?
    family := (← optional found (.single "family") uint32?).getD 0
    currentType := ← optional found (.single "current-type") Coded.ofName?
    production := ← optional found (.single "production") boolean?
    allowDowngrade := ← optional found (.single "allow-dev-downgrade") boolean?
    state := ← optional found (.single "mauv-state") some
    input := ← optional found .input some
    output := ← optional found .output some }

/-- This reads the arguments of a command. -/
def readCommand {α : Type} (specs : List OptionSpec)
    (decode : List Occurrence → Except UsageError α) (command : α → Command)
    (arguments : List String) : Except UsageError Command := do
  match ← readAll specs ⟨[], .option⟩ arguments with
  | .error command => return command
  | .ok found => return command (← decode found)

end Arguments

def Command.ofArguments : List String → Except UsageError Command
  | [] => .error .missingCommand
  | "sign-image" :: rest =>
      Arguments.readCommand OptionSpec.sign Arguments.signOptions .sign rest
  | "validate-image" :: rest =>
      Arguments.readCommand OptionSpec.validate Arguments.validateOptions .validate rest
  | "help" :: rest =>
      if rest.all fun name =>
          name == "sign-image" || name == "validate-image" || name == "help" then
        .ok .help
      else
        .error .unknownCommand
  | "--" :: _ => .error .missingCommand
  | argument :: _ =>
      match Arguments.step [] ⟨[], .option⟩ argument with
      | .ok (.stop command) => .ok command
      | _ => .error .unknownCommand

end SignedFirmware
