import SignedFirmware.Blueprint.Build
import SignedFirmware.Command.Arguments
import SignedFirmware.Command.Files
import SignedFirmware.Command.Report
import SignedFirmware.Json.Printer
import SignedFirmware.Json.Reader
import SignedFirmware.Rsa.Keyring
import SignedFirmware.Sha2.Engine

namespace SignedFirmware

/-- This says what kept a command from doing its work. -/
inductive CommandError where
  | usage (error : UsageError)
  | input
  | output
  | key
  | layout
  | build (error : BuildError)
  deriving DecidableEq, Repr

/-- The exit status of a command and what it wrote to the standard output. -/
structure CommandResult where
  status : Nat
  output : Bytes
  deriving DecidableEq, Repr

namespace Command

variable {m : Type → Type} [Monad m]

/-- The exit status of a command that could not do its work. -/
def failureStatus : CommandError → Nat
  | .usage _ => 1
  | _ => 64

/-- The exit status for an image that was not accepted. -/
def haltStatus : Halt → Nat
  | .rejected reason => reason.code
  | .overflow => 101

/-- A failure of an operation on files is that of the command. -/
def onFile {α : Type} (error : CommandError) (operation : m (Except FileError α)) :
    ExceptT CommandError m α := do
  match ← operation with
  | .ok value => return value
  | .error _ => throw error

/-- A value that could be read from a file, or a failure. -/
def expect {α : Type} (error : CommandError) : Option α → ExceptT CommandError m α
  | some value => return value
  | none => throw error

/-- The input is opened before the output is created. -/
def openFiles (files : FileSystem m) (input output : Option String) :
    ExceptT CommandError m Unit := do
  if let some path := input then
    onFile .input (files.openFile path)
  if let some path := output then
    onFile .output (files.create path)

/-- The input is the standard input unless a file is named. -/
def readInput (files : FileSystem m) (standard : m Bytes) (input : Option String) :
    ExceptT CommandError m Bytes :=
  match input with
  | some path => onFile .input (files.read path)
  | none => standard

/-- The answer is what goes to the standard output. -/
def writeOutput (files : FileSystem m) (output : Option String) (contents : Bytes) :
    ExceptT CommandError m Bytes := do
  match output with
  | some path =>
      onFile .output (files.write path contents)
      return []
  | none => return contents

def signImage (files : FileSystem m) (standard : m Bytes) (options : SignOptions) :
    ExceptT CommandError m CommandResult := do
  openFiles files options.input options.output
  let keyFile ← onFile .key (files.read options.key)
  let key ← expect .key (Rsa.KeyPair.ofFile keyFile).toOption
  let layoutFile ← onFile .layout (files.read options.layout)
  let blueprint ← expect .layout (do Blueprint.ofJson? (← Json.parse? layoutFile))
  let payload ← readInput files standard options.input
  match blueprint.build payload Sha2.engine key.signer none with
  | .error error _ => throw (.build error)
  | .ok image _ => return ⟨0, ← writeOutput files options.output image⟩

/-- A key file holds a public key or a key pair. -/
def trustedKey? (file : Bytes) : Option Rsa.PublicKey :=
  match Rsa.PublicKey.ofFile file with
  | .ok key => some key
  | .error _ => (Rsa.KeyPair.ofFile file).toOption.map Rsa.KeyPair.publicKey

/-- This reads the trusted keys in order. -/
def readKeys (files : FileSystem m) : List String → ExceptT CommandError m (List Rsa.PublicKey)
  | [] => return []
  | path :: rest => do
      let file ← onFile .key (files.read path)
      let key ← expect .key (trustedKey? file)
      return key :: (← readKeys files rest)

/-- The settings that the options of a command describe. -/
def settings (options : ValidateOptions) (image : Bytes) : Settings where
  span := ⟨options.start, options.stop.getD (UInt32.ofNat image.length)⟩
  alignment := options.alignment.getD Settings.defaultAlignment
  family := options.family
  currentType := options.currentType

/-- The platform that the options of a command describe. -/
def platform (options : ValidateOptions) : Platform where
  production := options.production
  downgradeAllowed := options.allowDowngrade
  sizeValid _ := none

/-- A file keeps the rollback record. A missing file is empty storage. -/
def fileStorage (files : FileSystem m) (path : String) : RecordStorage m where
  retrieve slotLength := do
    match ← files.read path with
    | .ok contents => return .ok (some (contents.length, contents.take slotLength))
    | .error .notFound => return .ok none
    | .error .other => return .error .io
  store record := do
    match ← files.write path record with
    | .ok () => return .ok ()
    | .error _ => return .error .io

/-- This validates an image and then enforces the protection against rollback. -/
def inspect (files : FileSystem m) (options : ValidateOptions) (keys : List Rsa.PublicKey)
    (image : Bytes) : ExceptT Halt m Report := do
  let flash := Flash.ofBytes image
  let table : RegionTable Descriptor.maxRegions := .empty _
  let verifier := Rsa.Keyring.verifier ⟨keys⟩
  let (validation, _) := (Context.new (settings options image)).validate flash (platform options)
    Sha2.engine verifier table none
  match validation.result, validation.context.descriptor with
  | .ok (), some descriptor =>
      let outcome ← validation.context.enforceRollback flash
        (options.state.map (fileStorage files))
      return ⟨descriptor, validation.context.key, validation.table.regions, outcome⟩
  | .error halt, _ => throw halt
  | .ok (), none => throw (.rejected .invalidContext)

/-- This validates an image and reports on it. -/
def validateImage (files : FileSystem m) (standard : m Bytes) (options : ValidateOptions) :
    ExceptT CommandError m CommandResult := do
  openFiles files options.input options.output
  let keys ← readKeys files options.keys
  let image ← readInput files standard options.input
  match ← (inspect files options keys image).run with
  | .ok report => return ⟨0, ← writeOutput files options.output report.toJson.render⟩
  | .error halt =>
      return ⟨haltStatus halt,
        ← writeOutput files options.output (Report.rejectedJson halt).render⟩

/-- A short stand-in for the text that explains the commands. -/
def helpText : String :=
  "USAGE:\n    sign-image --key <key> --layout <layout> [-i <input>] [-o <output>]\n" ++
  "    validate-image [--key <keys>...] [--start <start>] [--end <end>]\n" ++
  "        [--alignment <alignment>] [--family <family>] [--current-type <type>]\n" ++
  "        [--production <bool>] [--allow-dev-downgrade <bool>] [--mauv-state <file>]\n" ++
  "        [-i <input>] [-o <output>]\n"

def versionText : String := "cr51sign-tool 0.0.1\n"

/-- A command that fails writes nothing to the standard output. -/
def run (files : FileSystem m) (standard : m Bytes) (arguments : List String) : m CommandResult :=
  match Command.ofArguments arguments with
  | .error error => return ⟨failureStatus (.usage error), []⟩
  | .ok .help => return ⟨0, utf8Bytes helpText⟩
  | .ok .version => return ⟨0, utf8Bytes versionText⟩
  | .ok (.sign options) => do
      match ← (signImage files standard options).run with
      | .ok result => return result
      | .error error => return ⟨failureStatus error, []⟩
  | .ok (.validate options) => do
      match ← (validateImage files standard options).run with
      | .ok result => return result
      | .error error => return ⟨failureStatus error, []⟩

end Command

end SignedFirmware
