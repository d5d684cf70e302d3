import SignedFirmware.Command.Run

namespace SignedFirmware

/-- This runs an operation on files and sorts out its failure. -/
def attempt {α : Type} (operation : IO α) : IO (Except FileError α) := do
  match ← operation.toBaseIO with
  | .ok value => return .ok value
  | .error (.noFileOrDirectory ..) => return .error .notFound
  | .error _ => return .error .other

/-- The operations on the files of the machine. -/
def machineFiles : FileSystem IO where
  openFile path := attempt (do let _ ← IO.FS.Handle.mk path .read)
  create path := attempt (do let _ ← IO.FS.Handle.mk path .write)
  read path := attempt (do return (← IO.FS.readBinFile path).data.toList)
  write path contents := attempt (IO.FS.writeBinFile path ⟨contents.toArray⟩)

end SignedFirmware

open SignedFirmware in
/-- This carries out the command line and answers with the exit status. -/
def main (arguments : List String) : IO UInt32 := do
  let standard : IO Bytes := do return (← (← IO.getStdin).readBinToEnd).data.toList
  let result ← Command.run machineFiles standard arguments
  let output ← IO.getStdout
  output.write ⟨result.output.toArray⟩
  output.flush
  return UInt32.ofNat result.status
