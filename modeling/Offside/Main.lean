import Offside.Command.Answer

/-!
# The program

Reads the files that the arguments name, and prints what `Offside.Command.run` says.
-/

namespace Offside.Command

def readFile (name : String) : IO (Except FileError (List UInt8)) := do
  match ← EIO.toBaseIO (IO.FS.readBinFile name) with
  | .ok bytes => return .ok bytes.toList
  | .error (.noFileOrDirectory ..) => return .error .missing
  | .error (.inappropriateType _ 20 _) => return .error .notDirectory
  | .error (.inappropriateType _ 21 _) => return .error .directory
  | .error other => return .error (.unreadable (toString other))

/-- Reads the files that matter for some arguments. -/
def readFiles (arguments : List String) : IO Files := do
  let names := match Invocation.ofArguments arguments with
    | .ok (.request request) => request.fileNames
    | _ => []
  let files ← names.mapM fun name => return (name, ← readFile name)
  return fun name => (files.lookup name).getD (.error .missing)

end Offside.Command

open Offside.Command in
def main (arguments : List String) : IO UInt32 := do
  let outcome := run (← readFiles arguments) arguments
  IO.print outcome.output
  if let some message := outcome.error? then IO.eprintln ("Error: " ++ message)
  return outcome.exitCode.toUInt32
