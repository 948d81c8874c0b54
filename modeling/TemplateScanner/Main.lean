import TemplateScanner.CommandLine
import TemplateScanner.Console

namespace TemplateScanner

/-- Reads a file from the file system. -/
def readFile (path : String) : IO (Except ReadError ByteArray) := do
  try
    return .ok (← IO.FS.readBinFile path)
  catch
    | .noFileOrDirectory .. => return .error .notFound
    | .permissionDenied .. => return .error .denied
    | .inappropriateType _ code details =>
      return .error (.other (details ++ " (os error " ++ toString code ++ ")"))
    | error => return .error (.other (toString error))

/-- Runs a command line, and reads the file that it needs. -/
def runArguments (logging : Logging) (arguments : List String) :
    IO (Except Fault Outcome) := do
  match Plan.ofArguments arguments with
  | .say _ => return runCommand logging (fun _ => .error .notFound) arguments
  | .scan path _ =>
    let content ← readFile path
    return runCommand logging (fun _ => content) arguments

/-- Writes what a run came to, and gives its status. -/
def Outcome.write (outcome : Outcome) : IO UInt32 := do
  for line in outcome.errors do
    IO.eprintln line
  for line in outcome.output do
    IO.println line
  return outcome.status.toUInt32

end TemplateScanner

open TemplateScanner in
def main (arguments : List String) : IO UInt32 := do
  let setting ← IO.getEnv "RUST_LOG"
  let now ← IO.monoMsNow
  let subscriber := Subscriber.console fun _ => toString now ++ "ms"
  match ← runArguments ⟨subscriber, setting⟩ arguments with
  | .ok outcome => outcome.write
  | .error _ => return 101
