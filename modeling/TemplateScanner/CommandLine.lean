import TemplateScanner.LabelList
import TemplateScanner.LoggedScan

namespace TemplateScanner

/-- Why a file could not be read. -/
inductive ReadError where
  | notFound
  | denied
  /-- The content is not text. -/
  | notText
  | other (reason : String)
deriving DecidableEq, Repr

def ReadError.message (path : String) : ReadError → String
  | notFound => "cannot find file '" ++ path ++ "'"
  | denied => "permission denied reading '" ++ path ++ "'"
  | notText => "'" ++ path ++ "' contains invalid UTF-8 data"
  | other reason => "error reading '" ++ path ++ "': " ++ reason

/-- The text of a file, given what reading its bytes came to. -/
def decodeText (content : Except ReadError ByteArray) : Except ReadError String := do
  let bytes ← content
  match String.fromUTF8? bytes with
  | some text => .ok text
  | none => .error .notText

/-- What a run comes to: its results, the lines beside them, and its status. -/
structure Outcome where
  output : List String
  errors : List String
  status : Nat
deriving DecidableEq, Repr

namespace Outcome

def success (output : List String) : Outcome :=
  ⟨output, [], 0⟩

def failure (errors : List String) : Outcome :=
  ⟨[], errors, 1⟩

end Outcome

/-- Why the arguments of a scan make no sense. -/
inductive ArgumentError where
  | labels (error : LabelError)
  | unexpected (argument : String)
  | noPath
deriving DecidableEq, Repr

def ArgumentError.lines : ArgumentError → List String
  | labels error => ["error: " ++ error.message]
  | unexpected argument => ["error: unexpected argument '" ++ argument ++ "'"]
  | noPath =>
    ["error: missing file path", "Usage: htmlaskama scan <file> [--kinds=<list>] [--once]"]

/-- What the arguments of a scan have said so far. -/
structure ScanArguments where
  options : ScanOptions
  path : Option String
deriving DecidableEq, Repr

namespace ScanArguments

def none : ScanArguments :=
  ⟨ScanOptions.standard, Option.none⟩

/-- The list of labels in an argument that gives one. -/
def labelList? (argument : String) : Option String :=
  let option := "--kinds=".toList
  if option.isPrefixOf argument.toList then
    some (String.ofList (argument.toList.drop option.length))
  else Option.none

/-- Takes in one more argument. A later list of labels replaces an earlier one; a second path is not
expected. -/
def add (arguments : ScanArguments) (argument : String) : Except ArgumentError ScanArguments :=
  match labelList? argument with
  | some list =>
    match Request.ofLabels list with
    | .ok request => .ok { arguments with options := { arguments.options with request } }
    | .error error => .error (.labels error)
  | Option.none =>
    if argument = "--once" then
      .ok { arguments with options := { arguments.options with once := true } }
    else if argument.toList.head? ≠ some '-' ∧ arguments.path = Option.none then
      .ok { arguments with path := some argument }
    else .error (.unexpected argument)

/-- Reads arguments from left to right up to the first that makes no sense. -/
def read (arguments : List String) : Except ArgumentError (String × ScanOptions) := do
  let arguments ← arguments.foldlM add none
  match arguments.path with
  | some path => .ok (path, arguments.options)
  | Option.none => .error .noPath

end ScanArguments

namespace Logging

variable (logging : Logging)

/-- Scans the text of a file. -/
def scanText (path text : String) (options : ScanOptions) : Except Fault Outcome := do
  let source ← Source.ofText text
  let errors := logging.emit (.scanning path source.length options.request) []
  let warnings ← warnings path source
  let (lines, errors) ← logging.report isHidden options source (errors ++ warnings)
  .ok
    { output := ("Tokens for '" ++ path ++ "':") :: lines.map ("  " ++ ·)
      errors := errors
      status := 0 }

/-- Scans a file, given what reading its bytes came to. -/
def scanFile (path : String) (options : ScanOptions) (content : Except ReadError ByteArray) :
    Except Fault Outcome :=
  match decodeText content with
  | .error error => .ok (.failure [error.message path])
  | .ok text => logging.scanText path text options

end Logging

/-- The kinds in the order in which they are tried, numbered, with labels and symbols in columns. -/
def kindLines : List String :=
  Kind.priority.zipIdx.map fun (kind, index) =>
    String.ofList ((toString (index + 1)).toList.leftpad 2 ' ') ++ ". " ++
      String.ofList (kind.label.toList.rightpad 11 ' ') ++ kind.symbol

/-- How the program is used. -/
def usageLines : List String :=
  ["htmlaskama - external scanner inspection tool",
   "",
   "Usage: htmlaskama <command> [options]",
   "",
   "Commands:",
   "  scan <file>    Scan a template and print the tokens",
   "  kinds          List token kinds in priority order",
   "  help           Show this message",
   "",
   "Scan options:",
   "  --kinds=<list> Comma-separated kinds to request (default: all)",
   "                 comment, content, macro-arg, statement, expression",
   "  --once         Run a single scan instead of scanning repeatedly",
   "",
   "Set RUST_LOG (e.g. RUST_LOG=htmlaskama_scanner=trace) for scanner traces."]

/-- What a command line asks for: words that need no file, or the scan of one. -/
inductive Plan where
  | say (outcome : Outcome)
  | scan (path : String) (options : ScanOptions)
deriving DecidableEq, Repr

/-- The plan for the arguments of a scan. -/
def Plan.ofScan (arguments : List String) : Plan :=
  match ScanArguments.read arguments with
  | .ok (path, options) => scan path options
  | .error error => say (.failure error.lines)

/-- The plan for the command that the first argument names. -/
def Plan.ofArguments : List String → Plan
  | [] => say (.success usageLines)
  | command :: arguments =>
    if command = "scan" then ofScan arguments
    else if command = "kinds" then say (.success kindLines)
    else if command ∈ ["help", "--help", "-h"] then say (.success usageLines)
    else say ⟨usageLines, ["error: unknown command '" ++ command ++ "'"], 1⟩

/-- Runs a command line among the files that it can see. -/
def runCommand (logging : Logging) (files : String → Except ReadError ByteArray)
    (arguments : List String) : Except Fault Outcome :=
  match Plan.ofArguments arguments with
  | .say outcome => .ok outcome
  | .scan path options => logging.scanFile path options (files path)

end TemplateScanner
