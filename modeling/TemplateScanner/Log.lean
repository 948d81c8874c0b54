import TemplateScanner.Quoted
import TemplateScanner.Request

namespace TemplateScanner

/-- How closely a log record looks at the work. -/
inductive Level where
  | debug
  | trace
deriving DecidableEq, Repr

def Level.name : Level → String
  | debug => "DEBUG"
  | trace => "TRACE"

/-- A log record: what was done. -/
inductive Record where
  /-- A file was read, and its text is scanned. -/
  | scanning (path : String) (length : Nat) (request : Request)
  /-- A recognizer is run. -/
  | attempt (kind : Kind)
  | accept (kind : Kind)
  | reject (kind : Kind)
deriving DecidableEq, Repr

namespace Record

def level : Record → Level
  | scanning .. => .debug
  | attempt _ | accept _ | reject _ => .trace

/-- The part of the program that a record comes from. -/
def target : Record → String
  | scanning .. => "htmlaskama::commands::scan"
  | attempt _ | accept _ | reject _ => "htmlaskama_scanner::scanner"

def message : Record → String
  | scanning .. => "scanning"
  | attempt _ => "attempt"
  | accept _ => "accept"
  | reject _ => "reject"

/-- What a record tells beside its message, each value with its name. -/
def fields : Record → List (String × String)
  | scanning path length request =>
    [("path", quote isHidden path), ("len", toString length), ("requested", request.describe)]
  | attempt kind | accept kind | reject kind => [("kind", kind.symbol)]

/-- All that a record tells. -/
def text (record : Record) : String :=
  record.level.name ++ " " ++ record.target ++ ": " ++ record.message ++
    String.join (record.fields.map fun (name, value) => " " ++ name ++ "=" ++ value)

end Record

/-- What takes log records and writes them. -/
structure Subscriber where
  /-- Whether a setting asks for the records of a level from a part of the program. -/
  wants : String → Level → String → Bool
  /-- The line of a record, which may depend on how many lines there are before it, as the time of
  writing does. -/
  line : Nat → Record → String

/-- The logging of a run: what takes its records, and the setting. Without one nothing is logged. -/
structure Logging where
  subscriber : Subscriber
  setting : Option String

namespace Logging

def wants (logging : Logging) (record : Record) : Bool :=
  logging.setting.any (logging.subscriber.wants · record.level record.target)

/-- Logs a record, behind the lines that there are. -/
def emit (logging : Logging) (record : Record) (errors : List String) : List String :=
  if logging.wants record then errors ++ [logging.subscriber.line errors.length record]
  else errors

end Logging

end TemplateScanner
