import TemplateScanner.Log

namespace TemplateScanner

/-- How closely logged work is looked at: records of a level up to the threshold are wanted. The
first ones are below every level that there is. -/
inductive Threshold where
  | off
  | error
  | warn
  | info
  | debug
  | trace
deriving DecidableEq, Repr

namespace Threshold

def all : List Threshold :=
  [off, error, warn, info, debug, trace]

def name : Threshold → String
  | off => "off"
  | error => "error"
  | warn => "warn"
  | info => "info"
  | debug => "debug"
  | trace => "trace"

/-- The threshold with a given name, in letters of any case. -/
def ofName? (name : String) : Option Threshold :=
  all.find? fun threshold => threshold.name.toList = name.toList.map Char.toLower

/-- Trace lets debug records through too. -/
def admits : Threshold → Level → Bool
  | trace, _ => true
  | debug, .debug => true
  | _, _ => false

end Threshold

/-- Writes records in plain letters behind the time. A setting is a threshold, or the part of the
program that records are wanted from, with an equals sign and a threshold for them if it is not all
of them. An empty one wants nothing. -/
def Subscriber.console (clock : Nat → String) : Subscriber where
  wants setting level target :=
    let before := setting.toList.takeWhile (· ≠ '=')
    let within := before.isPrefixOf target.toList
    match setting.toList.drop before.length, Threshold.ofName? setting with
    | [], some threshold => threshold.admits level
    | [], none => !before.isEmpty && within
    | _ :: after, _ =>
      within && (Threshold.ofName? (String.ofList after)).any (·.admits level)
  line place record := clock place ++ " " ++ record.text

end TemplateScanner
