import TemplateScanner.Blank
import TemplateScanner.Request

namespace TemplateScanner

/-- Why a list of labels makes no request. -/
inductive LabelError where
  /-- The label names no kind. -/
  | unknown (label : String)
  /-- There are no labels. -/
  | empty
deriving DecidableEq, Repr

def LabelError.message : LabelError → String
  | unknown label =>
    "unknown token kind '" ++ label ++
      "' (expected one of: comment, content, macro-arg, statement, expression)"
  | empty => "empty token kind list"

/-- The pieces of a text between its commas. -/
def segments : List Char → List (List Char)
  | [] => [[]]
  | c :: text =>
    if c = ',' then [] :: segments text
    else match segments text with
      | [] => [[c]]
      | segment :: rest => (c :: segment) :: rest

/-- The labels of a list: what its commas divide, without blanks around it and without empty
pieces. -/
def labels (list : String) : List String :=
  (((segments list.toList).map trimBlanks).filter (!·.isEmpty)).map String.ofList

/-- The kind that a label names. -/
def kindOfLabel (label : String) : Except LabelError Kind :=
  match Kind.ofLabel? label with
  | some kind => .ok kind
  | none => .error (.unknown label)

namespace Request

/-- Asks for the kind that a label names as well. -/
def addLabel (request : Request) (label : String) : Except LabelError Request := do
  let kind ← kindOfLabel label
  .ok (request.union kind.flag)

/-- The request for the kinds that a list names. The first label that names none decides the
error. -/
def ofLabels (list : String) : Except LabelError Request := do
  let request ← (labels list).foldlM addLabel empty
  if request.isEmpty then .error .empty else .ok request

end Request

end TemplateScanner
