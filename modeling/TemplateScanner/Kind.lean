namespace TemplateScanner

/-- What a token is. The order is the one in which a grammar lists its external symbols. -/
inductive Kind where
  /-- The body of an expression, through its closing pair of braces. -/
  | expression
  /-- The body of a statement, through its closing percent sign and brace. -/
  | statement
  /-- The tail of a comment, from its two opening dashes through `-->`. -/
  | comment
  /-- One argument of a call, through its comma or closing parenthesis. -/
  | argument
  /-- Plain text up to the next character that may open a tag or a template construct. -/
  | content
deriving DecidableEq, Repr

namespace Kind

/-- Every kind, in the order of the grammar. -/
def all : List Kind :=
  [expression, statement, comment, argument, content]

/-- The order in which requested kinds are tried: a comment or plain text may hold what would
close any of the others. -/
def priority : List Kind :=
  [comment, content, argument, statement, expression]

/-- The place of a kind in the grammar's list. -/
def index : Kind → Nat
  | expression => 0
  | statement => 1
  | comment => 2
  | argument => 3
  | content => 4

/-- The kind at a place of the grammar's list. -/
def ofIndex? : Nat → Option Kind
  | 0 => some expression
  | 1 => some statement
  | 2 => some comment
  | 3 => some argument
  | 4 => some content
  | _ => none

/-- The grammar's name for the symbol. -/
def symbol : Kind → String
  | expression => "_expression_content"
  | statement => "_statement_content"
  | comment => "_html_comment"
  | argument => "_macro_argument_end"
  | content => "_html_content"

/-- The short name of a kind on the command line and in reports. -/
def label : Kind → String
  | expression => "expression"
  | statement => "statement"
  | comment => "comment"
  | argument => "macro-arg"
  | content => "content"

/-- The kind with a given short name. -/
def ofLabel? (text : String) : Option Kind :=
  all.find? (·.label == text)

/-- The name of a kind among the flags of a request. -/
def flagName : Kind → String
  | expression => "EXPRESSION_CONTENT"
  | statement => "STATEMENT_CONTENT"
  | comment => "HTML_COMMENT"
  | argument => "MACRO_ARGUMENT_END"
  | content => "HTML_CONTENT"

/-- A list of kinds in the order of the grammar. -/
def sort (kinds : List Kind) : List Kind :=
  kinds.mergeSort (fun a b => a.index ≤ b.index)

theorem ofIndex?_eq_some_iff {n : Nat} {kind : Kind} : ofIndex? n = some kind ↔ kind.index = n := by
  constructor
  · intro h
    unfold ofIndex? at h
    split at h <;> simp_all <;> subst h <;> rfl
  · rintro rfl
    cases kind <;> rfl

theorem mem_priority (kind : Kind) : kind ∈ priority := by
  cases kind <;> decide

theorem ofLabel?_label (kind : Kind) : ofLabel? kind.label = some kind := by
  cases kind <;> decide

end Kind

end TemplateScanner
