import Mathlib.Data.List.Induction
import TemplateScanner.CommandLine
import TemplateScanner.Proofs.Checked

namespace TemplateScanner

/-- An argument that does not begin with a dash is a path. -/
def isPath (argument : String) : Bool :=
  argument.toList.head? ≠ some '-'

namespace ScanArguments

/-- What arguments that make sense say: the last list of labels, and the only path. -/
def said (arguments : List String) : ScanArguments where
  options :=
    { request := (((arguments.filterMap labelList?).getLast?).bind
        fun list => (Request.ofLabels list).toOption).getD Request.all
      once := "--once" ∈ arguments }
  path := arguments.find? isPath

variable {before : List String} {argument : String}

end ScanArguments

end TemplateScanner
