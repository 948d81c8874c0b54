import TemplateScanner.Source

namespace TemplateScanner

/-- A place in a text as reports name it, both numbers counted from 1. -/
structure Location where
  line : Nat
  column : Nat
deriving DecidableEq, Repr

/-- The place of a byte offset; an offset past the end stands for the end. Columns count the
characters since the line's start, or its bytes if the offset cuts a character. -/
def Source.locate (source : Source) (offset : Nat) : Except Fault Location := do
  let offset := min offset source.length
  let index ← checkedSub (source.lineStarts.takeWhile (· ≤ offset)).length 1
  let some start := source.lineStarts[index]? | .error .outOfBounds
  let before ← checkedSlice source.buffer start offset
  let width := match String.fromUTF8? before with
    | some text => text.length
    | none => before.size
  let line ← checkedAdd indexLimit index 1
  let column ← checkedAdd indexLimit width 1
  .ok { line := min line (offsetLimit - 1), column := min column (offsetLimit - 1) }

end TemplateScanner
