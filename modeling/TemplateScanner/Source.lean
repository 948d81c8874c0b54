import TemplateScanner.Span

namespace TemplateScanner

/-- Something in a text that shows up where it is not expected once the page is rendered. -/
inductive Defect where
  /-- The text opens with U+FEFF. -/
  | byteOrderMark
  /-- U+0000 stands at a byte offset of the text. -/
  | nul (offset : Nat)
deriving DecidableEq, Repr

namespace Defect

def offset : Defect → Nat
  | byteOrderMark => 0
  | nul offset => offset

/-- The number of bytes the defect takes up. -/
def length : Defect → Nat
  | byteOrderMark => 3
  | nul _ => 1

def description : Defect → String
  | byteOrderMark => "UTF-8 byte order mark"
  | nul _ => "null byte in template content"

end Defect

/-- A text made ready for scanning. -/
structure Source where
  /-- The bytes of the text, then a zero byte. -/
  buffer : ByteArray
  /-- The number of bytes to scan. -/
  length : Nat
  /-- The offset of each line's first byte, ascending from 0. -/
  lineStarts : List Nat
  /-- The defects of the text, in the order of their offsets. -/
  defects : List Defect

/-- The offsets at which a byte occurs, ascending, as far as they fit an offset. -/
def offsetsOf (byte : UInt8) (bytes : ByteArray) : List Nat :=
  ((bytes.data.toList.zipIdx.filter (·.1 == byte)).map (·.2)).takeWhile (· < offsetLimit)

namespace Source

/-- A text longer than an offset can say is scanned up to the largest offset. -/
def ofText (text : String) : Except Fault Source := do
  let bytes := text.toUTF8
  let later ← (offsetsOf '\n'.toUInt8 bytes).mapM (checkedAdd offsetLimit · 1)
  let mark := if text.toList.head? = some '\ufeff' then [Defect.byteOrderMark] else []
  .ok
    { buffer := bytes.push 0
      length := min bytes.size (offsetLimit - 1)
      lineStarts := 0 :: later
      defects := mark ++ (offsetsOf 0 bytes).map Defect.nul }

/-- The bytes to scan. -/
def bytes (source : Source) : ByteArray :=
  source.buffer.extract 0 source.length

def isEmpty (source : Source) : Bool :=
  source.length == 0

/-- The text between two offsets, and no text at all if either offset cuts a character. -/
def text (source : Source) (span : Span) : Except Fault String :=
  if source.length < span.stop then .error .outOfBounds
  else do
    let bytes ← checkedSlice source.buffer span.start span.stop
    .ok ((String.fromUTF8? bytes).getD "")

end Source

end TemplateScanner
