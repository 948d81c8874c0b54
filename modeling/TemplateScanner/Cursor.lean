import TemplateScanner.Host
import TemplateScanner.Source

namespace TemplateScanner

/-- The number of bytes of a character by the byte it begins with. -/
def charWidth (lead : UInt8) : Nat :=
  if lead < 0xC0 then 1
  else if lead < 0xE0 then 2
  else if lead < 0xF0 then 3
  else if lead < 0xF8 then 4
  else 1

/-- A reader of a source. All places are byte offsets. -/
structure Cursor where
  source : Source
  /-- Where the scan under way began. -/
  scanStart : Nat
  /-- Where the token begins, past the characters skipped before it. -/
  tokenStart : Nat
  position : Nat
  /-- The end committed last in this scan. -/
  committed : Option Nat
  /-- A character that belongs to the token has been read in this scan. -/
  significant : Bool

/-- A reader at the start of a source, which has to be followed by its zero byte. -/
def Source.cursor (source : Source) : Except Fault Cursor :=
  if source.buffer.data[source.length]? = some 0 then
    .ok
      { source := source
        scanStart := 0
        tokenStart := 0
        position := 0
        committed := none
        significant := false }
  else .error .unterminated

namespace Cursor

/-- The character at the read position; U+FFFD where the bytes make no character. -/
def peek (cursor : Cursor) : Except Fault Char := do
  let buffer := cursor.source.buffer
  let lead ← checkedByte buffer cursor.position
  let stop ← checkedAdd indexLimit cursor.position (charWidth lead)
  let bytes ← checkedSlice buffer cursor.position (min stop buffer.size)
  .ok (((String.fromUTF8? bytes).bind (·.toList.head?)).getD '\ufffd')

def atEnd (cursor : Cursor) : Bool :=
  cursor.source.length ≤ cursor.position

/-- The number of bytes after the read position. -/
def unread (cursor : Cursor) : Nat :=
  cursor.source.length - cursor.position

/-- Moves past one character. As long as only skipped characters have been read, the token begins
after them. -/
def advance (skip : Bool) (cursor : Cursor) : Except Fault Cursor :=
  if cursor.atEnd then .ok cursor
  else do
    let lead ← checkedByte cursor.source.buffer cursor.position
    let next ← checkedAdd offsetLimit cursor.position (charWidth lead)
    let next := min next cursor.source.length
    .ok
      { cursor with
        position := next
        tokenStart := if skip && !cursor.significant then next else cursor.tokenStart
        significant := cursor.significant || !skip }

/-- Ends the token at the read position. -/
def commit (cursor : Cursor) : Cursor :=
  { cursor with committed := some cursor.position }

/-- Goes back to where the scan under way began, as if nothing had been read. -/
def rewind (cursor : Cursor) : Cursor :=
  { cursor with
    tokenStart := cursor.scanStart
    position := cursor.scanStart
    committed := none
    significant := false }

instance : Host Cursor where
  peek := peek
  atEnd := atEnd
  unread := unread
  advance := advance
  commit := commit
  rewind := rewind

/-- Where the token under way would end: at the committed end, or at the read position if nothing
was committed, and never before the token begins. -/
def tokenEnd (cursor : Cursor) : Nat :=
  max (cursor.committed.getD cursor.position) cursor.tokenStart

/-- Closes the scan under way. An accepted scan gives its token, and reading goes on at the token's
end; a rejected one leaves reading where the scan began. -/
def close (accepted : Bool) (cursor : Cursor) : Option Span × Cursor :=
  if accepted then
    let span := ⟨cursor.tokenStart, cursor.tokenEnd⟩
    (some span, rewind { cursor with scanStart := span.stop })
  else (none, cursor.rewind)

/-- The text after the read position. -/
def rest (cursor : Cursor) : Except Fault String :=
  cursor.source.text ⟨cursor.position, cursor.source.length⟩

end Cursor

end TemplateScanner
