import TemplateScanner.Fault

namespace TemplateScanner

/-- What a recognizer may do to the input it reads. The read position and the committed end move
apart: a recognizer may read on and still leave the end where it was. -/
class Host (σ : Type) where
  /-- The next character, which is U+0000 at the end of the input; only `atEnd` tells the two. -/
  peek : σ → Except Fault Char
  /-- Every character has been read. -/
  atEnd : σ → Bool
  /-- A bound on the number of characters still to be read. -/
  unread : σ → Nat
  /-- Reads one character, if there is one left. Characters that are skipped before the first one
  that is not stay outside the token. -/
  advance (skip : Bool) : σ → Except Fault σ
  /-- Ends the token at the read position. -/
  commit : σ → σ
  /-- Takes back all reading and every commit of the scan under way. -/
  rewind : σ → σ

/-- A recognizer reads from a host and says whether it found its token. -/
abbrev Recognizer (σ : Type) : Type :=
  σ → Except Fault (Bool × σ)

end TemplateScanner
