import TemplateScanner.CodeRange
import TemplateScanner.DefaultIgnorable
import TemplateScanner.ExtendingMark
import TemplateScanner.Unprintable

namespace TemplateScanner

/-- A character that a quoted text gives by its code point, since it would not show for itself. -/
def isHidden (c : Char) : Bool :=
  inRanges extendingMark c.toNat || inRanges defaultIgnorable c.toNat ||
    inRanges unprintable c.toNat

/-- A character as it stands between quotes: six of them as a backslash and a letter, a hidden one
by the hexadecimal number of its code point, and any other as itself. -/
def quoteChar (hidden : Char → Bool) (c : Char) : List Char :=
  if c = '\x00' then ['\\', '0']
  else if c = '\t' then ['\\', 't']
  else if c = '\r' then ['\\', 'r']
  else if c = '\n' then ['\\', 'n']
  else if c = '"' then ['\\', '"']
  else if c = '\\' then ['\\', '\\']
  else if hidden c then ['\\', 'u', '{'] ++ Nat.toDigits 16 c.toNat ++ ['}']
  else [c]

/-- A text between quotes, on one line and with nothing hidden. -/
def quote (hidden : Char → Bool) (text : String) : String :=
  String.ofList ('"' :: text.toList.flatMap (quoteChar hidden) ++ ['"'])

end TemplateScanner
