import Mathlib.Tactic.SplitIfs
import TemplateScanner.Quoted

namespace TemplateScanner

/-- The character that a letter behind a backslash stands for. -/
def shortEscape? (letter : Char) : Option Char :=
  if letter = '0' then some '\x00'
  else if letter = 't' then some '\t'
  else if letter = 'r' then some '\r'
  else if letter = 'n' then some '\n'
  else if letter = '"' then some '"'
  else if letter = '\\' then some '\\'
  else none

/-- The value of a hexadecimal digit. A capital letter is none. -/
def hexValue? (c : Char) : Option Nat :=
  (List.range 16).find? fun value => Nat.digitChar value == c

def ofCodePoint? (value : Nat) : Option Char :=
  if value.isValidChar then some (Char.ofNat value) else none

/-- How much of an escape has been read. -/
inductive Escape where
  | nothing
  | backslash
  /-- A backslash and the letter for a code point. -/
  | code
  /-- The digits of a code point so far, and what they come to. -/
  | digits (value : Nat)

/-- Reads a text up to its closing quote, and gives it with what stands behind the quote. -/
def readQuoted : Escape → List Char → Option (List Char × List Char)
  | _, [] => none
  | .nothing, c :: rest =>
    if c = '"' then some ([], rest)
    else if c = '\\' then readQuoted .backslash rest
    else (readQuoted .nothing rest).map (Prod.map (c :: ·) id)
  | .backslash, c :: rest =>
    if c = 'u' then readQuoted .code rest
    else (shortEscape? c).bind fun meant =>
      (readQuoted .nothing rest).map (Prod.map (meant :: ·) id)
  | .code, c :: rest => if c = '{' then readQuoted (.digits 0) rest else none
  | .digits value, c :: rest =>
    if c = '}' then (ofCodePoint? value).bind fun meant =>
      (readQuoted .nothing rest).map (Prod.map (meant :: ·) id)
    else (hexValue? c).bind fun digit => readQuoted (.digits (16 * value + digit)) rest

/-- Reads a quoted text, and gives it with what stands behind it. -/
def unquote? : List Char → Option (String × List Char)
  | [] => none
  | c :: rest =>
    if c = '"' then (readQuoted .nothing rest).map (Prod.map String.ofList id) else none

/-- The three ways in which a character stands between quotes. -/
theorem quoteChar_cases (hidden : Char → Bool) (c : Char) :
    (∃ letter, shortEscape? letter = some c ∧ quoteChar hidden c = ['\\', letter]) ∨
    quoteChar hidden c = ['\\', 'u', '{'] ++ Nat.toDigits 16 c.toNat ++ ['}'] ∨
    (c ≠ '"' ∧ c ≠ '\\' ∧ c ≠ '\n') ∧ quoteChar hidden c = [c] := by
  unfold quoteChar
  split
  next nul => exact .inl ⟨'0', congrArg some nul.symm, rfl⟩
  split
  next tab => exact .inl ⟨'t', congrArg some tab.symm, rfl⟩
  split
  next back => exact .inl ⟨'r', congrArg some back.symm, rfl⟩
  split
  next newline => exact .inl ⟨'n', congrArg some newline.symm, rfl⟩
  next newline =>
  split
  next mark => exact .inl ⟨'"', congrArg some mark.symm, rfl⟩
  next mark =>
  split
  next slash => exact .inl ⟨'\\', congrArg some slash.symm, rfl⟩
  next slash =>
  split
  next => exact .inr (.inl rfl)
  next => exact .inr (.inr ⟨⟨mark, slash, newline⟩, rfl⟩)

theorem exists_digit_of_mem_toDigits {value : Nat} {c : Char} (mem : c ∈ Nat.toDigits 16 value) :
    ∃ digit < 16, c = Nat.digitChar digit := by
  induction value using Nat.strongRecOn with
  | ind value ih =>
    rcases Nat.lt_or_ge value 16 with small | large
    · rw [Nat.toDigits_of_lt_base small] at mem
      exact ⟨value, small, List.mem_singleton.mp mem⟩
    · rw [Nat.toDigits_of_base_le (by omega) large] at mem
      rcases List.mem_append.mp mem with before | last
      · exact ih (value / 16) (by omega) before
      · exact ⟨value % 16, by omega, List.mem_singleton.mp last⟩

theorem hexValue?_digitChar : ∀ digit < 16, hexValue? (Nat.digitChar digit) = some digit := by
  decide

theorem readQuoted_digitChar {value digit : Nat} (small : digit < 16) (rest : List Char) :
    readQuoted (.digits value) (Nat.digitChar digit :: rest) =
      readQuoted (.digits (16 * value + digit)) rest := by
  have no_brace : ∀ digit < 16, Nat.digitChar digit ≠ '}' := by decide
  rw [readQuoted, if_neg (no_brace digit small), hexValue?_digitChar digit small, Option.bind_some]

/-- The digits of a number are read back as that number. The last one comes off the end, since the
others are the digits of a smaller number. -/
theorem readQuoted_toDigits (value : Nat) (rest : List Char) :
    readQuoted (.digits 0) (Nat.toDigits 16 value ++ rest) = readQuoted (.digits value) rest := by
  induction value using Nat.strongRecOn generalizing rest with
  | ind value ih =>
    rcases Nat.lt_or_ge value 16 with small | large
    · rw [Nat.toDigits_of_lt_base small, List.cons_append, List.nil_append,
        readQuoted_digitChar small, Nat.mul_zero, Nat.zero_add]
    · have last : value % 16 < 16 := by omega
      rw [Nat.toDigits_of_base_le (by omega) large, List.append_assoc, List.cons_append,
        List.nil_append, ih (value / 16) (by omega), readQuoted_digitChar last, Nat.div_add_mod]

theorem ofCodePoint?_toNat (c : Char) : ofCodePoint? c.toNat = some c := by
  have valid : c.toNat.isValidChar := c.valid
  rw [ofCodePoint?, if_pos valid, Char.ofNat_toNat]

/-- A character is read back from what stands for it. -/
theorem readQuoted_quoteChar (hidden : Char → Bool) (c : Char) (rest : List Char) :
    readQuoted .nothing (quoteChar hidden c ++ rest) =
      (readQuoted .nothing rest).map (Prod.map (c :: ·) id) := by
  obtain ⟨letter, meant, eq⟩ | eq | ⟨⟨mark, slash, _⟩, eq⟩ := quoteChar_cases hidden c
  · have short : letter ≠ 'u' := by
      rintro rfl
      cases meant
    have escaped : readQuoted .backslash (letter :: rest) =
        (readQuoted .nothing rest).map (Prod.map (c :: ·) id) := by
      rw [readQuoted, if_neg short, meant, Option.bind_some]
    rw [eq, ← escaped]
    rfl
  · have braced : readQuoted (.digits c.toNat) ('}' :: rest) =
        (readQuoted .nothing rest).map (Prod.map (c :: ·) id) := by
      rw [readQuoted, if_pos rfl, ofCodePoint?_toNat, Option.bind_some]
    rw [eq, ← braced, ← readQuoted_toDigits, List.append_assoc, List.append_assoc]
    rfl
  · rw [eq, List.cons_append, List.nil_append, readQuoted, if_neg mark, if_neg slash]

theorem readQuoted_flatMap (hidden : Char → Bool) (text behind : List Char) :
    readQuoted .nothing (text.flatMap (quoteChar hidden) ++ '"' :: behind) =
      some (text, behind) := by
  induction text with
  | nil => rfl
  | cons c text ih =>
    rw [List.flatMap_cons, List.append_assoc, readQuoted_quoteChar, ih]
    rfl

/-- A quoted text is read back as it was, whichever characters are hidden. -/
theorem unquote?_quote (hidden : Char → Bool) (text : String) (behind : List Char) :
    unquote? ((quote hidden text).toList ++ behind) = some (text, behind) := by
  have read := readQuoted_flatMap hidden text.toList behind
  rw [quote, String.toList_ofList, List.append_assoc, List.cons_append, unquote?, if_pos rfl,
    List.cons_append, List.nil_append, read, Option.map_some, Prod.map_apply, String.ofList_toList,
    id]

/-- A control character that does not stand for itself between quotes does not stand there at
all. -/
theorem control_notMem_quoteChar {hidden : Char → Bool} {mark : Char} (control : mark.toNat < 32)
    (escaped : quoteChar hidden mark ≠ [mark]) (c : Char) : mark ∉ quoteChar hidden c := by
  have other : ∀ printable : Char, 32 ≤ printable.toNat → mark ≠ printable := by
    rintro _ large rfl
    omega
  obtain ⟨letter, meant, eq⟩ | eq | ⟨_, eq⟩ := quoteChar_cases hidden c
  · have large : 32 ≤ letter.toNat := by
      unfold shortEscape? at meant
      split_ifs at meant <;> subst letter <;> decide
    simp [eq, other letter large, other '\\' (by decide)]
  · have large : ∀ digit < 16, 32 ≤ (Nat.digitChar digit).toNat := by decide
    have digits : mark ∉ Nat.toDigits 16 c.toNat := by
      intro mem
      obtain ⟨digit, small, same⟩ := exists_digit_of_mem_toDigits mem
      exact other _ (large digit small) same
    simp [eq, digits, other '\\' (by decide), other 'u' (by decide), other '{' (by decide),
      other '}' (by decide)]
  · rw [eq, List.mem_singleton]
    rintro rfl
    exact escaped eq

theorem control_notMem_quote {hidden : Char → Bool} {mark : Char} (control : mark.toNat < 32)
    (escaped : quoteChar hidden mark ≠ [mark]) (text : String) :
    mark ∉ (quote hidden text).toList := by
  have other : mark ≠ '"' := by
    rintro rfl
    exact absurd control (by decide)
  rw [quote, String.toList_ofList]
  simp [control_notMem_quoteChar control escaped, other]

theorem newline_notMem_quote (hidden : Char → Bool) (text : String) :
    '\n' ∉ (quote hidden text).toList :=
  control_notMem_quote (by decide) (by simp [quoteChar]) text

end TemplateScanner
