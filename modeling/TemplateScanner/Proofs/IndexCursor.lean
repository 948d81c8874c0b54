import TemplateScanner.Proofs.Scannable

namespace TemplateScanner

/-- A reader of a list of characters. All places are numbers of characters. -/
structure IndexCursor (text : List Char) where
  scanStart : Nat
  tokenStart : Nat
  position : Nat
  committed : Option Nat
  significant : Bool
deriving DecidableEq, Repr

namespace IndexCursor

variable {text : List Char}

def startAt (text : List Char) (place : Nat) : IndexCursor text :=
  ⟨place, place, place, none, false⟩

/-- The characters still to be read. -/
def rest (index : IndexCursor text) : List Char :=
  text.drop index.position

/-- The character at the read position, U+0000 at the end. -/
def peek (index : IndexCursor text) : Char :=
  index.rest.headD '\x00'

def atEnd (index : IndexCursor text) : Bool :=
  text.length ≤ index.position

/-- Moves past one character, if there is one left. -/
def advance (skip : Bool) (index : IndexCursor text) : IndexCursor text :=
  if index.atEnd then index
  else
    { index with
      position := index.position + 1
      tokenStart := if skip && !index.significant then index.position + 1 else index.tokenStart
      significant := index.significant || !skip }

def commit (index : IndexCursor text) : IndexCursor text :=
  { index with committed := some index.position }

def rewind (index : IndexCursor text) : IndexCursor text :=
  { index with
    tokenStart := index.scanStart
    position := index.scanStart
    committed := none
    significant := false }

instance : Host (IndexCursor text) where
  peek index := .ok index.peek
  atEnd := atEnd
  unread index := text.length - index.position
  advance skip index := .ok (index.advance skip)
  commit := commit
  rewind := rewind

/-- Where the token under way would end. -/
def tokenEnd (index : IndexCursor text) : Nat :=
  max (index.committed.getD index.position) index.tokenStart

/-- Closes the scan under way. An accepted scan gives its token, counted in characters. -/
def close (accepted : Bool) (index : IndexCursor text) : Option Span × IndexCursor text :=
  if accepted then
    (some ⟨index.tokenStart, index.tokenEnd⟩, startAt text index.tokenEnd)
  else (none, index.rewind)

end IndexCursor

/-- The byte offset of the character at a place of a text. -/
def offset (text : List Char) (place : Nat) : Nat :=
  byteLength (text.take place)

section offset

variable {text : List Char} {a b : Nat}

@[simp] theorem offset_zero (text : List Char) : offset text 0 = 0 := by
  simp [offset]

theorem offset_of_length_le (past : text.length ≤ a) : offset text a = byteLength text := by
  rw [offset, List.take_of_length_le past]

theorem offset_le_byteLength (text : List Char) (a : Nat) : offset text a ≤ byteLength text := by
  have whole := byteLength_append (text.take a) (text.drop a)
  rw [List.take_append_drop] at whole
  rw [offset]
  omega

theorem offset_add (text : List Char) (a n : Nat) :
    offset text (a + n) = offset text a + byteLength ((text.drop a).take n) := by
  rw [offset, List.take_add, byteLength_append, offset]

theorem offset_mono (text : List Char) (le : a ≤ b) : offset text a ≤ offset text b := by
  obtain ⟨n, rfl⟩ := Nat.exists_eq_add_of_le le
  rw [offset_add]
  exact Nat.le_add_right _ _

theorem offset_succ (inside : a < text.length) :
    offset text (a + 1) = offset text a + text[a].utf8Size := by
  rw [offset_add, List.drop_eq_getElem_cons inside, List.take_succ_cons, List.take_zero,
    byteLength_cons, byteLength_nil, Nat.add_zero]

theorem offset_length_add (before rest : List Char) (place : Nat) :
    offset (before ++ rest) (before.length + place) = byteLength before + offset rest place := by
  rw [offset, List.take_length_add_append, byteLength_append, offset]

theorem offset_max (text : List Char) (a b : Nat) :
    max (offset text a) (offset text b) = offset text (max a b) := by
  rcases Nat.le_total a b with le | le
  · rw [Nat.max_eq_right le, Nat.max_eq_right (offset_mono text le)]
  · rw [Nat.max_eq_left le, Nat.max_eq_left (offset_mono text le)]

theorem offset_lt_offset (lt : a < b) (inside : a < text.length) :
    offset text a < offset text b := by
  have step := offset_mono text (show a + 1 ≤ b from lt)
  have := text[a].utf8Size_pos
  rw [offset_succ inside] at step
  omega

theorem offset_lt_offset_iff (inside : b ≤ text.length) :
    offset text a < offset text b ↔ a < b := by
  constructor
  · intro lt
    apply Nat.lt_of_not_le
    intro le
    exact absurd (offset_mono text le) (Nat.not_le_of_lt lt)
  · intro lt
    exact offset_lt_offset lt (Nat.lt_of_lt_of_le lt inside)

theorem byteLength_le_offset_iff : byteLength text ≤ offset text a ↔ text.length ≤ a := by
  constructor
  · intro le
    apply Nat.le_of_not_lt
    intro inside
    have lt := offset_lt_offset inside inside
    rw [offset_of_length_le (Nat.le_refl _)] at lt
    omega
  · intro past
    exact Nat.le_of_eq (offset_of_length_le past).symm

end offset

/-- A span covers whole characters of a text. -/
def Span.Whole (text : List Char) (span : Span) : Prop :=
  ∃ a b, a ≤ b ∧ b ≤ text.length ∧ span = ⟨offset text a, offset text b⟩

end TemplateScanner
