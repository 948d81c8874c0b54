import Mathlib.Data.Prod.Lex
import TemplateScanner.Proofs.LineCounts

namespace TemplateScanner

/-- A place by its line first, then by its column. -/
def Location.key (place : Location) : ℕ ×ₗ ℕ :=
  toLex (place.line, place.column)

theorem Location.key_lt_iff {a b : Location} :
    a.key < b.key ↔ a.line < b.line ∨ a.line = b.line ∧ a.column < b.column :=
  Prod.Lex.toLex_lt_toLex

/-- What the numbers of a place can be at an offset. -/
structure Location.Within (place : Location) (cut : Nat) : Prop where
  line : 0 < place.line
  column : 0 < place.column
  sum : place.line + place.column ≤ cut + 2

/-- A text has one last line. -/
theorem eq_of_lastLine {before line before' line' : List Char}
    (same : before ++ line = before' ++ line')
    (broken : before = [] ∨ before.getLast? = some '\n') (unbroken : '\n' ∉ line)
    (broken' : before' = [] ∨ before'.getLast? = some '\n') (unbroken' : '\n' ∉ line') :
    before = before' ∧ line = line' := by
  have no_more : ∀ {lines more rest : List Char},
      lines ++ more = [] ∨ (lines ++ more).getLast? = some '\n' → '\n' ∉ more ++ rest →
      more = [] := by
    intro lines more rest broken unbroken
    rcases List.eq_nil_or_concat more with none | ⟨start, last, rfl⟩
    · exact none
    · rcases broken with none | ends
      · simp at none
      · simp at ends
        simp [ends] at unbroken
  rcases List.append_eq_append_iff.mp same with ⟨more, rfl, rfl⟩ | ⟨more, rfl, rfl⟩
  · obtain rfl := no_more broken' unbroken
    simp
  · obtain rfl := no_more broken unbroken'
    simp

namespace CutAt

variable {text before line after before' line' after' : List Char} {p q : Nat}

theorem count_lines (parts : CutAt text p before line after) :
    (before ++ line).count '\n' = before.count '\n' := by
  rw [List.count_append, List.count_eq_zero_of_not_mem parts.unbroken, Nat.add_zero]

/-- What stands before an offset stands before every later one. -/
theorem exists_between (parts : CutAt text p before line after)
    (later : CutAt text q before' line' after') (le : p ≤ q) :
    ∃ between, before' ++ line' = before ++ line ++ between := by
  have same : (before ++ line) ++ after = (before' ++ line') ++ after' :=
    parts.whole.symm.trans later.whole
  rcases List.append_eq_append_iff.mp same with ⟨more, eq, _⟩ | ⟨more, eq, rest⟩
  · exact ⟨more, eq⟩
  · cases more with
    | nil => exact ⟨[], by rw [eq, List.append_nil, List.append_nil]⟩
    | cons c more =>
      -- then the later offset would stop short of a character that the earlier one has passed
      have stops := later.stops c (by rw [rest]; rfl)
      have reaches := parts.reaches
      rw [eq, byteLength_append, byteLength_cons] at reaches
      omega

/-- Between two offsets that cut no character there is a character, which is on the line of the
later one unless a line ends there. -/
theorem key_lt (parts : CutAt text p before line after)
    (later : CutAt text q before' line' after') (whole : byteLength (before ++ line) = p)
    (whole' : byteLength (before' ++ line') = q) (lt : p < q) :
    (Location.mk (before.count '\n' + 1) (line.length + 1)).key <
      (Location.mk (before'.count '\n' + 1) (line'.length + 1)).key := by
  obtain ⟨between, eq⟩ := parts.exists_between later (Nat.le_of_lt lt)
  have some_char : between ≠ [] := by
    rintro rfl
    rw [List.append_nil] at eq
    rw [eq] at whole'
    omega
  have lines := congrArg (List.count '\n') eq
  rw [later.count_lines, List.count_append, parts.count_lines] at lines
  rw [Location.key_lt_iff]
  by_cases ends : '\n' ∈ between
  · have := List.count_pos_iff.mpr ends
    exact .inl (by show _ + 1 < _ + 1; omega)
  · have none := List.count_eq_zero_of_not_mem ends
    rw [List.append_assoc] at eq
    obtain ⟨_, line_eq⟩ := eq_of_lastLine eq later.broken later.unbroken parts.broken
      (by simp [parts.unbroken, ends])
    have := List.length_pos_iff.mpr some_char
    refine .inr ⟨by show _ + 1 = _ + 1; omega, ?_⟩
    rw [line_eq, List.length_append]
    show _ + 1 < _ + 1
    omega

theorem within (parts : CutAt text p before line after) :
    (Location.mk (before.count '\n' + 1) (line.length + 1)).Within p := by
  refine ⟨Nat.succ_pos _, Nat.succ_pos _, ?_⟩
  show _ + 1 + (_ + 1) ≤ p + 2
  have chars := length_le_byteLength (before ++ line)
  have lines : before.count '\n' ≤ before.length := List.count_le_length
  have reaches := parts.reaches
  rw [List.length_append] at chars
  omega

end CutAt

namespace Source

variable {text : String} {source : Source}

/-- Inside a character the column counts bytes, and so it can be larger than that of a later
offset. -/
example : (ofText "→b" >>= fun source => return (← source.locate 2, ← source.locate 3)).toOption =
    some (⟨1, 3⟩, ⟨1, 2⟩) := by
  decide +kernel

end Source

end TemplateScanner
