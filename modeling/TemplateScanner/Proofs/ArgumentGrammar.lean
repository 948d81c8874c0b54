import TemplateScanner.Proofs.Lookahead

namespace TemplateScanner

/-- Text whose parentheses and square brackets are closed in pairs, the one opened last first. -/
inductive WellNested : List Char → Prop where
  | nil : WellNested []
  | plain {c : Char} {rest : List Char} :
    c ∉ ['(', ')', '[', ']'] → WellNested rest → WellNested (c :: rest)
  | parens {inner rest : List Char} :
    WellNested inner → WellNested rest → WellNested ('(' :: (inner ++ ')' :: rest))
  | brackets {inner rest : List Char} :
    WellNested inner → WellNested rest → WellNested ('[' :: (inner ++ ']' :: rest))

/-- Well-nested text with no comma outside all brackets. -/
inductive IsArgument : List Char → Prop where
  | nil : IsArgument []
  | plain {c : Char} {rest : List Char} :
    c ∉ ['(', ')', '[', ']', ','] → IsArgument rest → IsArgument (c :: rest)
  | parens {inner rest : List Char} :
    WellNested inner → IsArgument rest → IsArgument ('(' :: (inner ++ ')' :: rest))
  | brackets {inner rest : List Char} :
    WellNested inner → IsArgument rest → IsArgument ('[' :: (inner ++ ']' :: rest))

/-- Reading through a text from one depth leads to another, and ends no argument on the way. -/
def Depth.Passes : Depth → List Char → Depth → Prop
  | depth, [], after => depth = after
  | depth, c :: rest, after => depth.endsAt c = false ∧ (depth.next c).Passes rest after

namespace Depth

variable {depth middle after : Depth} {first second : List Char} {c : Char}

theorem Passes.append (passes : depth.Passes first middle) (later : middle.Passes second after) :
    depth.Passes (first ++ second) after := by
  induction first generalizing depth with
  | nil =>
    cases show depth = middle from passes
    exact later
  | cons c first ih =>
    obtain ⟨goes, on⟩ := passes
    exact ⟨goes, ih on⟩

theorem endsAt_of_ne (ne : depth ≠ top) (c : Char) : depth.endsAt c = false := by
  simp [endsAt, ne]

theorem next_plain (plain : c ∉ ['(', ')', '[', ']']) : depth.next c = depth := by
  simp only [List.mem_cons, List.not_mem_nil, or_false, not_or] at plain
  obtain ⟨h₁, h₂, h₃, h₄⟩ := plain
  rw [next, if_neg h₁, if_neg h₂, if_neg h₃, if_neg h₄]

/-- What passes one level further down passes in the brackets that lead there and back. -/
theorem Passes.enclosed {opening closing : Char} (opens : depth.endsAt opening = false)
    (deep : depth.next opening ≠ top) (closes : (depth.next opening).next closing = depth)
    (inner : (depth.next opening).Passes first (depth.next opening))
    (later : depth.Passes second after) :
    depth.Passes (opening :: (first ++ closing :: second)) after := by
  have back : (depth.next opening).Passes (closing :: second) after := by
    refine ⟨endsAt_of_ne deep closing, ?_⟩
    rw [closes]
    exact later
  exact ⟨opens, inner.append back⟩

theorem next_paren_ne_top (depth : Depth) : depth.next '(' ≠ top := by
  simp [next, top]

theorem next_bracket_ne_top (depth : Depth) : depth.next '[' ≠ top := by
  simp [next, top]

theorem Passes.parens (inner : (depth.next '(').Passes first (depth.next '('))
    (later : depth.Passes second after) :
    depth.Passes ('(' :: (first ++ ')' :: second)) after :=
  enclosed (by simp [endsAt]) depth.next_paren_ne_top rfl inner later

theorem Passes.brackets (inner : (depth.next '[').Passes first (depth.next '['))
    (later : depth.Passes second after) :
    depth.Passes ('[' :: (first ++ ']' :: second)) after :=
  enclosed (by simp [endsAt]) depth.next_bracket_ne_top rfl inner later

end Depth

/-- Inside brackets well-nested text is read through, whatever commas are in it. -/
theorem WellNested.passes {text : List Char} (nested : WellNested text) {depth : Depth}
    (deep : depth ≠ Depth.top) : depth.Passes text depth := by
  induction nested generalizing depth with
  | nil => rfl
  | @plain c rest plain _ ih =>
    refine ⟨Depth.endsAt_of_ne deep c, ?_⟩
    rw [Depth.next_plain plain]
    exact ih deep
  | parens _ _ inner later => exact .parens (inner depth.next_paren_ne_top) (later deep)
  | brackets _ _ inner later => exact .brackets (inner depth.next_bracket_ne_top) (later deep)

/-- An argument is read through, and leaves no bracket open. -/
theorem IsArgument.passes {text : List Char} (argument : IsArgument text) :
    Depth.top.Passes text Depth.top := by
  induction argument with
  | nil => rfl
  | @plain c rest plain _ ih =>
    simp only [List.mem_cons, List.not_mem_nil, or_false, not_or] at plain
    obtain ⟨h₁, h₂, h₃, h₄, comma⟩ := plain
    refine ⟨by simp [Depth.endsAt, h₂, comma], ?_⟩
    rw [Depth.next_plain (by simp [h₁, h₂, h₃, h₄])]
    exact ih
  | parens inner _ later => exact .parens (inner.passes (Depth.next_paren_ne_top _)) later
  | brackets inner _ later => exact .brackets (inner.passes (Depth.next_bracket_ne_top _)) later

theorem argumentScript_of_passes {depth after : Depth} {text : List Char}
    (passes : depth.Passes text after) (more : List Char) :
    (argumentScript depth (text ++ more)).events.count .advance =
      text.length + (argumentScript after more).events.count .advance := by
  induction text generalizing depth with
  | nil =>
    cases show depth = after from passes
    rw [List.nil_append, List.length_nil, Nat.zero_add]
  | cons c text ih =>
    obtain ⟨goes, on⟩ := passes
    rw [List.cons_append, argumentScript, if_neg (by simp [goes]), Script.count_after_advance,
      Script.count_after_commit, ih on, List.length_cons]
    omega

theorem takeWhile_filler {filler more : List Char} (fills : ∀ c ∈ filler, c = ' ' ∨ c = '\n')
    (stops : ∀ c ∈ more.head?, c ≠ ' ' ∧ c ≠ '\n') :
    (filler ++ more).takeWhile isFiller = filler := by
  apply takeWhile_append_of_stops
  · intro c mem
    simpa [isFiller] using fills c mem
  · intro c head
    simpa [isFiller] using stops c head

/-- The token of an argument is the argument, what ends it and the filler after that. -/
theorem IsArgument.reach {argument filler more : List Char} (shape : IsArgument argument)
    {ending : Char} (ends : ending = ',' ∨ ending = ')')
    (fills : ∀ c ∈ filler, c = ' ' ∨ c = '\n') (stops : ∀ c ∈ more.head?, c ≠ ' ' ∧ c ≠ '\n') :
    Kind.argument.reach (argument ++ ending :: filler ++ more) =
      (argument ++ ending :: filler).length := by
  have ended : Depth.top.endsAt ending = true := by
    rcases ends with rfl | rfl <;> rfl
  rw [Kind.reach_argument, List.append_assoc, argumentScript_of_passes shape.passes,
    List.cons_append, argumentScript, if_pos ended, count_argument_end,
    takeWhile_filler fills stops, List.length_append, List.length_cons]

end TemplateScanner
