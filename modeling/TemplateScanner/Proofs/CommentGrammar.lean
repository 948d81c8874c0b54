import TemplateScanner.Proofs.Attempts

namespace TemplateScanner

/-- A text begins with the tail of a comment: two dashes, and `-->` anywhere after these. -/
def OpensWithComment (text : List Char) : Prop :=
  ∃ body after, text = "--".toList ++ body ++ "-->".toList ++ after

/-- A run of dashes hides no end of a comment but one at its own end. -/
theorem infix_replicate_dash {c : Char} (other : c ≠ '-') (dashes : Nat) (rest : List Char) :
    "-->".toList <:+: List.replicate dashes '-' ++ c :: rest ↔
      c = '>' ∧ 2 ≤ dashes ∨ "-->".toList <:+: rest := by
  induction dashes with
  | zero =>
    rw [List.replicate_zero, List.nil_append, List.infix_cons_iff]
    constructor
    · rintro (start | later)
      · exact absurd (List.cons_prefix_cons.mp start).1.symm other
      · exact .inr later
    · rintro (⟨_, few⟩ | later)
      · omega
      · exact .inr later
  | succ dashes ih =>
    rw [List.replicate_succ, List.cons_append, List.infix_cons_iff, ih]
    have start : "-->".toList <+: '-' :: (List.replicate dashes '-' ++ c :: rest) ↔
        c = '>' ∧ dashes = 1 := by
      match dashes with
      | 0 => simp [List.cons_prefix_cons, other.symm]
      | 1 => simp [List.cons_prefix_cons, eq_comm]
      | dashes + 2 => simp [List.replicate_succ, List.cons_prefix_cons]
    rw [start]
    constructor
    · rintro (⟨close, rfl⟩ | ⟨close, enough⟩ | later)
      · exact .inl ⟨close, Nat.le_refl 2⟩
      · exact .inl ⟨close, by omega⟩
      · exact .inr later
    · rintro (⟨close, enough⟩ | later)
      · by_cases one : dashes = 1
        · exact .inl ⟨close, one⟩
        · exact .inr (.inl ⟨close, by omega⟩)
      · exact .inr (.inr later)

theorem commentBody_accepted_iff (dashes : Nat) (rest : List Char) :
    (commentBody dashes rest).accepted = true ↔
      "-->".toList <:+: List.replicate dashes '-' ++ rest := by
  induction rest generalizing dashes with
  | nil =>
    rw [commentBody, List.append_nil]
    constructor
    · intro accepted
      cases accepted
    · intro found
      have close : '>' ∈ List.replicate dashes '-' := found.subset (by decide)
      exact absurd (List.eq_of_mem_replicate close) (by decide)
  | cons c rest ih =>
    rw [commentBody]
    by_cases dash : c = '-'
    · subst dash
      rw [if_neg (by simp), if_pos rfl]
      have run : List.replicate dashes '-' ++ '-' :: rest =
          List.replicate (dashes + 1) '-' ++ rest := by
        rw [List.replicate_succ', List.append_assoc, List.singleton_append]
      rw [run]
      exact ih (dashes + 1)
    · rw [infix_replicate_dash dash]
      by_cases closed : c = '>' ∧ 2 ≤ dashes
      · rw [if_pos closed]
        exact ⟨fun _ => .inl closed, fun _ => rfl⟩
      · rw [if_neg closed, if_neg dash, or_iff_right closed]
        exact ih 0

theorem commentScript_accepted_iff (rest : List Char) :
    (commentScript rest).accepted = true ↔ OpensWithComment rest := by
  have opens : OpensWithComment rest ↔
      ∃ inner, rest = '-' :: '-' :: inner ∧ "-->".toList <:+: inner := by
    constructor
    · rintro ⟨body, after, rfl⟩
      exact ⟨_, by simp, body, after, rfl⟩
    · rintro ⟨_, rfl, body, after, rfl⟩
      exact ⟨body, after, by simp⟩
  rw [opens]
  match rest with
  | [] => simp [commentScript]
  | [c] =>
    rw [commentScript]
    split <;> simp
  | c :: d :: inner =>
    rw [commentScript]
    by_cases first : c = '-'
    · by_cases second : d = '-'
      · subst first second
        rw [if_pos rfl, if_pos rfl]
        have body := commentBody_accepted_iff 0 inner
        simpa [Script.after] using body
      · rw [if_pos first, if_neg second]
        simp [second]
    · rw [if_neg first]
      simp [first]

end TemplateScanner
