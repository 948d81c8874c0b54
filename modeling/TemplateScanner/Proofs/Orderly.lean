import TemplateScanner.Proofs.Attempts

namespace TemplateScanner

/-- The script reads on within some characters and commits, and an accepting one commits last. -/
structure Script.Orderly (script : Script) (rest : List Char) : Prop where
  plain : ∀ event ∈ script.events, event = .advance ∨ event = .commit
  reach : script.events.count .advance ≤ rest.length
  commits : script.accepted = true → script.events.getLast? = some .commit

namespace Script.Orderly

variable {script : Script} {rest : List Char} {c : Char}

theorem rejected (rest : List Char) : Orderly ⟨false, []⟩ rest :=
  ⟨by simp, by simp, by simp⟩

theorem accepted (rest : List Char) : Orderly ⟨true, [.commit]⟩ rest :=
  ⟨by simp, by simp, fun _ => rfl⟩

theorem ne_nil (orderly : script.Orderly rest) (accepted : script.accepted = true) :
    script.events ≠ [] := by
  intro empty
  have last := orderly.commits accepted
  simp [empty] at last

theorem rewind_notMem (orderly : script.Orderly rest) : .rewind ∉ script.events := by
  intro mem
  have plain := orderly.plain _ mem
  simp at plain

theorem filler (rest : List Char) :
    Orderly ⟨false, List.replicate (rest.takeWhile isFiller).length .advance⟩ rest := by
  refine ⟨fun event mem => .inl (List.eq_of_mem_replicate mem), ?_, fun no => by cases no⟩
  rw [List.count_replicate_self]
  exact (List.takeWhile_sublist isFiller).length_le

theorem commit (orderly : script.Orderly rest) : (script.after .commit).Orderly rest := by
  refine ⟨?_, ?_, ?_⟩
  · intro event mem
    rcases List.mem_cons.mp mem with rfl | mem
    · exact .inr rfl
    · exact orderly.plain event mem
  · simpa [Script.after] using orderly.reach
  · intro accepted
    rw [Script.after, List.getLast?_cons_of_ne_nil (orderly.ne_nil accepted)]
    exact orderly.commits accepted

theorem advance (orderly : script.Orderly rest) (c : Char) :
    (script.after .advance).Orderly (c :: rest) := by
  refine ⟨?_, ?_, ?_⟩
  · intro event mem
    rcases List.mem_cons.mp mem with rfl | mem
    · exact .inl rfl
    · exact orderly.plain event mem
  · simpa [Script.after] using orderly.reach
  · intro accepted
    rw [Script.after, List.getLast?_cons_of_ne_nil (orderly.ne_nil accepted)]
    exact orderly.commits accepted

end Script.Orderly

open Script

theorem ClosingPair.orderly (pair : ClosingPair) (half : Bool) (rest : List Char) :
    (pair.script half rest).Orderly rest := by
  fun_induction ClosingPair.script pair half rest with
  | case1 half => exact .accepted []
  | case2 rest ih => exact ih.advance _
  | case3 c rest other ih => exact ih.commit.advance c
  | case4 rest => exact (Orderly.accepted rest).advance _
  | case5 c rest other ih => exact ih.commit

theorem ClosingPair.script_accepted (pair : ClosingPair) (half : Bool) (rest : List Char) :
    (pair.script half rest).accepted = true := by
  fun_induction ClosingPair.script pair half rest with
  | case1 half => rfl
  | case2 rest ih => exact ih
  | case3 c rest other ih => exact ih
  | case4 rest => rfl
  | case5 c rest other ih => exact ih

theorem commentBody_orderly (dashes : Nat) (rest : List Char) :
    (commentBody dashes rest).Orderly rest := by
  induction rest generalizing dashes with
  | nil => exact .rejected []
  | cons c rest ih =>
    rw [commentBody]
    split
    next => exact (Orderly.accepted rest).advance c
    next => exact (ih _).advance c

theorem commentScript_orderly (rest : List Char) : (commentScript rest).Orderly rest := by
  unfold commentScript
  split
  next => exact .rejected []
  next c =>
    split
    next => exact (Orderly.rejected []).advance c
    next => exact .rejected [c]
  next c d rest =>
    split
    next =>
      split
      next => exact ((commentBody_orderly 0 rest).advance d).advance c
      next => exact (Orderly.rejected (d :: rest)).advance c
    next => exact .rejected _

theorem contentScript_orderly (escaped : Bool) (rest : List Char) :
    ((contentScript escaped rest).after .commit).Orderly rest := by
  induction rest generalizing escaped with
  | nil => exact .accepted []
  | cons c rest ih =>
    rw [contentScript]
    split
    next => exact .accepted _
    next => exact ((ih _).advance c).commit

theorem contentScript_accepted (escaped : Bool) (rest : List Char) :
    (contentScript escaped rest).accepted = true := by
  induction rest generalizing escaped with
  | nil => rfl
  | cons c rest ih =>
    rw [contentScript]
    split
    next => rfl
    next => exact ih _

theorem argumentScript_orderly (depth : Depth) (rest : List Char) :
    ((argumentScript depth rest).after .commit).Orderly rest := by
  induction rest generalizing depth with
  | nil => exact .accepted []
  | cons c rest ih =>
    rw [argumentScript]
    split
    next =>
      refine Orderly.commit ⟨?_, ?_, ?_⟩
      · intro event mem
        simp only [List.mem_cons, List.mem_append, List.mem_replicate] at mem
        grind
      · have le := (List.takeWhile_sublist (l := rest) isFiller).length_le
        simpa using le
      · intro _
        rw [← List.cons_append, List.getLast?_concat]
    next => exact ((ih _).advance c).commit

theorem argumentScript_accepted (depth : Depth) (rest : List Char) :
    (argumentScript depth rest).accepted = true := by
  induction rest generalizing depth with
  | nil => rfl
  | cons c rest ih =>
    rw [argumentScript]
    split
    next => rfl
    next => exact ih _

theorem Kind.orderly (kind : Kind) (rest : List Char) : (kind.script rest).Orderly rest := by
  cases kind with
  | expression => exact (ClosingPair.expression.orderly false rest).commit
  | statement => exact (ClosingPair.statement.orderly false rest).commit
  | comment => exact commentScript_orderly rest
  | argument => exact argumentScript_orderly Depth.top rest
  | content => exact contentScript_orderly false rest

/-- Only a comment can be missing. -/
theorem Kind.script_accepted {kind : Kind} (ne : kind ≠ .comment) (rest : List Char) :
    (kind.script rest).accepted = true := by
  cases kind with
  | expression => exact ClosingPair.expression.script_accepted false rest
  | statement => exact ClosingPair.statement.script_accepted false rest
  | comment => exact absurd rfl ne
  | argument => exact argumentScript_accepted Depth.top rest
  | content => exact contentScript_accepted false rest

end TemplateScanner
