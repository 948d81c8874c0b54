import TemplateScanner.Proofs.ArgumentGrammar
import TemplateScanner.Proofs.ReadOn

namespace TemplateScanner

/-- A comma or closing parenthesis stands at a place, and no text that ends before it has more
opening than closing brackets of either shape. -/
structure EndsArgument (text : List Char) (place : Nat) : Prop where
  ending : text[place]? = some ',' ∨ text[place]? = some ')'
  parens : ∀ suffix, suffix <:+ text.take place → suffix.count '(' ≤ suffix.count ')'
  brackets : ∀ suffix, suffix <:+ text.take place → suffix.count '[' ≤ suffix.count ']'

/-- What is read of a text as an argument: all through the first character that ends one and the run
of spaces and newlines behind that, or the whole text if nothing ends it. -/
inductive ArgumentThrough (text : List Char) : List Char → Prop where
  | ended {place : Nat} : EndsArgument text place →
    (∀ earlier, EndsArgument text earlier → place ≤ earlier) → ArgumentThrough text
      (text.take (place + 1) ++ (text.drop (place + 1)).takeWhile (· ∈ [' ', '\n']))
  | unended : (∀ place, ¬EndsArgument text place) → ArgumentThrough text text

theorem ArgumentThrough.eq_of_unended {text passed : List Char}
    (through : ArgumentThrough text passed) (none : ∀ place, ¬EndsArgument text place) :
    passed = text := by
  cases through with
  | ended ended => exact absurd ended (none _)
  | unended => rfl

/-- The most by which brackets that open outnumber those that close in a text that ends here. -/
def IsExcess (opening closing : Char) (text : List Char) (excess : Nat) : Prop :=
  ∀ bound, excess ≤ bound ↔
    ∀ suffix, suffix <:+ text → suffix.count opening ≤ suffix.count closing + bound

section IsExcess

variable {opening closing : Char} {text : List Char} {excess : Nat}

theorem isExcess_nil (opening closing : Char) : IsExcess opening closing [] 0 := by
  intro bound
  simp

theorem isExcess_zero_iff (most : IsExcess opening closing text excess) :
    excess = 0 ↔ ∀ suffix, suffix <:+ text → suffix.count opening ≤ suffix.count closing := by
  have none := most 0
  rwa [Nat.le_zero] at none

theorem suffix_concat_forall_iff {text : List Char} {c : Char} {p : List Char → Prop}
    (empty : p []) : (∀ suffix, suffix <:+ text ++ [c] → p suffix) ↔
      ∀ suffix, suffix <:+ text → p (suffix ++ [c]) := by
  constructor
  · intro all suffix ends
    exact all _ (List.suffix_concat_iff.mpr (.inr ⟨suffix, rfl, ends⟩))
  · intro all suffix ends
    rcases List.suffix_concat_iff.mp ends with rfl | ⟨shorter, rfl, before⟩
    · exact empty
    · exact all shorter before

theorem IsExcess.opened (ne : opening ≠ closing) (most : IsExcess opening closing text excess) :
    IsExcess opening closing (text ++ [opening]) (excess + 1) := by
  intro bound
  rw [suffix_concat_forall_iff (by simp)]
  simp only [List.count_append, List.count_singleton_self, List.count_singleton, beq_iff_eq,
    if_neg ne]
  cases bound with
  | zero =>
    -- The last character alone is a text that ends here.
    refine ⟨fun few => by omega, fun all => ?_⟩
    have alone := all [] List.nil_suffix
    simp at alone
  | succ bound =>
    rw [Nat.add_le_add_iff_right, most bound]
    refine forall_congr' fun suffix => imp_congr_right fun _ => ?_
    omega

/-- A bracket that closes nothing leaves the excess at the one of the empty text. -/
theorem IsExcess.closed (ne : opening ≠ closing) (most : IsExcess opening closing text excess) :
    IsExcess opening closing (text ++ [closing]) (excess - 1) := by
  intro bound
  rw [suffix_concat_forall_iff (by simp), Nat.sub_le_iff_le_add, most (bound + 1)]
  simp only [List.count_append, List.count_singleton_self, List.count_singleton, beq_iff_eq,
    if_neg ne.symm]
  refine forall_congr' fun suffix => imp_congr_right fun _ => ?_
  omega

theorem IsExcess.other {c : Char} (opens : c ≠ opening) (closes : c ≠ closing)
    (most : IsExcess opening closing text excess) :
    IsExcess opening closing (text ++ [c]) excess := by
  intro bound
  rw [suffix_concat_forall_iff (by simp), most bound]
  simp only [List.count_append, List.count_singleton, beq_iff_eq, if_neg opens, if_neg closes,
    Nat.add_zero]

end IsExcess

namespace Depth

/-- The brackets that are open after a text, as they are counted, are the most by which some end of
the text has more opening than closing ones. -/
structure Tracks (depth : Depth) (text : List Char) : Prop where
  parens : IsExcess '(' ')' text depth.parens
  brackets : IsExcess '[' ']' text depth.brackets

variable {depth after : Depth} {before run : List Char}

theorem tracks_top : top.Tracks [] :=
  ⟨isExcess_nil _ _, isExcess_nil _ _⟩

theorem Tracks.next (tracks : depth.Tracks before) (c : Char) :
    (depth.next c).Tracks (before ++ [c]) := by
  obtain ⟨parens, brackets⟩ := tracks
  unfold Depth.next
  split
  next paren =>
    subst paren
    exact ⟨parens.opened (by decide), brackets.other (by decide) (by decide)⟩
  next noOpening =>
    split
    next paren =>
      subst paren
      exact ⟨parens.closed (by decide), brackets.other (by decide) (by decide)⟩
    next noClosing =>
      have outside := parens.other noOpening noClosing
      split
      next bracket =>
        subst bracket
        exact ⟨outside, brackets.opened (by decide)⟩
      next noOpening =>
        split
        next bracket =>
          subst bracket
          exact ⟨outside, brackets.closed (by decide)⟩
        next noClosing => exact ⟨outside, brackets.other noOpening noClosing⟩

theorem Tracks.endsAt_iff (tracks : depth.Tracks before) (c : Char) (rest : List Char) :
    depth.endsAt c = true ↔ EndsArgument (before ++ c :: rest) before.length := by
  have here : (before ++ c :: rest)[before.length]? = some c := by simp
  have top_iff : depth = top ↔ depth.parens = 0 ∧ depth.brackets = 0 := by
    cases depth
    simp [top]
  rw [endsAt, Bool.and_eq_true, Bool.or_eq_true, decide_eq_true_iff, decide_eq_true_iff,
    decide_eq_true_iff, top_iff, isExcess_zero_iff tracks.parens, isExcess_zero_iff tracks.brackets]
  constructor
  · rintro ⟨ending, parens, brackets⟩
    refine ⟨?_, by rwa [List.take_left], by rwa [List.take_left]⟩
    rw [here, Option.some.injEq, Option.some.injEq]
    exact ending
  · rintro ⟨ending, parens, brackets⟩
    rw [here, Option.some.injEq, Option.some.injEq] at ending
    rw [List.take_left] at parens brackets
    exact ⟨ending, parens, brackets⟩

/-- No argument ends in what is read through. -/
theorem Passes.tracks (passes : depth.Passes run after) (tracks : depth.Tracks before) :
    after.Tracks (before ++ run) ∧ ∀ rest place, before.length ≤ place →
      place < before.length + run.length → ¬EndsArgument (before ++ run ++ rest) place := by
  induction run generalizing depth before with
  | nil =>
    cases show depth = after from passes
    rw [List.append_nil]
    exact ⟨tracks, fun rest place past inside => absurd past (Nat.not_le_of_lt inside)⟩
  | cons c run ih =>
    obtain ⟨goes, on⟩ := passes
    obtain ⟨later, none⟩ := ih on (tracks.next c)
    rw [List.append_assoc, List.singleton_append] at later none
    refine ⟨later, ?_⟩
    intro rest place past inside
    rcases Nat.eq_or_lt_of_le past with rfl | past
    · rw [List.append_assoc, List.cons_append, ← tracks.endsAt_iff c, goes]
      exact Bool.false_ne_true
    · refine none rest place ?_ ?_ <;>
        simp only [List.length_append, List.length_cons, List.length_nil] at inside ⊢ <;> omega

theorem exists_passes (depth : Depth) (text : List Char) :
    (∃ after, depth.Passes text after) ∨ ∃ run after ending more, text = run ++ ending :: more ∧
      depth.Passes run after ∧ after.endsAt ending = true := by
  induction text generalizing depth with
  | nil => exact .inl ⟨depth, rfl⟩
  | cons c text ih =>
    cases ended : depth.endsAt c with
    | true => exact .inr ⟨[], depth, c, text, rfl, rfl, ended⟩
    | false =>
      rcases ih (depth.next c) with ⟨after, passes⟩ | ⟨run, after, ending, more, rfl, passes, ends⟩
      · exact .inl ⟨after, ended, passes⟩
      · exact .inr ⟨c :: run, after, ending, more, rfl, ⟨ended, passes⟩, ends⟩

end Depth

theorem isFiller_eq : isFiller = fun c => decide (c ∈ [' ', '\n']) := by
  funext c
  simp [isFiller]

/-- An argument that is read through is read with what ends it and the filler behind that. -/
theorem take_reach_argument {run more : List Char} {after : Depth} {ending : Char}
    (passes : Depth.top.Passes run after) (ends : after.endsAt ending = true) :
    (run ++ ending :: more).take (Kind.argument.reach (run ++ ending :: more)) =
      run ++ ending :: more.takeWhile (· ∈ [' ', '\n']) := by
  have filler := List.prefix_iff_eq_take.mp (more.takeWhile_prefix isFiller)
  rw [Kind.reach_argument, argumentScript_of_passes passes, argumentScript, if_pos ends,
    count_argument_end, List.take_length_add_append, List.take_succ_cons, ← filler, isFiller_eq]

theorem argument_through (text : List Char) :
    ArgumentThrough text (text.take (Kind.argument.reach text)) := by
  rcases Depth.top.exists_passes text with ⟨after, passes⟩ | ⟨run, after, ending, more, rfl, passes,
    ends⟩
  · obtain ⟨_, none⟩ := passes.tracks Depth.tracks_top
    have whole : Kind.argument.reach text = text.length := by
      have passed := argumentScript_of_passes passes []
      rw [List.append_nil] at passed
      rw [Kind.reach_argument, passed, argumentScript]
      rfl
    rw [whole, List.take_length]
    refine .unended fun place ended => ?_
    have inside : place < text.length := by
      rcases ended.ending with found | found <;> exact (List.getElem?_eq_some_iff.mp found).1
    have never := none [] place (Nat.zero_le _) (by simpa using inside)
    rw [List.nil_append, List.append_nil] at never
    exact never ended
  · obtain ⟨tracks, none⟩ := passes.tracks Depth.tracks_top
    rw [List.nil_append] at tracks
    have ended := (tracks.endsAt_iff ending more).mp ends
    have first : ∀ earlier, EndsArgument (run ++ ending :: more) earlier →
        run.length ≤ earlier := by
      intro earlier other
      apply Nat.le_of_not_lt
      intro lt
      exact none (ending :: more) earlier (Nat.zero_le _) (by simpa using lt) other
    have through := ArgumentThrough.ended ended first
    rw [List.take_length_add_append, List.drop_length_add_append, List.take_succ_cons,
      List.take_zero, List.drop_succ_cons, List.drop_zero, List.append_assoc,
      List.singleton_append] at through
    rw [take_reach_argument passes ends]
    exact through

theorem Depth.passes_top {run : List Char} (flat : ∀ c ∈ run, c ∉ ['(', '[', ',', ')']) :
    top.Passes run top := by
  induction run with
  | nil => rfl
  | cons c run ih =>
    have plain := flat c List.mem_cons_self
    simp only [List.mem_cons, List.not_mem_nil, or_false, not_or] at plain
    obtain ⟨paren, bracket, comma, closing⟩ := plain
    refine ⟨by simp [endsAt, comma, closing], ?_⟩
    have stays : top.next c = top := by
      simp only [next, if_neg paren, if_neg bracket, if_neg closing, top, Nat.zero_sub, ite_self]
    rw [stays]
    exact ih fun d mem => flat d (List.mem_cons_of_mem c mem)

/-- From wherever operations lead, an argument is read through the first comma or closing
parenthesis outside all brackets and the filler behind it, or to the end of the input, and the token
ends there. Without an opening bracket before it that is the first comma or closing parenthesis of
all. -/
theorem readArgument_through {text : String} {cursor : Cursor}
    (reachable : Cursor.Reachable text cursor) :
    ∃ (rest : String) (passed : List Char) (after : Cursor), cursor.rest = .ok rest ∧
      ArgumentThrough rest.toList passed ∧ readArgument cursor = .ok (true, after) ∧
      cursor.ReadOn passed after ∧ after.committed = some after.position ∧
      ((∀ place, ¬EndsArgument rest.toList place) → after.atEnd = true) ∧
      ∀ run ending more, rest.toList = run ++ ending :: more → ending ∈ [',', ')'] →
        (∀ c ∈ run, c ∉ ['(', '[', ',', ')']) →
        passed = run ++ ending :: more.takeWhile (· ∈ [' ', '\n']) := by
  obtain ⟨rest, unread, recognized⟩ := reachable.exists_readOn
  obtain ⟨after, ran, _, readOn, committed⟩ := recognized .argument
  have accepted : (Kind.argument.script rest.toList).accepted = true :=
    Kind.script_accepted (by decide) _
  have through := argument_through rest.toList
  rw [accepted] at ran
  refine ⟨rest, _, after, unread, through, ran, readOn, committed accepted, ?_, ?_⟩
  · intro none
    exact (readOn.atEnd_iff unread).mpr (through.eq_of_unended none)
  · intro run ending more eq ends flat
    have ended : Depth.top.endsAt ending = true := by
      simp only [List.mem_cons, List.not_mem_nil, or_false] at ends
      rcases ends with rfl | rfl <;> rfl
    rw [eq]
    exact take_reach_argument (Depth.passes_top flat) ended

/-- Two square brackets close nothing here, and the other two pairs cross each other. -/
theorem readArgument_through_crossed_brackets : ∃ opened skipped rest passed after,
    Cursor.ofText "é](a],b[)], \n)c" = .ok opened ∧ opened.advance true = .ok skipped ∧
    Cursor.Reachable "é](a],b[)], \n)c" skipped ∧ skipped.rest = .ok rest ∧
    ArgumentThrough rest.toList passed ∧ readArgument skipped = .ok (true, after) ∧
    skipped.ReadOn passed after ∧ after.committed = some after.position ∧ after.position = 14 := by
  have fits : "é](a],b[)], \n)c".utf8ByteSize < offsetLimit := by decide
  obtain ⟨cursor, opened⟩ := Cursor.exists_ofText fits
  have ran : (Cursor.ofText "é](a],b[)], \n)c" >>= Cursor.advance true >>=
      readArgument).toOption.map (fun (_, after) => after.position) = some 14 := by
    decide +kernel
  obtain ⟨⟨accepted, after⟩, stepped, place⟩ := exists_of_toOption_map ran
  rw [opened, ok_bind] at stepped
  obtain ⟨skipped, skip, read⟩ := bind_eq_ok_iff.mp stepped
  have reachable := Cursor.Reachable.advance (.opened opened) skip
  obtain ⟨rest, passed, last, unread, through, again, readOn, committed, _⟩ :=
    readArgument_through reachable
  cases Except.ok.inj (read.symm.trans again)
  exact ⟨cursor, skipped, rest, passed, after, opened, skip, reachable, unread, through, read,
    readOn, committed, place⟩

end TemplateScanner
