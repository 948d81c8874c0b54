import TemplateScanner.Proofs.Reach
import TemplateScanner.Proofs.Tiling

namespace TemplateScanner

/-- The pattern stands in the text after some characters, and nowhere after fewer of them. -/
structure FirstOccurrence (pattern text before : List Char) : Prop where
  stands : before ++ pattern <+: text
  leftmost : ∀ earlier, earlier ++ pattern <+: text → before.length ≤ earlier.length

/-- What is read of a text when a pattern closes it: all up to the end of the pattern where it
stands first, or the whole text if it does not stand there. -/
inductive ReadThrough (pattern text : List Char) : List Char → Prop where
  | found {before : List Char} : FirstOccurrence pattern text before →
    ReadThrough pattern text (before ++ pattern)
  | missing : ¬pattern <:+: text → ReadThrough pattern text text

theorem FirstOccurrence.start {pattern text : List Char} (stands : pattern <+: text) :
    FirstOccurrence pattern text [] :=
  ⟨stands, fun _ _ => Nat.zero_le _⟩

section cons

variable {pattern text : List Char} {c : Char}

theorem FirstOccurrence.cons {before : List Char} (other : ¬pattern <+: c :: text)
    (first : FirstOccurrence pattern text before) :
    FirstOccurrence pattern (c :: text) (c :: before) := by
  refine ⟨List.cons_prefix_cons.mpr ⟨rfl, first.stands⟩, ?_⟩
  intro earlier stands
  cases earlier with
  | nil => exact absurd stands other
  | cons d earlier =>
    have later := (List.cons_prefix_cons.mp stands).2
    exact Nat.succ_le_succ (first.leftmost earlier later)

theorem FirstOccurrence.of_cons {before : List Char} {d : Char}
    (first : FirstOccurrence pattern (c :: text) (d :: before)) :
    ¬pattern <+: c :: text ∧ FirstOccurrence pattern text before := by
  have stands := (List.cons_prefix_cons.mp first.stands).2
  refine ⟨fun here => absurd (first.leftmost [] here) (Nat.not_succ_le_zero _), stands, ?_⟩
  intro earlier other
  have later := first.leftmost (c :: earlier) (List.cons_prefix_cons.mpr ⟨rfl, other⟩)
  exact Nat.le_of_succ_le_succ later

theorem ReadThrough.cons {passed : List Char} (other : ¬pattern <+: c :: text)
    (through : ReadThrough pattern text passed) :
    ReadThrough pattern (c :: text) (c :: passed) := by
  cases through with
  | found first => exact .found (first.cons other)
  | missing never =>
    refine .missing (fun stands => ?_)
    rcases List.infix_cons_iff.mp stands with start | later
    · exact other start
    · exact never later

end cons

namespace ClosingPair

def chars (pair : ClosingPair) : List Char :=
  [pair.first, pair.second]

theorem chars_prefix_iff (pair : ClosingPair) (c d : Char) (rest : List Char) :
    pair.chars <+: c :: d :: rest ↔ c = pair.first ∧ d = pair.second := by
  simp [chars, List.cons_prefix_cons, eq_comm]

/-- Only the pair itself ends the reading. A first half that is not completed is passed without the
character after it, which may be the first half of the pair that stands next. -/
theorem readThrough_reach (pair : ClosingPair) (rest : List Char) :
    ReadThrough pair.chars rest (rest.take (pair.reach rest)) := by
  induction rest with
  | nil =>
    rw [List.take_nil]
    exact .missing (by simp [chars])
  | cons c rest ih =>
    cases rest with
    | nil =>
      rw [reach_singleton]
      exact .missing (fun stands => absurd stands.length_le (by simp [chars]))
    | cons d rest =>
      have here := pair.chars_prefix_iff c d rest
      rw [reach_cons_cons]
      -- Where the pair does not stand here, only the first character is done with.
      by_cases found : c = pair.first ∧ d = pair.second
      · obtain ⟨rfl, rfl⟩ := found
        rw [if_pos ⟨rfl, rfl⟩]
        exact .found (.start (here.mpr ⟨rfl, rfl⟩))
      · rw [if_neg found, List.take_succ_cons]
        exact ih.cons (mt here.mp found)

/-- From wherever operations lead, reading through a pair passes the characters up to the end of its
first occurrence, or all of them, and commits there. It moves neither start. -/
theorem read_first_occurrence {text : String} {cursor : Cursor}
    (reachable : Cursor.Reachable text cursor) (pair : ClosingPair) :
    ∃ (rest : String) (passed : List Char) (after : Cursor), cursor.rest = .ok rest ∧
      ReadThrough pair.chars rest.toList passed ∧ pair.read cursor = .ok (true, after) ∧
      after.position = cursor.position + byteLength passed ∧
      after.committed = some after.position ∧
      after.scanStart = cursor.scanStart ∧ after.tokenStart = cursor.tokenStart := by
  obtain ⟨source, index, holds, inside, rfl⟩ := reachable.exists_index
  obtain ⟨next, ran, hs, ht, hp, hc⟩ :=
    IndexCursor.run_orderly holds inside (pair.orderly false index.rest).commit
  have accepted : ((pair.script false index.rest).after .commit).accepted = true :=
    pair.script_accepted false index.rest
  have place : next.position = index.position + pair.reach index.rest := by
    rw [hp, Script.count_after_commit, reach]
  refine ⟨_, index.rest.take (pair.reach index.rest), next.toCursor source,
    IndexCursor.rest_toCursor holds inside, ?_, ?_, ?_, ?_, ?_, ?_⟩
  · rw [String.toList_ofList]
    exact pair.readThrough_reach index.rest
  · rw [read_eq Cursor.contract (index.reads_toCursor holds), ran, accepted]
  · exact (congrArg (offset _) place).trans (offset_add _ _ _)
  · exact congrArg (Option.map (offset _)) (hc accepted)
  · exact congrArg (offset _) hs
  · exact congrArg (offset _) ht

/-- The pair is two U+0000 here, which a reader also shows at the end of the text. -/
theorem read_first_occurrence_zero_pair : ∃ opened skipped rest passed after,
    Cursor.ofText "é\x00é\x00\x00\x00" = .ok opened ∧ opened.advance true = .ok skipped ∧
    Cursor.Reachable "é\x00é\x00\x00\x00" skipped ∧ skipped.rest = .ok rest ∧
    ReadThrough ['\x00', '\x00'] rest.toList passed ∧
    ClosingPair.read ⟨'\x00', '\x00'⟩ skipped = .ok (true, after) ∧
    after.committed = some after.position ∧ after.position = skipped.position + byteLength passed ∧
    after.tokenStart = 2 ∧ after.position = 7 := by
  have fits : "é\x00é\x00\x00\x00".utf8ByteSize < offsetLimit := by decide
  obtain ⟨cursor, opened⟩ := Cursor.exists_ofText fits
  have ran : (Cursor.ofText "é\x00é\x00\x00\x00" >>= Cursor.advance true >>=
      ClosingPair.read ⟨'\x00', '\x00'⟩).toOption.map (fun (_, after) =>
        (after.tokenStart, after.position)) = some (2, 7) := by
    decide +kernel
  rw [opened, ok_bind] at ran
  cases skip : cursor.advance true with
  | error fault =>
    rw [skip] at ran
    cases ran
  | ok skipped =>
    have operated : (Operation.advance true).run cursor = .ok (.done, skipped) := by
      rw [Operation.run, show Host.advance true cursor = _ from skip]
      rfl
    have reachable := Cursor.Reachable.operated (.opened opened) operated
    obtain ⟨rest, passed, after, unread, through, read, position, committed, _, _⟩ :=
      read_first_occurrence reachable ⟨'\x00', '\x00'⟩
    rw [skip, ok_bind, read] at ran
    obtain ⟨token, place⟩ := Prod.mk.inj (Option.some.inj ran)
    exact ⟨cursor, skipped, rest, passed, after, opened, skip, reachable, unread, through, read,
      committed, position, token, place⟩

end ClosingPair

end TemplateScanner
