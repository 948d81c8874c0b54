import Mathlib.Data.List.Forall2
import TemplateScanner.Plugin
import TemplateScanner.Proofs.RequestSet
import TemplateScanner.Proofs.Tiling

namespace TemplateScanner

/-- Scans once for each request, in order, and keeps the reader after each scan. -/
def Cursor.nextTurns : List Request → Cursor → Except Fault (List (Option Token × Cursor))
  | [], _ => .ok []
  | request :: requests, cursor => do
    let (token, cursor) ← cursor.nextToken request
    let later ← nextTurns requests cursor
    .ok ((token, cursor) :: later)

namespace Plugin

/-- The marks of a step that scans. -/
def Step.marks? : Step → Option (List Bool)
  | scan marks => some marks
  | _ => none

/-- What a scan came to. -/
def Answer.scanned? : Answer → Option (Option Token × Cursor)
  | scanned token cursor => some (token, cursor)
  | _ => none

/-- The answer to a step that does not scan is told by the step: nothing is ever saved, and nothing
but that can be restored. -/
inductive Step.Answered : Step → Answer → Prop where
  | recreated : Answered .recreate (.recreated create)
  | saved (buffer : ByteArray) : Answered (.save buffer) (.saved 0 buffer)
  | restored : Answered (.restore .empty) .restored
  | notRestored {state : ByteArray} : state ≠ .empty →
    Answered (.restore state) (.notRestored (.unexpectedState state.size))
  | scanned (marks : List Bool) (token : Option Token) (cursor : Cursor) :
    Answered (.scan marks) (.scanned token cursor)

theorem restore_eq_ok_iff {plugin : Plugin} {state : ByteArray} :
    plugin.restore state = .ok plugin ↔ state = .empty := by
  unfold restore
  split
  next empty => simpa using ByteArray.size_eq_zero_iff.mp empty
  next other =>
    simp only [reduceCtorEq, false_iff]
    rintro rfl
    exact other rfl

/-- A step that scans scans for the marked kinds and closes the scan. -/
theorem perform_scan (plugin : Plugin) (marks : List Bool) (cursor : Cursor) :
    plugin.perform (.scan marks) cursor = (do
      let (token, next) ← cursor.nextToken (Request.marked marks)
      .ok (.scanned token next, plugin, next)) := by
  rw [perform, Plugin.scan, TemplateScanner.scan, Cursor.nextToken, Cursor.turn,
    Request.ofMarks_eq_marked]
  cases attempt (Request.marked marks) cursor with
  | error fault => rfl
  | ok tried => rfl

/-- A step that does not scan leaves the reader alone. -/
theorem perform_silent {step : Step} (silent : step.marks? = none) (plugin : Plugin)
    (cursor : Cursor) : ∃ answer after, plugin.perform step cursor = .ok (answer, after, cursor) ∧
      step.Answered answer ∧ answer.scanned? = none := by
  cases step with
  | recreate => exact ⟨_, _, rfl, .recreated, rfl⟩
  | save buffer => exact ⟨_, _, rfl, .saved buffer, rfl⟩
  | restore state =>
    by_cases empty : state = .empty
    · subst empty
      exact ⟨_, _, rfl, .restored, rfl⟩
    · have failed : plugin.restore state = .error (.unexpectedState state.size) :=
        if_neg fun none => empty (ByteArray.size_eq_zero_iff.mp none)
      refine ⟨.notRestored (.unexpectedState state.size), plugin, ?_, .notRestored empty, rfl⟩
      rw [perform, failed]
  | scan marks => cases silent

theorem Step.eq_scan_of_marks? {step : Step} {marks : List Bool}
    (scans : step.marks? = some marks) : step = .scan marks := by
  cases step with
  | scan other =>
    cases Option.some.inj scans
    rfl
  | _ => cases scans

theorem performAll_toCursor {source : Source} {text : List Char} (holds : source.Holds text)
    {index : IndexCursor text} (inside : index.Inside) (plugin : Plugin) (steps : List Step) :
    ∃ answers, performAll steps plugin (index.toCursor source) = .ok answers ∧
      List.Forall₂ Step.Answered steps answers ∧
      (index.toCursor source).nextTurns ((steps.filterMap Step.marks?).map Request.marked) =
        .ok (answers.filterMap Answer.scanned?) := by
  induction steps generalizing index plugin with
  | nil => exact ⟨[], rfl, .nil, rfl⟩
  | cons step steps ih =>
    -- A step that does not scan has no counterpart among the direct scans.
    cases scans : step.marks? with
    | none =>
      obtain ⟨answer, after, performed, answered, silent⟩ :=
        perform_silent scans plugin (index.toCursor source)
      obtain ⟨answers, later, all, turns⟩ := ih inside after
      refine ⟨answer :: answers, ?_, .cons answered all, ?_⟩
      · simp only [performAll, performed, ok_bind, later]
      · rw [List.filterMap_cons_none scans, List.filterMap_cons_none silent]
        exact turns
    | some marks =>
      obtain rfl := Step.eq_scan_of_marks? scans
      obtain ⟨token, next, hn, _, ran⟩ :=
        IndexCursor.nextToken_toCursor holds inside (Request.marked marks)
      obtain ⟨answers, later, all, turns⟩ := ih hn plugin
      refine ⟨.scanned token (next.toCursor source) :: answers, ?_,
        .cons (.scanned marks _ _) all, ?_⟩
      · simp only [performAll, perform_scan, ran, ok_bind, later]
      · rw [List.filterMap_cons_some scans, List.map_cons]
        simp only [Cursor.nextTurns, ran, ok_bind, turns]
        rfl

end Plugin

/-- Whatever a host does with the plugin between its scans, they find what direct scans for the
marked kinds find, and leave the reader where those leave it. -/
theorem Plugin.performAll_eq_nextTurns {text : String} {cursor : Cursor}
    (reachable : Cursor.Reachable text cursor) (plugin : Plugin) (steps : List Step) :
    (∃ answers, performAll steps plugin cursor = .ok answers ∧
      List.Forall₂ Step.Answered steps answers ∧
      cursor.nextTurns ((steps.filterMap Step.marks?).map Request.marked) =
        .ok (answers.filterMap Answer.scanned?)) ∧
    (∀ marks (kind : Kind), (Request.marked marks).asksFor kind = true ↔
      marks[kind.index]? = some true) ∧
    (∀ state, plugin.restore state = .ok plugin ↔ state = .empty) ∧
    (∀ buffer, plugin.restore ((plugin.save buffer).2.extract 0 (plugin.save buffer).1) =
      .ok plugin) ∧
    (∀ marks n, plugin.perform (.scan (marks ++ List.replicate n false)) cursor =
      plugin.perform (.scan marks) cursor) ∧
    ∀ marks more, Kind.all.length ≤ marks.length →
      plugin.perform (.scan (marks ++ more)) cursor = plugin.perform (.scan marks) cursor := by
  obtain ⟨source, index, holds, inside, rfl⟩ := reachable.exists_index
  refine ⟨performAll_toCursor holds inside plugin steps, Request.asksFor_marked,
    fun _ => restore_eq_ok_iff, ?_, ?_, ?_⟩
  · intro buffer
    exact restore_eq_ok_iff.mpr (ByteArray.extract_same (b := buffer) (i := 0))
  · intro marks n
    rw [perform_scan, perform_scan, ← Request.ofMarks_eq_marked,
      Request.ofMarks_append_replicate_false, Request.ofMarks_eq_marked]
  · intro marks more long
    rw [perform_scan, perform_scan, ← Request.ofMarks_eq_marked, Request.ofMarks_append more long,
      Request.ofMarks_eq_marked]

theorem Plugin.performAll_eq_nextTurns_three_symbols : ∃ cursor answers,
    Cursor.ofText "é\x7d\x7d-" = .ok cursor ∧
    performAll [.scan [true, false, false], .restore ⟨#[1, 2]⟩, .recreate, .scan [false]]
      create cursor = .ok answers ∧
    List.Forall₂ Step.Answered
      [.scan [true, false, false], .restore ⟨#[1, 2]⟩, .recreate, .scan [false]] answers ∧
    cursor.nextTurns [Request.marked [true, false, false], Request.marked [false]] =
      .ok (answers.filterMap Answer.scanned?) ∧
    (answers.filterMap Answer.scanned?).map (·.1) = [some ⟨.expression, ⟨0, 4⟩⟩, none] := by
  have fits : "é\x7d\x7d-".utf8ByteSize < offsetLimit := by decide
  obtain ⟨cursor, opened⟩ := Cursor.exists_ofText fits
  obtain ⟨⟨answers, ran, answered, turns⟩, _⟩ := performAll_eq_nextTurns (.opened opened) create
    [.scan [true, false, false], .restore ⟨#[1, 2]⟩, .recreate, .scan [false]]
  have found : (Cursor.ofText "é\x7d\x7d-" >>= (performAll
      [.scan [true, false, false], .restore ⟨#[1, 2]⟩, .recreate, .scan [false]]
        create)).toOption.map (fun answers => (answers.filterMap Answer.scanned?).map (·.1)) =
      some [some ⟨.expression, ⟨0, 4⟩⟩, none] := by
    decide +kernel
  rw [opened, ok_bind, ran] at found
  exact ⟨cursor, answers, opened, ran, answered, turns, Option.some.inj found⟩

end TemplateScanner
