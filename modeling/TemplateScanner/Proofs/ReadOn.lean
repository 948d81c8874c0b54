import TemplateScanner.Proofs.Tiling

namespace TemplateScanner

/-- A scan goes on past some characters: neither of its starts moves, and what is left to be read
is the text after them. -/
structure Cursor.ReadOn (cursor : Cursor) (passed : List Char) (after : Cursor) : Prop where
  source : after.source = cursor.source
  position : after.position = cursor.position + byteLength passed
  scanStart : after.scanStart = cursor.scanStart
  tokenStart : after.tokenStart = cursor.tokenStart
  left : ∃ more, cursor.rest = .ok (String.ofList passed ++ more) ∧ after.rest = .ok more ∧
    (after.atEnd = true ↔ more = "")

theorem Cursor.Reachable.advance {text : String} {cursor next : Cursor} {skip : Bool}
    (reachable : Cursor.Reachable text cursor) (advanced : cursor.advance skip = .ok next) :
    Cursor.Reachable text next := by
  have operated : (Operation.advance skip).run cursor = .ok (.done, next) := by
    rw [Operation.run, show Host.advance skip cursor = _ from advanced]
    rfl
  exact .operated reachable operated

/-- The end of the input is reached where all that was left has been read. -/
theorem Cursor.ReadOn.atEnd_iff {cursor after : Cursor} {passed : List Char} {rest : String}
    (readOn : cursor.ReadOn passed after) (unread : cursor.rest = .ok rest) :
    after.atEnd = true ↔ passed = rest.toList := by
  obtain ⟨more, before, _, ended⟩ := readOn.left
  obtain rfl := Except.ok.inj (unread.symm.trans before)
  rw [ended, String.toList_append, String.toList_ofList, List.self_eq_append_right,
    String.toList_eq_nil_iff]

theorem Cursor.committed_advance {cursor after : Cursor} {skip : Bool}
    (advanced : cursor.advance skip = .ok after) : after.committed = cursor.committed := by
  unfold Cursor.advance at advanced
  split at advanced
  next =>
    cases Except.ok.inj advanced
    rfl
  next =>
    obtain ⟨lead, _, advanced⟩ := bind_eq_ok_iff.mp advanced
    obtain ⟨next, _, advanced⟩ := bind_eq_ok_iff.mp advanced
    cases Except.ok.inj advanced
    rfl

/-- Reading alone ends no token. -/
theorem Cursor.committed_follow {cursor after : Cursor} {events : List Event}
    (reading : ∀ event ∈ events, event = .advance) (followed : follow events cursor = .ok after) :
    after.committed = cursor.committed := by
  induction events generalizing cursor with
  | nil =>
    cases Except.ok.inj followed
    rfl
  | cons event events ih =>
    obtain ⟨next, performed, followed⟩ := bind_eq_ok_iff.mp followed
    rw [ih (fun other mem => reading other (List.mem_cons_of_mem event mem)) followed]
    cases reading event List.mem_cons_self
    exact Cursor.committed_advance performed

/-- From wherever operations lead, an orderly script reads on past some of the characters that are
left, and an accepting one ends the token there. -/
theorem Cursor.Reachable.exists_follow {text : String} {cursor : Cursor}
    (reachable : Cursor.Reachable text cursor) : ∃ rest start, cursor.rest = .ok rest ∧
      cursor.Reads start rest.toList ∧
      ∀ script : Script, script.Orderly rest.toList → ∃ after,
        follow script.events cursor = .ok after ∧
        cursor.ReadOn (rest.toList.take (script.events.count .advance)) after ∧
        (script.accepted = true → after.committed = some after.position) := by
  obtain ⟨source, index, holds, inside, rfl⟩ := reachable.exists_index
  have unread := IndexCursor.rest_toCursor holds inside
  refine ⟨_, (scannable text).toList.drop index.scanStart, unread, ?_, fun script orderly => ?_⟩
  · rw [String.toList_ofList]
    exact index.reads_toCursor holds
  · rw [String.toList_ofList] at orderly ⊢
    obtain ⟨next, followed, reached, hs, ht, hp, hc⟩ :=
      IndexCursor.follow_orderly holds inside orderly
    have left : next.rest = index.rest.drop (script.events.count .advance) := by
      rw [IndexCursor.rest, IndexCursor.rest, hp, List.drop_drop]
    have ended : (next.toCursor source).atEnd = true ↔ String.ofList next.rest = "" := by
      rw [IndexCursor.atEnd_toCursor holds, String.ofList_eq_empty_iff, IndexCursor.rest,
        List.drop_eq_nil_iff]
      exact decide_eq_true_iff
    refine ⟨next.toCursor source, followed, ⟨rfl, ?_, ?_, ?_, ?_⟩, ?_⟩
    · exact (congrArg (offset _) hp).trans (offset_add _ _ _)
    · exact congrArg (offset _) hs
    · exact congrArg (offset _) ht
    · refine ⟨String.ofList next.rest, ?_, IndexCursor.rest_toCursor holds reached, ended⟩
      rw [unread, left, ← String.ofList_append, List.take_append_drop]
    · exact fun accepted => congrArg (Option.map (offset _)) (hc accepted)

/-- From wherever operations lead, a recognizer reads on past some of the characters that are left,
as many as it reads of these alone, and an accepting one ends the token there. -/
theorem Cursor.Reachable.exists_readOn {text : String} {cursor : Cursor}
    (reachable : Cursor.Reachable text cursor) : ∃ rest, cursor.rest = .ok rest ∧
      ∀ kind, ∃ after,
        recognize kind cursor = .ok ((kind.script rest.toList).accepted, after) ∧
        follow (kind.script rest.toList).events cursor = .ok after ∧
        cursor.ReadOn (rest.toList.take (kind.reach rest.toList)) after ∧
        ((kind.script rest.toList).accepted = true → after.committed = some after.position) := by
  obtain ⟨rest, start, unread, reads, follows⟩ := reachable.exists_follow
  refine ⟨rest, unread, fun kind => ?_⟩
  obtain ⟨after, followed, readOn, committed⟩ := follows _ (kind.orderly rest.toList)
  refine ⟨after, ?_, followed, readOn, committed⟩
  rw [recognize_eq Cursor.contract reads, Script.run, followed, ok_bind]

end TemplateScanner
