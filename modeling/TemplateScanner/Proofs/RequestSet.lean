import TemplateScanner.Request

namespace TemplateScanner

theorem Kind.asksFor_flag (asked kind : Kind) : asked.flag.asksFor kind = (asked == kind) := by
  cases asked <;> cases kind <;> decide

namespace Request

theorem asksFor_empty (kind : Kind) : empty.asksFor kind = false := by
  cases kind <;> decide

theorem asksFor_union (r s : Request) (kind : Kind) :
    (r.union s).asksFor kind = (r.asksFor kind || s.asksFor kind) := by
  simp only [asksFor_eq_getLsbD, union, BitVec.getLsbD_or]

theorem asksFor_foldl_union (kinds : List Kind) (r : Request) (kind : Kind) :
    (kinds.foldl (fun r kind => r.union kind.flag) r).asksFor kind =
      (r.asksFor kind || kinds.contains kind) := by
  induction kinds generalizing r with
  | nil => simp
  | cons asked kinds ih =>
    rw [List.foldl_cons, ih, asksFor_union, Kind.asksFor_flag, List.contains_cons, Bool.or_assoc,
      Bool.beq_comm (a := asked)]

/-- The request for a list of kinds asks for these and no others. -/
theorem asksFor_ofKinds (kinds : List Kind) (kind : Kind) :
    (ofKinds kinds).asksFor kind = true ↔ kind ∈ kinds := by
  rw [ofKinds, asksFor_foldl_union, asksFor_empty, Bool.false_or, List.contains_iff_mem]

/-- Only the request for no kinds is empty. -/
theorem isEmpty_ofKinds (kinds : List Kind) : (ofKinds kinds).isEmpty = kinds.isEmpty := by
  cases kinds with
  | nil => rfl
  | cons kind kinds =>
    have asks := (asksFor_ofKinds (kind :: kinds) kind).mpr List.mem_cons_self
    have other : ofKinds (kind :: kinds) ≠ empty := by
      intro none
      rw [none, asksFor_empty] at asks
      cases asks
    simpa [isEmpty] using other

theorem getLsbD_foldl_union (kinds : List Kind) (r : Request) (i : Nat) :
    (kinds.foldl (fun r kind => r.union kind.flag) r).bits.getLsbD i =
      (r.bits.getLsbD i || kinds.any (·.flag.bits.getLsbD i)) := by
  induction kinds generalizing r with
  | nil => simp
  | cons kind kinds ih =>
    rw [List.foldl_cons, ih, union, BitVec.getLsbD_or, List.any_cons, Bool.or_assoc]

/-- The request for a list of kinds depends neither on their order nor on repetitions. -/
theorem ofKinds_congr {kinds kinds' : List Kind} (same : ∀ kind, kind ∈ kinds ↔ kind ∈ kinds') :
    ofKinds kinds = ofKinds kinds' := by
  have bits : (ofKinds kinds).bits = (ofKinds kinds').bits := by
    apply BitVec.eq_of_getLsbD_eq
    intro i _
    rw [ofKinds, ofKinds, getLsbD_foldl_union, getLsbD_foldl_union]
    congr 1
    rw [Bool.eq_iff_iff, List.any_eq_true, List.any_eq_true]
    exact exists_congr fun kind => and_congr_left' (same kind)
  exact congrArg Request.mk bits

/-- The request for the kinds whose index has a mark that is set. -/
def marked (marks : List Bool) : Request :=
  ofKinds (Kind.all.filter fun kind => marks[kind.index]? == some true)

theorem asksFor_marked (marks : List Bool) (kind : Kind) :
    (marked marks).asksFor kind = true ↔ marks[kind.index]? = some true := by
  have mem : kind ∈ Kind.all := by cases kind <;> decide
  rw [marked, asksFor_ofKinds, List.mem_filter, beq_iff_eq]
  exact and_iff_right mem

theorem marked_congr {marks marks' : List Bool}
    (same : ∀ kind : Kind, marks[kind.index]? = some true ↔ marks'[kind.index]? = some true) :
    marked marks = marked marks' := by
  have alike : (fun kind : Kind => marks[kind.index]? == some true) =
      fun kind => marks'[kind.index]? == some true := by
    funext kind
    rw [Bool.eq_iff_iff, beq_iff_eq, beq_iff_eq]
    exact same kind
  rw [marked, marked, alike]

/-- Items paired with marks as far as both go, and kept where the mark is set, are the items that
have a set mark at their place. -/
theorem filter_zip_marks {α : Type} (items : List α) (marks : List Bool) :
    ((items.zip marks).filter (·.2)).map (·.1) =
      (items.zipIdx.filter fun item => marks[item.2]? == some true).map (·.1) := by
  induction items generalizing marks with
  | nil => rfl
  | cons item items ih =>
    cases marks with
    | nil => simp
    | cons mark marks =>
      rw [List.zipIdx_cons', List.filter_cons, List.filter_map, List.zip_cons_cons,
        List.filter_cons]
      have later := ih marks
      cases mark with
      | true => simpa [Function.comp_def] using later
      | false => simpa [Function.comp_def] using later

/-- The marks of a host stand in the order of the grammar. -/
theorem ofMarks_eq_marked (marks : List Bool) : ofMarks marks = marked marks := by
  have places : Kind.all.zipIdx = Kind.all.map fun kind => (kind, kind.index) := rfl
  rw [ofMarks, filter_zip_marks, places, List.filter_map, List.map_map, marked]
  exact congrArg ofKinds (List.map_id _)

/-- A missing mark is one that is not set. -/
theorem ofMarks_append_replicate_false (marks : List Bool) (n : Nat) :
    ofMarks (marks ++ List.replicate n false) = ofMarks marks := by
  rw [ofMarks_eq_marked, ofMarks_eq_marked]
  refine marked_congr fun kind => ?_
  rcases Nat.lt_or_ge kind.index marks.length with inside | past
  · rw [List.getElem?_append_left inside]
  · rw [List.getElem?_append_right past, List.getElem?_replicate, List.getElem?_eq_none past]
    simp

/-- No mark beyond the last kind is looked at. -/
theorem ofMarks_append {marks : List Bool} (more : List Bool)
    (long : Kind.all.length ≤ marks.length) : ofMarks (marks ++ more) = ofMarks marks := by
  rw [ofMarks_eq_marked, ofMarks_eq_marked]
  refine marked_congr fun kind => ?_
  have inside : kind.index < Kind.all.length := by cases kind <;> decide
  rw [List.getElem?_append_left (Nat.lt_of_lt_of_le inside long)]

end Request

end TemplateScanner
