import Mathlib.Data.List.DropRight
import Mathlib.Data.List.Forall2
import Mathlib.Data.Set.List
import TemplateScanner.LabelList
import TemplateScanner.Proofs.Checked
import TemplateScanner.Proofs.RequestSet

namespace TemplateScanner

/-- A text cut at its commas. -/
structure CutAtCommas (text : List Char) (pieces : List (List Char)) : Prop where
  whole : [','].intercalate pieces = text
  uncut : ∀ piece ∈ pieces, ',' ∉ piece
  some_piece : pieces ≠ []

/-- A text with blanks around it, and none at its own ends. -/
structure Padded (padded text : List Char) : Prop where
  around : ∃ left right, padded = left ++ text ++ right ∧
    (∀ c ∈ left, isBlank c = true) ∧ ∀ c ∈ right, isBlank c = true
  first : ∀ c ∈ text.head?, isBlank c = false
  last : ∀ c ∈ text.getLast?, isBlank c = false

/-- A list of labels as it may be written: commas between them, blanks around each, and pieces that
hold no label at all. -/
def Lists (list : String) (labels : List String) : Prop :=
  ∃ pieces texts, CutAtCommas list.toList pieces ∧ List.Forall₂ Padded pieces texts ∧
    labels = (texts.filter (!·.isEmpty)).map String.ofList

theorem segments_eq_splitOn (text : List Char) : segments text = text.splitOn ',' := by
  induction text with
  | nil => rfl
  | cons c text ih =>
    rw [segments, List.splitOn_cons_eq_if_modifyHead, ih]
    by_cases comma : c = ','
    · rw [if_pos comma, if_pos (by simpa using comma)]
    · rw [if_neg comma, if_neg (by simpa using comma)]
      cases pieces : text.splitOn ',' with
      | nil => exact absurd pieces (List.splitOn_ne_nil ',' text)
      | cons piece pieces => rfl

theorem notMem_of_mem_segments {text piece : List Char} (mem : piece ∈ segments text) :
    ',' ∉ piece := by
  induction text generalizing piece with
  | nil =>
    obtain rfl := List.mem_singleton.mp mem
    exact List.not_mem_nil
  | cons c text ih =>
    rw [segments] at mem
    split at mem
    next =>
      rcases List.mem_cons.mp mem with rfl | mem
      · exact List.not_mem_nil
      · exact ih mem
    next other =>
      have unlike : ',' ≠ c := fun same => other same.symm
      split at mem
      next =>
        obtain rfl := List.mem_singleton.mp mem
        simpa using unlike
      next start rest pieces =>
        rw [pieces] at ih
        rcases List.mem_cons.mp mem with rfl | mem
        · simpa [unlike] using ih List.mem_cons_self
        · exact ih (List.mem_cons_of_mem start mem)

theorem cutAtCommas_iff {text : List Char} {pieces : List (List Char)} :
    CutAtCommas text pieces ↔ pieces = segments text := by
  constructor
  · rintro ⟨rfl, uncut, some_piece⟩
    rw [segments_eq_splitOn, List.splitOn_intercalate ',' uncut some_piece]
  · rintro rfl
    refine ⟨?_, fun _ => notMem_of_mem_segments, ?_⟩
    · rw [segments_eq_splitOn, List.intercalate_splitOn]
    · rw [segments_eq_splitOn]
      exact List.splitOn_ne_nil ',' text

theorem dropWhile_isBlank_append {blanks text : List Char}
    (blank : ∀ c ∈ blanks, isBlank c = true) (first : ∀ c ∈ text.head?, isBlank c = false) :
    (blanks ++ text).dropWhile isBlank = text := by
  rw [List.dropWhile_append_of_pos blank]
  cases text with
  | nil => rfl
  | cons c text => exact List.dropWhile_cons_of_neg (by simp [first c rfl])

theorem head?_dropWhile_isBlank (text : List Char) :
    ∀ c ∈ (text.dropWhile isBlank).head?, isBlank c = false := by
  intro c head
  have refused := List.head?_dropWhile_not isBlank text
  rwa [Option.mem_def.mp head] at refused

/-- Trimming is the only way to take the blanks off the ends of a text. -/
theorem padded_iff {padded text : List Char} : Padded padded text ↔ text = trimBlanks padded := by
  constructor
  · rintro ⟨⟨left, right, rfl, blank, blank'⟩, first, last⟩
    rw [trimBlanks, List.append_assoc]
    cases text with
    | nil =>
      have none : (left ++ ([] ++ right)).dropWhile isBlank = [] := by
        refine List.dropWhile_eq_nil_iff.mpr fun c mem => ?_
        exact (List.mem_append.mp mem).elim (blank c) (blank' c)
      rw [none]
      rfl
    | cons c text =>
      have right_first : ∀ d ∈ (c :: text).reverse.head?, isBlank d = false := by
        rw [List.head?_reverse]
        exact last
      have right_blank : ∀ d ∈ right.reverse, isBlank d = true :=
        fun d mem => blank' d (List.mem_reverse.mp mem)
      rw [dropWhile_isBlank_append blank (by simpa using first), List.reverse_append,
        dropWhile_isBlank_append right_blank right_first, List.reverse_reverse]
  · rintro rfl
    have trimmed : trimBlanks padded = (padded.dropWhile isBlank).rdropWhile isBlank := rfl
    have right := List.rdropWhile_append_rtakeWhile (p := isBlank) (l := padded.dropWhile isBlank)
    have first := head?_dropWhile_isBlank padded
    rw [← trimmed] at right
    refine ⟨⟨padded.takeWhile isBlank, (padded.dropWhile isBlank).rtakeWhile isBlank, ?_,
      fun _ => List.mem_takeWhile_imp, fun _ => List.mem_rtakeWhile_imp⟩, ?_, ?_⟩
    · rw [List.append_assoc, right, List.takeWhile_append_dropWhile]
    · intro c head
      refine first c ?_
      rw [← right, List.head?_append_of_ne_nil _ (List.ne_nil_of_mem (List.mem_of_mem_head? head))]
      exact head
    · intro c last
      have some_char := List.ne_nil_of_mem (List.mem_of_getLast? last)
      rw [List.getLast?_eq_some_getLast some_char] at last
      have kept := List.rdropWhile_last_not isBlank (padded.dropWhile isBlank) some_char
      rw [← Option.some.inj last]
      exact Bool.eq_false_of_not_eq_true kept

theorem forall₂_padded_iff {pieces texts : List (List Char)} :
    List.Forall₂ Padded pieces texts ↔ texts = pieces.map trimBlanks := by
  constructor
  · intro padded
    induction padded with
    | nil => rfl
    | cons first _ ih => rw [List.map_cons, ← padded_iff.mp first, ih]
  · rintro rfl
    rw [List.forall₂_map_right_iff, List.forall₂_same]
    exact fun piece _ => padded_iff.mpr rfl

/-- There is one way to read a list of labels. -/
theorem lists_iff {list : String} {names : List String} :
    Lists list names ↔ names = labels list := by
  simp only [Lists, cutAtCommas_iff, forall₂_padded_iff, labels]
  constructor
  · rintro ⟨_, _, rfl, rfl, rfl⟩
    rfl
  · rintro rfl
    exact ⟨_, _, rfl, rfl, rfl⟩

theorem Kind.solid_label (kind : Kind) :
    ∀ c ∈ kind.label.toList, isBlank c = false ∧ c ≠ ',' := by
  have each : kind.label.toList.all (fun c => !isBlank c && c != ',') = true := by
    cases kind <;> decide
  simpa using each

theorem Kind.label_injective : Function.Injective Kind.label := by
  intro kind other label
  have found := Kind.ofLabel?_label kind
  rw [label, Kind.ofLabel?_label] at found
  exact (Option.some.inj found).symm

theorem kindOfLabel_eq_ok_iff {name : String} {kind : Kind} :
    kindOfLabel name = .ok kind ↔ kind.label = name := by
  constructor
  · intro named
    unfold kindOfLabel at named
    split at named
    next found same =>
      obtain rfl := Except.ok.inj named
      simpa using List.find?_some same
    next => cases named
  · rintro rfl
    rw [kindOfLabel, Kind.ofLabel?_label]

theorem kindOfLabel_eq_error_iff {name : String} {error : LabelError} :
    kindOfLabel name = .error error ↔ (∀ kind : Kind, kind.label ≠ name) ∧
      error = .unknown name := by
  constructor
  · intro refused
    refine ⟨?_, ?_⟩
    · intro kind named
      cases (kindOfLabel_eq_ok_iff.mpr named).symm.trans refused
    · unfold kindOfLabel at refused
      split at refused
      next => cases refused
      next => exact (Except.error.inj refused).symm
  · rintro ⟨none, rfl⟩
    cases ran : kindOfLabel name with
    | ok kind => exact absurd (kindOfLabel_eq_ok_iff.mp ran) (none kind)
    | error other =>
      unfold kindOfLabel at ran
      split at ran
      next => cases ran
      next => rw [Except.error.inj ran]

theorem mapM_kindOfLabel_eq_ok_iff {names : List String} {kinds : List Kind} :
    names.mapM kindOfLabel = .ok kinds ↔ names = kinds.map Kind.label := by
  simp only [mapM_eq_ok_iff, kindOfLabel_eq_ok_iff]
  rw [← List.forall₂_eq_eq_eq, List.forall₂_map_right_iff]
  simp only [eq_comm]

namespace Request

variable {list : String}

/-- Adding labels one by one is reading them all and then asking for their kinds. -/
theorem foldlM_addLabel (names : List String) (request : Request) :
    names.foldlM addLabel request = names.mapM kindOfLabel >>= fun kinds =>
      .ok (kinds.foldl (fun request kind => request.union kind.flag) request) := by
  induction names generalizing request with
  | nil => rfl
  | cons name names ih =>
    rw [List.foldlM_cons, List.mapM_cons, addLabel]
    cases kindOfLabel name with
    | error error => rfl
    | ok kind =>
      simp only [ok_bind, ih]
      cases names.mapM kindOfLabel <;> rfl

theorem ofLabels_eq (list : String) :
    ofLabels list = (labels list).mapM kindOfLabel >>= fun kinds =>
      if kinds.isEmpty then .error .empty else .ok (ofKinds kinds) := by
  rw [ofLabels, foldlM_addLabel]
  cases (labels list).mapM kindOfLabel with
  | error error => rfl
  | ok kinds => rw [ok_bind, ok_bind, ok_bind, ← isEmpty_ofKinds, ofKinds]

theorem ofLabels_eq_ok_iff {request : Request} : ofLabels list = .ok request ↔
    ∃ kinds : List Kind, kinds ≠ [] ∧ labels list = kinds.map Kind.label ∧
      request = ofKinds kinds := by
  simp only [ofLabels_eq, bind_eq_ok_iff, mapM_kindOfLabel_eq_ok_iff]
  constructor
  · rintro ⟨kinds, named, made⟩
    split at made
    next => cases made
    next filled => exact ⟨kinds, by simpa using filled, named, (Except.ok.inj made).symm⟩
  · rintro ⟨kinds, filled, named, rfl⟩
    exact ⟨kinds, named, if_neg (by simpa using filled)⟩

theorem ofLabels_eq_unknown_iff {name : String} : ofLabels list = .error (.unknown name) ↔
    ∃ before after, labels list = before ++ name :: after ∧
      (∀ known ∈ before, ∃ kind : Kind, kind.label = known) ∧
      ∀ kind : Kind, kind.label ≠ name := by
  have stops : ofLabels list = .error (.unknown name) ↔
      (labels list).mapM kindOfLabel = .error (.unknown name) := by
    rw [ofLabels_eq, bind_eq_error_iff]
    refine or_iff_left ?_
    rintro ⟨kinds, _, made⟩
    split at made
    next => cases Except.error.inj made
    next => cases made
  simp only [stops, mapM_eq_error_iff, kindOfLabel_eq_ok_iff, kindOfLabel_eq_error_iff,
    LabelError.unknown.injEq]
  constructor
  · rintro ⟨before, _, after, split, known, none, rfl⟩
    exact ⟨before, after, split, known, none⟩
  · rintro ⟨before, after, split, known, none⟩
    exact ⟨before, name, after, split, known, none, rfl⟩

theorem ofLabels_eq_empty_iff : ofLabels list = .error .empty ↔ labels list = [] := by
  rw [ofLabels_eq, bind_eq_error_iff]
  constructor
  · rintro (refused | ⟨kinds, named, made⟩)
    · obtain ⟨_, name, _, _, _, failed⟩ := mapM_eq_error_iff.mp refused
      cases (kindOfLabel_eq_error_iff.mp failed).2
    · split at made
      next none =>
        rw [mapM_kindOfLabel_eq_ok_iff.mp named, List.isEmpty_iff.mp none]
        rfl
      next => cases made
  · intro none
    exact .inr ⟨[], by rw [none]; rfl, rfl⟩

/-- Which labels a list has is all that its request depends on. -/
theorem ofLabels_congr {other : String} (same : ∀ name, name ∈ labels list ↔ name ∈ labels other)
    {request : Request} (made : ofLabels list = .ok request) : ofLabels other = .ok request := by
  obtain ⟨kinds, filled, named, rfl⟩ := ofLabels_eq_ok_iff.mp made
  rw [named] at same
  have known : labels other ∈ Set.range (List.map Kind.label) := by
    rw [Set.range_list_map]
    intro name mem
    obtain ⟨kind, _, label⟩ := List.mem_map.mp ((same name).mpr mem)
    exact ⟨kind, label⟩
  obtain ⟨kinds', named'⟩ := known
  rw [← named'] at same
  have mem_iff : ∀ kind, kind ∈ kinds ↔ kind ∈ kinds' := by
    intro kind
    have both := same kind.label
    rwa [List.mem_map_of_injective Kind.label_injective,
      List.mem_map_of_injective Kind.label_injective] at both
  refine ofLabels_eq_ok_iff.mpr ⟨kinds', ?_, named'.symm, ofKinds_congr mem_iff⟩
  rintro rfl
  obtain ⟨kind, mem⟩ := List.exists_mem_of_ne_nil kinds filled
  exact List.not_mem_nil ((mem_iff kind).mp mem)

/-- A request that is made of labels asks for the kinds that they name. -/
theorem asksFor_of_ofLabels {request : Request} (made : ofLabels list = .ok request)
    (kind : Kind) : request.asksFor kind = true ↔ kind.label ∈ labels list := by
  obtain ⟨kinds, _, named, rfl⟩ := ofLabels_eq_ok_iff.mp made
  rw [asksFor_ofKinds, named, List.mem_map_of_injective Kind.label_injective]

end Request

/-- What stands between two commas of a list of labels: a label or none, and blanks around it. -/
structure LabelPiece where
  left : List Char
  kind : Option Kind
  right : List Char
  blank_left : ∀ c ∈ left, isBlank c = true
  blank_right : ∀ c ∈ right, isBlank c = true

namespace LabelPiece

/-- The label without the blanks. -/
def name (piece : LabelPiece) : List Char :=
  piece.kind.elim [] (·.label.toList)

def text (piece : LabelPiece) : List Char :=
  piece.left ++ piece.name ++ piece.right

/-- A list of labels from its pieces. -/
def write (pieces : List LabelPiece) : String :=
  String.ofList ([','].intercalate (pieces.map text))

theorem solid_name (piece : LabelPiece) : ∀ c ∈ piece.name, isBlank c = false ∧ c ≠ ',' := by
  unfold name
  cases piece.kind with
  | none => simp
  | some kind => exact kind.solid_label

theorem padded (piece : LabelPiece) : Padded piece.text piece.name := by
  refine ⟨⟨_, _, rfl, piece.blank_left, piece.blank_right⟩, ?_, ?_⟩
  · intro c first
    exact (piece.solid_name c (List.mem_of_mem_head? first)).1
  · intro c last
    exact (piece.solid_name c (List.mem_of_getLast? last)).1

theorem comma_notMem_text (piece : LabelPiece) : ',' ∉ piece.text := by
  have solid : isBlank ',' = false := by decide
  have plain : ',' ∉ piece.name := fun mem => (piece.solid_name ',' mem).2 rfl
  have blanks : ∀ {pad : List Char}, (∀ c ∈ pad, isBlank c = true) → ',' ∉ pad := by
    intro pad blank mem
    cases solid.symm.trans (blank ',' mem)
  simp [text, plain, blanks piece.blank_left, blanks piece.blank_right]

theorem names_filter (pieces : List LabelPiece) :
    ((pieces.map name).filter (!·.isEmpty)).map String.ofList =
      (pieces.filterMap (·.kind)).map Kind.label := by
  induction pieces with
  | nil => rfl
  | cons piece pieces ih =>
    rw [List.map_cons, List.filter_cons]
    cases named : piece.kind with
    | none =>
      rw [List.filterMap_cons_none named, ← ih]
      simp [name, named]
    | some kind =>
      have filled : (!(kind.label.toList).isEmpty) = true := by cases kind <;> decide
      rw [List.filterMap_cons_some named, List.map_cons, ← ih]
      simp only [name, named, Option.elim_some, filled, if_true, List.map_cons,
        String.ofList_toList]

theorem labels_write (pieces : List LabelPiece) :
    labels (write pieces) = (pieces.filterMap (·.kind)).map Kind.label := by
  cases pieces with
  | nil => rfl
  | cons piece pieces =>
    refine (lists_iff.mp ⟨(piece :: pieces).map text, (piece :: pieces).map name, ⟨?_, ?_, ?_⟩, ?_,
      (names_filter _).symm⟩).symm
    · rw [write, String.toList_ofList]
    · intro segment mem
      obtain ⟨other, _, rfl⟩ := List.mem_map.mp mem
      exact other.comma_notMem_text
    · exact List.cons_ne_nil _ _
    · rw [List.forall₂_map_left_iff, List.forall₂_map_right_iff, List.forall₂_same]
      exact fun other _ => other.padded

end LabelPiece

/-- A list of labels is read in one way, and its labels decide what it asks for: the leftmost one
that names no kind is reported, a list without labels is reported as empty, and any other asks for
the kinds that it names, whatever their order is and however often each of them stands there. Blanks
around the labels and pieces that hold blanks alone make no difference. -/
theorem Request.ofLabels_exact (list : String) : ∃ names,
    (∀ others, Lists list others ↔ others = names) ∧
    (∀ name, ofLabels list = .error (.unknown name) ↔
      ∃ before after, names = before ++ name :: after ∧
        (∀ known ∈ before, ∃ kind : Kind, kind.label = known) ∧
        ∀ kind : Kind, kind.label ≠ name) ∧
    ((∃ name, ofLabels list = .error (.unknown name)) ↔
      ∃ name ∈ names, ∀ kind : Kind, kind.label ≠ name) ∧
    (ofLabels list = .error .empty ↔ names = []) ∧
    (∀ request, ofLabels list = .ok request ↔ ∃ kinds : List Kind, kinds ≠ [] ∧
      names = kinds.map Kind.label ∧ request = ofKinds kinds) ∧
    (∀ request, ofLabels list = .ok request →
      ∀ kind : Kind, request.asksFor kind = true ↔ kind.label ∈ names) ∧
    (∀ other names', Lists other names' → (∀ name, name ∈ names ↔ name ∈ names') →
      ∀ request, ofLabels list = .ok request → ofLabels other = .ok request) ∧
    ∀ pieces : List LabelPiece, LabelPiece.write pieces = list →
      pieces.filterMap (·.kind) ≠ [] →
      ofLabels list = .ok (ofKinds (pieces.filterMap (·.kind))) := by
  refine ⟨labels list, fun _ => lists_iff, fun _ => ofLabels_eq_unknown_iff, ?_,
    ofLabels_eq_empty_iff, fun _ => ofLabels_eq_ok_iff, fun _ => asksFor_of_ofLabels, ?_, ?_⟩
  · constructor
    · rintro ⟨name, refused⟩
      obtain ⟨before, after, split, _, none⟩ := ofLabels_eq_unknown_iff.mp refused
      exact ⟨name, by rw [split]; simp, none⟩
    · rintro ⟨name, mem, none⟩
      cases read : ofLabels list with
      | ok request =>
        obtain ⟨kinds, _, named, _⟩ := ofLabels_eq_ok_iff.mp read
        rw [named] at mem
        obtain ⟨kind, _, label⟩ := List.mem_map.mp mem
        exact absurd label (none kind)
      | error error =>
        cases error with
        | unknown first => exact ⟨first, rfl⟩
        | empty =>
          rw [ofLabels_eq_empty_iff.mp read] at mem
          exact absurd mem List.not_mem_nil
  · intro other names' lists same request
    rw [lists_iff.mp lists] at same
    exact ofLabels_congr same
  · rintro pieces rfl some_kind
    exact ofLabels_eq_ok_iff.mpr ⟨_, some_kind, LabelPiece.labels_write pieces, rfl⟩

theorem Request.ofLabels_exact_repeated : ∃ padded : List LabelPiece,
    LabelPiece.write padded = "\u2003content,\x0b, statement,content" ∧
    ofLabels "\u2003content,\x0b, statement,content" = .ok ⟨0x12#8⟩ ∧
    (∀ kind : Kind, (Request.mk 0x12#8).asksFor kind = true ↔
      kind.label ∈ ["content", "statement", "content"]) ∧
    ofLabels "statement,content" = .ok ⟨0x12#8⟩ ∧
    Lists "content, tag ,x" ["content", "tag", "x"] ∧
    ofLabels "content, tag ,x" = .error (.unknown "tag") ∧ ofLabels " , " = .error .empty := by
  have written : LabelPiece.write
      [⟨['\u2003'], some .content, [], List.all_eq_true.mp (by decide), by simp⟩,
        ⟨[], none, ['\x0b'], by simp, List.all_eq_true.mp (by decide)⟩,
        ⟨[' '], some .statement, [], List.all_eq_true.mp (by decide), by simp⟩,
        ⟨[], some .content, [], by simp, by simp⟩] =
        "\u2003content,\x0b, statement,content" := by
    decide +kernel
  obtain ⟨names, unique, _, _, _, _, asks, same, reads⟩ :=
    ofLabels_exact "\u2003content,\x0b, statement,content"
  obtain ⟨names', unique', _⟩ := ofLabels_exact "statement,content"
  obtain ⟨unknowns, once, unknown, _⟩ := ofLabels_exact "content, tag ,x"
  obtain ⟨none, blank, _, _, empty, _⟩ := ofLabels_exact " , "
  have bits : ofKinds [.content, .statement, .content] = ⟨0x12#8⟩ := by decide
  have asked := (reads _ written (by decide)).trans (congrArg Except.ok bits)
  have listed : ["content", "statement", "content"] = names :=
    (unique _).mp (lists_iff.mpr (by decide +kernel))
  have listed' : ["statement", "content"] = names' :=
    (unique' _).mp (lists_iff.mpr (by decide +kernel))
  have read : Lists "content, tag ,x" ["content", "tag", "x"] := lists_iff.mpr (by decide +kernel)
  have nothing : [] = none := (blank _).mp (lists_iff.mpr (by decide +kernel))
  subst listed
  refine ⟨_, written, asked, asks _ asked, ?_, read, ?_, empty.mpr nothing.symm⟩
  · refine same _ _ ((unique' _).mpr listed') ?_ _ asked
    simp [or_comm]
  · refine (unknown "tag").mpr ⟨["content"], ["x"], ((once _).mp read).symm, ?_, ?_⟩
    · simpa using ⟨Kind.content, rfl⟩
    · intro kind
      cases kind <;> decide

end TemplateScanner
