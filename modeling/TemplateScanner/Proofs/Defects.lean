import TemplateScanner.Proofs.LineOrder
import TemplateScanner.Report

namespace TemplateScanner

/-- Where a defect stands in a text, with the character that it is: U+FEFF at the start, or U+0000
anywhere. -/
inductive Defect.At (text : List Char) : Defect → List Char → Char → List Char → Prop where
  | byteOrderMark {after : List Char} : text = '\ufeff' :: after →
    At text .byteOrderMark [] '\ufeff' after
  | nul {before after : List Char} : text = before ++ '\x00' :: after →
    At text (.nul (byteLength before)) before '\x00' after

/-- The place of what stands behind a text, by the line breaks in the text and the characters since
the last of them. -/
def Location.behind (before : List Char) : Location :=
  ⟨1 + before.count '\n', 1 + (before.rtakeWhile (· ≠ '\n')).length⟩

/-- A defect as it is reported with its place. -/
def Defect.warning (path : String) (defect : Defect) (place : Location) : String :=
  "warning: " ++ path ++ ":" ++ toString place.line ++ ":" ++ toString place.column ++ ": " ++
    defect.description

namespace Defect.At

variable {text before after : List Char} {defect : Defect} {c : Char}

theorem whole (stands : defect.At text before c after) : text = before ++ c :: after := by
  cases stands with
  | byteOrderMark whole => exact whole
  | nul whole => exact whole

theorem offset_eq (stands : defect.At text before c after) : defect.offset = byteLength before := by
  cases stands <;> rfl

theorem length_eq (stands : defect.At text before c after) : defect.length = c.utf8Size := by
  cases stands with
  | byteOrderMark => decide
  | nul => exact (show '\x00'.utf8Size = 1 by decide).symm

end Defect.At

theorem cutAt_of_append (before after : List Char) : CutAt (before ++ after) (byteLength before)
    (before.rdropWhile (· ≠ '\n')) (before.rtakeWhile (· ≠ '\n')) after := by
  refine cutAt_of_chars rfl (Nat.le_refl _) ?_
  intro c _
  exact Nat.lt_add_of_pos_right c.utf8Size_pos

namespace Location

theorem behind_eq (before : List Char) : behind before =
    ⟨(before.rdropWhile (· ≠ '\n')).count '\n' + 1,
      (before.rtakeWhile (· ≠ '\n')).length + 1⟩ := by
  have lines := (cutAt_of_append before []).count_lines
  rw [List.rdropWhile_append_rtakeWhile] at lines
  rw [behind, lines, Nat.add_comm, Nat.add_comm 1]

theorem within_behind (before : List Char) : (behind before).Within (byteLength before) := by
  rw [behind_eq]
  exact (cutAt_of_append before []).within

theorem saturate_behind {before : List Char} (small : byteLength before + 1 < offsetLimit) :
    (behind before).saturate = behind before := by
  obtain ⟨line, column, sum⟩ := within_behind before
  rw [saturate, Nat.min_eq_left (by omega), Nat.min_eq_left (by omega)]

theorem behind_key_lt {text before after before' after' : List Char}
    (whole : text = before ++ after) (whole' : text = before' ++ after')
    (lt : byteLength before < byteLength before') :
    (behind before).key < (behind before').key := by
  have parts := cutAt_of_append before after
  have later := cutAt_of_append before' after'
  rw [← whole] at parts
  rw [← whole'] at later
  rw [behind_eq, behind_eq]
  apply parts.key_lt later _ _ lt <;> rw [List.rdropWhile_append_rtakeWhile]

end Location

theorem takeWhile_lt_eq_filter {items : List Nat} (ascending : items.Pairwise (· < ·))
    (limit : Nat) : items.takeWhile (· < limit) = items.filter (· < limit) := by
  induction ascending with
  | nil => rfl
  | @cons a items first _ ih =>
    by_cases small : a < limit
    · rw [List.takeWhile_cons_of_pos (by simpa using small),
        List.filter_cons_of_pos (by simpa using small), ih]
    · have none : items.filter (· < limit) = [] := by
        apply List.filter_eq_nil_iff.mpr
        intro b mem
        have := first b mem
        simp only [decide_eq_true_eq]
        omega
      rw [List.takeWhile_cons_of_neg (by simpa using small),
        List.filter_cons_of_neg (by simpa using small), none]

namespace Source

variable {text : String} {source : Source}

theorem defects_ofText (made : ofText text = .ok source) : source.defects =
    (if text.toList.head? = some '\ufeff' then [.byteOrderMark] else []) ++
      ((offsetsOfChar '\x00' 0 text.toList).filter (· < offsetLimit)).map Defect.nul := by
  have ascii : '\x00'.utf8Size = 1 := by decide
  have bytes : text.toUTF8 = text.toList.utf8Encode := text.utf8Encode_toList.symm
  have ascending := pairwise_offsetsOfChar '\x00' 0 text.toList
  unfold ofText at made
  obtain ⟨later, _, made⟩ := bind_eq_ok_iff.mp made
  cases Except.ok.inj made
  rw [← takeWhile_lt_eq_filter ascending, ← offsetsOf_utf8Encode ascii, ← bytes]
  rfl

theorem mem_nuls_iff {text : List Char} {offset : Nat} :
    offset ∈ (offsetsOfChar '\x00' 0 text).filter (· < offsetLimit) ↔ offset < offsetLimit ∧
      ∃ before after, text = before ++ '\x00' :: after ∧ byteLength before = offset := by
  rw [List.mem_filter, mem_offsetsOfChar_iff, decide_eq_true_iff, and_comm]
  simp only [Nat.zero_add]

theorem exists_at (made : ofText text = .ok source) {defect : Defect}
    (mem : defect ∈ source.defects) : ∃ before c after, defect.At text.toList before c after ∧
      byteLength before < offsetLimit := by
  rw [defects_ofText made] at mem
  rcases List.mem_append.mp mem with mark | nul
  · split at mark
    next first =>
      obtain ⟨after, whole⟩ := List.head?_eq_some_iff.mp first
      obtain rfl := List.mem_singleton.mp mark
      exact ⟨[], '\ufeff', after, .byteOrderMark whole, by decide⟩
    next => cases mark
  · obtain ⟨offset, found, rfl⟩ := List.mem_map.mp nul
    obtain ⟨small, before, after, whole, rfl⟩ := mem_nuls_iff.mp found
    exact ⟨before, '\x00', after, .nul whole, small⟩

theorem pairwise_defects (made : ofText text = .ok source) :
    (source.defects.map (·.offset)).Pairwise (· < ·) := by
  have offsets : Defect.offset ∘ Defect.nul = id := rfl
  have ascending := (pairwise_offsetsOfChar '\x00' 0 text.toList).filter (· < offsetLimit)
  rw [defects_ofText made, List.map_append, List.map_map, offsets, List.map_id]
  apply List.pairwise_append.mpr
  refine ⟨?_, ascending, ?_⟩
  · split <;> simp
  · intro a mark b nul
    split at mark
    next first =>
      obtain rfl := List.mem_singleton.mp mark
      obtain ⟨after, whole⟩ := List.head?_eq_some_iff.mp first
      obtain ⟨_, before, more, whole', rfl⟩ := mem_nuls_iff.mp nul
      cases before with
      | nil => cases whole.symm.trans whole'
      | cons c before =>
        have size := c.utf8Size_pos
        show 0 < byteLength (c :: before)
        rw [byteLength_cons]
        omega
    next => cases mark

/-- A defect has the place of its character: offsets past the one that the length of a source can
say are not listed. -/
theorem locate_defect (made : ofText text = .ok source) {defect : Defect} {before after : List Char}
    {c : Char} (stands : defect.At text.toList before c after)
    (small : byteLength before < offsetLimit) :
    source.locate defect.offset = .ok (Location.behind before).saturate := by
  have whole := stands.whole
  have size := congrArg byteLength whole
  rw [byteLength_append, byteLength_cons, byteLength_toList] at size
  have pos := c.utf8Size_pos
  have inside : byteLength before ≤ source.length := by
    have bytes : text.toUTF8.size = text.utf8ByteSize := rfl
    have length := (ofText_shape made).2
    omega
  have parts := cutAt_of_append before (c :: after)
  rw [← whole] at parts
  rw [stands.offset_eq, locate_of_valid made parts (isValid_byteLength whole) inside,
    Location.behind_eq]

/-- Warnings name the places of what the defects are. -/
theorem warnings_eq (made : ofText text = .ok source) (path : String) :
    ∃ before : Defect → List Char,
      (∀ defect ∈ source.defects, ∃ c after, defect.At text.toList (before defect) c after) ∧
      warnings path source = .ok (source.defects.map fun defect =>
        defect.warning path (Location.behind (before defect)).saturate) := by
  have each : ∀ defect ∈ source.defects, ∃ before c after,
      defect.At text.toList before c after ∧ byteLength before < offsetLimit :=
    fun _ => exists_at made
  choose! before c after stands small using each
  refine ⟨before, fun defect mem => ⟨c defect, after defect, stands defect mem⟩, ?_⟩
  apply mapM_eq_ok
  intro defect mem
  rw [locate_defect made (stands defect mem) (small defect mem)]
  rfl

theorem length_nuls (fits : text.utf8ByteSize < offsetLimit) :
    ((offsetsOfChar '\x00' 0 text.toList).filter (· < offsetLimit)).length =
      text.toList.count '\x00' := by
  rw [← length_offsetsOfChar '\x00' 0]
  congr 1
  apply List.filter_eq_self.mpr
  intro offset mem
  have bound := (bounds_of_mem_offsetsOfChar mem).2
  rw [byteLength_toList] at bound
  exact decide_eq_true (by omega)

/-- The defects of a text are U+FEFF at its very start and every U+0000 that offsets reach, in the
order of their offsets, and each is reported with the place of its character. -/
theorem warnings_exact (text path : String) :
    (text.utf8ByteSize < offsetLimit → ∃ source, ofText text = .ok source) ∧
    ∀ source, ofText text = .ok source → ∃ (nuls : List Nat) (place : Defect → Location),
      source.defects = (if text.toList.head? = some '\ufeff' then [.byteOrderMark] else []) ++
        nuls.map Defect.nul ∧
      (∀ offset, offset ∈ nuls ↔ offset < offsetLimit ∧
        ∃ before after, text.toList = before ++ '\x00' :: after ∧ byteLength before = offset) ∧
      (source.defects.map (·.offset)).Pairwise (· < ·) ∧
      (∀ defect ∈ source.defects, ∃ before c after, defect.At text.toList before c after ∧
        defect.offset = byteLength before ∧ defect.length = c.utf8Size ∧
        String.Pos.Raw.IsValid text ⟨defect.offset⟩ ∧ place defect = Location.behind before) ∧
      (source.defects.map fun defect => (place defect).key).Pairwise (· < ·) ∧
      warnings path source =
        .ok (source.defects.map fun defect => defect.warning path (place defect).saturate) ∧
      (text.utf8ByteSize < offsetLimit → nuls.length = text.toList.count '\x00' ∧
        ∀ defect ∈ source.defects, (place defect).saturate = place defect) := by
  constructor
  · intro fits
    obtain ⟨cursor, opened⟩ := Cursor.exists_ofText fits
    obtain ⟨source, made, _⟩ := bind_eq_ok_iff.mp opened
    exact ⟨source, made⟩
  · intro source made
    obtain ⟨before, each, reported⟩ := warnings_eq made path
    choose! c after stands using each
    refine ⟨_, fun defect => Location.behind (before defect), defects_ofText made,
      fun _ => mem_nuls_iff, pairwise_defects made, ?_, ?_, reported, ?_⟩
    · intro defect mem
      have here := stands defect mem
      refine ⟨_, _, _, here, here.offset_eq, here.length_eq, ?_, rfl⟩
      rw [here.offset_eq]
      exact isValid_byteLength here.whole
    · apply List.pairwise_map.mpr
      apply (List.pairwise_map.mp (pairwise_defects made)).imp_of_mem
      intro a b first second lt
      have here := stands a first
      have there := stands b second
      rw [here.offset_eq, there.offset_eq] at lt
      exact Location.behind_key_lt here.whole there.whole lt
    · intro fits
      refine ⟨length_nuls fits, ?_⟩
      intro defect mem
      have size := congrArg byteLength (stands defect mem).whole
      rw [byteLength_append, byteLength_cons, byteLength_toList] at size
      have pos := (c defect).utf8Size_pos
      apply Location.saturate_behind
      omega

theorem warnings_exact_mark_inside : ∃ source, ofText "\ufeffé\x00\n\ufeff\x00" = .ok source ∧
    source.defects = [.byteOrderMark, .nul 5, .nul 10] ∧
    (source.defects.map (·.offset)).Pairwise (· < ·) ∧
    warnings "a:b" source = .ok ["warning: a:b:1:1: UTF-8 byte order mark",
      "warning: a:b:1:3: null byte in template content",
      "warning: a:b:2:2: null byte in template content"] := by
  obtain ⟨opens, exact⟩ := warnings_exact "\ufeffé\x00\n\ufeff\x00" "a:b"
  obtain ⟨source, made⟩ := opens (by decide)
  obtain ⟨nuls, place, _, _, ascending, _, _, reported, _⟩ := exact source made
  have found : (ofText "\ufeffé\x00\n\ufeff\x00" >>= fun source =>
      return (source.defects, ← warnings "a:b" source)).toOption =
        some ([.byteOrderMark, .nul 5, .nul 10], ["warning: a:b:1:1: UTF-8 byte order mark",
          "warning: a:b:1:3: null byte in template content",
          "warning: a:b:2:2: null byte in template content"]) := by
    decide +kernel
  rw [made, ok_bind, reported] at found
  obtain ⟨defects, lines⟩ := Prod.mk.inj (Option.some.inj found)
  exact ⟨source, made, defects, ascending, reported.trans (congrArg Except.ok lines)⟩

end Source

end TemplateScanner
