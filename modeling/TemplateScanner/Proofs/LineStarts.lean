import Mathlib.Data.List.TakeWhile
import TemplateScanner.Location
import TemplateScanner.Proofs.Scannable

namespace TemplateScanner

theorem offsetsOf_sublist (byte : UInt8) (bytes : ByteArray) :
    (offsetsOf byte bytes).Sublist (List.range bytes.size) := by
  have places : bytes.data.toList.zipIdx.map (·.2) = List.range bytes.size := by
    rw [List.zipIdx_map_snd, ← List.range_eq_range']
    rfl
  rw [← places]
  exact (List.takeWhile_sublist _).trans (List.filter_sublist.map _)

/-- The first line starts at the start of the text, each later one after the one before it, and
each has a byte of its own before it. -/
structure Source.Lined (source : Source) : Prop where
  first : source.lineStarts.head? = some 0
  ascending : source.lineStarts.Pairwise (· < ·)
  few : source.lineStarts.length ≤ source.buffer.size

theorem Source.lineStarts_ofText {text : String} {source : Source}
    (made : Source.ofText text = .ok source) :
    source.lineStarts = 0 :: (offsetsOf '\n'.toUInt8 text.toUTF8).map (· + 1) := by
  unfold Source.ofText at made
  obtain ⟨later, stepped, made⟩ := bind_eq_ok_iff.mp made
  cases Except.ok.inj made
  have values := eq_map_of_mapM_eq_ok (fun _ _ => eq_add_of_checkedAdd) stepped
  rw [values]

theorem Source.lined_ofText {text : String} {source : Source}
    (made : Source.ofText text = .ok source) : source.Lined := by
  have starts := Source.lineStarts_ofText made
  have part := offsetsOf_sublist '\n'.toUInt8 text.toUTF8
  refine ⟨?_, ?_, ?_⟩
  · rw [starts]
    rfl
  · rw [starts, List.pairwise_cons, List.pairwise_map]
    refine ⟨?_, (List.pairwise_lt_range.sublist part).imp Nat.succ_lt_succ⟩
    intro start mem
    obtain ⟨offset, _, rfl⟩ := List.mem_map.mp mem
    exact Nat.succ_pos offset
  · have few := part.length_le
    rw [List.length_range] at few
    rw [starts, (Source.ofText_shape made).1, List.length_cons, List.length_map,
      ByteArray.size_push]
    omega

/-- The line of an offset is the last one that starts no later. -/
theorem Source.Lined.exists_line {source : Source} (lined : source.Lined) (offset : Nat) :
    ∃ index start, (source.lineStarts.takeWhile (· ≤ offset)).length = index + 1 ∧
      source.lineStarts[index]? = some start ∧ start ≤ offset := by
  obtain ⟨later, starts⟩ := List.head?_eq_some_iff.mp lined.first
  have before := List.takeWhile_prefix (fun start => decide (start ≤ offset))
    (l := source.lineStarts)
  have some_line : 0 < (source.lineStarts.takeWhile (· ≤ offset)).length := by
    rw [starts, List.takeWhile_cons_of_pos (by simp)]
    exact Nat.succ_pos _
  obtain ⟨index, length⟩ := Nat.exists_eq_succ_of_ne_zero (Nat.ne_of_gt some_line)
  have inside : index < (source.lineStarts.takeWhile (· ≤ offset)).length := by omega
  have reaches := List.mem_takeWhile_imp (List.getElem_mem inside)
  refine ⟨index, (source.lineStarts.takeWhile (· ≤ offset))[index], length, ?_,
    of_decide_eq_true reaches⟩
  rw [before.getElem inside]
  exact List.getElem?_eq_getElem _

/-- The columns that some bytes of a line take up: one for each character, or one for each byte if
they are not the bytes of a text. -/
def columns (bytes : ByteArray) : Nat :=
  match String.fromUTF8? bytes with
  | some text => text.length
  | none => bytes.size

theorem columns_le_size (bytes : ByteArray) : columns bytes ≤ bytes.size := by
  unfold columns String.fromUTF8?
  split
  next text read =>
    split at read
    next valid =>
      cases Option.some.inj read
      have few := length_le_byteLength (String.fromUTF8 bytes valid).toList
      rwa [← size_utf8Encode, String.utf8Encode_toList, String.length_toList] at few
    next => cases read
  next => exact Nat.le_refl _

/-- The place of an offset by the line that it stands on. -/
theorem Source.locate_of_line {source : Source} {offset index start : Nat}
    (length : (source.lineStarts.takeWhile (· ≤ min offset source.length)).length = index + 1)
    (found : source.lineStarts[index]? = some start) (le : start ≤ min offset source.length)
    (inside : source.length ≤ source.buffer.size) (small : source.length + 1 < indexLimit)
    (few : index + 1 < indexLimit) : source.locate offset = .ok
      { line := min (index + 1) (offsetLimit - 1)
        column := min (columns (source.buffer.extract start (min offset source.length)) + 1)
          (offsetLimit - 1) } := by
  have stop : min offset source.length ≤ source.buffer.size :=
    Nat.le_trans (Nat.min_le_right _ _) inside
  have width := columns_le_size (source.buffer.extract start (min offset source.length))
  rw [ByteArray.size_extract] at width
  have line : checkedAdd indexLimit index 1 = .ok (index + 1) := checkedAdd_of_lt few
  have column : checkedAdd indexLimit
      (columns (source.buffer.extract start (min offset source.length))) 1 = .ok (_ + 1) :=
    checkedAdd_of_lt (by omega)
  rw [Source.locate, length, checkedSub_of_le (Nat.le_add_left 1 index), ok_bind,
    Nat.add_sub_cancel, found]
  simp only [checkedSlice_of_le le stop, ok_bind, line]
  exact congrArg (· >>= _) column

/-- Every offset has a place, also one that cuts a character or lies past the end. -/
theorem Source.Lined.locate_eq {source : Source} (lined : source.Lined)
    (inside : source.length ≤ source.buffer.size) (small : source.buffer.size + 1 < indexLimit)
    (offset : Nat) : ∃ index start,
      (source.lineStarts.takeWhile (· ≤ min offset source.length)).length = index + 1 ∧
      source.lineStarts[index]? = some start ∧ start ≤ min offset source.length ∧
      source.locate offset = .ok
        { line := min (index + 1) (offsetLimit - 1)
          column := min (columns (source.buffer.extract start (min offset source.length)) + 1)
            (offsetLimit - 1) } := by
  obtain ⟨index, start, length, found, le⟩ := lined.exists_line (min offset source.length)
  have few := (List.takeWhile_sublist (fun start => decide (start ≤ min offset source.length))
    (l := source.lineStarts)).length_le
  have lines := lined.few
  exact ⟨index, start, length, found, le,
    Source.locate_of_line length found le inside (by omega) (by omega)⟩

end TemplateScanner
