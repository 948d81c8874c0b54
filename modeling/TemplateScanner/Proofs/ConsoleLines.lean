import TemplateScanner.Proofs.LogLines
import TemplateScanner.Proofs.ReportLines

namespace TemplateScanner

/-- A text without codes for colours. -/
def Colourless (text : String) : Prop :=
  '\x1b' ∉ text.toList

instance (text : String) : Decidable (Colourless text) :=
  inferInstanceAs (Decidable (¬_))

theorem Colourless.append {first second : String} (left : Colourless first)
    (right : Colourless second) : Colourless (first ++ second) := by
  rw [Colourless, String.toList_append]
  exact List.not_mem_append left right

theorem uncolour_of_notMem {line : List Char} (colourless : '\x1b' ∉ line) :
    uncolour false line = line := by
  induction line with
  | nil => rfl
  | cons c line ih =>
    obtain ⟨other, colourless⟩ := not_or.mp (mt List.mem_cons.mpr colourless)
    rw [uncolour, if_neg (Ne.symm other), ih colourless]

theorem colourless_intercalate {separator : String} (between : Colourless separator)
    {parts : List String} (each : ∀ part ∈ parts, Colourless part) :
    Colourless (separator.intercalate parts) := by
  induction parts with
  | nil =>
    rw [String.intercalate_nil]
    decide
  | cons part parts ih =>
    obtain ⟨first, each⟩ := List.forall_mem_cons.mp each
    cases parts with
    | nil => rwa [String.intercalate_singleton]
    | cons next parts =>
      rw [String.intercalate_cons_cons]
      exact (first.append between).append (ih each)

theorem colourless_join {parts : List String} (each : ∀ part ∈ parts, Colourless part) :
    Colourless (String.join parts) := by
  rw [Colourless, String.toList_join, List.mem_flatMap]
  rintro ⟨part, mem, escape⟩
  exact each part mem escape

theorem Request.colourless_describe (request : Request) : Colourless request.describe := by
  have digits : ∀ n, Colourless (String.ofList (Nat.toDigits 16 n)) := by
    intro n mem
    rw [String.toList_ofList] at mem
    obtain ⟨digit, small, same⟩ := exists_digit_of_mem_toDigits mem
    have no_digit : ∀ digit < 16, '\x1b' ≠ Nat.digitChar digit := by decide
    exact no_digit digit small same
  have parts : ∀ part ∈ request.parts, Colourless part := by
    intro part mem
    rw [Request.parts, List.mem_append] at mem
    rcases mem with named | rest
    · obtain ⟨kind, _, rfl⟩ := List.mem_map.mp named
      cases kind <;> decide
    · split at rest
      next => cases rest
      next =>
        obtain rfl := List.mem_singleton.mp rest
        exact .append (by decide) (digits _)
  exact .append (.append (by decide) (colourless_intercalate (by decide) parts)) (by decide)

theorem Record.colourless_fields (record : Record) :
    ∀ field ∈ record.fields, Colourless field.1 ∧ Colourless field.2 := by
  have kinds : ∀ kind : Kind, Colourless "kind" ∧ Colourless kind.symbol := by
    intro kind
    cases kind <;> decide
  cases record with
  | scanning path length request =>
    have quoted : Colourless (quote isHidden path) :=
      control_notMem_quote (by decide) (by decide +kernel) path
    have number : Colourless (toString length) := by
      intro mem
      rw [Nat.toString_eq_ofList_toDigits, String.toList_ofList] at mem
      cases isDigit_of_mem_digits '\x1b' mem
    have names : Colourless "path" ∧ Colourless "len" ∧ Colourless "requested" := by decide
    simp only [fields, List.forall_mem_cons]
    exact ⟨⟨names.1, quoted⟩, ⟨names.2.1, number⟩, ⟨names.2.2, request.colourless_describe⟩,
      List.forall_mem_nil _⟩
  | attempt kind => exact List.forall_mem_singleton.mpr (kinds kind)
  | accept kind => exact List.forall_mem_singleton.mpr (kinds kind)
  | reject kind => exact List.forall_mem_singleton.mpr (kinds kind)

theorem Record.colourless_text (record : Record) : Colourless record.text := by
  have parts : Colourless record.level.name ∧ Colourless record.target ∧
      Colourless record.message := by
    cases record <;> simp only [level, target, message] <;> decide
  obtain ⟨level, target, message⟩ := parts
  have opening := ((level.append (by decide : Colourless " ")).append target).append
    (by decide : Colourless ": ")
  refine (opening.append message).append (colourless_join ?_)
  rw [List.forall_mem_map]
  rintro ⟨name, value⟩ mem
  obtain ⟨first, second⟩ := record.colourless_fields _ mem
  exact .append (.append (.append (by decide) first) (by decide)) second

theorem Threshold.ofName?_name (threshold : Threshold) : ofName? threshold.name = threshold := by
  cases threshold <;> decide

/-- The console's lines and settings are as they are known to be, if the clock tells a time. -/
theorem Subscriber.console_documented {clock : Nat → String}
    (time : ∀ place, IsTime (clock place).toList) (plain : ∀ place, Colourless (clock place)) :
    (console clock).Documented where
  threshold threshold level target := by
    have before : threshold.name.toList.takeWhile (· ≠ '=') = threshold.name.toList := by
      cases threshold <;> decide
    simp only [console, before, List.drop_length, threshold.ofName?_name]
  scope scope threshold level target _ word := by
    have other : ∀ c ∈ scope.toList, decide (c ≠ '=') = true := by
      intro c mem
      refine decide_eq_true ?_
      rintro rfl
      exact absurd (List.all_eq_true.mp word '=' mem) (by decide)
    have whole : (scope ++ "=" ++ threshold.name).toList =
        scope.toList ++ '=' :: threshold.name.toList := by
      rw [String.toList_append, String.toList_append, List.append_assoc]
      rfl
    have before : (scope.toList ++ '=' :: threshold.name.toList).takeWhile (· ≠ '=') =
        scope.toList := by
      rw [List.takeWhile_append_of_pos other, List.takeWhile_cons_of_neg (by decide),
        List.append_nil]
    simp only [console, whole, before, List.drop_left, String.ofList_toList,
      threshold.ofName?_name, Option.any_some]
  line place record := by
    have colourless : Colourless (clock place ++ " " ++ record.text) :=
      ((plain place).append (by decide)).append record.colourless_text
    refine ⟨(clock place).toList, time place, ?_⟩
    rw [console, uncolour_of_notMem colourless, String.toList_append, String.toList_append,
      List.append_assoc]
    rfl

end TemplateScanner
