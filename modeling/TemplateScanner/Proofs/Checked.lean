import Mathlib.Data.List.Forall2
import TemplateScanner.Fault

namespace TemplateScanner

@[simp] theorem ok_bind {ε α β : Type} (a : α) (next : α → Except ε β) :
    (Except.ok a >>= next) = next a := rfl

@[simp] theorem error_bind {ε α β : Type} (fault : ε) (next : α → Except ε β) :
    (Except.error fault >>= next) = .error fault := rfl

theorem bind_eq_ok_iff {ε α β : Type} {step : Except ε α} {next : α → Except ε β} {b : β} :
    step >>= next = .ok b ↔ ∃ a, step = .ok a ∧ next a = .ok b := by
  cases step with
  | error fault => simp
  | ok a => simp

theorem bind_eq_error_iff {ε α β : Type} {step : Except ε α} {next : α → Except ε β} {fault : ε} :
    step >>= next = .error fault ↔
      step = .error fault ∨ ∃ a, step = .ok a ∧ next a = .error fault := by
  cases step with
  | error fault => simp
  | ok a => simp

/-- A list of steps succeeds with a list of values just where each step does with its value. -/
theorem mapM_eq_ok_iff {ε α β : Type} {step : α → Except ε β} {items : List α}
    {results : List β} : items.mapM step = .ok results ↔
      List.Forall₂ (fun a b => step a = .ok b) items results := by
  constructor
  · intro ran
    induction items generalizing results with
    | nil =>
      cases Except.ok.inj ran
      exact .nil
    | cons a items ih =>
      rw [List.mapM_cons] at ran
      obtain ⟨b, first, ran⟩ := bind_eq_ok_iff.mp ran
      obtain ⟨later, rest, ran⟩ := bind_eq_ok_iff.mp ran
      cases Except.ok.inj ran
      exact .cons first (ih rest)
  · intro steps
    induction steps with
    | nil => rfl
    | cons first _ ih =>
      rw [List.mapM_cons, first, ih]
      rfl

/-- A list of steps that all succeed gives the list of their values. -/
theorem mapM_eq_ok {ε α β : Type} {step : α → Except ε β} {value : α → β} {items : List α}
    (steps : ∀ a ∈ items, step a = .ok (value a)) :
    items.mapM step = .ok (items.map value) := by
  rw [mapM_eq_ok_iff, List.forall₂_map_right_iff, List.forall₂_same]
  exact steps

/-- Conversely, if no step can give another value, the list of all values is that of the steps. -/
theorem eq_map_of_mapM_eq_ok {ε α β : Type} {step : α → Except ε β} {value : α → β}
    (values : ∀ a b, step a = .ok b → b = value a) {items : List α} {results : List β}
    (ran : items.mapM step = .ok results) : results = items.map value := by
  induction mapM_eq_ok_iff.mp ran with
  | nil => rfl
  | cons first later ih =>
    rw [List.map_cons, values _ _ first, ih (mapM_eq_ok_iff.mpr later)]

/-- Where the steps succeed, so do the same steps with something made of each item and value. -/
theorem mapM_zip_eq_ok {ε α β γ : Type} {step : α → Except ε β} {items : List α}
    {results : List β} (ran : items.mapM step = .ok results) (combine : α → β → γ) :
    items.mapM (fun a => return combine a (← step a)) =
      .ok ((items.zip results).map fun pair => combine pair.1 pair.2) := by
  induction mapM_eq_ok_iff.mp ran with
  | nil => rfl
  | cons first later ih =>
    rw [List.mapM_cons, first, ih (mapM_eq_ok_iff.mpr later)]
    rfl

/-- A list of steps fails at the first that does. -/
theorem mapM_eq_error_iff {ε α β : Type} {step : α → Except ε β} {items : List α} {fault : ε} :
    items.mapM step = .error fault ↔ ∃ before a after, items = before ++ a :: after ∧
      (∀ b ∈ before, ∃ value, step b = .ok value) ∧ step a = .error fault := by
  induction items with
  | nil =>
    constructor
    · intro ran
      cases ran
    · rintro ⟨before, a, after, split, _⟩
      simp at split
  | cons a items ih =>
    rw [List.mapM_cons]
    cases first : step a with
    | error other =>
      rw [error_bind]
      constructor
      · intro ran
        cases Except.error.inj ran
        exact ⟨[], a, items, rfl, by simp, first⟩
      · rintro ⟨before, b, after, split, fine, failed⟩
        cases before with
        | nil =>
          obtain ⟨rfl, rfl⟩ := List.cons.inj split
          exact congrArg Except.error (Except.error.inj (first.symm.trans failed))
        | cons b before =>
          obtain ⟨rfl, _⟩ := List.cons.inj split
          obtain ⟨value, ran⟩ := fine a List.mem_cons_self
          cases first.symm.trans ran
    | ok value =>
      have later : (Except.ok value >>= fun b => items.mapM step >>= fun rest =>
          Except.ok (b :: rest)) = .error fault ↔ items.mapM step = .error fault := by
        simp [bind_eq_error_iff]
      refine later.trans (ih.trans ?_)
      constructor
      · rintro ⟨before, b, after, rfl, fine, failed⟩
        refine ⟨a :: before, b, after, rfl, ?_, failed⟩
        intro c mem
        rcases List.mem_cons.mp mem with rfl | mem
        · exact ⟨value, first⟩
        · exact fine c mem
      · rintro ⟨before, b, after, split, fine, failed⟩
        cases before with
        | nil =>
          obtain ⟨rfl, _⟩ := List.cons.inj split
          cases first.symm.trans failed
        | cons c before =>
          obtain ⟨rfl, rfl⟩ := List.cons.inj split
          exact ⟨before, b, after, rfl, fun d mem => fine d (List.mem_cons_of_mem _ mem), failed⟩

theorem exists_of_toOption_map {ε α β : Type} {step : Except ε α} {view : α → β} {b : β}
    (seen : step.toOption.map view = some b) : ∃ a, step = .ok a ∧ view a = b := by
  cases step with
  | error fault => cases seen
  | ok a => exact ⟨a, rfl, Option.some.inj seen⟩

theorem checkedAdd_of_lt {limit a b : Nat} (fits : a + b < limit) :
    checkedAdd limit a b = .ok (a + b) :=
  if_pos fits

theorem eq_add_of_checkedAdd {limit a b sum : Nat} (added : checkedAdd limit a b = .ok sum) :
    sum = a + b := by
  unfold checkedAdd at added
  split at added
  next => exact (Except.ok.inj added).symm
  next => cases added

theorem checkedSub_of_le {a b : Nat} (le : b ≤ a) : checkedSub a b = .ok (a - b) :=
  if_pos le

theorem checkedSlice_of_le {bytes : ByteArray} {start stop : Nat} (le : start ≤ stop)
    (inside : stop ≤ bytes.size) : checkedSlice bytes start stop = .ok (bytes.extract start stop) :=
  if_pos ⟨le, inside⟩

end TemplateScanner
