import Mathlib.Data.List.Forall2

/-! Steps that may fail. One after the other they give a result if each of them does. Over the items of a list they do
if there is one for every item, and then results and items belong together one by one. -/

namespace TableModels

variable {ε α β γ : Type}

theorem bind_ok {first : Except ε α} {next : α → Except ε β} {result : β} :
    (first >>= next) = .ok result ↔ ∃ value, first = .ok value ∧ next value = .ok result := by
  cases first <;> simp [bind, Except.bind]

theorem map_ok {step : Except ε α} {kept : α → β} {result : β} :
    step.map kept = .ok result ↔ ∃ value, step = .ok value ∧ kept value = result := by
  cases step <;> simp [Except.map]

theorem mapError_ok {step : Except ε α} {fault : ε → γ} {result : α} :
    step.mapError fault = .ok result ↔ step = .ok result := by
  cases step <;> simp [Except.mapError]

section Together

variable {Related : α → β → Prop} {items : List α} {results : List β}

theorem exists_of_mem (each : List.Forall₂ Related items results) {item : α} (member : item ∈ items) :
    ∃ result ∈ results, Related item result := by
  induction each with
  | nil => cases member
  | cons first _ ih =>
    rcases List.mem_cons.mp member with rfl | inside
    · exact ⟨_, List.mem_cons_self, first⟩
    · obtain ⟨result, known, related⟩ := ih inside
      exact ⟨result, List.mem_cons_of_mem _ known, related⟩

/-- What is kept of every item is the same all along. -/
theorem map_eq_of_each {kept : β → γ} {given : α → γ} (each : List.Forall₂ Related items results)
    (same : ∀ {item result}, Related item result → kept result = given item) : results.map kept = items.map given := by
  induction each with
  | nil => rfl
  | cons first _ ih => rw [List.map_cons, List.map_cons, same first, ih]

end Together

section Each

variable {step : α → Except ε β} {items : List α}

theorem mapM_ok_iff {results : List β} :
    items.mapM step = .ok results ↔ List.Forall₂ (fun item result => step item = .ok result) items results := by
  induction items generalizing results with
  | nil => simp [pure, Except.pure, eq_comm]
  | cons item rest ih =>
    simp only [List.mapM_cons, bind_ok, ih, List.forall₂_cons_left_iff]
    simp [pure, Except.pure, eq_comm]

theorem mapM_ends_iff :
    (∃ results, items.mapM step = .ok results) ↔ ∀ item ∈ items, ∃ result, step item = .ok result := by
  constructor
  · rintro ⟨results, ends⟩ item member
    obtain ⟨result, _, done⟩ := exists_of_mem (mapM_ok_iff.mp ends) member
    exact ⟨result, done⟩
  · intro each
    induction items with
    | nil => exact ⟨[], rfl⟩
    | cons item rest ih =>
      obtain ⟨⟨result, first⟩, others⟩ := List.forall_mem_cons.mp each
      obtain ⟨results, later⟩ := ih others
      exact ⟨result :: results, mapM_ok_iff.mpr (.cons first (mapM_ok_iff.mp later))⟩

theorem mapM_map_ok {encode : γ → α} {kept : γ → β} (each : ∀ item, step (encode item) = .ok (kept item))
    (items : List γ) :
    (items.map encode).mapM step = .ok (items.map kept) := by
  rw [mapM_ok_iff, List.forall₂_map_left_iff, List.forall₂_map_right_iff, List.forall₂_same]
  exact fun item _ => each item

end Each

theorem mapM_some {step : α → Option β} {items : List α} {results : List β} (found : items.mapM step = some results) :
    List.Forall₂ (fun item result => step item = some result) items results := by
  induction items generalizing results with
  | nil =>
    obtain rfl : [] = results := by simpa using found
    exact .nil
  | cons item rest ih =>
    simp only [List.mapM_cons, Option.bind_eq_bind, Option.bind_eq_some_iff] at found
    obtain ⟨result, first, others, later, same⟩ := found
    obtain rfl : result :: others = results := by simpa using same
    exact .cons first (ih later)

end TableModels
