import Mathlib.Tactic.ByContra
import TableModels.Keyed

/-! Lists of named values by what is found under each name. -/

namespace TableModels

theorem lookup_filter {κ α : Type} [BEq κ] [LawfulBEq κ] (keep : κ → Bool) (entries : List (κ × α)) (key : κ) :
    (entries.filter fun entry => keep entry.1).lookup key = if keep key then entries.lookup key else none := by
  induction entries with
  | nil => simp
  | cons first rest ih =>
    rcases first with ⟨name, value⟩
    cases same : key == name with
    | true =>
      obtain rfl := eq_of_beq same
      cases kept : keep key <;> simp [kept, ih]
    | false => cases kept : keep name <;> simp [List.lookup_cons, kept, same, ih]

private theorem sortedNames_perm (names : List String) : (sortedNames names).Perm names := List.mergeSort_perm ..

@[simp] theorem mem_sortedNames {name : String} {names : List String} : name ∈ sortedNames names ↔ name ∈ names :=
  (sortedNames_perm names).mem_iff

/-- Names that differ stand in strictly ascending order. -/
theorem ascending_sortedNames {names : List String} (distinct : names.Nodup) :
    (sortedNames names).Pairwise (· < ·) := by
  have ordered : (sortedNames names).Pairwise fun first second => (!decide (second < first)) = true := by
    apply List.pairwise_mergeSort
    · intro first second third early late
      simp only [Bool.not_eq_true', decide_eq_false_iff_not, String.not_lt] at early late ⊢
      exact String.le_trans early late
    · intro first second
      rw [Bool.or_eq_true, Bool.not_eq_true', Bool.not_eq_true', decide_eq_false_iff_not, decide_eq_false_iff_not,
        String.not_lt, String.not_lt]
      exact String.le_total first second
  have apart : (sortedNames names).Nodup := (sortedNames_perm names).nodup_iff.mpr distinct
  apply (ordered.and apart).imp
  intro first second both
  obtain ⟨before, differ⟩ := both
  rcases Std.lt_trichotomy first second with less | same | more
  · exact less
  · exact absurd same differ
  · simp [more] at before

namespace Keyed

variable {α : Type}

theorem get?_set (entries : Keyed α) (name other : String) (value : α) :
    get? (set entries name value) other = if other = name then some value else get? entries other := by
  induction entries with
  | nil => by_cases same : other = name <;> simp [set, get?, List.lookup_cons, same, beq_eq_false_iff_ne.mpr]
  | cons first rest ih =>
    rcases first with ⟨key, old⟩
    simp only [get?] at ih
    by_cases here : key = name
    · subst here
      by_cases same : other = key
      · simp [set, get?, same]
      · simp [set, get?, List.lookup_cons, same, beq_eq_false_iff_ne.mpr same]
    · by_cases same : other = key
      · subst same
        simp [set, get?, here]
      · simp [set, get?, List.lookup_cons, here, beq_eq_false_iff_ne.mpr same, ih]

theorem get?_erase (entries : Keyed α) (name other : String) :
    get? (erase entries name) other = if other = name then none else get? entries other := by
  simp only [get?, erase, lookup_filter (· != name)]
  by_cases same : other = name <;> simp [same]

/-- Of what is set for items one after another the last one with a name is found under it. -/
theorem get?_foldl_set {ι : Type} (key : ι → String) (value : ι → α) (items : List ι)
    (known : Keyed α) (name : String) :
    get? (items.foldl (fun known item => set known (key item) (value item)) known) name =
      ((items.reverse.find? fun item => key item == name).map value).or (get? known name) := by
  induction items generalizing known with
  | nil => rfl
  | cons first rest ih =>
    rw [List.foldl_cons, ih, get?_set, List.reverse_cons, List.find?_append]
    cases later : rest.reverse.find? fun item => key item == name with
    | some item => rfl
    | none =>
      by_cases here : key first = name
      · simp [here]
      · simp [here, Ne.symm here]

theorem mem_of_get? {entries : Keyed α} {name : String} {value : α} (found : get? entries name = some value) :
    (name, value) ∈ entries := by
  obtain ⟨before, after, same, _⟩ := List.lookup_eq_some_iff.mp found
  simp [same]

theorem get?_eq_none {entries : Keyed α} {name : String} : get? entries name = none ↔ name ∉ names entries := by
  rw [get?, List.lookup_eq_none_iff]
  simp only [names, List.mem_map, not_exists, not_and, bne_iff_ne, ne_eq]
  exact ⟨fun absent entry member same => absent entry member same.symm,
    fun absent entry member same => absent entry member same.symm⟩

theorem mem_names {entries : Keyed α} {name : String} : name ∈ names entries ↔ (get? entries name).isSome := by
  cases found : get? entries name with
  | none => simpa using get?_eq_none.mp found
  | some value =>
    have known : name ∈ names entries := by
      by_contra fresh
      simp [get?_eq_none.mpr fresh] at found
    simpa using known

theorem get?_of_mem {entries : Keyed α} (distinct : (names entries).Nodup) {name : String} {value : α}
    (member : (name, value) ∈ entries) : get? entries name = some value := by
  induction entries with
  | nil => cases member
  | cons first rest ih =>
    rcases first with ⟨key, old⟩
    obtain ⟨absent, distinct⟩ := List.nodup_cons.mp distinct
    rcases List.mem_cons.mp member with same | inside
    · cases same
      simp [get?]
    · have apart : name ≠ key := by
        rintro rfl
        exact absent (List.mem_map.mpr ⟨_, inside, rfl⟩)
      simpa [get?, List.lookup_cons, beq_eq_false_iff_ne.mpr apart] using ih distinct inside

theorem get?_perm {first second : Keyed α} (distinct : (names first).Nodup) (perm : second.Perm first) (name : String) :
    get? second name = get? first name := by
  have distinct' : (names second).Nodup := (perm.map Prod.fst).nodup_iff.mpr distinct
  cases found : get? first name with
  | some value => exact get?_of_mem distinct' (perm.mem_iff.mpr (mem_of_get? found))
  | none =>
    rw [get?_eq_none] at found ⊢
    exact fun member => found ((perm.map Prod.fst).mem_iff.mp member)

private theorem names_set_of_mem {entries : Keyed α} {name : String} (value : α) (known : name ∈ names entries) :
    names (set entries name value) = names entries := by
  induction entries with
  | nil => simp [names] at known
  | cons first rest ih =>
    rcases first with ⟨key, old⟩
    by_cases here : key = name
    · simp [set, names, here]
    · have later : name ∈ names rest := by simpa [names, Ne.symm here] using known
      simpa [set, names, here] using ih later

theorem set_of_not_mem {entries : Keyed α} {name : String} (value : α) (fresh : name ∉ names entries) :
    set entries name value = entries ++ [(name, value)] := by
  induction entries with
  | nil => rfl
  | cons first rest ih =>
    rcases first with ⟨key, old⟩
    simp only [names, List.map_cons, List.mem_cons, not_or] at fresh
    simpa [set, Ne.symm fresh.1] using ih fresh.2

theorem nodup_set {entries : Keyed α} (distinct : (names entries).Nodup) (name : String) (value : α) :
    (names (set entries name value)).Nodup := by
  by_cases known : name ∈ names entries
  · rwa [names_set_of_mem value known]
  · rw [set_of_not_mem value known]
    have apart : ∀ other ∈ names entries, ∀ added ∈ [name], other ≠ added := by
      rintro other member _ added rfl
      exact known (List.mem_singleton.mp added ▸ member)
    simpa [names] using List.nodup_append.mpr ⟨distinct, by simp, apart⟩

theorem nodup_erase {entries : Keyed α} (distinct : (names entries).Nodup) (name : String) :
    (names (erase entries name)).Nodup := distinct.sublist ((List.filter_sublist).map Prod.fst)

theorem nodup_ofList (entries : List (String × α)) : (names (ofList entries)).Nodup := by
  have kept : ∀ known : Keyed α, (names known).Nodup →
      (names (entries.foldl (fun known entry => set known entry.1 entry.2) known)).Nodup := by
    induction entries with
    | nil => exact fun _ distinct => distinct
    | cons entry rest ih => exact fun known distinct => ih _ (nodup_set distinct _ _)
  exact kept [] (by simp [names])

private theorem get?_ofList (entries : List (String × α)) (name : String) :
    get? (ofList entries) name = (entries.reverse.find? fun entry => entry.1 == name).map Prod.snd := by
  rw [ofList, get?_foldl_set Prod.fst Prod.snd]
  exact Option.or_none

theorem mem_of_mem_ofList {entries : List (String × α)} {entry : String × α} (member : entry ∈ ofList entries) :
    entry ∈ entries := by
  have found := get?_of_mem (nodup_ofList entries) member
  rw [get?_ofList, Option.map_eq_some_iff] at found
  obtain ⟨⟨name, value⟩, last, rfl⟩ := found
  obtain rfl : name = entry.1 := by simpa using List.find?_some last
  exact List.mem_reverse.mp (List.mem_of_find?_eq_some last)

theorem mem_names_ofList {entries : List (String × α)} {name : String} :
    name ∈ names (ofList entries) ↔ name ∈ names entries := by
  rw [mem_names, get?_ofList, Option.isSome_map, List.find?_isSome]
  simp [names]

/-- The last of some items with a name. -/
def Latest {ι : Type} (key : ι → String) (items : List ι) (name : String) (item : ι) : Prop :=
  ∃ before after, items = before ++ item :: after ∧ key item = name ∧ ∀ later ∈ after, key later ≠ name

theorem find?_reverse {ι : Type} {key : ι → String} {items : List ι} {name : String} {item : ι} :
    (items.reverse.find? fun item => key item == name) = some item ↔ Latest key items name item := by
  simp only [List.find?_eq_some_iff_append, beq_iff_eq, Latest]
  constructor
  · intro found
    obtain ⟨same, after, before, order, others⟩ := found
    refine ⟨before.reverse, after.reverse, ?_, same, ?_⟩
    · simpa using congrArg List.reverse order
    · intro later member
      simpa using others later (List.mem_reverse.mp member)
  · intro latest
    obtain ⟨before, after, rfl, same, others⟩ := latest
    refine ⟨same, after.reverse, before.reverse, by simp, ?_⟩
    intro later member
    simpa using others later (List.mem_reverse.mp member)

end Keyed

end TableModels
