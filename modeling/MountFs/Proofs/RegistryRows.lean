import MountFs.Registry

/-!
# Rows of a registry

Reading a registry looks at the first row of a key.  Some operations look at all
rows instead: they count them, filter them, or go through them in order.  As long
as no key has two rows the two views say the same (`mem_rows_iff`), and the three
operations that change a registry keep it so.

Two adjustments of one row are one, and changes of different rows may be made in either order.
-/

namespace MountFs.Registry

variable {κ : Type} {α : Type}

/-! ## Row by row -/

/-- What goes through rows one by one puts together what it makes of each. -/
theorem eq_flatMap_of_rows {β : Type} {f : List (κ × α) → List β} {g : κ × α → List β}
    (nil : f [] = []) (cons : ∀ row rest, f (row :: rest) = g row ++ f rest)
    (rows : List (κ × α)) : f rows = rows.flatMap g := by
  induction rows with
  | nil => exact nil
  | cons row rest ih => rw [cons, ih, List.flatMap_cons]

variable [DecidableEq κ]

/-! ## Keys -/

theorem find_isSome_iff (rows : List (κ × α)) (key : κ) :
    (find key rows).isSome = true ↔ key ∈ rows.map (·.1) := by
  induction rows with
  | nil => simp [find]
  | cons row rows ih =>
      obtain ⟨k, a⟩ := row
      by_cases h : k = key
      · simp [find, h]
      · simp [find, h, ih, Ne.symm h]

theorem mem_keys_iff {r : Registry κ α} {key : κ} : key ∈ r.keys ↔ ∃ a, r.get? key = some a := by
  rw [keys, ← find_isSome_iff, Option.isSome_iff_exists]
  rfl

theorem not_mem_keys_iff {r : Registry κ α} {key : κ} : key ∉ r.keys ↔ r.get? key = none := by
  rw [mem_keys_iff]
  cases h : r.get? key with
  | none => simp
  | some a => simp

theorem keys_erase (r : Registry κ α) (key : κ) :
    (r.erase key).keys = r.keys.filter fun k => decide (k ≠ key) := by
  simp only [keys, erase, List.filter_map]
  rfl

theorem keys_insert (r : Registry κ α) (key : κ) (value : α) :
    (r.insert key value).keys = (r.erase key).keys ++ [key] := by
  simp [keys, insert]

theorem nodup_keys_erase {r : Registry κ α} (h : r.keys.Nodup) (key : κ) :
    (r.erase key).keys.Nodup := by
  rw [keys_erase]
  exact h.sublist List.filter_sublist

theorem nodup_keys_insert {r : Registry κ α} (h : r.keys.Nodup) (key : κ) (value : α) :
    (r.insert key value).keys.Nodup := by
  rw [keys_insert, List.nodup_append]
  refine ⟨nodup_keys_erase h key, by simp, ?_⟩
  intro k hk k' hk'
  rw [keys_erase, List.mem_filter] at hk
  have hne : k ≠ key := by simpa using hk.2
  rw [List.mem_singleton.mp hk']
  exact hne

theorem nodup_keys_adjust {r : Registry κ α} (h : r.keys.Nodup) (key : κ) (change : α → α) :
    (r.adjust key change).keys.Nodup := by
  rw [keys_adjust]
  exact h

/-! ## Rows -/

theorem mem_of_find {rows : List (κ × α)} {key : κ} {a : α} (h : find key rows = some a) :
    (key, a) ∈ rows := by
  induction rows with
  | nil => simp [find] at h
  | cons row rows ih =>
      obtain ⟨k, b⟩ := row
      by_cases hk : k = key
      · rw [find, if_pos hk, Option.some.injEq] at h
        rw [hk, h]
        exact List.mem_cons_self ..
      · rw [find, if_neg hk] at h
        exact List.mem_cons_of_mem _ (ih h)

theorem find_of_mem {rows : List (κ × α)} {key : κ} {a : α} (nodup : (rows.map (·.1)).Nodup)
    (h : (key, a) ∈ rows) : find key rows = some a := by
  induction rows with
  | nil => cases h
  | cons row rows ih =>
      obtain ⟨k, b⟩ := row
      obtain ⟨hk, hrest⟩ := List.nodup_cons.mp nodup
      cases List.mem_cons.mp h with
      | inl he =>
          cases he
          rw [find, if_pos rfl]
      | inr hm =>
          have hne : k ≠ key := by
            intro e
            exact hk (List.mem_map.mpr ⟨(key, a), hm, e.symm⟩)
          rw [find, if_neg hne]
          exact ih hrest hm

/-- With one row for each key, the rows are exactly what can be read. -/
theorem mem_rows_iff {r : Registry κ α} (nodup : r.keys.Nodup) {key : κ} {a : α} :
    (key, a) ∈ r.rows ↔ r.get? key = some a :=
  ⟨find_of_mem nodup, mem_of_find⟩

theorem mem_values_iff {r : Registry κ α} (nodup : r.keys.Nodup) {a : α} :
    a ∈ r.values ↔ ∃ key, r.get? key = some a := by
  simp only [values, List.mem_map]
  constructor
  · rintro ⟨⟨key, b⟩, hm, rfl⟩
    exact ⟨key, (mem_rows_iff nodup).mp hm⟩
  · rintro ⟨key, h⟩
    exact ⟨(key, a), (mem_rows_iff nodup).mpr h, rfl⟩

/-! ## What can be read after a change -/

theorem get?_erase_eq_some {r : Registry κ α} {key other : κ} {b : α} :
    (r.erase key).get? other = some b ↔ other ≠ key ∧ r.get? other = some b := by
  rw [get?_erase]
  by_cases h : other = key
  · simp [h]
  · simp [h]

theorem get?_insert_eq_some {r : Registry κ α} {key other : κ} {value b : α} :
    (r.insert key value).get? other = some b ↔
      other = key ∧ b = value ∨ other ≠ key ∧ r.get? other = some b := by
  rw [get?_insert]
  by_cases h : other = key
  · simp [h, eq_comm]
  · simp [h]

theorem get?_adjust_map (r : Registry κ α) (key : κ) (change : α → α) (other : κ) :
    (r.adjust key change).get? other
      = (r.get? other).map fun a => if other = key then change a else a := by
  rw [get?_adjust]
  by_cases h : other = key
  · simp [h]
  · simp [h]

theorem get?_adjust_eq_some {r : Registry κ α} {key other : κ} {change : α → α} {b : α} :
    (r.adjust key change).get? other = some b ↔
      ∃ a, r.get? other = some a ∧ (if other = key then change a else a) = b := by
  rw [get?_adjust_map, Option.map_eq_some_iff]

/-! ## A row that comes and goes -/

theorem erase_of_get?_eq_none {r : Registry κ α} {key : κ} (h : r.get? key = none) :
    r.erase key = r := by
  obtain ⟨rows⟩ := r
  refine congrArg Registry.mk (List.filter_eq_self.mpr fun row m => ?_)
  have absent : key ∉ rows.map (·.1) := not_mem_keys_iff.mpr h
  rw [decide_eq_true_iff]
  rintro rfl
  exact absent (List.mem_map_of_mem m)

theorem erase_insert (r : Registry κ α) (key : κ) (value : α) :
    (r.insert key value).erase key = r.erase key := by
  simp [erase, insert]

theorem erase_adjust_comm (r : Registry κ α) (key other : κ) (f : α → α) :
    (r.adjust key f).erase other = (r.erase other).adjust key f := by
  simp only [adjust, erase, List.filter_map]
  have same : (fun row : κ × α => decide (row.1 ≠ other)) ∘
      (fun row => if row.1 = key then (row.1, f row.2) else row)
      = fun row => decide (row.1 ≠ other) := by
    funext row
    by_cases here : row.1 = key <;> simp [here]
  rw [same]

theorem erase_adjust (r : Registry κ α) (key : κ) (change : α → α) :
    (r.adjust key change).erase key = r.erase key := by
  rw [erase_adjust_comm]
  refine congrArg Registry.mk ((List.map_congr_left fun row m => ?_).trans (List.map_id _))
  have away : row.1 ≠ key := by simpa using (List.mem_filter.mp m).2
  exact if_neg away

/-! ## Changes in either order -/

theorem adjust_congr {r : Registry κ α} (nodup : r.keys.Nodup) {key : κ} {f g : α → α}
    (same : ∀ {a}, r.get? key = some a → f a = g a) : r.adjust key f = r.adjust key g := by
  refine congrArg Registry.mk (List.map_congr_left fun row there => ?_)
  split
  next here =>
    have found : r.get? key = some row.2 := (mem_rows_iff nodup).mp (here ▸ there)
    rw [same found]
  next => rfl

theorem adjust_id (r : Registry κ α) (key : κ) : r.adjust key id = r := by
  refine congrArg Registry.mk ((List.map_congr_left fun row _ => ?_).trans (List.map_id _))
  split <;> rfl

theorem adjust_adjust (r : Registry κ α) (key : κ) (f g : α → α) :
    (r.adjust key f).adjust key g = r.adjust key (g ∘ f) := by
  simp only [adjust, List.map_map]
  refine congrArg Registry.mk (List.map_congr_left fun row _ => ?_)
  by_cases here : row.1 = key
  · simp [here]
  · simp [here]

theorem adjust_comm (r : Registry κ α) {key other : κ} (ne : key ≠ other) (f g : α → α) :
    (r.adjust key f).adjust other g = (r.adjust other g).adjust key f := by
  simp only [adjust, List.map_map]
  refine congrArg Registry.mk (List.map_congr_left fun row _ => ?_)
  by_cases here : row.1 = key
  · simp [here, ne]
  · by_cases there : row.1 = other
    · simp [there, ne.symm]
    · simp [here, there]

theorem erase_comm (r : Registry κ α) (key other : κ) :
    (r.erase key).erase other = (r.erase other).erase key := by
  simp only [erase, List.filter_filter, Bool.and_comm]

end MountFs.Registry
