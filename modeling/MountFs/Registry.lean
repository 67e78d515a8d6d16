/-!
# Registries

A `Registry` is a finite map kept as a list of rows.  A key has at most one row as
long as rows enter by `insert`.  Reading is `get?`.  Three operations change it:
`insert` adds or replaces a row, `adjust` changes the value of a row in place, and
`erase` drops a row.  In place matters: two adjustments at different keys give the
same registry in either order.

The lemmas say what each operation does to `get?`.
-/

namespace MountFs

/-- A finite map from keys to values, as rows. -/
structure Registry (κ : Type) (α : Type) where
  rows : List (κ × α) := []
deriving DecidableEq, Repr, Inhabited

namespace Registry

variable {κ : Type} {α : Type} [DecidableEq κ]

/-- The registry without rows. -/
def empty : Registry κ α := ⟨[]⟩

/-- The value of the first row of a key. -/
def find (key : κ) : List (κ × α) → Option α
  | [] => none
  | (k, a) :: rows => if k = key then some a else find key rows

/-- The value at a key. -/
def get? (r : Registry κ α) (key : κ) : Option α := find key r.rows

/-- Whether a key has a row. -/
def contains (r : Registry κ α) (key : κ) : Bool := (r.get? key).isSome

/-- The registry without the row of a key. -/
def erase (r : Registry κ α) (key : κ) : Registry κ α :=
  ⟨r.rows.filter fun row => row.1 ≠ key⟩

/-- The registry with a value at a key, in a new last row. -/
def insert (r : Registry κ α) (key : κ) (value : α) : Registry κ α :=
  ⟨(r.erase key).rows ++ [(key, value)]⟩

/-- The registry with the value of a key changed in place.  Without a row for the
key nothing changes. -/
def adjust (r : Registry κ α) (key : κ) (change : α → α) : Registry κ α :=
  ⟨r.rows.map fun row => if row.1 = key then (row.1, change row.2) else row⟩

/-- The keys, oldest first. -/
def keys (r : Registry κ α) : List κ := r.rows.map (·.1)

/-- The values, oldest first. -/
def values (r : Registry κ α) : List α := r.rows.map (·.2)

/-- The number of rows. -/
def size (r : Registry κ α) : Nat := r.rows.length

/-! ## Reading after a change -/

theorem find_filter_ne (rows : List (κ × α)) (key other : κ) :
    find other (rows.filter fun row => decide (row.1 ≠ key))
      = if other = key then none else find other rows := by
  induction rows with
  | nil => simp [find]
  | cons row rows ih =>
      obtain ⟨k, a⟩ := row
      by_cases hk : k = key
      · subst hk
        by_cases ho : k = other
        · subst ho; simpa using ih
        · simpa [find, ho] using ih
      · by_cases ho : k = other
        · subst ho; simp [find, hk]
        · simpa [find, hk, ho] using ih

theorem get?_erase (r : Registry κ α) (key other : κ) :
    (r.erase key).get? other = if other = key then none else r.get? other :=
  find_filter_ne r.rows key other

theorem find_append (left right : List (κ × α)) (key : κ) :
    find key (left ++ right) = (find key left).or (find key right) := by
  induction left with
  | nil => simp [find]
  | cons row rows ih => by_cases h : row.1 = key <;> simp [find, h, ih]

theorem get?_insert (r : Registry κ α) (key : κ) (value : α) (other : κ) :
    (r.insert key value).get? other = if other = key then some value else r.get? other := by
  have h : (r.insert key value).get? other
      = ((r.erase key).get? other).or (find other [(key, value)]) := find_append _ _ _
  rw [h, get?_erase]
  by_cases ho : other = key
  · simp [find, ho]
  · simp [find, ho, Ne.symm ho]

theorem find_map_adjust (rows : List (κ × α)) (key : κ) (change : α → α) (other : κ) :
    find other (rows.map fun row => if row.1 = key then (row.1, change row.2) else row)
      = if other = key then (find other rows).map change else find other rows := by
  induction rows with
  | nil => simp [find]
  | cons row rows ih =>
      obtain ⟨k, a⟩ := row
      by_cases hk : k = key
      · subst hk
        by_cases ho : k = other
        · simp [find, ho]
        · simpa [find, ho] using ih
      · by_cases ho : k = other
        · subst ho; simp [find, hk]
        · simpa [find, hk, ho] using ih

theorem get?_adjust (r : Registry κ α) (key : κ) (change : α → α) (other : κ) :
    (r.adjust key change).get? other
      = if other = key then (r.get? other).map change else r.get? other :=
  find_map_adjust r.rows key change other

theorem keys_adjust (r : Registry κ α) (key : κ) (change : α → α) :
    (r.adjust key change).keys = r.keys := by
  simp only [keys, adjust, List.map_map]
  refine List.map_congr_left fun row _ => ?_
  by_cases h : row.1 = key <;> simp [h]

end Registry

end MountFs
