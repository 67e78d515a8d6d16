import MountFs.Proofs.RegistryRows
import MountFs.World

/-!
# Places of the host tree

A place is the list of names that leads to an item from the top.  Names lead down
through directories only, so an item has a directory at every place above it
(`at?_append`).

The tree changes at one place at a time, by `modifyAt`.  `at?_modifyAt_append` says what
is found at and below that place afterwards.  What lies *outside* of a place is the tree
with that place blanked out (`World.outside`).  A change at or below a place is not seen
outside of it (`outside_modifyAt`).
-/

namespace MountFs

/-! ## Reading -/

namespace Item

/-- Whether the item is a symbolic link. -/
def isLink : Item → Bool
  | .link _ _ => true
  | _ => false

theorem child?_eq_find (name : String) (children : List (String × Item)) :
    child? name children = Registry.find name children := by
  induction children with
  | nil => rfl
  | cons row rest ih => simp [child?, Registry.find, ih]

@[simp] theorem at?_nil (item : Item) : item.at? [] = some item := by
  cases item <;> rfl

theorem at?_dir_cons (inode mode : Nat) (children : List (String × Item)) (name : String)
    (rest : Place) :
    (dir inode mode children).at? (name :: rest)
      = (child? name children).bind fun item => item.at? rest := by
  rw [at?]
  cases child? name children <;> rfl

theorem at?_append (item : Item) (place rest : Place) :
    item.at? (place ++ rest) = (item.at? place).bind fun found => found.at? rest := by
  induction place generalizing item with
  | nil => simp
  | cons name place ih =>
      cases item with
      | file inode mode data => rfl
      | link inode target => rfl
      | dir inode mode children =>
          rw [List.cons_append, at?_dir_cons, at?_dir_cons]
          cases child? name children with
          | none => rfl
          | some found => exact ih found

/-! ## Changing -/

@[simp] theorem modifyAt_nil (change : Item → Item) (item : Item) :
    modifyAt change [] item = change item := by
  cases item <;> rfl

theorem modifyAt_dir_cons (change : Item → Item) (inode mode : Nat)
    (children : List (String × Item)) (name : String) (rest : Place) :
    modifyAt change (name :: rest) (dir inode mode children)
      = dir inode mode (children.map fun row =>
          if row.1 = name then (row.1, modifyAt change rest row.2) else row) := by
  rw [modifyAt]

theorem child?_map_adjust (name : String) (change : Item → Item) (other : String)
    (children : List (String × Item)) :
    child? other (children.map fun row => if row.1 = name then (row.1, change row.2) else row)
      = if other = name then (child? other children).map change else child? other children := by
  simp only [child?_eq_find]
  exact Registry.find_map_adjust children name change other

/-- A change further down is a change of the items on the way. -/
theorem modifyAt_append (change : Item → Item) (place rest : Place) (item : Item) :
    modifyAt change (place ++ rest) item = modifyAt (modifyAt change rest) place item := by
  induction place generalizing item with
  | nil => simp
  | cons name place ih =>
      cases item with
      | file inode mode data => rfl
      | link inode target => rfl
      | dir inode mode children =>
          rw [List.cons_append, modifyAt_dir_cons, modifyAt_dir_cons]
          simp only [ih]

/-- Of two changes at one place the second sees what the first left. -/
theorem modifyAt_modifyAt (second first : Item → Item) (place : Place) (item : Item) :
    modifyAt second place (modifyAt first place item)
      = modifyAt (fun found => second (first found)) place item := by
  induction place generalizing item with
  | nil => simp
  | cons name place ih =>
      cases item with
      | file inode mode data => rfl
      | link inode target => rfl
      | dir inode mode children =>
          simp only [modifyAt_dir_cons, List.map_map]
          congr 1
          refine List.map_congr_left fun row _ => ?_
          by_cases same : row.1 = name
          · simp [same, ih]
          · simp [same]

theorem modifyAt_id (place : Place) (item : Item) : modifyAt id place item = item := by
  induction place generalizing item with
  | nil => exact modifyAt_nil ..
  | cons name rest ih =>
      cases item with
      | file inode mode data => rfl
      | link inode target => rfl
      | dir inode mode children =>
          rw [modifyAt_dir_cons]
          refine congrArg _ ((List.map_congr_left fun row _ => ?_).trans (List.map_id children))
          rw [ih]
          exact ite_self _

theorem isDir_modifyAt {change : Item → Item}
    (keeps : ∀ item, (change item).isDir = item.isDir) (place : Place) (item : Item) :
    (modifyAt change place item).isDir = item.isDir := by
  cases place with
  | nil =>
      rw [modifyAt_nil]
      exact keeps item
  | cons name rest => cases item <;> rfl

theorem isLink_modifyAt {change : Item → Item}
    (keeps : ∀ item, (change item).isLink = item.isLink) (place : Place) (item : Item) :
    (modifyAt change place item).isLink = item.isLink := by
  cases place with
  | nil =>
      rw [modifyAt_nil]
      exact keeps item
  | cons name rest => cases item <;> rfl

/-- At and below the place of a change, names lead through the changed item. -/
theorem at?_modifyAt_append (change : Item → Item) (item : Item) (place rest : Place) :
    (modifyAt change place item).at? (place ++ rest)
      = (item.at? place).bind fun found => (change found).at? rest := by
  induction place generalizing item with
  | nil => simp
  | cons name place ih =>
      cases item with
      | file inode mode data => rfl
      | link inode target => rfl
      | dir inode mode children =>
          rw [modifyAt_dir_cons, List.cons_append, at?_dir_cons, at?_dir_cons, child?_map_adjust,
            if_pos rfl]
          cases child? name children with
          | none => rfl
          | some found => exact ih found

theorem at?_modifyAt (change : Item → Item) (item : Item) (place : Place) :
    (modifyAt change place item).at? place = (item.at? place).map change := by
  have here := at?_modifyAt_append change item place []
  rw [List.append_nil] at here
  rw [here]
  cases item.at? place with
  | none => rfl
  | some found => simp

/-- The item without what is in it. -/
def shallow : Item → Item
  | .dir inode mode _ => .dir inode mode []
  | item => item

@[simp] theorem shallow_dir (inode mode : Nat) (children : List (String × Item)) :
    (dir inode mode children).shallow = dir inode mode [] := rfl

theorem shallow_modifyAt_cons (change : Item → Item) (name : String) (rest : Place) (item : Item) :
    (modifyAt change (name :: rest) item).shallow = item.shallow := by
  cases item with
  | file inode mode data => rfl
  | link inode target => rfl
  | dir inode mode children => rw [modifyAt_dir_cons, shallow_dir, shallow_dir]

/-- Away from the place of a change the same items stand.  A directory above the place is
the same but for what is in it. -/
theorem at?_modifyAt_away {place other : Place} (away : ¬place <+: other) (change : Item → Item)
    (item : Item) :
    ((modifyAt change place item).at? other).map shallow = (item.at? other).map shallow := by
  induction place generalizing item other with
  | nil => exact absurd List.nil_prefix away
  | cons name place ih =>
      cases other with
      | nil => simp [shallow_modifyAt_cons]
      | cons next other =>
          cases item with
          | file inode mode data => rfl
          | link inode target => rfl
          | dir inode mode children =>
              rw [modifyAt_dir_cons, at?_dir_cons, at?_dir_cons, child?_map_adjust]
              by_cases same : next = name
              · subst same
                rw [if_pos rfl]
                cases child? next children with
                | none => rfl
                | some child => exact ih (fun h => away (List.cons_prefix_cons.mpr ⟨rfl, h⟩)) child
              · rw [if_neg same]

/-! ## Children of a directory -/

theorem child?_append (name : String) (left right : List (String × Item)) :
    child? name (left ++ right) = (child? name left).or (child? name right) := by
  simp only [child?_eq_find]
  exact Registry.find_append left right name

theorem child?_filter_ne (name other : String) (children : List (String × Item)) :
    child? other (children.filter fun row => decide (row.1 ≠ name))
      = if other = name then none else child? other children := by
  simp only [child?_eq_find]
  exact Registry.find_filter_ne children name other

/-! ## Trees that grow -/

/-- Every item of a tree is in another one too, with possibly more in it. -/
def GrowsTo (item after : Item) : Prop :=
  ∀ {place found}, item.at? place = some found →
    ∃ found', after.at? place = some found' ∧ found'.shallow = found.shallow

theorem GrowsTo.refl (item : Item) : item.GrowsTo item := fun found => ⟨_, found, rfl⟩

theorem growsTo_addChild (name : String) (new item : Item) :
    item.GrowsTo (addChild name new item) := by
  cases item with
  | file inode mode data => exact GrowsTo.refl _
  | link inode target => exact GrowsTo.refl _
  | dir inode mode children =>
      intro place found there
      cases place with
      | nil =>
          cases there
          exact ⟨_, rfl, rfl⟩
      | cons next rest =>
          rw [at?_dir_cons] at there
          obtain ⟨child, hchild, hrest⟩ := Option.bind_eq_some_iff.mp there
          refine ⟨found, ?_, rfl⟩
          rw [addChild, at?_dir_cons, child?_append, hchild]
          exact hrest

theorem growsTo_modifyAt {change : Item → Item} (grows : ∀ item, GrowsTo item (change item))
    (place : Place) (item : Item) : item.GrowsTo (modifyAt change place item) := by
  induction place generalizing item with
  | nil =>
      rw [modifyAt_nil]
      exact grows item
  | cons name place ih =>
      cases item with
      | file inode mode data => exact GrowsTo.refl _
      | link inode target => exact GrowsTo.refl _
      | dir inode mode children =>
          intro other found there
          rw [modifyAt_dir_cons]
          cases other with
          | nil =>
              cases there
              exact ⟨_, rfl, rfl⟩
          | cons next rest =>
              rw [at?_dir_cons] at there
              obtain ⟨child, hchild, hrest⟩ := Option.bind_eq_some_iff.mp there
              rw [at?_dir_cons, child?_map_adjust, hchild]
              by_cases same : next = name
              · rw [if_pos same]
                exact ih child hrest
              · rw [if_neg same]
                exact ⟨found, hrest, rfl⟩

end Item

/-! ## Worlds -/

namespace World

variable {w : World}

/-- A directory stands at a place. -/
def DirAt (w : World) (place : Place) (children : List (String × Item)) : Prop :=
  ∃ inode mode, w.at? place = some (.dir inode mode children)

theorem at?_append (w : World) (place rest : Place) :
    w.at? (place ++ rest) = (w.at? place).bind fun item => item.at? rest :=
  Item.at?_append w.top place rest

theorem dirAt_nil_of_isDir (h : w.top.isDir = true) :
    ∃ children, w.DirAt [] children := by
  obtain ⟨top, nextInode, home⟩ := w
  cases top with
  | file inode mode data => cases h
  | link inode target => cases h
  | dir inode mode children => exact ⟨children, inode, mode, rfl⟩

theorem DirAt.at?_snoc {place : Place} {children : List (String × Item)}
    (h : w.DirAt place children) (name : String) :
    w.at? (place ++ [name]) = Item.child? name children := by
  obtain ⟨inode, mode, found⟩ := h
  rw [at?_append, found, Option.bind_some, Item.at?_dir_cons]
  cases Item.child? name children <;> simp

/-- Only a directory has something below it. -/
theorem exists_dirAt_of_at?_cons {place rest : Place} {name : String} {item : Item}
    (found : w.at? (place ++ name :: rest) = some item) :
    ∃ children, w.DirAt place children
      ∧ (Item.child? name children).bind (fun child => child.at? rest) = some item := by
  rw [at?_append] at found
  obtain ⟨dir, hdir, hrest⟩ := Option.bind_eq_some_iff.mp found
  cases dir with
  | file inode mode data => cases hrest
  | link inode target => cases hrest
  | dir inode mode children =>
      rw [Item.at?_dir_cons] at hrest
      exact ⟨children, ⟨inode, mode, hdir⟩, hrest⟩

theorem at?_modifyAt_append (w : World) (place rest : Place) (change : Item → Item) :
    (w.modifyAt place change).at? (place ++ rest)
      = (w.at? place).bind fun item => (change item).at? rest :=
  Item.at?_modifyAt_append change w.top place rest

theorem at?_modifyAt (w : World) (place : Place) (change : Item → Item) :
    (w.modifyAt place change).at? place = (w.at? place).map change :=
  Item.at?_modifyAt change w.top place

/-- One file has other content, and nothing else changed. -/
structure Rewritten (w : World) (place : Place) (inode : Nat) (data : Bytes) (after : World) :
    Prop where
  file : ∃ bits old, w.at? place = some (.file inode bits old)
    ∧ after.at? place = some (.file inode bits data)
  others : ∀ other, other ≠ place →
    (after.at? other).map Item.shallow = (w.at? other).map Item.shallow
  nextInode : after.nextInode = w.nextInode
  home : after.home = w.home

theorem rewritten_modifyAt {place : Place} {inode bits : Nat} {old : Bytes}
    (found : w.at? place = some (.file inode bits old)) (data : Bytes) :
    w.Rewritten place inode data (w.modifyAt place (Item.setData data)) where
  file := by
    refine ⟨bits, old, found, ?_⟩
    rw [at?_modifyAt, found]
    rfl
  others := by
    intro other differ
    by_cases below : place <+: other
    · -- Nothing is below a file.
      obtain ⟨rest, rfl⟩ := below
      cases rest with
      | nil => exact absurd (List.append_nil place) differ
      | cons name rest =>
          rw [at?_modifyAt_append, at?_append, found]
          rfl
    · exact Item.at?_modifyAt_away below _ w.top
  nextInode := rfl
  home := rfl

/-- The tree with one place blanked out: all that lies outside of that place. -/
def outside (w : World) (place : Place) : Item := w.top.modifyAt (fun _ => .dir 0 0 []) place

/-- A change at or below a place is not seen outside of it. -/
theorem outside_modifyAt {root place : Place} (under : root <+: place) (w : World)
    (change : Item → Item) : (w.modifyAt place change).outside root = w.outside root := by
  obtain ⟨rest, rfl⟩ := under
  simp only [outside, modifyAt, Item.modifyAt_append, Item.modifyAt_modifyAt]

/-- Worlds that are the same outside of a place have the same items there. -/
theorem at?_of_outside_eq {after : World} {root place : Place}
    (same : after.outside root = w.outside root) (away : ¬root <+: place) :
    (after.at? place).map Item.shallow = (w.at? place).map Item.shallow := by
  have left := Item.at?_modifyAt_away away (fun _ => .dir 0 0 []) after.top
  have right := Item.at?_modifyAt_away away (fun _ => .dir 0 0 []) w.top
  rw [outside, outside] at same
  rw [same] at left
  exact left.symm.trans right

end World

end MountFs
