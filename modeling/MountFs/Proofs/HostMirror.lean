import Mathlib.Data.List.Forall2
import MountFs.Proofs.Confinement
import MountFs.Proofs.TreeRefinement

/-!
# A directory of the host that mirrors a tree

A store on the host that nobody else touches has a file tree in its root.  `Item.Mirrors`
is that relation between an item of the host and a `FileTree`: the same names in the same
order, the same content in the files, and no links.  The host counts its inodes from where
it stood, and the tree counts from two, so an inode and an identity belong together if they
are equally far from these starts.

* What names lead to in the tree is where a lookup of the host ends
  (`descend_of_mirrors`).  A lookup that fails says whether a file stood in the way
  (`FileTree.blocked`).
* The changes of the host and of the tree keep the relation (`Mirrors.modifyAt` and what
  follows).
-/

namespace MountFs

/-! ## Rows side by side -/

namespace Registry

variable {κ α β : Type} {R : α → β → Prop}

/-- Two rows with the same key and related values. -/
inductive RowRel (R : α → β → Prop) : κ × α → κ × β → Prop
  | mk {key : κ} {a : α} {b : β} (rel : R a b) : RowRel R (key, a) (key, b)

variable {rows : List (κ × α)} {rows' : List (κ × β)}

theorem map_key_eq (h : List.Forall₂ (RowRel R) rows rows') :
    rows.map (·.1) = rows'.map (·.1) := by
  induction h with
  | nil => rfl
  | cons row _ ih =>
      cases row
      rw [List.map_cons, List.map_cons, ih]

variable [DecidableEq κ]

/-- A key has no row on both sides, or rows with related values. -/
theorem find_rel (h : List.Forall₂ (RowRel R) rows rows') (key : κ) :
    find key rows = none ∧ find key rows' = none
      ∨ ∃ a b, find key rows = some a ∧ find key rows' = some b ∧ R a b := by
  induction h with
  | nil => exact Or.inl ⟨rfl, rfl⟩
  | cons row _ ih =>
      cases row with
      | @mk k a b rel =>
          rw [find, find]
          by_cases same : k = key
          · rw [if_pos same, if_pos same]
            exact Or.inr ⟨a, b, rfl, rfl, rel⟩
          · rw [if_neg same, if_neg same]
            exact ih

theorem filter_ne_rel (h : List.Forall₂ (RowRel R) rows rows') (key : κ) :
    List.Forall₂ (RowRel R) (rows.filter fun row => row.1 ≠ key)
      (rows'.filter fun row => row.1 ≠ key) := by
  refine List.rel_filter ?_ h
  rintro _ _ ⟨rel⟩
  exact Iff.rfl

theorem map_adjust_of_not_mem {key : κ} (h : key ∉ rows.map (·.1)) (f : α → α) :
    rows.map (fun row => if row.1 = key then (row.1, f row.2) else row) = rows := by
  refine (List.map_congr_left fun row m => ?_).trans (List.map_id rows)
  exact if_neg fun same => h (List.mem_map.mpr ⟨row, m, same⟩)

/-- One row is changed on both sides.  It is the only one of its key. -/
theorem map_adjust_rel (h : List.Forall₂ (RowRel R) rows rows') {key : κ}
    (nodup : (rows'.map (·.1)).Nodup) (f : α → α) (g : β → β)
    (keeps : ∀ {a b}, find key rows = some a → find key rows' = some b → R a b → R (f a) (g b)) :
    List.Forall₂ (RowRel R) (rows.map fun row => if row.1 = key then (row.1, f row.2) else row)
      (rows'.map fun row => if row.1 = key then (row.1, g row.2) else row) := by
  induction h with
  | nil => exact .nil
  | @cons _ _ rest rest' row tail ih =>
      cases row with
      | @mk k a b rel =>
          obtain ⟨first, nodup⟩ := List.nodup_cons.mp nodup
          rw [List.map_cons, List.map_cons]
          by_cases same : k = key
          · subst same
            have first' : k ∉ rest.map (·.1) := by
              rw [map_key_eq tail]
              exact first
            rw [map_adjust_of_not_mem first, map_adjust_of_not_mem first']
            simp only [if_true]
            exact .cons (.mk (keeps (if_pos rfl) (if_pos rfl) rel)) tail
          · simp only [if_neg same]
            refine .cons (.mk rel) (ih nodup fun left right => keeps ?_ ?_)
            · rw [find, if_neg same]
              exact left
            · rw [find, if_neg same]
              exact right

end Registry

/-! ## Names in the way -/

namespace FileTree

/-- Whether names lead through a file. -/
def blocked : FileTree → List String → Bool
  | _, [] => false
  | .file _ _, _ :: _ => true
  | .directory _ children, name :: rest =>
      match children.get? name with
      | some t => t.blocked rest
      | none => false

@[simp] theorem blocked_nil (t : FileTree) : t.blocked [] = false := by
  cases t <;> rfl

theorem blocked_directory_cons (s : Stamp) (children : Registry String FileTree) (name : String)
    (rest : List String) :
    (directory s children).blocked (name :: rest)
      = match children.get? name with
        | some t => t.blocked rest
        | none => false := rfl

theorem blocked_iff {t : FileTree} {names : List String} :
    t.blocked names = true ↔ ∃ front rest stamp data, rest ≠ [] ∧ names = front ++ rest
      ∧ t.walk front = some (.file stamp data) := by
  induction names generalizing t with
  | nil =>
      rw [blocked_nil]
      simp
  | cons name names ih =>
      cases t with
      | file stamp data =>
          refine ⟨fun _ => ?_, fun _ => rfl⟩
          exact ⟨[], name :: names, stamp, data, List.cons_ne_nil _ _, rfl, rfl⟩
      | directory stamp children =>
          rw [blocked_directory_cons]
          constructor
          · intro blocks
            cases child : children.get? name with
            | none =>
                rw [child] at blocks
                cases blocks
            | some t =>
                rw [child] at blocks
                obtain ⟨front, rest, stamp, data, more, rfl, found⟩ := ih.mp blocks
                refine ⟨name :: front, rest, stamp, data, more, rfl, ?_⟩
                rw [walk_directory_cons, child]
                exact found
          · rintro ⟨front, rest, stamp', data, more, split, found⟩
            cases front with
            | nil => cases found
            | cons first front =>
                cases split
                rw [walk_directory_cons] at found
                obtain ⟨t, child, found⟩ := Option.bind_eq_some_iff.mp found
                rw [child]
                exact ih.mpr ⟨front, rest, stamp', data, more, rfl, found⟩

theorem blocked_eq_false_of_walk {t sub : FileTree} {names : List String}
    (found : t.walk names = some sub) : t.blocked names = false := by
  rw [← Bool.not_eq_true, blocked_iff]
  rintro ⟨front, rest, stamp, data, more, rfl, file⟩
  obtain ⟨name, rest, rfl⟩ := List.exists_cons_of_ne_nil more
  rw [walk_append, file] at found
  cases found

/-- Why the host finds nothing where names lead nowhere. -/
def obstacle (t : FileTree) (names : List String) : HostError :=
  if t.blocked names then .notADirectory else .notFound

end FileTree

/-! ## The relation -/

/-- An item of the host with the names and contents of a tree.  Inodes are counted from
`first`. -/
inductive Item.Mirrors (first : Nat) : Item → FileTree → Prop
  | file {inode mode : Nat} {data : Bytes} {stamp : Stamp} (same : inode + 2 = stamp.id + first) :
      Item.Mirrors first (.file inode mode data) (.file stamp data)
  | dir {inode mode : Nat} {children : List (String × Item)} {stamp : Stamp}
      {rows : Registry String FileTree}
      (below : List.Forall₂ (Registry.RowRel (Item.Mirrors first)) children rows.rows) :
      Item.Mirrors first (.dir inode mode children) (.directory stamp rows)

namespace Item.Mirrors

variable {first : Nat} {item : Item} {tree : FileTree}

theorem child? {children : List (String × Item)} {rows : Registry String FileTree}
    (below : List.Forall₂ (Registry.RowRel (Item.Mirrors first)) children rows.rows)
    (name : String) :
    Item.child? name children = none ∧ rows.get? name = none
      ∨ ∃ child sub, Item.child? name children = some child ∧ rows.get? name = some sub
        ∧ child.Mirrors first sub := by
  rw [child?_eq_find]
  exact Registry.find_rel below name

/-- The same names lead to related places, or to none. -/
theorem at? (h : item.Mirrors first tree) (names : List String) :
    item.at? names = none ∧ tree.walk names = none
      ∨ ∃ found sub, item.at? names = some found ∧ tree.walk names = some sub
        ∧ found.Mirrors first sub := by
  induction names generalizing item tree with
  | nil => exact Or.inr ⟨item, tree, at?_nil item, FileTree.walk_nil tree, h⟩
  | cons name rest ih =>
      cases h with
      | file => exact Or.inl ⟨rfl, rfl⟩
      | dir below =>
          rw [at?_dir_cons, FileTree.walk_directory_cons]
          rcases child? below name with ⟨none, none'⟩ | ⟨child, sub, some, some', related⟩
          · rw [none, none']
            exact Or.inl ⟨rfl, rfl⟩
          · rw [some, some']
            exact ih related

/-- A change at the same names on both sides. -/
theorem modifyAt (h : item.Mirrors first tree) (proper : tree.Proper) {names : List String}
    {f : Item → Item} {g : FileTree → FileTree}
    (keeps : ∀ {sub sub'}, item.at? names = some sub → tree.walk names = some sub' →
      sub.Mirrors first sub' → (f sub).Mirrors first (g sub')) :
    (Item.modifyAt f names item).Mirrors first (tree.change g names) := by
  induction names generalizing item tree with
  | nil =>
      rw [modifyAt_nil, FileTree.change_nil]
      exact keeps (at?_nil item) (FileTree.walk_nil tree) h
  | cons name rest ih =>
      cases h with
      | file same => exact .file same
      | @dir inode mode children stamp rows below =>
          cases proper with
          | directory nodup names properBelow =>
              rw [modifyAt_dir_cons, FileTree.change_directory_cons]
              refine .dir (Registry.map_adjust_rel below nodup (Item.modifyAt f rest)
                (fun sub => sub.change g rest) ?_)
              intro sub sub' found found' related
              refine ih related (properBelow found') fun there there' => keeps ?_ ?_
              · rw [at?_dir_cons, child?_eq_find, found]
                exact there
              · rw [FileTree.walk_directory_cons]
                exact (congrArg (Option.bind · _) found').trans there'

/-- A change in the tree alone that the host does not see. -/
theorem change_right (h : item.Mirrors first tree) (proper : tree.Proper) {names : List String}
    {g : FileTree → FileTree}
    (keeps : ∀ {sub : Item} {sub' : FileTree}, sub.Mirrors first sub' →
      sub.Mirrors first (g sub')) :
    item.Mirrors first (tree.change g names) := by
  rw [← Item.modifyAt_id names item]
  exact h.modifyAt proper fun _ _ same => keeps same

theorem restamp (h : item.Mirrors first tree) {f : Stamp → Stamp}
    (keeps : ∀ s, (f s).id = s.id) : item.Mirrors first (tree.restamp f) := by
  cases h with
  | file same =>
      refine .file ?_
      rw [keeps]
      exact same
  | dir below => exact .dir below

/-- New content in a file. -/
theorem commit (h : item.Mirrors first tree) (now : Time) (content : Bytes) :
    (item.setData content).Mirrors first (tree.commit now content) := by
  cases h with
  | file same => exact .file same
  | dir below => exact .dir below

/-- A new child under a free name. -/
theorem addChild {inode mode : Nat} {children : List (String × Item)} {stamp : Stamp}
    {rows : Registry String FileTree} {name : String} {new : Item} {new' : FileTree}
    (h : (Item.dir inode mode children).Mirrors first (.directory stamp rows))
    (free : rows.get? name = none) (related : new.Mirrors first new') :
    (Item.addChild name new (.dir inode mode children)).Mirrors first
      ((FileTree.directory stamp rows).withChild name new') := by
  cases h with
  | dir below =>
      refine .dir ?_
      rw [Registry.insert, Registry.erase_of_get?_eq_none free]
      exact List.rel_append below (.cons (.mk related) .nil)

theorem dropChild (h : item.Mirrors first tree) (name : String) :
    (Item.dropChild name item).Mirrors first (tree.withoutChild name) := by
  cases h with
  | file same => exact .file same
  | dir below => exact .dir (Registry.filter_ne_rel below name)

end Item.Mirrors

/-! ## Lookup -/

namespace World

variable {w : World} {first : Nat}

/-- A lookup below a place that mirrors a tree ends where the names lead in the tree. -/
theorem descend_of_mirrors {here : Place} {item : Item} {tree : FileTree} {names : List String}
    (followLast : Bool) (found : w.at? here = some item) (mirrors : item.Mirrors first tree)
    (fits : ∀ name ∈ names, HostName name) :
    w.descend followLast here names
      = if (tree.walk names).isSome then .arrived (here ++ names)
        else .failed (tree.obstacle names) := by
  induction names generalizing here item tree with
  | nil =>
      rw [FileTree.walk_nil, descend, List.append_nil]
      rfl
  | cons name rest ih =>
      rw [descend, found]
      cases mirrors with
      | file same => rfl
      | @dir inode mode children stamp rows below =>
          have isDir : w.DirAt here children := ⟨inode, mode, found⟩
          have host := fits name (List.mem_cons_self ..)
          have stay : ¬(name = "" ∨ name = ".") :=
            not_or.mpr ⟨host.isName.ne_empty, host.isName.ne_dot⟩
          simp only [if_neg stay, if_neg host.isName.ne_dots, if_neg (Nat.not_lt.mpr host.short)]
          rw [FileTree.walk_directory_cons, FileTree.obstacle, FileTree.blocked_directory_cons]
          rcases Item.Mirrors.child? below name with
            ⟨none, none'⟩ | ⟨child, sub, some, some', related⟩
          · rw [none, none']
            rfl
          · have there : w.at? (here ++ [name]) = Option.some child := by
              rw [isDir.at?_snoc, some]
            have goesOn := ih there related fun other m => fits other (List.mem_cons_of_mem _ m)
            rw [List.append_assoc] at goesOn
            rw [some, some']
            cases child with
            | link inode target => cases related
            | file inode mode data => exact goesOn
            | dir inode mode children => exact goesOn

end World

/-! ## What both tell -/

/-- An entry without what the two stores keep in their own ways: permissions, times, digest
and counters. -/
def Entry.outline (e : Entry) : Entry :=
  { e with permissions := "", times := .at 0, checksum := none, accessCount := 0, modifyCount := 0 }

theorem Entry.outline_sortByName {left right : List Entry}
    (same : left.map outline = right.map outline) :
    (sortByName left).map outline = (sortByName right).map outline := by
  have byName : ∀ entries : List Entry,
      (sortByName entries).map outline = sortByName (entries.map outline) :=
    fun entries => List.map_mergeSort fun _ _ _ _ => rfl
  rw [byName, byName, same]

/-- Totals with some entries counted. -/
def Usage.counting (u : Usage) (entries : List Entry) : Usage :=
  { u with
    files := u.files + entries.countP Entry.isFile
    directories := u.directories + entries.countP Entry.isDir
    totalBytes := u.totalBytes + ((entries.filter Entry.isFile).map Entry.size).sum }

theorem Usage.counting_append (u : Usage) (left right : List Entry) :
    u.counting (left ++ right) = (u.counting left).counting right := by
  simp only [counting, List.countP_append, List.filter_append, List.map_append, List.sum_append,
    Nat.add_assoc]

namespace Item.Mirrors

variable {first : Nat} {item : Item} {tree : FileTree}

theorem outline_eq (h : item.Mirrors first tree) {names : List String} (hn : Path.AllNames names) :
    (Entry.ofItem (Path.render names) item).outline = (tree.entry names).outline := by
  cases h with
  | file same =>
      rw [Entry.ofItem, Path.fileName_render hn]
      rfl
  | dir below =>
      rw [Entry.ofItem, Path.fileName_render hn]
      rfl

/-- The children of a directory tell the same. -/
theorem outlines_eq {children : List (String × Item)} {rows : List (String × FileTree)}
    (h : List.Forall₂ (Registry.RowRel (Item.Mirrors first)) children rows) {names : List String}
    (hn : Path.AllNames names) (hrows : Path.AllNames (rows.map (·.1))) :
    (children.map fun (name, item) => Entry.ofItem (Path.join (Path.render names) name) item).map
        Entry.outline
      = (rows.map fun (name, sub) => FileTree.entry (names ++ [name]) sub).map Entry.outline := by
  induction h with
  | nil => rfl
  | cons row _ ih =>
      cases row with
      | @mk name item sub related =>
          obtain ⟨hname, hrest⟩ := Path.allNames_cons.mp hrows
          simp only [List.map_cons, Path.join_render hn, related.outline_eq (hn.snoc hname)]
          rw [← ih hrest]
          simp only [Path.join_render hn]

mutual

/-- The totals of an item are those of the entries of the tree. -/
theorem tally_eq {item : Item} {tree : FileTree} (h : item.Mirrors first tree)
    (names : List String) (u : Usage) : item.tally u = u.counting (tree.entries names) := by
  cases h with
  | @file inode mode data stamp same =>
      rw [Item.tally, FileTree.entries]
      rfl
  | @dir inode mode children stamp rows below =>
      have counted := tallyAll_eq below names { u with directories := u.directories + 1 }
      rw [Item.tally, FileTree.entries, counted, FileTree.entriesIn, ← List.singleton_append,
        Usage.counting_append]
      rfl
termination_by sizeOf item

theorem tallyAll_eq {children : List (String × Item)} {rows : List (String × FileTree)}
    (h : List.Forall₂ (Registry.RowRel (Item.Mirrors first)) children rows)
    (names : List String) (u : Usage) :
    Item.tallyAll u children = u.counting (FileTree.entriesOf names rows) := by
  cases h with
  | nil => rfl
  | cons row rest =>
      cases row with
      | @mk name item tree related =>
          rw [Item.tallyAll, Item.tallyChild, FileTree.entriesOf, Usage.counting_append,
            tally_eq related (names ++ [name]), tallyAll_eq rest names]
termination_by sizeOf children

end

end Item.Mirrors

end MountFs
