import MountFs.Proofs.Effect

/-!
# File trees

A `FileTree` is a file system as one thinks of it: a place is a file with its content
or a directory with a finite map from names to places.  Paths are lists of names, and a
place is found by walking down name by name (`walk`).  A walk fails at a name that a
directory does not have, and at any name once it stands on a file.

A place does not keep its name, its path, its size or its digest.  What it tells about
itself (`entry`) is worked out from its content and from the names that led to it.

A tree is changed at one place by `change`.  `walk_change_append` says what a walk finds
at and below that place, and `node_change` that nothing can be told apart anywhere else.
-/

namespace MountFs

/-- What a place keeps besides its content. -/
structure Stamp where
  /-- Its identity. -/
  id : Nat
  /-- The permission text. -/
  permissions : String
  /-- When it was made, changed and read. -/
  times : Times
  /-- How many reads it has seen. -/
  accessCount : Nat
  /-- How many commits it has seen. -/
  modifyCount : Nat
deriving DecidableEq, Repr, Inhabited

namespace Stamp

/-- The stamp of a new place. -/
def fresh (id : Nat) (permissions : String) (now : Time) : Stamp :=
  ⟨id, permissions, .at now, 0, 0⟩

/-- The stamp after a change. -/
def touch (now : Time) (s : Stamp) : Stamp := { s with times := { s.times with modified := now } }

/-- The stamp after a read. -/
def noteRead (now : Time) (s : Stamp) : Stamp :=
  { s with times := { s.times with accessed := now }, accessCount := s.accessCount + 1 }

/-- The stamp after a commit. -/
def noteCommit (now : Time) (s : Stamp) : Stamp :=
  { s with times := { s.times with modified := now }, modifyCount := s.modifyCount + 1 }

end Stamp

/-- A file, or a directory with a map from names to places. -/
inductive FileTree where
  | file (stamp : Stamp) (data : Bytes)
  | directory (stamp : Stamp) (children : Registry String FileTree)

namespace FileTree

/-! ## What a place tells -/

/-- The stamp of a place. -/
def stamp : FileTree → Stamp
  | .file stamp _ => stamp
  | .directory stamp _ => stamp

/-- The content of a place, empty for a directory. -/
def content : FileTree → Bytes
  | .file _ data => data
  | .directory _ _ => []

/-- What a place tells about itself when it is reached by `names`. -/
def entry (names : List String) : FileTree → Entry
  | .file s data =>
      ⟨names.getLastD "", Path.render names, .regular, data.length, s.permissions, s.times,
        some (Digest.hex data), s.accessCount, s.modifyCount⟩
  | .directory s _ =>
      ⟨names.getLastD "", Path.render names, .directory, 0, s.permissions, s.times, none,
        s.accessCount, s.modifyCount⟩

mutual

/-- What all places of a tree tell, a directory before what is in it. -/
def entries (names : List String) : FileTree → List Entry
  | .file s data => [entry names (.file s data)]
  | .directory s children => entry names (.directory s children) :: entriesIn names children

/-- What all places in a directory tell. -/
def entriesIn (names : List String) : Registry String FileTree → List Entry
  | ⟨rows⟩ => entriesOf names rows

/-- What all places in some rows of a directory tell. -/
def entriesOf (names : List String) : List (String × FileTree) → List Entry
  | [] => []
  | (name, t) :: rest => entries (names ++ [name]) t ++ entriesOf names rest

end

/-! ## Walking and changing -/

/-- The place that names lead to. -/
def walk : FileTree → List String → Option FileTree
  | t, [] => some t
  | .file _ _, _ :: _ => none
  | .directory _ children, name :: rest => (children.get? name).bind fun t => walk t rest

/-- The tree with the place at some names changed.  Without such a place nothing
changes. -/
def change (f : FileTree → FileTree) : FileTree → List String → FileTree
  | t, [] => f t
  | .file s data, _ :: _ => .file s data
  | .directory s children, name :: rest =>
      .directory s (children.adjust name fun t => change f t rest)

/-- The place with its stamp changed. -/
def restamp (f : Stamp → Stamp) : FileTree → FileTree
  | .file s data => .file (f s) data
  | .directory s children => .directory (f s) children

/-- The directory with a place put under a name. -/
def withChild : FileTree → String → FileTree → FileTree
  | .file s data, _, _ => .file s data
  | .directory s children, name, new => .directory s (children.insert name new)

/-- The directory without the place under a name. -/
def withoutChild : FileTree → String → FileTree
  | .file s data, _ => .file s data
  | .directory s children, name => .directory s (children.erase name)

/-- The file with new content. -/
def commit (now : Time) (content : Bytes) : FileTree → FileTree
  | .file s _ => .file (s.noteCommit now) content
  | .directory s children => .directory s children

/-- Trees in which every directory maps each of its names, all of them proper names, to
one place. -/
inductive Proper : FileTree → Prop
  | file {s : Stamp} {data : Bytes} : Proper (.file s data)
  | directory {s : Stamp} {children : Registry String FileTree} (nodup : children.keys.Nodup)
      (names : Path.AllNames children.keys)
      (below : ∀ {name t}, children.get? name = some t → Proper t) :
      Proper (.directory s children)

/-! ## Walks -/

@[simp] theorem walk_nil (t : FileTree) : t.walk [] = some t := by
  cases t <;> rfl

@[simp] theorem walk_file_cons (s : Stamp) (data : Bytes) (name : String) (rest : List String) :
    (file s data).walk (name :: rest) = none := rfl

@[simp] theorem walk_directory_cons (s : Stamp) (children : Registry String FileTree)
    (name : String) (rest : List String) :
    (directory s children).walk (name :: rest)
      = (children.get? name).bind fun t => t.walk rest := rfl

theorem walk_append (t : FileTree) (names rest : List String) :
    t.walk (names ++ rest) = (t.walk names).bind fun sub => sub.walk rest := by
  induction names generalizing t with
  | nil => simp
  | cons name names ih =>
      cases t with
      | file s data => simp
      | directory s children =>
          rw [List.cons_append, walk_directory_cons, walk_directory_cons]
          cases children.get? name with
          | none => rfl
          | some sub => exact ih sub

theorem walk_snoc (t : FileTree) (names : List String) (name : String) :
    t.walk (names ++ [name]) = (t.walk names).bind fun sub => sub.walk [name] :=
  walk_append t names [name]

/-- Only a directory has something below it. -/
theorem exists_directory_of_walk_snoc {t sub : FileTree} {names : List String} {name : String}
    (h : t.walk (names ++ [name]) = some sub) :
    ∃ s children, t.walk names = some (.directory s children) ∧ children.get? name = some sub := by
  rw [walk_snoc] at h
  obtain ⟨dir, hdir, hsub⟩ := Option.bind_eq_some_iff.mp h
  cases dir with
  | file s data => simp at hsub
  | directory s children =>
      rw [walk_directory_cons] at hsub
      obtain ⟨found, hfound, he⟩ := Option.bind_eq_some_iff.mp hsub
      rw [walk_nil] at he
      exact ⟨s, children, hdir, hfound.trans he⟩

theorem change_nil (f : FileTree → FileTree) (t : FileTree) : change f t [] = f t := by
  cases t <;> rfl

theorem change_directory_cons (f : FileTree → FileTree) (s : Stamp)
    (children : Registry String FileTree) (name : String) (rest : List String) :
    change f (directory s children) (name :: rest)
      = .directory s (children.adjust name fun t => change f t rest) := rfl

/-- At and below the place that was changed, a walk goes through the changed place. -/
theorem walk_change_append (f : FileTree → FileTree) (t : FileTree) (names rest : List String) :
    (change f t names).walk (names ++ rest)
      = (t.walk names).bind fun sub => (f sub).walk rest := by
  induction names generalizing t with
  | nil => simp [change_nil]
  | cons name names ih =>
      cases t with
      | file s data => rfl
      | directory s children =>
          rw [change_directory_cons, List.cons_append, walk_directory_cons, walk_directory_cons,
            Registry.get?_adjust, if_pos rfl]
          cases children.get? name with
          | none => rfl
          | some sub => exact ih sub

/-! ## Nodes -/

/-- A place reached by `names`, as a flat registry keeps it. -/
def node (names : List String) (t : FileTree) : MemoryNode :=
  ⟨t.stamp.id, t.entry names, t.content⟩

/-- What a flat registry keeps for the place at `names`. -/
def nodeAt (t : FileTree) (names : List String) : Option MemoryNode :=
  (t.walk names).map (node names)

theorem entry_path (names : List String) (t : FileTree) :
    (t.entry names).path = Path.render names := by
  cases t <;> rfl

theorem entry_name (names : List String) (t : FileTree) :
    (t.entry names).name = names.getLastD "" := by
  cases t <;> rfl

/-- Away from the place that was changed, and above it, nothing can be told apart. -/
theorem node_change (f : FileTree → FileTree) (t : FileTree) {names other : List String}
    (away : ¬names <+: other) (told : List String) :
    ((change f t names).walk other).map (node told) = (t.walk other).map (node told) := by
  induction names generalizing t other with
  | nil => exact absurd (List.nil_prefix) away
  | cons name names ih =>
      cases t with
      | file s data => rfl
      | directory s children =>
          rw [change_directory_cons]
          cases other with
          | nil =>
              rw [walk_nil, walk_nil]
              rfl
          | cons next other =>
              rw [walk_directory_cons, walk_directory_cons]
              by_cases same : next = name
              · subst same
                rw [Registry.get?_adjust, if_pos rfl]
                cases children.get? next with
                | none => rfl
                | some sub => exact ih sub fun h => away (List.cons_prefix_cons.mpr ⟨rfl, h⟩)
              · rw [Registry.get?_adjust, if_neg same]

theorem nodeAt_change_away (f : FileTree → FileTree) (t : FileTree)
    {names other : List String} (away : ¬names <+: other) :
    (change f t names).nodeAt other = t.nodeAt other :=
  node_change f t away other

theorem nodeAt_change_append (f : FileTree → FileTree) (t : FileTree) (names rest : List String) :
    (change f t names).nodeAt (names ++ rest)
      = (t.walk names).bind fun sub => ((f sub).walk rest).map (node (names ++ rest)) := by
  rw [nodeAt, walk_change_append]
  cases t.walk names with
  | none => rfl
  | some sub => rfl

/-- A place with nothing in it. -/
def Bare (t : FileTree) : Prop := ∀ name rest, t.walk (name :: rest) = none

theorem bare_file (s : Stamp) (data : Bytes) : (file s data).Bare := fun _ _ => rfl

theorem bare_directory {s : Stamp} {children : Registry String FileTree}
    (h : children.keys = []) : (directory s children).Bare := by
  intro name rest
  have gone : children.get? name = none := Registry.not_mem_keys_iff.mp (by simp [h])
  rw [walk_directory_cons, gone]
  rfl

/-- Changing what a place says and not what is below it shows at that place only. -/
theorem nodeAt_change_self {t : FileTree} {names : List String} {f : FileTree → FileTree}
    (keeps : ∀ sub name rest, (f sub).walk (name :: rest) = sub.walk (name :: rest))
    (other : List String) :
    (t.change f names).nodeAt other
      = if other = names then (t.walk names).map fun sub => node names (f sub)
        else t.nodeAt other := by
  by_cases below : names <+: other
  · obtain ⟨rest, rfl⟩ := below
    rw [nodeAt_change_append]
    cases rest with
    | nil =>
        rw [List.append_nil, if_pos rfl]
        cases t.walk names with
        | none => rfl
        | some sub => simp
    | cons name rest =>
        rw [if_neg (by simp), nodeAt, walk_append]
        cases t.walk names with
        | none => rfl
        | some sub => simp [keeps]
  · rw [nodeAt_change_away f t below, if_neg]
    rintro rfl
    exact below List.prefix_rfl

/-- Putting a bare place under a name of a directory, or taking one away, shows at the
directory and at the name only. -/
theorem nodeAt_change_child {t : FileTree} {dir : List String} {name : String} {s s' : Stamp}
    {children children' : Registry String FileTree} {f : FileTree → FileTree}
    {new : Option FileTree} (found : t.walk dir = some (.directory s children))
    (changed : f (.directory s children) = .directory s' children')
    (edited : ∀ n, children'.get? n = if n = name then new else children.get? n)
    (oldBare : ∀ {sub}, children.get? name = some sub → sub.Bare)
    (newBare : ∀ {sub}, new = some sub → sub.Bare) (other : List String) :
    (t.change f dir).nodeAt other
      = if other = dir ++ [name] then new.map (node other)
        else if other = dir then some (node dir (.directory s' children'))
        else t.nodeAt other := by
  by_cases below : dir <+: other
  · obtain ⟨rest, rfl⟩ := below
    rw [nodeAt_change_append, found, Option.bind_some, changed]
    cases rest with
    | nil => simp
    | cons n rest =>
        have notDir : dir ++ n :: rest ≠ dir := by simp
        rw [walk_directory_cons, edited, if_neg notDir, nodeAt, walk_append, found,
          Option.bind_some, walk_directory_cons]
        by_cases same : n = name
        · subst same
          rw [if_pos rfl]
          cases rest with
          | nil =>
              rw [if_pos rfl]
              cases new with
              | none => rfl
              | some sub => simp
          | cons next rest =>
              -- Below the name there was nothing before and there is nothing now.
              rw [if_neg (by simp)]
              have old : (children.get? n).bind (fun sub => sub.walk (next :: rest)) = none := by
                cases hold : children.get? n with
                | none => rfl
                | some sub => exact oldBare hold next rest
              have now : new.bind (fun sub => sub.walk (next :: rest)) = none := by
                cases hnew : new with
                | none => rfl
                | some sub => exact newBare hnew next rest
              rw [old, now]
        · rw [if_neg same, if_neg]
          intro eq
          simp only [List.append_cancel_left_eq, List.cons.injEq] at eq
          exact same eq.1
  · rw [nodeAt_change_away f t below, if_neg, if_neg]
    · rintro rfl
      exact below List.prefix_rfl
    · rintro rfl
      exact below (List.prefix_append ..)

/-! ## Proper trees -/

theorem Proper.walk {t sub : FileTree} (h : t.Proper) {names : List String}
    (found : t.walk names = some sub) : sub.Proper := by
  induction names generalizing t with
  | nil =>
      rw [walk_nil] at found
      cases found
      exact h
  | cons name rest ih =>
      cases h with
      | file => cases found
      | directory nodup names below =>
          rw [walk_directory_cons] at found
          obtain ⟨child, hchild, hsub⟩ := Option.bind_eq_some_iff.mp found
          exact ih (below hchild) hsub

theorem Proper.allNames {t sub : FileTree} (h : t.Proper) {names : List String}
    (found : t.walk names = some sub) : Path.AllNames names := by
  induction names generalizing t with
  | nil => exact Path.allNames_nil
  | cons name rest ih =>
      cases h with
      | file => cases found
      | directory nodup names below =>
          rw [walk_directory_cons] at found
          obtain ⟨child, hchild, hsub⟩ := Option.bind_eq_some_iff.mp found
          have hname := names name (Registry.mem_keys_iff.mpr ⟨child, hchild⟩)
          exact Path.allNames_cons.mpr ⟨hname, ih (below hchild) hsub⟩

theorem Proper.change {t : FileTree} (h : t.Proper) {names : List String}
    {f : FileTree → FileTree}
    (keeps : ∀ {sub}, t.walk names = some sub → sub.Proper → (f sub).Proper) :
    (change f t names).Proper := by
  induction names generalizing t with
  | nil =>
      rw [change_nil]
      exact keeps (walk_nil t) h
  | cons name rest ih =>
      cases h with
      | file => exact .file
      | @directory s children nodup names below =>
          rw [change_directory_cons]
          refine .directory (Registry.nodup_keys_adjust nodup _ _) ?_ ?_
          · rw [Registry.keys_adjust]
            exact names
          · intro other sub found
            obtain ⟨old, hold, rfl⟩ := Registry.get?_adjust_eq_some.mp found
            split
            next same =>
              subst same
              refine ih (below hold) fun hsub => keeps ?_
              rw [walk_directory_cons, hold]
              exact hsub
            next => exact below hold

theorem Proper.restamp {t : FileTree} (h : t.Proper) (f : Stamp → Stamp) :
    (t.restamp f).Proper := by
  cases h with
  | file => exact .file
  | directory nodup names below => exact .directory nodup names below

theorem Proper.commit {t : FileTree} (h : t.Proper) (now : Time) (content : Bytes) :
    (t.commit now content).Proper := by
  cases h with
  | file => exact .file
  | directory nodup names below => exact .directory nodup names below

theorem Proper.withChild {t new : FileTree} (h : t.Proper) {name : String}
    (hname : Path.IsName name) (hnew : new.Proper) : (t.withChild name new).Proper := by
  cases h with
  | file => exact .file
  | directory nodup names below =>
      refine .directory (Registry.nodup_keys_insert nodup _ _) ?_ ?_
      · intro other found
        obtain ⟨sub, hsub⟩ := Registry.mem_keys_iff.mp found
        rcases Registry.get?_insert_eq_some.mp hsub with ⟨rfl, _⟩ | ⟨_, old⟩
        · exact hname
        · exact names other (Registry.mem_keys_iff.mpr ⟨sub, old⟩)
      · intro other sub found
        rcases Registry.get?_insert_eq_some.mp found with ⟨_, rfl⟩ | ⟨_, old⟩
        · exact hnew
        · exact below old

theorem Proper.withoutChild {t : FileTree} (h : t.Proper) (name : String) :
    (t.withoutChild name).Proper := by
  cases h with
  | file => exact .file
  | directory nodup names below =>
      refine .directory (Registry.nodup_keys_erase nodup _) ?_ ?_
      · intro other found
        obtain ⟨sub, hsub⟩ := Registry.mem_keys_iff.mp found
        exact names other (Registry.mem_keys_iff.mpr ⟨sub, (Registry.get?_erase_eq_some.mp hsub).2⟩)
      · intro other sub found
        exact below (Registry.get?_erase_eq_some.mp found).2

/-! ## All entries of a tree -/

theorem entriesOf_eq_flatMap (names : List String) (rows : List (String × FileTree)) :
    entriesOf names rows = rows.flatMap fun row => row.2.entries (names ++ [row.1]) :=
  Registry.eq_flatMap_of_rows (by rw [entriesOf]) (fun _ _ => by rw [entriesOf]) rows

theorem mem_entriesOf {names : List String} {rows : List (String × FileTree)} {e : Entry} :
    e ∈ entriesOf names rows ↔ ∃ name t, (name, t) ∈ rows ∧ e ∈ t.entries (names ++ [name]) := by
  rw [entriesOf_eq_flatMap, List.mem_flatMap, Prod.exists]

/-- The entries of a tree are those of the places that walks find. -/
theorem Proper.mem_entries {t : FileTree} (h : t.Proper) {names : List String} {e : Entry} :
    e ∈ t.entries names ↔
      ∃ rest sub, t.walk rest = some sub ∧ e = sub.entry (names ++ rest) := by
  induction h generalizing names with
  | @file s data =>
      rw [entries, List.mem_singleton]
      constructor
      · intro he
        exact ⟨[], .file s data, walk_nil _, by rw [he, List.append_nil]⟩
      · rintro ⟨rest, sub, found, rfl⟩
        cases rest with
        | nil =>
            cases found
            rw [List.append_nil]
        | cons name rest => cases found
  | @directory s children nodup proper below ih =>
      rw [entries, List.mem_cons, entriesIn, mem_entriesOf]
      constructor
      · rintro (rfl | ⟨name, t, m, he⟩)
        · exact ⟨[], .directory s children, walk_nil _, by rw [List.append_nil]⟩
        · have hget := (Registry.mem_rows_iff nodup).mp m
          obtain ⟨rest, sub, found, rfl⟩ := (ih hget).mp he
          refine ⟨name :: rest, sub, ?_, by rw [List.append_assoc]; rfl⟩
          rw [walk_directory_cons, hget]
          exact found
      · rintro ⟨rest, sub, found, rfl⟩
        cases rest with
        | nil =>
            cases found
            exact Or.inl (by rw [List.append_nil])
        | cons name rest =>
            rw [walk_directory_cons] at found
            obtain ⟨t, hget, hsub⟩ := Option.bind_eq_some_iff.mp found
            refine Or.inr ⟨name, t, (Registry.mem_rows_iff nodup).mpr hget, (ih hget).mpr ?_⟩
            exact ⟨rest, sub, hsub, by rw [List.append_assoc]; rfl⟩

theorem entry_injective {left right : List String} {t t' : FileTree} (hl : Path.AllNames left)
    (hr : Path.AllNames right) (h : t.entry left = t'.entry right) : left = right := by
  refine Path.render_injective hl hr ?_
  rw [← entry_path left t, h, entry_path]

/-- A place in a directory tells other things than a place under another name. -/
theorem Proper.disjoint_entries {t t' : FileTree} (ht : t.Proper) (ht' : t'.Proper)
    {names : List String} {name name' : String} (hn : Path.AllNames names)
    (hname : Path.IsName name) (hname' : Path.IsName name') (differ : name ≠ name') {e : Entry}
    (he : e ∈ t.entries (names ++ [name])) : e ∉ t'.entries (names ++ [name']) := by
  intro he'
  obtain ⟨rest, sub, found, rfl⟩ := ht.mem_entries.mp he
  obtain ⟨rest', sub', found', same⟩ := ht'.mem_entries.mp he'
  have hl := Path.allNames_append.mpr ⟨hn.snoc hname, ht.allNames found⟩
  have hr := Path.allNames_append.mpr ⟨hn.snoc hname', ht'.allNames found'⟩
  have eq := entry_injective hl hr same
  simp only [List.append_assoc, List.append_cancel_left_eq, List.cons_append, List.nil_append,
    List.cons.injEq] at eq
  exact differ eq.1

/-- No two places of a tree tell the same. -/
theorem Proper.nodup_entries {t : FileTree} (h : t.Proper) {names : List String}
    (hn : Path.AllNames names) : (t.entries names).Nodup := by
  induction h generalizing names with
  | file =>
      simp [entries]
  | @directory s children nodup proper below ih =>
      obtain ⟨rows⟩ := children
      rw [entries, List.nodup_cons, entriesIn]
      constructor
      · intro m
        obtain ⟨name, t, hrow, he⟩ := mem_entriesOf.mp m
        have hget := (Registry.mem_rows_iff nodup).mp hrow
        obtain ⟨rest, sub, found, same⟩ := (below hget).mem_entries.mp he
        have hname := proper name (Registry.mem_keys_iff.mpr ⟨t, hget⟩)
        have hr := Path.allNames_append.mpr ⟨hn.snoc hname, (below hget).allNames found⟩
        have eq := entry_injective hn hr same
        simp at eq
      · -- The rows one by one: each is free of repetitions and tells nothing of the others.
        have rowsProper : ∀ row ∈ rows, Path.IsName row.1 ∧ row.2.Proper
            ∧ (row.2.entries (names ++ [row.1])).Nodup := by
          intro row m
          have hget := (Registry.mem_rows_iff nodup).mp m
          have hname := proper row.1 (Registry.mem_keys_iff.mpr ⟨row.2, hget⟩)
          exact ⟨hname, below hget, ih hget (hn.snoc hname)⟩
        clear ih below proper
        induction rows with
        | nil =>
            rw [entriesOf]
            exact List.nodup_nil
        | cons row rest ihr =>
            obtain ⟨name, t⟩ := row
            obtain ⟨hfirst, hrest⟩ := List.nodup_cons.mp nodup
            obtain ⟨hname, ht, hnodup⟩ := rowsProper (name, t) (List.mem_cons_self ..)
            rw [entriesOf, List.nodup_append]
            refine ⟨hnodup, ihr hrest fun row m => rowsProper row (List.mem_cons_of_mem _ m), ?_⟩
            intro e he e' he' same
            subst same
            obtain ⟨name', t', m, hin⟩ := mem_entriesOf.mp he'
            obtain ⟨hname', ht', _⟩ := rowsProper (name', t') (List.mem_cons_of_mem _ m)
            refine ht.disjoint_entries ht' hn hname hname' ?_ he hin
            rintro rfl
            exact hfirst (List.mem_map.mpr ⟨(name, t'), m, rfl⟩)

end FileTree

end MountFs
