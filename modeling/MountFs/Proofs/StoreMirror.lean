import MountFs.Proofs.HostMirror

/-!
# A store on the host that mirrors a tree

`HostStore.Mirrors` relates a store on the host to a `TreeStore`.  The root of the one
mirrors the tree of the other, the tables of handles are the same but for the identities of
the files, and everything else is shared.

Below a root that mirrors a tree there are no links.  So the check before an operation lets
every path through (`confine_eq`), and what the host tells about a path is what the tree has
there (`metadata_eq`).  What the host cannot take is left out: names with a NUL in them, and
names and texts that are too long (`HostPath`).

Outcomes of the two are compared by `Outcome.Alike`.  They differ in one point.  If a file
stands where a path needs a directory, the host says so, and the tree says that there is
nothing at the path.
-/

namespace MountFs

/-! ## Outcomes -/

/-- Two outcomes that succeed with related values, or fail with the same cause.  Where
something is in the way both fail, and say different things about the path. -/
inductive Outcome.Alike {α β : Type} (blocked : Prop) (R : α → β → Prop) :
    Outcome α → Outcome β → Prop
  | returned (free : ¬blocked) {a : α} {b : β} (related : R a b) :
      Outcome.Alike blocked R (.ok a) (.ok b)
  | failed (free : ¬blocked) (e : FsError) : Outcome.Alike blocked R (.error e) (.error e)
  | obstructed (way : blocked) (path : String) :
      Outcome.Alike blocked R (.error (.notADirectory path)) (.error (.notFound path))

namespace Outcome.Alike

variable {α β γ δ : Type} {blocked : Prop} {R : α → β → Prop} {S : γ → δ → Prop}
  {x : Outcome α} {y : Outcome β}

theorem bind {f : α → Outcome γ} {g : β → Outcome δ} (h : Outcome.Alike blocked R x y)
    (next : ∀ {a b}, ¬blocked → R a b → Outcome.Alike blocked S (f a) (g b)) :
    Outcome.Alike blocked S (x >>= f) (y >>= g) := by
  cases h with
  | returned free related => exact next free related
  | failed free e => exact .failed free e
  | obstructed way path => exact .obstructed way path

theorem map (h : Outcome.Alike blocked R x y) {f : α → γ} {g : β → δ}
    (keeps : ∀ {a b}, R a b → S (f a) (g b)) : Outcome.Alike blocked S (x.map f) (y.map g) := by
  cases h with
  | returned free related => exact .returned free (keeps related)
  | failed free e => exact .failed free e
  | obstructed way path => exact .obstructed way path

/-- Related in one way, and then in another. -/
theorem imp {S : α → β → Prop} (h : Outcome.Alike blocked R x y)
    (next : ∀ {a b}, y = .ok b → R a b → S a b) : Outcome.Alike blocked S x y := by
  cases h with
  | returned free related => exact .returned free (next rfl related)
  | failed free e => exact .failed free e
  | obstructed way path => exact .obstructed way path

theorem isOk_eq (h : Outcome.Alike blocked R x y) : x.isOk = y.isOk := by
  cases h with
  | returned free related => rfl
  | failed free e => rfl
  | obstructed way path => rfl

end Outcome.Alike

/-! ## Tables of handles -/

/-- A session of the store on the host and one of the tree: the same but for the identity
of the file. -/
inductive Handle.Mirrors (first : Nat) : Handle → Handle → Prop
  | mk {id : HandleId} {path : String} {inode entryId : Nat} {mode : OpenMode} {cursor : Nat}
      {buffer : Bytes} (same : inode + 2 = entryId + first) :
      Handle.Mirrors first ⟨id, path, inode, mode, cursor, buffer⟩
        ⟨id, path, entryId, mode, cursor, buffer⟩

namespace Handle.Mirrors

variable {first : Nat} {h k : Handle} {blocked : Prop}

theorem read (m : h.Mirrors first k) (free : ¬blocked) (size : Option Nat) :
    Outcome.Alike blocked (fun x y => x.1.Mirrors first y.1 ∧ x.2 = y.2) (h.read size)
      (k.read size) := by
  cases m with
  | mk same =>
      unfold Handle.read
      dsimp only
      split
      · exact .returned free ⟨.mk same, rfl⟩
      · exact .failed free _

theorem write (m : h.Mirrors first k) (free : ¬blocked) (limits : Limits) (data : Bytes) :
    Outcome.Alike blocked (fun x y => x.1.Mirrors first y.1 ∧ x.2 = y.2) (h.write limits data)
      (k.write limits data) := by
  cases m with
  | @mk id path inode entryId mode cursor buffer same =>
      unfold Handle.write
      dsimp only
      split
      · exact .failed free _
      · have start : writeStart ⟨id, path, inode, mode, cursor, buffer⟩
            = writeStart ⟨id, path, entryId, mode, cursor, buffer⟩ := rfl
        rw [start]
        generalize writeStart ⟨id, path, entryId, mode, cursor, buffer⟩ + data.length = stop
        cases limits.checkFileSize path stop with
        | error e => exact .failed free e
        | ok _ =>
            cases buffer.checkRoom stop with
            | error e => exact .failed free e
            | ok _ => exact .returned free ⟨.mk same, rfl⟩

theorem seek (m : h.Mirrors first k) (free : ¬blocked) (offset : Nat) :
    Outcome.Alike blocked (fun x y => x.1.Mirrors first y.1 ∧ x.2 = y.2) (h.seek offset)
      (k.seek offset) := by
  cases m with
  | mk same =>
      unfold Handle.seek
      dsimp only
      split
      · exact .failed free _
      · exact .returned free ⟨.mk same, rfl⟩

end Handle.Mirrors

/-- The tables of the two stores. -/
structure Handles.Mirrors (first : Nat) (host tree : Handles) : Prop where
  live : List.Forall₂ (Registry.RowRel (Handle.Mirrors first)) host.live.rows tree.live.rows
  nextId : host.nextId = tree.nextId
  maxOpen : host.maxOpen = tree.maxOpen

namespace Handles.Mirrors

variable {first : Nat} {host tree : Handles} {blocked : Prop}

theorem get (m : host.Mirrors first tree) (free : ¬blocked) (id : HandleId) :
    Outcome.Alike blocked (Handle.Mirrors first) (host.get id) (tree.get id) := by
  unfold Handles.get Registry.get?
  rcases Registry.find_rel m.live id with ⟨none, none'⟩ | ⟨h, k, some, some', related⟩
  · rw [none, none']
    exact .failed free _
  · rw [some, some']
    exact .returned free related

theorem without (m : host.Mirrors first tree) (id : HandleId) :
    (host.without id).Mirrors first (tree.without id) :=
  ⟨Registry.filter_ne_rel m.live id, m.nextId, m.maxOpen⟩

theorem remove (m : host.Mirrors first tree) (free : ¬blocked) (id : HandleId) :
    Outcome.Alike blocked (fun x y => x.1.Mirrors first y.1 ∧ x.2.Mirrors first y.2)
      (host.remove id) (tree.remove id) :=
  (m.get free id).bind fun _ related => .returned free ⟨m.without id, related⟩

theorem put (m : host.Mirrors first tree) (nodup : tree.live.keys.Nodup) {h k : Handle}
    (related : h.Mirrors first k) : (host.put h).Mirrors first (tree.put k) := by
  refine ⟨?_, m.nextId, m.maxOpen⟩
  cases related with
  | mk same => exact Registry.map_adjust_rel m.live nodup _ _ fun _ _ _ => .mk same

/-- A use of a handle that goes alike on both sides goes alike on the tables. -/
theorem use (m : host.Mirrors first tree) (free : ¬blocked) (nodup : tree.live.keys.Nodup)
    {α : Type} {f g : Handle → Outcome (Handle × α)}
    (alike : ∀ {h k}, h.Mirrors first k →
      Outcome.Alike blocked (fun x y => x.1.Mirrors first y.1 ∧ x.2 = y.2) (f h) (g k))
    (id : HandleId) :
    Outcome.Alike blocked (fun x y => x.1.Mirrors first y.1 ∧ x.2 = y.2)
      (host.get id >>= fun h => f h >>= fun used => .ok (host.put used.1, used.2))
      (tree.get id >>= fun k => g k >>= fun used => .ok (tree.put used.1, used.2)) :=
  (m.get free id).bind fun _ related =>
    (alike related).bind fun _ later => .returned free ⟨m.put nodup later.1, later.2⟩

theorem count_eq (m : host.Mirrors first tree) : host.count = tree.count := m.live.length_eq

theorem hasWriter_eq (m : host.Mirrors first tree) {inode entryId : Nat}
    (same : inode + 2 = entryId + first) (path : String) :
    host.hasWriter path inode = tree.hasWriter path entryId := by
  obtain ⟨⟨hostRows⟩, _, _⟩ := host
  obtain ⟨⟨treeRows⟩, _, _⟩ := tree
  have live : List.Forall₂ (Registry.RowRel (Handle.Mirrors first)) hostRows treeRows := m.live
  unfold Handles.hasWriter Registry.values
  clear m
  induction live with
  | nil => rfl
  | cons row _ ih =>
      cases row with
      | mk related =>
          cases related with
          | @mk id other inode' entryId' mode cursor buffer entry =>
              have identity : (inode' == inode) = (entryId' == entryId) := by
                rw [Bool.eq_iff_iff, beq_iff_eq, beq_iff_eq]
                omega
              simp only [List.map_cons, List.any_cons, ih, identity]

theorem add (m : host.Mirrors first tree) (free : ¬blocked) {inode entryId : Nat}
    (same : inode + 2 = entryId + first) (policy : WritePolicy) (path : String) (mode : OpenMode)
    (buffer : Bytes) :
    Outcome.Alike blocked (fun x y => x.1.Mirrors first y.1 ∧ x.2 = y.2)
      (host.add policy path inode mode buffer) (tree.add policy path entryId mode buffer) := by
  unfold Handles.add
  rw [m.count_eq, m.maxOpen, m.hasWriter_eq same, m.nextId]
  split
  · exact .failed free _
  · split
    · exact .failed free _
    · refine .returned free ⟨⟨?_, rfl, rfl⟩, rfl⟩
      exact List.rel_append (Registry.filter_ne_rel m.live _) (.cons (.mk (.mk same)) .nil)

end Handles.Mirrors

/-! ## Stores -/

/-- A path whose names the host takes: no NUL in them, and neither a name nor the whole text
below the root too long. -/
structure HostPath (root : Place) (path : String) : Prop where
  noNul : ∀ name ∈ Path.segments path, Char.ofNat 0 ∉ name.toList
  short : ∀ name ∈ Path.segments path, name.utf8ByteSize ≤ maxNameBytes
  fits : (Path.render (root ++ Path.segments path)).utf8ByteSize ≤ maxPathBytes

instance (root : Place) (path : String) : Decidable (HostPath root path) :=
  decidable_of_iff
    ((∀ name ∈ Path.segments path, Char.ofNat 0 ∉ name.toList)
      ∧ (∀ name ∈ Path.segments path, name.utf8ByteSize ≤ maxNameBytes)
      ∧ (Path.render (root ++ Path.segments path)).utf8ByteSize ≤ maxPathBytes)
    ⟨fun h => ⟨h.1, h.2.1, h.2.2⟩, fun h => ⟨h.noNul, h.short, h.fits⟩⟩

theorem Path.mem_renderChars {c : Char} (slash : c ≠ '/') (names : List String) :
    c ∈ renderChars names ↔ ∃ name ∈ names, c ∈ name.toList := by
  induction names with
  | nil => simp [renderChars]
  | cons name rest ih =>
      rw [renderChars, List.mem_append, List.mem_cons, ih]
      simp [slash]

theorem Path.mem_toList_render {c : Char} (slash : c ≠ '/') (names : List String) :
    c ∈ (render names).toList ↔ ∃ name ∈ names, c ∈ name.toList := by
  cases names with
  | nil => simp [render, root, slash]
  | cons name rest =>
      rw [← mem_renderChars slash]
      simp [render]

namespace HostStore

variable {s : HostStore} {w : World} {root : Place} {first : Nat} {t : TreeStore}
  {names : List String}

/-- The root stays its own canonical path when something at or below it changes and keeps
its kind. -/
theorem RootedAt.modifyAt (rooted : s.RootedAt w root) (place : Place) {change : Item → Item}
    (dirs : ∀ item, (change item).isDir = item.isDir)
    (links : ∀ item, (change item).isLink = item.isLink) :
    s.RootedAt (w.modifyAt (root ++ place) change) root := by
  obtain ⟨children, top⟩ := rooted.top
  obtain ⟨item, stands, plain⟩ := rooted.stands
  have found : (w.modifyAt (root ++ place) change).at? root
      = some (Item.modifyAt change place item) := by
    have changed := w.at?_modifyAt root (Item.modifyAt change place)
    rw [stands.found] at changed
    rw [World.modifyAt, Item.modifyAt_append]
    exact changed
  have stands' : (w.modifyAt (root ++ place) change).Stands root
      (Item.modifyAt change place item) := ⟨stands.names, found⟩
  have plain' : (Item.modifyAt change place item).isLink = false := by
    rw [Item.isLink_modifyAt links]
    exact plain
  have top' : ∃ rows, (w.modifyAt (root ++ place) change).DirAt [] rows := by
    obtain ⟨inode, mode, top⟩ := top
    have changed : (Item.modifyAt change (root ++ place) w.top).isDir = true := by
      rw [Item.isDir_modifyAt dirs, Option.some.inj ((Item.at?_nil w.top).symm.trans top)]
      rfl
    exact World.dirAt_nil_of_isDir changed
  obtain ⟨rows, top'⟩ := top'
  refine ⟨rooted.text, ?_⟩
  rw [rooted.text]
  exact World.lookup_place top' stands' plain' rooted.checkText_eq_ok

/-- Names that the host takes below the root. -/
structure Takes (root : Place) (names : List String) : Prop where
  each : ∀ name ∈ names, World.HostName name
  text : World.checkText (Path.render (root ++ names)) = .ok ()

theorem Takes.allNames (h : Takes root names) : Path.AllNames names :=
  fun name m => (h.each name m).isName

theorem Takes.front {dir : List String} {name : String} (h : Takes root (dir ++ [name])) :
    Takes root dir where
  each := fun other m => h.each other (List.mem_append_left _ m)
  text := by
    have text := h.text
    rw [← List.append_assoc] at text
    exact World.checkText_render_of_snoc text

theorem RootedAt.takes (rooted : s.RootedAt w root) {path : String} (h : HostPath root path) :
    Takes root (Path.segments path) where
  each := fun name m => ⟨Path.allNames_segments path name m, h.short name m⟩
  text := by
    have slash : Char.ofNat 0 ≠ '/' := by decide
    obtain ⟨rootNul, _, _⟩ := World.checkText_eq_ok_iff.mp rooted.checkText_eq_ok
    rw [Path.mem_toList_render slash] at rootNul
    refine World.checkText_eq_ok_iff.mpr ⟨?_, ?_, h.fits⟩
    · rw [Path.mem_toList_render slash]
      rintro ⟨name, m, nul⟩
      rcases List.mem_append.mp m with above | below
      · exact rootNul ⟨name, above, nul⟩
      · exact h.noNul name below nul
    · intro blank
      have absolute := Path.isAbsolute_render (root ++ Path.segments path)
      rw [blank] at absolute
      cases absolute

/-- A store on the host whose root mirrors a tree. -/
structure Mirrors (first : Nat) (root : Place) (s : HostStore) (w : World) (t : TreeStore) :
    Prop where
  rooted : s.RootedAt w root
  tree : ∃ item, w.at? root = some item ∧ item.Mirrors first t.root
  /-- The next inode and the next identity belong together. -/
  next : w.nextInode + 2 = t.nextNode + first
  handles : s.handles.Mirrors first t.handles
  /-- The paths of live handles are below the root, and the host takes them. -/
  paths : ∀ {id k}, t.handles.live.get? id = some k →
    k.path ≠ Path.root ∧ Takes root (Path.segments k.path)
  writable : s.readOnly = false
  limits : s.limits = t.limits
  policy : s.policy = t.policy

namespace Mirrors

/-! ## Lookups below the root -/

/-- The same names lead to related places, or to none. -/
theorem at? (m : s.Mirrors first root w t) (names : List String) :
    w.at? (root ++ names) = none ∧ t.root.walk names = none
      ∨ ∃ item sub, w.at? (root ++ names) = some item ∧ t.root.walk names = some sub
        ∧ item.Mirrors first sub := by
  obtain ⟨item, found, related⟩ := m.tree
  rw [World.at?_append, found]
  exact related.at? names

theorem walk_eq (m : s.Mirrors first root w t) (fits : ∀ name ∈ names, World.HostName name)
    (followLast : Bool) (links : Nat) :
    w.walk followLast links root names
      = if (t.root.walk names).isSome then .ok (root ++ names)
        else .error (t.root.obstacle names) := by
  obtain ⟨item, found, related⟩ := m.tree
  rw [World.walk_eq, World.descend_of_mirrors followLast found related fits]
  cases (t.root.walk names).isSome with
  | true => rfl
  | false => rfl

theorem lookup_eq (m : s.Mirrors first root w t) (takes : Takes root names) (followLast : Bool) :
    w.lookup followLast (s.hostText (Path.render names))
      = if (t.root.walk names).isSome then .ok (root ++ names)
        else .error (t.root.obstacle names) := by
  rw [m.rooted.hostText_render takes.allNames, m.rooted.lookup_render takes.allNames, takes.text]
  exact m.walk_eq takes.each followLast maxLinks

/-- What the host tells about names: where they lead in its tree, or why they do not. -/
theorem metadata_eq (m : s.Mirrors first root w t) (takes : Takes root names) :
    w.metadata (s.hostText (Path.render names))
      = match w.at? (root ++ names) with
        | some item => .ok item
        | none => .error (t.root.obstacle names) := by
  rw [World.metadata, m.lookup_eq takes]
  rcases m.at? names with ⟨free, none⟩ | ⟨item, sub, found, some, _⟩
  · rw [free, none]
    rfl
  · rw [some]
    simp only [Option.isSome_some, if_true, bind, Except.bind, found]

theorem linkMetadata_eq (m : s.Mirrors first root w t) (takes : Takes root names) :
    w.linkMetadata (s.hostText (Path.render names))
      = w.metadata (s.hostText (Path.render names)) := by
  rw [World.linkMetadata, World.metadata, m.lookup_eq takes, m.lookup_eq takes]

/-- Without links no path is refused by the check. -/
theorem confine_eq (m : s.Mirrors first root w t) {path : String}
    (takes : Takes root (Path.segments path)) : s.confine w path = Path.normalize path := by
  rw [confine]
  cases normal : Path.normalize path with
  | error e => rfl
  | ok p =>
      obtain ⟨_, rfl⟩ := Path.normalize_eq_ok_iff.mp normal
      have inside : ∀ names, s.checkUnder (root ++ names) = .ok () := by
        intro names
        exact m.rooted.checkUnder_eq_ok_iff.mpr (List.prefix_append ..)
      by_cases top : Path.segments path = []
      · rw [top]
        rfl
      · obtain ⟨dir, name, split, hdir, hname⟩ :=
          TreeStore.Represents.exists_snoc takes.allNames top
        rw [split] at takes top ⊢
        have below : ¬Path.render (dir ++ [name]) = Path.root := by
          rw [Path.render_eq_root_iff takes.allNames]
          exact top
        have parent : s.hostParent (Path.render (dir ++ [name]))
            = s.hostText (Path.render dir) := by
          rw [hostParent, Path.parent?_render_snoc hdir hname, Option.getD_some]
        simp only [bind, Except.bind, if_neg below, m.lookup_eq takes, parent,
          m.lookup_eq takes.front]
        cases (t.root.walk (dir ++ [name])).isSome with
        | true => simp [inside, pure, Except.pure]
        | false =>
            cases (t.root.walk dir).isSome with
            | true => simp [inside, pure, Except.pure]
            | false => simp [pure, Except.pure]

/-! ## Changes -/

/-- A change at the same names on both sides. -/
theorem tree_modifyAt (m : s.Mirrors first root w t) (proper : t.root.Proper)
    {f : Item → Item} {g : FileTree → FileTree}
    (keeps : ∀ {sub sub'}, w.at? (root ++ names) = some sub → t.root.walk names = some sub' →
      sub.Mirrors first sub' → (f sub).Mirrors first (g sub')) :
    ∃ item, (w.modifyAt (root ++ names) f).at? root = some item
      ∧ item.Mirrors first (t.root.change g names) := by
  obtain ⟨item, found, related⟩ := m.tree
  refine ⟨Item.modifyAt f names item, ?_, related.modifyAt proper ?_⟩
  · have changed := w.at?_modifyAt root (Item.modifyAt f names)
    rw [found] at changed
    rw [World.modifyAt, Item.modifyAt_append]
    exact changed
  · intro sub sub' there there' same
    refine keeps ?_ there' same
    rw [World.at?_append, found]
    exact there

/-- The directory and the name that the host works on. -/
theorem parentAndName_eq (m : s.Mirrors first root w t) {dir : List String} {name : String}
    (takes : Takes root (dir ++ [name])) {stamp : Stamp} {rows : Registry String FileTree}
    (found : t.root.walk dir = some (.directory stamp rows)) :
    w.parentAndName (s.hostText (Path.render (dir ++ [name]))) = .ok (root ++ dir, name)
      ∧ ∃ children, w.DirAt (root ++ dir) children
        ∧ ∃ inode mode, (Item.dir inode mode children).Mirrors first (.directory stamp rows) := by
  obtain ⟨_, top⟩ := m.rooted.top
  obtain ⟨item, stands, plain⟩ := m.rooted.stands
  rcases m.at? dir with ⟨_, none⟩ | ⟨item', sub, there, some, related⟩
  · rw [found] at none
    cases none
  · rw [found] at some
    cases some
    cases related with
    | @dir inode mode children _ _ below =>
        have all : Path.AllNames (root ++ dir ++ [name]) := by
          rw [List.append_assoc]
          exact Path.allNames_append.mpr ⟨m.rooted.allNames, takes.allNames⟩
        have text := takes.text
        have arrives : w.walk true maxLinks [] (root ++ dir) = .ok (root ++ dir) := by
          rw [World.walk_place stands plain, m.walk_eq takes.front.each, found]
          rfl
        rw [← List.append_assoc] at text
        rw [m.rooted.hostText_render takes.allNames, ← List.append_assoc]
        refine ⟨(World.parentAndName_render_snoc top all).mpr ?_, children, ⟨inode, mode, there⟩,
          inode, mode, .dir below⟩
        exact ⟨text, arrives, ⟨children, inode, mode, there⟩, (takes.each name (by simp)).short,
          rfl⟩

/-- Both stores get a new place. -/
theorem add (m : s.Mirrors first root w t) (proper : t.root.Proper) (takes : Takes root names)
    (free : t.checkFree names = .ok ()) (now : Time) (make : Nat → Item) {new : FileTree}
    (related : (make w.nextInode).Mirrors first new) :
    ∃ after, w.create (s.hostText (Path.render names)) make = .ok after
      ∧ s.Mirrors first root after (t.add now names new) := by
  obtain ⟨vacant, stamp, rows, found⟩ := TreeStore.Represents.checkFree_eq_ok_iff.mp free
  obtain ⟨dir, name, rfl, _, _⟩ :=
    TreeStore.Represents.exists_snoc takes.allNames (by rintro rfl; simp at vacant)
  rw [List.dropLast_concat] at found
  obtain ⟨parts, children, isDir, _⟩ := m.parentAndName_eq takes found
  have gone : rows.get? name = none := by
    rw [FileTree.walk_snoc, found, Option.bind_some, FileTree.walk_directory_cons] at vacant
    cases hsub : rows.get? name with
    | none => rfl
    | some sub => simp [hsub] at vacant
  have empty : w.at? (root ++ dir ++ [name]) = none := by
    rcases m.at? (dir ++ [name]) with ⟨free, _⟩ | ⟨_, _, _, some, _⟩
    · rw [List.append_assoc]
      exact free
    · rw [vacant] at some
      cases some
  refine ⟨w.addAt (root ++ dir) name make, ?_, ?_⟩
  · rw [World.create, parts]
    simp only [bind, Except.bind, empty]
  · refine ⟨m.rooted.growsTo (w.growsTo_addAt _ _ _) rfl, ?_, ?_, m.handles, m.paths, m.writable,
      m.limits, m.policy⟩
    · rw [TreeStore.add, List.dropLast_concat, List.getLastD_concat]
      refine m.tree_modifyAt proper fun there there' same => ?_
      rw [found] at there'
      cases there'
      cases same with
      | dir below => exact (Item.Mirrors.addChild (.dir below) gone related).restamp fun _ => rfl
    · have next := m.next
      simp only [World.addAt, TreeStore.add]
      omega

/-- Both stores lose a place with nothing in it. -/
theorem drop (m : s.Mirrors first root w t) (proper : t.root.Proper) (takes : Takes root names)
    (below : names ≠ []) {place : FileTree} (found : t.root.walk names = some place)
    (bare : ∀ stamp rows, place = .directory stamp rows → rows.keys = []) (now : Time) :
    ∃ after, w.remove (s.hostText (Path.render names)) = .ok after
      ∧ s.Mirrors first root after (t.drop now names) := by
  obtain ⟨dir, name, rfl, _, _⟩ := TreeStore.Represents.exists_snoc takes.allNames below
  obtain ⟨stamp, rows, foundDir, _⟩ := FileTree.exists_directory_of_walk_snoc found
  obtain ⟨parts, _⟩ := m.parentAndName_eq takes foundDir
  refine ⟨w.modifyAt (root ++ dir) (Item.dropChild name), ?_, ?_⟩
  · rcases m.at? (dir ++ [name]) with ⟨_, none⟩ | ⟨item, sub, there, some, related⟩
    · rw [found] at none
      cases none
    · rw [found] at some
      cases some
      rw [World.remove, parts]
      rw [← List.append_assoc] at there
      simp only [bind, Except.bind, there]
      cases related with
      | file same => rfl
      | @dir inode mode children stamp rows below =>
          have empty : children = [] := by
            have keys := Registry.map_key_eq below
            rw [show rows.rows.map (·.1) = [] from bare stamp rows rfl] at keys
            exact List.map_eq_nil_iff.mp keys
          rw [empty]
  · refine ⟨m.rooted.modifyAt dir ?_ ?_, ?_, m.next, m.handles, m.paths, m.writable, m.limits,
      m.policy⟩
    · intro item
      cases item <;> rfl
    · intro item
      cases item <;> rfl
    · rw [TreeStore.drop, List.dropLast_concat, List.getLastD_concat]
      exact m.tree_modifyAt proper fun _ _ same => (same.dropChild name).restamp fun _ => rfl

end Mirrors

end HostStore

end MountFs
