import MountFs.Proofs.Integrity
import MountFs.Proofs.TreeStore

/-!
# The store in memory is a tree

The flat registry of a `MemoryStore` and the tree of a `TreeStore` give the same answers
to every run of calls, faults included (`run_outcomes_eq_tree`).

`Represents t s` is the simulation.  The registry of `s` holds at the text of every list
of names what the tree of `t` has there, everything else is shared, and the tree is
proper.  A well-formed registry has no other keys, so its rows are the places of the
tree, in some order.  That is what listings and totals need.

One lemma per operation follows the operation of the tree.  The text operations
`Path.parent?` and `Path.fileName` drop out at the start of each, where a path becomes
its list of names.
-/

namespace MountFs

/-! ## Order does not matter for listings and totals -/

/-- Two orders of the same entries are listed alike if no two of them share a name. -/
theorem Entry.sortByName_eq_of_perm {left right : List Entry} (perm : left.Perm right)
    (named : ∀ a ∈ left, ∀ b ∈ left, a.name = b.name → a = b) :
    Entry.sortByName left = Entry.sortByName right := by
  have trans : ∀ a b c : Entry, decide (a.name ≤ b.name) = true → decide (b.name ≤ c.name) = true →
      decide (a.name ≤ c.name) = true := by
    intro a b c hab hbc
    simp only [decide_eq_true_eq] at *
    exact String.le_trans hab hbc
  have total : ∀ a b : Entry, (decide (a.name ≤ b.name) || decide (b.name ≤ a.name)) = true := by
    intro a b
    simpa using String.le_total a.name b.name
  have permLeft := List.mergeSort_perm left fun a b => decide (a.name ≤ b.name)
  have permRight := List.mergeSort_perm right fun a b => decide (a.name ≤ b.name)
  refine List.Perm.eq_of_pairwise ?_ (List.pairwise_mergeSort trans total left)
    (List.pairwise_mergeSort trans total right) (permLeft.trans (perm.trans permRight.symm))
  intro a b ha hb hab hba
  simp only [decide_eq_true_eq] at hab hba
  exact named a (permLeft.mem_iff.mp ha) b (perm.mem_iff.mpr (permRight.mem_iff.mp hb))
    (String.le_antisymm hab hba)

theorem foldl_countNode (nodes : List MemoryNode) (u : Usage) :
    nodes.foldl MemoryStore.countNode u =
      { u with
        files := u.files + (nodes.map MemoryNode.entry).countP Entry.isFile
        directories := u.directories + (nodes.map MemoryNode.entry).countP Entry.isDir
        totalBytes := u.totalBytes
          + (((nodes.map MemoryNode.entry).filter Entry.isFile).map Entry.size).sum } := by
  induction nodes generalizing u with
  | nil => rfl
  | cons node rest ih =>
      rw [List.foldl_cons, ih]
      cases hkind : node.entry.kind with
      | regular =>
          simp [MemoryStore.countNode, Entry.isDir, Entry.isFile, hkind]
          omega
      | directory =>
          simp [MemoryStore.countNode, Entry.isDir, Entry.isFile, hkind]
          omega

/-! ## The rows of a well-formed registry -/

namespace Layout

variable {nodes : Registry String MemoryNode} {nextNode : Nat}

theorem map_path (h : Layout nodes nextNode) :
    nodes.rows.map (fun row => row.2.entry.path) = nodes.keys := by
  refine List.map_congr_left fun row m => ?_
  exact (h.sound ((Registry.mem_rows_iff h.keys_nodup).mp m)).path_eq

theorem nodup_entries (h : Layout nodes nextNode) :
    (nodes.rows.map fun row => row.2.entry).Nodup := by
  have paths : ((nodes.rows.map fun row => row.2.entry).map Entry.path).Nodup := by
    rw [List.map_map]
    exact h.map_path ▸ h.keys_nodup
  exact List.Pairwise.of_map _ (fun a b differ same => differ (congrArg _ same)) paths

end Layout

/-! ## The simulation -/

namespace TreeStore

/-- The flat store `s` stands for the tree store `t`. -/
structure Represents (t : TreeStore) (s : MemoryStore) : Prop where
  /-- The registry has at the text of any names what the tree has there. -/
  nodes : ∀ {names}, Path.AllNames names →
    s.nodes.get? (Path.render names) = t.root.nodeAt names
  /-- The tree is proper. -/
  proper : t.root.Proper
  handles : s.handles = t.handles
  nextNode : s.nextNode = t.nextNode
  limits : s.limits = t.limits
  policy : s.policy = t.policy
  permissions : s.permissions = t.permissions

variable {t : TreeStore} {s : MemoryStore} {names : List String}

/-- A step of the flat store and a step of the tree answer alike and leave stores that
stand for each other. -/
def Agree {α : Type} (flat : Step MemoryStore α) (tree : Step TreeStore α) : Prop :=
  flat.outcome = tree.outcome ∧ Represents tree.state flat.state

theorem Agree.map {α β : Type} {flat : Step MemoryStore α} {tree : Step TreeStore α}
    (h : Agree flat tree) (f : α → β) : Agree (flat.map f) (tree.map f) := by
  refine ⟨?_, h.2⟩
  simp only [Step.map, h.1]

/-- A path is refused by both stores, or both go on with its names. -/
theorem names?_cases (path : String) :
    (∃ e, Path.normalize path = .error e ∧ names? path = .error e) ∨
      ∃ names, Path.AllNames names ∧ Path.normalize path = .ok (Path.render names)
        ∧ names? path = .ok names := by
  cases habs : Path.isAbsolute path with
  | false =>
      refine Or.inl ⟨.invalidPath path, Path.normalize_eq_error habs, ?_⟩
      simp [names?, habs]
  | true =>
      refine Or.inr ⟨Path.segments path, Path.allNames_segments path,
        Path.normalize_eq_ok habs, ?_⟩
      simp [names?, habs]

namespace Represents

/-! ### Looking up -/

theorem get?_eq (h : Represents t s) (hn : Path.AllNames names) :
    s.nodes.get? (Path.render names) = (t.root.walk names).map (FileTree.node names) :=
  h.nodes hn

/-- Every key of the registry is the text of names that lead somewhere. -/
theorem exists_names (h : Represents t s) (wf : s.WellFormed) {path : String} {node : MemoryNode}
    (found : s.nodes.get? path = some node) :
    ∃ names sub, Path.AllNames names ∧ path = Path.render names
      ∧ t.root.walk names = some sub ∧ node = sub.node names := by
  obtain ⟨names, hn, rfl⟩ := wf.layout.normal found
  rw [h.get?_eq hn] at found
  obtain ⟨sub, hsub, rfl⟩ := Option.map_eq_some_iff.mp found
  exact ⟨names, sub, hn, rfl, hsub, rfl⟩

/-- The check before a new entry, on names. -/
theorem root_directory (h : Represents t s) (wf : s.WellFormed) :
    ∃ stamp children, t.root = .directory stamp children := by
  obtain ⟨node, found, kind⟩ := wf.layout.root
  have top : s.nodes.get? Path.root = some (t.root.node []) := h.nodes Path.allNames_nil
  rw [top] at found
  cases found
  cases root : t.root with
  | file stamp data =>
      rw [root] at kind
      cases kind
  | directory stamp children => exact ⟨stamp, children, rfl⟩

theorem checkCreatable_eq (h : Represents t s) (hn : Path.AllNames names) :
    s.checkCreatable (Path.render names) = t.checkFree names := by
  unfold MemoryStore.checkCreatable checkFree Registry.contains
  rw [h.get?_eq hn]
  cases hwalk : t.root.walk names with
  | some sub => rfl
  | none =>
      have hne : names ≠ [] := by
        rintro rfl
        simp at hwalk
      rw [(Path.parent?_render_eq_some_iff hn).mpr ⟨hne, rfl⟩]
      simp only [Option.map_none, Option.isSome_none, Bool.false_eq_true, if_false]
      rw [h.get?_eq hn.dropLast]
      cases t.root.walk names.dropLast with
      | none => rfl
      | some dir =>
          cases dir with
          | file stamp data => rfl
          | directory stamp children => rfl

/-- A directory of the registry has children if the map of the tree has names. -/
theorem hasChildren_iff (h : Represents t s) (wf : s.WellFormed) (hn : Path.AllNames names)
    {stamp : Stamp} {children : Registry String FileTree}
    (found : t.root.walk names = some (.directory stamp children)) :
    s.hasChildren (Path.render names) = true ↔ children.keys ≠ [] := by
  rw [MemoryStore.hasChildren_iff]
  constructor
  · rintro ⟨path, node, hnode, hup⟩
    obtain ⟨below, sub, hb, rfl, hsub, _⟩ := h.exists_names wf hnode
    obtain ⟨hne, hdir⟩ := (Path.parent?_render_eq_some_iff hb).mp hup
    have same := Path.render_injective hn hb.dropLast hdir
    rw [← List.dropLast_concat_getLast hne, ← same] at hsub
    obtain ⟨_, _, hdir', hchild⟩ := FileTree.exists_directory_of_walk_snoc hsub
    rw [found] at hdir'
    cases hdir'
    exact List.ne_nil_of_mem (Registry.mem_keys_iff.mpr ⟨sub, hchild⟩)
  · intro some
    obtain ⟨name, hname⟩ := List.exists_mem_of_ne_nil _ some
    obtain ⟨sub, hsub⟩ := Registry.mem_keys_iff.mp hname
    have hwalk : t.root.walk (names ++ [name]) = .some sub := by
      rw [FileTree.walk_snoc, found, Option.bind_some, FileTree.walk_directory_cons, hsub]
      exact FileTree.walk_nil sub
    have hall := h.proper.allNames hwalk
    refine ⟨Path.render (names ++ [name]), sub.node (names ++ [name]), ?_, ?_⟩
    · rw [h.get?_eq hall, hwalk]
      rfl
    · exact Path.parent?_render_snoc hn (Path.allNames_singleton.mp (Path.allNames_append.mp hall).2)

/-! ### Listings and totals -/

theorem mem_children (wf : s.WellFormed) {dir : String} {e : Entry} :
    e ∈ (s.children dir).map MemoryNode.entry ↔
      ∃ path node, s.nodes.get? path = some node ∧ Path.parent? path = some dir
        ∧ e = node.entry := by
  simp only [MemoryStore.children, List.map_map, List.mem_map, List.mem_filter, beq_iff_eq]
  constructor
  · rintro ⟨⟨path, node⟩, ⟨m, hup⟩, rfl⟩
    exact ⟨path, node, (Registry.mem_rows_iff wf.layout.keys_nodup).mp m, hup, rfl⟩
  · rintro ⟨path, node, found, hup, rfl⟩
    exact ⟨(path, node), ⟨(Registry.mem_rows_iff wf.layout.keys_nodup).mpr found, hup⟩, rfl⟩

theorem nodup_children (wf : s.WellFormed) (dir : String) :
    ((s.children dir).map MemoryNode.entry).Nodup := by
  rw [MemoryStore.children, List.map_map]
  exact wf.layout.nodup_entries.sublist (List.filter_sublist.map _)

theorem map_name_rows (names : List String) (children : Registry String FileTree) :
    (children.rows.map fun (name, sub) => sub.entry (names ++ [name])).map Entry.name
      = children.keys := by
  rw [List.map_map]
  refine List.map_congr_left fun row _ => ?_
  obtain ⟨name, sub⟩ := row
  simp [FileTree.entry_name]

/-- The rows below a directory are the places in the map of the tree. -/
theorem perm_children (h : Represents t s) (wf : s.WellFormed) (hn : Path.AllNames names)
    {stamp : Stamp} {children : Registry String FileTree}
    (found : t.root.walk names = some (.directory stamp children))
    (nodup : children.keys.Nodup) :
    ((s.children (Path.render names)).map MemoryNode.entry).Perm
      (children.rows.map fun (name, sub) => sub.entry (names ++ [name])) := by
  have nodupTree : (children.rows.map fun (name, sub) => sub.entry (names ++ [name])).Nodup := by
    have hnames := map_name_rows names children
    exact List.Pairwise.of_map _ (fun a b differ same => differ (congrArg Entry.name same))
      (hnames ▸ nodup)
  refine (List.perm_ext_iff_of_nodup (nodup_children wf _) nodupTree).mpr fun e => ?_
  rw [mem_children wf, List.mem_map]
  constructor
  · rintro ⟨path, node, hnode, hup, rfl⟩
    obtain ⟨below, sub, hb, rfl, hsub, rfl⟩ := h.exists_names wf hnode
    obtain ⟨hne, hdir⟩ := (Path.parent?_render_eq_some_iff hb).mp hup
    have same := Path.render_injective hn hb.dropLast hdir
    have hlast := List.dropLast_concat_getLast hne
    rw [← same] at hlast
    rw [← hlast] at hsub ⊢
    obtain ⟨_, _, hdir', hchild⟩ := FileTree.exists_directory_of_walk_snoc hsub
    rw [found] at hdir'
    cases hdir'
    exact ⟨(_, sub), (Registry.mem_rows_iff nodup).mpr hchild, rfl⟩
  · rintro ⟨⟨name, sub⟩, m, rfl⟩
    have hsub := (Registry.mem_rows_iff nodup).mp m
    have hwalk : t.root.walk (names ++ [name]) = some sub := by
      rw [FileTree.walk_snoc, found, Option.bind_some, FileTree.walk_directory_cons, hsub]
      exact FileTree.walk_nil sub
    have hall := h.proper.allNames hwalk
    have hname := Path.allNames_singleton.mp (Path.allNames_append.mp hall).2
    refine ⟨Path.render (names ++ [name]), sub.node (names ++ [name]), ?_,
      Path.parent?_render_snoc hn hname, rfl⟩
    rw [h.get?_eq hall, hwalk]
    rfl

theorem sorted_children (h : Represents t s) (wf : s.WellFormed) (hn : Path.AllNames names)
    {stamp : Stamp} {children : Registry String FileTree}
    (found : t.root.walk names = some (.directory stamp children)) :
    Entry.sortByName ((s.children (Path.render names)).map MemoryNode.entry)
      = Entry.sortByName (children.rows.map fun (name, sub) => sub.entry (names ++ [name])) := by
  have nodup : children.keys.Nodup := by
    cases h.proper.walk found with
    | directory nodup _ _ => exact nodup
  have perm := h.perm_children wf hn found nodup
  refine Entry.sortByName_eq_of_perm perm ?_
  -- A name stands for one place, so entries of one name are one entry.
  intro a ha b hb same
  obtain ⟨⟨name, sub⟩, m, rfl⟩ := List.mem_map.mp (perm.mem_iff.mp ha)
  obtain ⟨⟨name', sub'⟩, m', rfl⟩ := List.mem_map.mp (perm.mem_iff.mp hb)
  simp only [FileTree.entry_name, List.getLastD_concat] at same
  subst same
  have hsub := (Registry.mem_rows_iff nodup).mp m
  rw [(Registry.mem_rows_iff nodup).mp m'] at hsub
  cases hsub
  rfl

/-- The rows of the registry are the places of the tree. -/
theorem perm_entries (h : Represents t s) (wf : s.WellFormed) :
    (s.nodes.values.map MemoryNode.entry).Perm (t.root.entries []) := by
  have nodupFlat : (s.nodes.values.map MemoryNode.entry).Nodup := by
    rw [Registry.values, List.map_map]
    exact wf.layout.nodup_entries
  have nodupTree := h.proper.nodup_entries Path.allNames_nil
  refine (List.perm_ext_iff_of_nodup nodupFlat nodupTree).mpr fun e => ?_
  rw [h.proper.mem_entries, List.mem_map]
  constructor
  · rintro ⟨node, m, rfl⟩
    obtain ⟨path, hnode⟩ := (Registry.mem_values_iff wf.layout.keys_nodup).mp m
    obtain ⟨names, sub, _, _, hsub, rfl⟩ := h.exists_names wf hnode
    exact ⟨names, sub, hsub, rfl⟩
  · rintro ⟨names, sub, hsub, rfl⟩
    have hall := h.proper.allNames hsub
    refine ⟨sub.node names, (Registry.mem_values_iff wf.layout.keys_nodup).mpr ?_, rfl⟩
    refine ⟨Path.render names, ?_⟩
    rw [h.get?_eq hall, hsub]
    rfl

theorem usage_eq (h : Represents t s) (wf : s.WellFormed) : s.usage = t.usage := by
  have perm := h.perm_entries wf
  rw [MemoryStore.usage, foldl_countNode, perm.countP_eq, perm.countP_eq,
    ((perm.filter _).map _).sum_nat, h.handles]
  simp [TreeStore.usage]

/-! ### Changes -/

/-- The registry after one row under a directory was set or dropped, and the directory
touched. -/
theorem get?_touchParent_edited (after : MemoryStore) (now : Time) {dir : List String}
    {name : String} {new : Option MemoryNode} (hdir : Path.AllNames dir)
    (hname : Path.IsName name)
    (edited : ∀ q, after.nodes.get? q
      = if q = Path.render (dir ++ [name]) then new else s.nodes.get? q)
    {other : List String} (ho : Path.AllNames other) :
    (after.touchParent now (Path.render (dir ++ [name]))).nodes.get? (Path.render other)
      = if other = dir ++ [name] then new
        else if other = dir then (s.nodes.get? (Path.render dir)).map fun node =>
          { node with entry := node.entry.touch now }
        else s.nodes.get? (Path.render other) := by
  rw [MemoryStore.get?_touchParent, edited, Path.parent?_render_snoc hdir hname]
  by_cases same : other = dir ++ [name]
  · have notDir : Path.render dir ≠ Path.render other := by
      intro eq
      have := Path.render_injective hdir ho eq
      simp [same] at this
    rw [if_pos (congrArg _ same), if_pos same]
    cases new with
    | none => rfl
    | some node =>
        rw [Option.map_some, if_neg]
        intro eq
        exact notDir (Option.some.inj eq)
  · have notNew : Path.render other ≠ Path.render (dir ++ [name]) :=
      fun eq => same (Path.render_injective ho (hdir.snoc hname) eq)
    rw [if_neg notNew, if_neg same]
    by_cases isDir : other = dir
    · subst isDir
      simp
    · rw [if_neg isDir]
      have notUp : ¬some (Path.render dir) = some (Path.render other) :=
        fun eq => isDir (Path.render_injective hdir ho (Option.some.inj eq)).symm
      simp only [if_neg notUp]
      cases s.nodes.get? (Path.render other) <;> rfl

theorem checkFree_eq_ok_iff :
    t.checkFree names = .ok () ↔ t.root.walk names = none
      ∧ ∃ stamp children, t.root.walk names.dropLast = some (.directory stamp children) := by
  unfold checkFree
  cases t.root.walk names with
  | some sub => simp
  | none =>
      cases t.root.walk names.dropLast with
      | none => simp
      | some dir =>
          cases dir with
          | file stamp data => simp
          | directory stamp children => simp

/-- Names that lead nowhere, or to a place below the root, have a last one. -/
theorem exists_snoc (hn : Path.AllNames names) (hne : names ≠ []) :
    ∃ dir name, names = dir ++ [name] ∧ Path.AllNames dir ∧ Path.IsName name := by
  refine ⟨names.dropLast, names.getLast hne, (List.dropLast_concat_getLast hne).symm,
    hn.dropLast, ?_⟩
  exact hn _ (List.getLast_mem hne)

/-- A child of a directory is set or dropped in both stores, and the directory touched. -/
theorem get?_edited (h : Represents t s) (after : MemoryStore) (now : Time) {dir : List String}
    {name : String} {stamp : Stamp} {children children' : Registry String FileTree}
    {f : FileTree → FileTree} (child : Option FileTree) (hdir : Path.AllNames dir)
    (hname : Path.IsName name)
    (found : t.root.walk dir = some (.directory stamp children))
    (changed : f (.directory stamp children) = .directory (stamp.touch now) children')
    (flat : ∀ q, after.nodes.get? q = if q = Path.render (dir ++ [name])
      then child.map (FileTree.node (dir ++ [name])) else s.nodes.get? q)
    (tree : ∀ n, children'.get? n = if n = name then child else children.get? n)
    (oldBare : ∀ {sub}, children.get? name = some sub → sub.Bare)
    (newBare : ∀ {sub}, child = some sub → sub.Bare)
    {other : List String} (ho : Path.AllNames other) :
    (after.touchParent now (Path.render (dir ++ [name]))).nodes.get? (Path.render other)
      = (t.root.change f dir).nodeAt other := by
  rw [get?_touchParent_edited after now hdir hname flat ho,
    FileTree.nodeAt_change_child found changed tree oldBare newBare]
  by_cases same : other = dir ++ [name]
  · rw [if_pos same, if_pos same, same]
  · rw [if_neg same, if_neg same]
    by_cases isDir : other = dir
    · rw [if_pos isDir, if_pos isDir, h.get?_eq hdir, found]
      rfl
    · rw [if_neg isDir, if_neg isDir, h.nodes ho]

/-- To touch a parent changes nothing but the registry. -/
theorem of_touchParent {now : Time} {path : String}
    (nodes : ∀ {names}, Path.AllNames names →
      (s.touchParent now path).nodes.get? (Path.render names) = t.root.nodeAt names)
    (proper : t.root.Proper) (handles : s.handles = t.handles) (nextNode : s.nextNode = t.nextNode)
    (limits : s.limits = t.limits) (policy : s.policy = t.policy)
    (permissions : s.permissions = t.permissions) :
    Represents t (s.touchParent now path) where
  nodes := nodes
  proper := proper
  handles := (MemoryStore.touchParent_handles _ _ _).trans handles
  nextNode := (MemoryStore.touchParent_nextNode _ _ _).trans nextNode
  limits := (MemoryStore.touchParent_limits _ _ _).trans limits
  policy := (MemoryStore.touchParent_policy _ _ _).trans policy
  permissions := (MemoryStore.touchParent_permissions _ _ _).trans permissions

/-- Both stores get a new place. -/
theorem add (h : Represents t s) {now : Time} {new : FileTree} (hn : Path.AllNames names)
    (free : t.checkFree names = .ok ()) (bare : new.Bare) (proper : new.Proper)
    (fresh : new.stamp.id = t.nextNode) :
    Represents (t.add now names new)
      ((s.addNode (new.entry names) new.content).touchParent now (Path.render names)) := by
  obtain ⟨vacant, stamp, children, found⟩ := checkFree_eq_ok_iff.mp free
  obtain ⟨dir, name, rfl, hdir, hname⟩ := exists_snoc hn (by rintro rfl; simp at vacant)
  rw [List.dropLast_concat] at found
  have gone : children.get? name = none := by
    rw [FileTree.walk_snoc, found, Option.bind_some, FileTree.walk_directory_cons] at vacant
    cases hsub : children.get? name with
    | none => rfl
    | some sub => simp [hsub] at vacant
  have edited : ∀ q, (s.addNode (new.entry (dir ++ [name])) new.content).nodes.get? q
      = if q = Path.render (dir ++ [name]) then some (new.node (dir ++ [name]))
        else s.nodes.get? q := by
    intro q
    rw [MemoryStore.addNode, Registry.get?_insert, FileTree.entry_path, h.nextNode, ← fresh]
    rfl
  refine of_touchParent ?_ ?_ h.handles (congrArg (· + 1) h.nextNode) h.limits h.policy
    h.permissions
  · intro other ho
    rw [TreeStore.add, List.dropLast_concat, List.getLastD_concat]
    exact h.get?_edited _ now (some new) hdir hname found rfl edited
      (fun n => Registry.get?_insert children name new n)
      (fun hold => by rw [gone] at hold; cases hold) (fun hnew => by cases hnew; exact bare) ho
  · refine h.proper.change fun _ hsub => ?_
    rw [List.getLastD_concat]
    exact (hsub.withChild hname proper).restamp _

/-- Both stores lose a bare place. -/
theorem drop (h : Represents t s) {now : Time} {place : FileTree} (hn : Path.AllNames names)
    (hne : names ≠ []) (found : t.root.walk names = some place) (bare : place.Bare) :
    Represents (t.drop now names)
      ({ s with nodes := s.nodes.erase (Path.render names) }.touchParent now
        (Path.render names)) := by
  obtain ⟨dir, name, rfl, hdir, hname⟩ := exists_snoc hn hne
  obtain ⟨stamp, children, found, hplace⟩ := FileTree.exists_directory_of_walk_snoc found
  refine of_touchParent ?_ ?_ h.handles h.nextNode h.limits h.policy h.permissions
  · intro other ho
    rw [TreeStore.drop, List.dropLast_concat, List.getLastD_concat]
    exact h.get?_edited _ now none hdir hname found rfl
      (fun q => Registry.get?_erase s.nodes (Path.render (dir ++ [name])) q)
      (fun n => Registry.get?_erase children name n)
      (fun hold => by rw [hplace] at hold; cases hold; exact bare) (fun hnew => nomatch hnew) ho
  · exact h.proper.change fun _ hsub => (hsub.withoutChild _).restamp _

/-- Both stores get another table of handles. -/
theorem withHandles (h : Represents t s) (handles : Handles) :
    Represents { t with handles := handles } { s with handles := handles } :=
  ⟨h.nodes, h.proper, rfl, h.nextNode, h.limits, h.policy, h.permissions⟩

/-- One place changes what it says in both stores. -/
theorem changeAt (h : Represents t s) {k : Handle} (normal : Path.IsNormal k.path)
    {f : FileTree → FileTree} {g : MemoryNode → MemoryNode}
    (keeps : ∀ sub name rest, (f sub).walk (name :: rest) = sub.walk (name :: rest))
    (proper : ∀ {sub : FileTree}, sub.Proper → (f sub).Proper)
    (same : ∀ {sub}, t.root.walk (Path.segments k.path) = some sub →
      g (sub.node (Path.segments k.path)) = (f sub).node (Path.segments k.path)) :
    Represents (t.changeAt k f) { s with nodes := s.nodes.adjust k.path g } := by
  obtain ⟨names, hn, hpath⟩ := normal
  rw [hpath, Path.segments_render hn] at same
  refine ⟨?_, h.proper.change fun _ => proper, h.handles, h.nextNode, h.limits, h.policy,
    h.permissions⟩
  intro other ho
  rw [TreeStore.changeAt, hpath, Path.segments_render hn, FileTree.nodeAt_change_self keeps,
    Registry.get?_adjust]
  by_cases eq : other = names
  · rw [if_pos eq, if_pos (congrArg _ eq), eq, h.get?_eq hn]
    cases hsub : t.root.walk names with
    | none => rfl
    | some sub => exact congrArg some (same hsub)
  · rw [if_neg eq, if_neg fun e => eq (Path.render_injective ho hn e), h.nodes ho]

theorem isSome_nodeWithId? (h : Represents t s) {k : Handle} (normal : Path.IsNormal k.path) :
    (s.nodeWithId? k.path k.entryId).isSome = t.holds k := by
  obtain ⟨names, hn, hpath⟩ := normal
  rw [MemoryStore.nodeWithId?, holds, hpath, Path.segments_render hn, h.get?_eq hn]
  cases t.root.walk names with
  | none => rfl
  | some sub =>
      rw [Option.map_some, Option.isSome_filter]
      rfl

theorem noteRead (h : Represents t s) {now : Time} {k : Handle} (normal : Path.IsNormal k.path) :
    Represents (if t.holds k = true then t.changeAt k (.restamp (.noteRead now)) else t)
      (s.noteRead now k.path k.entryId) := by
  rw [← h.isSome_nodeWithId? normal, MemoryStore.noteRead]
  cases s.nodeWithId? k.path k.entryId with
  | none => exact h
  | some node =>
      refine h.changeAt normal ?_ (fun hsub => hsub.restamp _) ?_
      · intro sub name rest
        cases sub <;> rfl
      · intro sub _
        cases sub <;> rfl

theorem commit (h : Represents t s) (wf : s.WellFormed) (now : Time) {id : HandleId} {k : Handle}
    (live : s.handles.live.get? id = some k) (held : t.holds k = true) :
    Represents (t.changeAt k (.commit now k.buffer)) (s.commit now k.path k.buffer) := by
  have fits := wf.fits live
  refine h.changeAt fits.normal ?_ (fun hsub => hsub.commit now k.buffer) ?_
  · intro sub name rest
    cases sub <;> rfl
  · intro sub found
    cases sub with
    | file stamp data => rfl
    | directory stamp children =>
        -- The place of a live handle is not a directory.
        have hid : stamp.id = k.entryId := by
          simpa [holds, found, FileTree.stamp] using held
        have hnode := h.get?_eq (Path.allNames_segments k.path)
        rw [fits.normal.render_segments, found] at hnode
        cases fits.regular hnode hid

/-! ### Operations -/

theorem createDirectory (h : Represents t s) (now : Time) (path : String) :
    Agree (.ofOutcome s (s.createDirectory now path))
      (.ofOutcome t (t.createDirectory now path)) := by
  unfold MemoryStore.createDirectory TreeStore.createDirectory
  rcases names?_cases path with ⟨e, flat, tree⟩ | ⟨names, hn, flat, tree⟩
  · rw [flat, tree]
    exact ⟨rfl, h⟩
  · rw [flat, tree]
    simp only [bind, Except.bind, h.checkCreatable_eq hn]
    cases free : t.checkFree names with
    | error e => exact ⟨rfl, h⟩
    | ok _ =>
        have told : Entry.directory now (Path.render names) s.permissions.directory
            = FileTree.entry names
              (.directory (.fresh t.nextNode t.permissions.directory now) .empty) := by
          rw [Entry.directory, Path.fileName_render hn, h.permissions]
          rfl
        rw [told]
        refine ⟨rfl, h.add hn free (FileTree.bare_directory rfl) ?_ rfl⟩
        exact .directory List.nodup_nil Path.allNames_nil fun found => nomatch found

theorem createFile (h : Represents t s) (now : Time) (path : String) (content : Bytes) :
    Agree (.ofOutcome s (s.createFile now path content))
      (.ofOutcome t (t.createFile now path content)) := by
  unfold MemoryStore.createFile TreeStore.createFile
  rcases names?_cases path with ⟨e, flat, tree⟩ | ⟨names, hn, flat, tree⟩
  · rw [flat, tree]
    exact ⟨rfl, h⟩
  · rw [flat, tree]
    simp only [bind, Except.bind, h.checkCreatable_eq hn, h.limits]
    cases t.limits.checkFileSize (Path.render names) content.length with
    | error e => exact ⟨rfl, h⟩
    | ok _ =>
        cases free : t.checkFree names with
        | error e => exact ⟨rfl, h⟩
        | ok _ =>
            have told : Entry.file now (Path.render names) s.permissions.file content
                = FileTree.entry names
                  (.file (.fresh t.nextNode t.permissions.file now) content) := by
              rw [Entry.file, Path.fileName_render hn, h.permissions]
              rfl
            simp only [told]
            exact ⟨rfl, h.add hn free (FileTree.bare_file _ _) .file rfl⟩

theorem deleteFile (h : Represents t s) (wf : s.WellFormed) (now : Time) (path : String) :
    Agree (.ofOutcome s ((s.deleteFile now path).map fun s => (s, Answer.done)))
      (.ofOutcome t ((t.deleteFile now path).map fun t => (t, Answer.done))) := by
  unfold MemoryStore.deleteFile TreeStore.deleteFile
  rcases names?_cases path with ⟨e, flat, tree⟩ | ⟨names, hn, flat, tree⟩
  · rw [flat, tree]
    exact ⟨rfl, h⟩
  · rw [flat, tree]
    simp only [bind, Except.bind, Path.render_eq_root_iff hn, h.get?_eq hn]
    by_cases hroot : names = []
    · simp only [if_pos hroot]
      exact ⟨rfl, h⟩
    · simp only [if_neg hroot]
      cases found : t.root.walk names with
      | none => exact ⟨rfl, h⟩
      | some place =>
          cases place with
          | file stamp data => exact ⟨rfl, h.drop hn hroot found (FileTree.bare_file _ _)⟩
          | directory stamp children =>
              have some := h.hasChildren_iff wf hn found
              by_cases empty : children.keys = []
              · have none : ¬s.hasChildren (Path.render names) = true :=
                  fun has => some.mp has empty
                simp only [Option.map_some, none, empty, if_true]
                exact ⟨rfl, h.drop hn hroot found (FileTree.bare_directory empty)⟩
              · have isDir : (FileTree.node names (.directory stamp children)).entry.isDir
                    = true := rfl
                simp only [Option.map_some, isDir, some.mpr empty, empty, and_self, if_true,
                  if_false]
                exact ⟨rfl, h⟩

theorem listDirectory_eq (h : Represents t s) (wf : s.WellFormed) (path : String) :
    s.listDirectory path = t.listDirectory path := by
  unfold MemoryStore.listDirectory TreeStore.listDirectory
  rcases names?_cases path with ⟨e, flat, tree⟩ | ⟨names, hn, flat, tree⟩
  · rw [flat, tree]
    rfl
  · rw [flat, tree]
    simp only [bind, Except.bind, h.get?_eq hn]
    cases found : t.root.walk names with
    | none => rfl
    | some place =>
        cases place with
        | file stamp data => rfl
        | directory stamp children => exact congrArg Except.ok (h.sorted_children wf hn found)

theorem stat_eq (h : Represents t s) (path : String) : s.stat path = t.stat path := by
  unfold MemoryStore.stat TreeStore.stat
  rcases names?_cases path with ⟨e, flat, tree⟩ | ⟨names, hn, flat, tree⟩
  · rw [flat, tree]
    rfl
  · rw [flat, tree]
    simp only [bind, Except.bind, h.get?_eq hn]
    cases t.root.walk names with
    | none => rfl
    | some place => rfl

theorem openFile (h : Represents t s) (path : String) (mode : OpenMode) :
    Agree (.ofOutcome s (s.openFile path mode)) (.ofOutcome t (t.openFile path mode)) := by
  unfold MemoryStore.openFile TreeStore.openFile
  rcases names?_cases path with ⟨e, flat, tree⟩ | ⟨names, hn, flat, tree⟩
  · rw [flat, tree]
    exact ⟨rfl, h⟩
  · rw [flat, tree]
    simp only [bind, Except.bind, h.get?_eq hn]
    cases t.root.walk names with
    | none => exact ⟨rfl, h⟩
    | some place =>
        cases place with
        | directory stamp children => exact ⟨rfl, h⟩
        | file stamp data =>
            have file : (FileTree.node names (.file stamp data)).entry.isDir = false := rfl
            simp only [Option.map_some, file, Bool.false_eq_true, if_false, h.handles, h.policy]
            cases hadd : t.handles.add t.policy (Path.render names) stamp.id mode
                (if mode = .write then [] else data) with
            | error e =>
                simp only [FileTree.node, FileTree.stamp, FileTree.content, hadd]
                exact ⟨rfl, h⟩
            | ok added =>
                simp only [FileTree.node, FileTree.stamp, FileTree.content, hadd]
                exact ⟨rfl, ⟨h.nodes, h.proper, rfl, h.nextNode, h.limits, rfl, h.permissions⟩⟩

theorem read (h : Represents t s) (wf : s.WellFormed) (now : Time) (id : HandleId)
    (size : Option Nat) :
    Agree (.ofOutcome s (s.read now id size)) (.ofOutcome t (t.read now id size)) := by
  unfold MemoryStore.read TreeStore.read
  simp only [bind, Except.bind, h.handles]
  cases live : t.handles.get id with
  | error e => exact ⟨rfl, h⟩
  | ok k =>
      cases t.handles.read id size with
      | error e => exact ⟨rfl, h⟩
      | ok result =>
          rw [← h.handles, Handles.get_eq_ok_iff] at live
          exact ⟨rfl, (h.withHandles result.1).noteRead (wf.fits live).normal⟩

theorem write (h : Represents t s) (id : HandleId) (data : Bytes) :
    Agree (.ofOutcome s (s.write id data)) (.ofOutcome t (t.write id data)) := by
  unfold MemoryStore.write TreeStore.write
  simp only [bind, Except.bind, h.handles, h.limits]
  cases t.handles.write t.limits id data with
  | error e => exact ⟨rfl, h⟩
  | ok result => exact ⟨rfl, ⟨h.nodes, h.proper, rfl, h.nextNode, rfl, h.policy, h.permissions⟩⟩

theorem seek (h : Represents t s) (id : HandleId) (offset : Nat) :
    Agree (.ofOutcome s (s.seek id offset)) (.ofOutcome t (t.seek id offset)) := by
  unfold MemoryStore.seek TreeStore.seek
  simp only [bind, Except.bind, h.handles]
  cases t.handles.seek id offset with
  | error e => exact ⟨rfl, h⟩
  | ok result => exact ⟨rfl, h.withHandles result.1⟩

theorem abort (h : Represents t s) (id : HandleId) :
    Agree (.ofOutcome s ((s.abort id).map fun s => (s, Answer.done)))
      (.ofOutcome t ((t.abort id).map fun t => (t, Answer.done))) := by
  unfold MemoryStore.abort TreeStore.abort
  simp only [bind, Except.bind, h.handles]
  cases t.handles.remove id with
  | error e => exact ⟨rfl, h⟩
  | ok result => exact ⟨rfl, h.withHandles result.1⟩

theorem close (h : Represents t s) (wf : s.WellFormed) (now : Time) (id : HandleId) :
    Agree (s.close now id) (t.close now id) := by
  unfold MemoryStore.close TreeStore.close
  rw [h.handles]
  cases removed : t.handles.remove id with
  | error e => exact ⟨rfl, h⟩
  | ok result =>
      obtain ⟨handles, k⟩ := result
      rw [← h.handles, Handles.remove_eq_ok_iff] at removed
      obtain ⟨live, rfl⟩ := removed
      have there := h.isSome_nodeWithId? (wf.fits live).normal
      cases hnode : s.nodeWithId? k.path k.entryId with
      | none =>
          have gone : t.holds k = false := by simpa [hnode] using there.symm
          simp only [hnode, gone]
          exact ⟨rfl, h.withHandles _⟩
      | some node =>
          have held : t.holds k = true := by simpa [hnode] using there.symm
          simp only [hnode, held, if_true]
          refine ⟨rfl, ?_⟩
          cases k.mode.isWriter with
          | false => exact h.withHandles _
          | true =>
              have committed := h.commit wf now live held
              exact committed.withHandles (s.handles.without id)

/-! ### Calls and runs -/

/-- One call is answered alike. -/
theorem call (h : Represents t s) (wf : s.WellFormed) (now : Time) (c : Call) :
    Agree (s.call now c) (t.call now c) := by
  cases c with
  | createDirectory path => exact (h.createDirectory now path).map _
  | createFile path content => exact (h.createFile now path content).map _
  | deleteFile path => exact h.deleteFile wf now path
  | listDirectory path => exact ⟨congrArg (Except.map _) (h.listDirectory_eq wf path), h⟩
  | stat path => exact ⟨congrArg (Except.map _) (h.stat_eq path), h⟩
  | present path =>
      refine ⟨?_, h⟩
      simp only [MemoryStore.call, TreeStore.call, h.stat_eq path]
  | openFile path mode => exact (h.openFile path mode).map _
  | read id size => exact (h.read wf now id size).map _
  | write id data => exact (h.write id data).map _
  | seek id offset => exact (h.seek id offset).map _
  | close id => exact (h.close wf now id).map _
  | abort id => exact h.abort id
  | usage =>
      refine ⟨?_, h⟩
      simp only [MemoryStore.call, TreeStore.call, h.usage_eq wf]
  | describe => exact ⟨rfl, h⟩

theorem step (h : Represents t s) (wf : s.WellFormed) (e : Timed) :
    Agree (s.step e) (TreeStore.step t e) :=
  h.call wf e.now e.call

/-- Stores that stand for each other answer every run alike. -/
theorem run (h : Represents t s) (wf : s.WellFormed) (events : List Timed) :
    History.outcomes MemoryStore.step s events = History.outcomes TreeStore.step t events
      ∧ Represents (History.final TreeStore.step t events) (s.run events) := by
  induction events generalizing s t with
  | nil => exact ⟨rfl, h⟩
  | cons e rest ih =>
      obtain ⟨alike, after⟩ := h.step wf e
      obtain ⟨outcomes, final⟩ := ih after (wf.effect (MemoryStore.step_effect s e))
      refine ⟨?_, final⟩
      exact List.cons_eq_cons.mpr ⟨alike, outcomes⟩

end Represents

theorem represents_create (config : Config) (start : Time) :
    Represents (create config start) (MemoryStore.create config start) := by
  refine ⟨?_, ?_, rfl, rfl, rfl, rfl, rfl⟩
  · intro names hn
    rw [MemoryStore.create, MemoryStore.addNode, Registry.get?_insert]
    cases names with
    | nil => rfl
    | cons name rest =>
        have below : Path.render (name :: rest) ≠ Path.root :=
          fun eq => List.cons_ne_nil _ _ ((Path.render_eq_root_iff hn).mp eq)
        exact if_neg below
  · refine .directory List.nodup_nil Path.allNames_nil fun found => ?_
    cases found

end TreeStore

/-- For every configuration and every run of calls, the flat store and the tree give the
same answers and faults, and end in states that stand for each other. -/
theorem MemoryStore.run_outcomes_eq_tree (config : Config) (start : Time) (events : List Timed) :
    History.outcomes step (create config start) events
        = History.outcomes TreeStore.step (TreeStore.create config start) events
      ∧ TreeStore.Represents (History.final TreeStore.step (TreeStore.create config start) events)
          ((create config start).run events) :=
  (TreeStore.represents_create config start).run (wellFormed_create config start) events

end MountFs
