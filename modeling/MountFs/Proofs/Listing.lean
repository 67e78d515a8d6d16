import MountFs.Proofs.TreeRefinement
import MountFs.Proofs.WholeFiles

/-!
# Listings and what is told about one path

A listing of a namespace has two sources.  It asks the store that the directory leads to
for its entries, and it adds the mounts right below the directory whose names that store
does not have.  What is told about one path comes from routing that path alone.

The two agree (`listing_agrees_unless_hidden`) but for one case.  Where a mount stands at
the path of an entry that the listed store has of its own (`Hides`), the listing keeps the
entry of the store, and the path leads to the root of the mounted store.  Then the entry of
the listing is the one that the path has again once the mount is taken away.

All this rests on one fact about routing.  A path one name below a directory leads where
the directory leads, one name further, unless a mount stands exactly there
(`Routes.child`).
-/

namespace MountFs

/-! ## One name further -/

namespace Path

theorem IsNormal.resolve_eq {path : String} (h : IsNormal path) (cwd : String) :
    resolve cwd path = path := by
  obtain ⟨names, hn, rfl⟩ := h
  rw [resolve, if_pos (isAbsolute_render names), segments_render hn]

end Path

theorem Entry.mem_sortByName {e : Entry} {entries : List Entry} :
    e ∈ sortByName entries ↔ e ∈ entries :=
  List.mem_mergeSort

theorem MemoryStore.listDirectory_eq {s : MemoryStore} {path : String}
    (normal : Path.IsNormal path) {entries : List Entry} (h : s.listDirectory path = .ok entries) :
    entries = Entry.sortByName ((s.children path).map MemoryNode.entry) := by
  rw [listDirectory, normal.normalize_eq] at h
  dsimp only [bind, Except.bind] at h
  split at h
  · cases h
  · split at h
    · cases h
      rfl
    · cases h

/-- The entries that a store in memory lists are those right below the path. -/
theorem MemoryStore.WellFormed.mem_listDirectory {s : MemoryStore} (wf : s.WellFormed)
    {path : String} (normal : Path.IsNormal path) {entries : List Entry}
    (h : s.listDirectory path = .ok entries) {e : Entry} :
    e ∈ entries ↔ ∃ child node, s.nodes.get? child = some node
      ∧ Path.parent? child = some path ∧ e = node.entry := by
  rw [MemoryStore.listDirectory_eq normal h, Entry.mem_sortByName,
    TreeStore.Represents.mem_children wf]

theorem MemoryStore.stat_of_get? {s : MemoryStore} {path : String} {node : MemoryNode}
    (normal : Path.IsNormal path) (found : s.nodes.get? path = some node) :
    s.stat path = .ok node.entry := by
  rw [stat, normal.normalize_eq]
  simp only [bind, Except.bind, found]

namespace Namespace

variable {ns : Namespace} {now : Time}

theorem absolute_of_isNormal {path : String} (h : Path.IsNormal path) : ns.absolute path = path :=
  h.resolve_eq ns.cwd

/-- A path one name below a directory leads one name further, if no mount is there. -/
theorem Routes.child (tidy : ns.Tidy) {dir path inner name : String} {r : Route}
    (routes : ns.Routes dir r) (normal : Path.IsNormal path)
    (below : Path.segments path = Path.segments dir ++ [name])
    (free : ∀ m ∈ ns.mounts, m.path ≠ path) (normal' : Path.IsNormal inner)
    (below' : Path.segments inner = Path.segments r.inner ++ [name]) :
    ns.Routes path ⟨r.mount, inner⟩ := by
  refine ⟨⟨routes.near.mem, ?_, ?_⟩, normal', ?_⟩
  · rw [below]
    exact routes.near.covers.trans (List.prefix_append _ _)
  · intro other there covers differ
    rw [below] at covers
    rcases List.prefix_concat_iff.mp covers with same | covers
    · rw [← below] at same
      exact absurd ((tidy.normal there).eq_of_segments_eq normal same) (free other there)
    · exact routes.near.longest other there covers differ
  · rw [below', below, ← routes.split, List.append_assoc]

/-- A mount point leads to the root of its store. -/
theorem Tidy.routes_point (tidy : ns.Tidy) {m : Mount} (there : m ∈ ns.mounts) :
    ns.Routes m.path ⟨m, Path.root⟩ := by
  have split : Path.segments m.path ++ Path.segments Path.root = Path.segments m.path :=
    List.append_nil _
  refine ⟨⟨there, List.prefix_rfl, ?_⟩, Path.isNormal_root, split⟩
  intro other others covers differ
  refine Nat.lt_of_le_of_ne covers.length_le fun same => differ ?_
  have segments := covers.eq_of_length same
  exact tidy.path_inj others there
    ((tidy.normal others).eq_of_segments_eq (tidy.normal there) segments)

/-- To take away a mount that a directory does not lead to leaves the route of the
directory. -/
theorem Routes.unmount {after : Namespace} {dir path : String} {r : Route}
    (routes : ns.Routes dir r) (unmounts : ns.unmount path = .ok after)
    (away : r.mount.path ≠ Path.resolve Path.root path) : after.Routes dir r := by
  obtain ⟨_, rfl⟩ := unmount_eq_ok_iff.mp unmounts
  refine ⟨⟨?_, routes.near.covers, ?_⟩, routes.normal, routes.split⟩
  · exact List.mem_filter.mpr ⟨routes.near.mem, decide_eq_true away⟩
  · intro other there
    exact routes.near.longest other (List.mem_filter.mp there).1

/-! ## The two sources of a listing -/

/-- The directory that a listing is about. -/
def listed (ns : Namespace) (path : Option String) : String :=
  match path with
  | some path => ns.absolute path
  | none => ns.cwd

theorem Tidy.isNormal_listed (tidy : ns.Tidy) (path : Option String) :
    Path.IsNormal (ns.listed path) := by
  cases path with
  | none => exact tidy.cwd
  | some path => exact ns.isNormal_absolute path

theorem Tidy.absolute_listed (tidy : ns.Tidy) (path : Option String) :
    ns.absolute (ns.listed path) = ns.listed path :=
  absolute_of_isNormal (tidy.isNormal_listed path)

theorem Tidy.route_listed_eq_ok_iff (tidy : ns.Tidy) {path : Option String} {r : Route} :
    ns.route (ns.listed path) = .ok r ↔ ns.Routes (ns.listed path) r := by
  rw [tidy.route_eq_ok_iff, tidy.absolute_listed]

/-- The entries that the store of a directory has there, under their paths in the
namespace. -/
structure OwnListing (ns : Namespace) (dir : String) (r : Route) (entries : List Entry) : Prop where
  routes : ns.Routes dir r
  told : ∃ own, (ns.storeAt r.mount.store).listDirectory ns.world r.inner = .ok own
    ∧ entries = own.map r.externalize

/-- The mounts that a listing adds to the entries of the store: those right below the directory
whose names the store does not have. -/
def mountsShown (ns : Namespace) (dir : String) (own : List Entry) : List Mount :=
  ns.mounts.filter fun m =>
    Path.parent? m.path == some dir && own.all fun e => e.name != Path.fileName m.path

theorem mem_mountsShown {dir : String} {own : List Entry} {m : Mount} :
    m ∈ ns.mountsShown dir own ↔ m ∈ ns.mounts ∧ Path.parent? m.path = some dir
      ∧ ∀ o ∈ own, o.name ≠ Path.fileName m.path := by
  simp only [mountsShown, List.mem_filter, Bool.and_eq_true, beq_iff_eq, List.all_eq_true,
    bne_iff_ne]

theorem Tidy.exists_sources (tidy : ns.Tidy) {path : Option String} {entries : List Entry}
    (h : ns.listDirectory now path = .ok entries) :
    ∃ r own, ns.OwnListing (ns.listed path) r own
      ∧ entries = Entry.sortByName
        (own ++ (ns.mountsShown (ns.listed path) own).map (ns.mountEntry now)) := by
  obtain ⟨r, found, h⟩ := Except.bind_eq_ok.mp h
  obtain ⟨own, told, h⟩ := Except.bind_eq_ok.mp h
  cases h
  have routes := tidy.route_listed_eq_ok_iff.mp found
  exact ⟨r, own.map r.externalize, ⟨routes, own, told, rfl⟩, rfl⟩

/-- A listing has the entries of the store, and the mounts below the directory whose names
the store does not have. -/
theorem Tidy.mem_listDirectory (tidy : ns.Tidy) {path : Option String} {entries : List Entry}
    (h : ns.listDirectory now path = .ok entries) :
    ∃ r own, ns.OwnListing (ns.listed path) r own
      ∧ ∀ e, e ∈ entries ↔ e ∈ own
        ∨ ∃ m ∈ ns.mounts, Path.parent? m.path = some (ns.listed path)
          ∧ (∀ o ∈ own, o.name ≠ Path.fileName m.path) ∧ e = ns.mountEntry now m := by
  obtain ⟨r, own, listing, rfl⟩ := tidy.exists_sources h
  refine ⟨r, own, listing, fun e => ?_⟩
  simp only [Entry.mem_sortByName, List.mem_append, List.mem_map, mem_mountsShown, and_assoc,
    eq_comm (a := e)]

theorem OwnListing.mem_iff (tidy : ns.Tidy) {dir : String} {r : Route} {own : List Entry}
    (h : ns.OwnListing dir r own) {s : MemoryStore}
    (memory : ns.storeAt r.mount.store = .memory s) {e : Entry} :
    e ∈ own ↔ ∃ child node, s.nodes.get? child = some node ∧ Path.parent? child = some r.inner
      ∧ e = r.externalize node.entry := by
  obtain ⟨inner, told, rfl⟩ := h.told
  rw [memory] at told
  have wf := tidy.wellFormed memory
  rw [List.mem_map]
  constructor
  · rintro ⟨o, listed, rfl⟩
    obtain ⟨child, node, found, up, rfl⟩ := (wf.mem_listDirectory h.routes.normal told).mp listed
    exact ⟨child, node, found, up, rfl⟩
  · rintro ⟨child, node, found, up, rfl⟩
    exact ⟨_, (wf.mem_listDirectory h.routes.normal told).mpr ⟨child, node, found, up, rfl⟩, rfl⟩

/-- An entry that the store of a directory has there: the node, its path in the store, and
the name that it has in both. -/
structure Owns (dir : String) (r : Route) (s : MemoryStore) (e : Entry) (child name : String)
    (node : MemoryNode) : Prop where
  found : s.nodes.get? child = some node
  below : Path.segments child = Path.segments r.inner ++ [name]
  entry_eq : e = r.externalize node.entry
  normal : Path.IsNormal e.path
  segments_eq : Path.segments e.path = Path.segments dir ++ [name]

/-- A node right below where a directory leads is told about right below the directory, under
the same name. -/
theorem Routes.namedAt_child (tidy : ns.Tidy) {dir child : String} {r : Route}
    (routes : ns.Routes dir r) {s : MemoryStore} {node : MemoryNode}
    (memory : ns.storeAt r.mount.store = .memory s) (found : s.nodes.get? child = some node)
    (up : Path.parent? child = some r.inner) :
    (r.externalize node.entry).NamedAt
      (Path.render (Path.segments dir ++ [Path.fileName child])) := by
  have wf := tidy.wellFormed memory
  have inside := wf.layout.normal found
  obtain ⟨isName, below⟩ := inside.segments_eq_snoc up
  have names := (Path.allNames_segments dir).snoc isName
  have named : node.entry.NamedAt child :=
    wf.namedAt_of_stat inside (MemoryStore.stat_of_get? inside found)
  refine Route.namedAt_externalize (r := ⟨r.mount, child⟩)
    (tidy.normal routes.near.mem) inside (Path.isNormal_render names) ?_ named
  rw [Path.segments_render names, below, ← List.append_assoc, routes.split]

theorem OwnListing.exists_owns (tidy : ns.Tidy) {dir : String} {r : Route} {own : List Entry}
    (h : ns.OwnListing dir r own) {s : MemoryStore}
    (memory : ns.storeAt r.mount.store = .memory s) {e : Entry} (there : e ∈ own) :
    ∃ child name node, Owns dir r s e child name node := by
  obtain ⟨child, node, found, up, rfl⟩ := (h.mem_iff tidy memory).mp there
  obtain ⟨isName, below⟩ :=
    ((tidy.wellFormed memory).layout.normal found).segments_eq_snoc up
  have outside := h.routes.namedAt_child tidy memory found up
  have names := (Path.allNames_segments dir).snoc isName
  refine ⟨child, Path.fileName child, node, found, below, rfl, ?_, ?_⟩
  · rw [outside.path_eq]
    exact Path.isNormal_render names
  · rw [outside.path_eq, Path.segments_render names]

/-! ## What is told about a path -/

/-- What is told about a path that leads to an entry of a store in memory. -/
theorem Tidy.stat_of_routes (tidy : ns.Tidy) {path inner : String} {m : Mount} {s : MemoryStore}
    {node : MemoryNode} (normal : Path.IsNormal path) (routes : ns.Routes path ⟨m, inner⟩)
    (memory : ns.storeAt m.store = .memory s) (found : s.nodes.get? inner = some node) :
    ns.stat path = .ok (Route.externalize ⟨m, inner⟩ node.entry) := by
  have route : ns.route path = .ok ⟨m, inner⟩ := by
    rw [tidy.route_eq_ok_iff, absolute_of_isNormal normal]
    exact routes
  have told : (ns.storeAt m.store).stat ns.world inner = .ok node.entry := by
    rw [memory]
    exact MemoryStore.stat_of_get? routes.normal found
  rw [stat_of_route route, told]
  rfl

/-- An entry that a store has of its own is told about under its path, if no mount is
there. -/
theorem Owns.stat_eq (tidy : ns.Tidy) {dir child name : String} {r : Route} {s : MemoryStore}
    {e : Entry} {node : MemoryNode} (owns : Owns dir r s e child name node)
    (routes : ns.Routes dir r) (memory : ns.storeAt r.mount.store = .memory s)
    (free : ∀ m ∈ ns.mounts, m.path ≠ e.path) : ns.stat e.path = .ok e := by
  have inside := (tidy.wellFormed memory).layout.normal owns.found
  have further := routes.child tidy owns.normal owns.segments_eq free inside owns.below
  have told := tidy.stat_of_routes owns.normal further memory owns.found
  rw [told, owns.entry_eq]
  rfl

/-- What is told about a mount point is what the mount shows in the directory above it, the
root of its store. -/
theorem Tidy.stat_of_mount (tidy : ns.Tidy) {m : Mount} {t : MemoryStore}
    (there : m ∈ ns.mounts) (memory : ns.storeAt m.store = .memory t) (below : m.path ≠ Path.root) :
    ∃ root, t.nodes.get? Path.root = some root
      ∧ (∀ now, ns.mountEntry now m = root.entry.relocate m.path)
      ∧ ns.stat m.path = .ok (root.entry.relocate m.path) := by
  have layout := (tidy.wellFormed memory).layout
  obtain ⟨root, found, _⟩ := layout.root
  have told := tidy.stat_of_routes (tidy.normal there) (tidy.routes_point there) memory found
  rw [Route.externalize, if_neg below, if_pos (layout.sound found).path_eq] at told
  refine ⟨root, found, fun now => ?_, told⟩
  have shown : (ns.storeAt m.store).stat ns.world Path.root = .ok root.entry := by
    rw [memory]
    exact MemoryStore.stat_of_get? Path.isNormal_root found
  rw [mountEntry, shown]

/-- An entry that a mount hides is told about again once the mount is taken away. -/
theorem Owns.stat_unmounted (tidy : ns.Tidy) {dir child name : String} {r : Route}
    {s : MemoryStore} {e : Entry} {node : MemoryNode} (owns : Owns dir r s e child name node)
    (routes : ns.Routes dir r) (memory : ns.storeAt r.mount.store = .memory s) {m : Mount}
    (mounted : m ∈ ns.mounts) (same : m.path = e.path) :
    ∃ after, ns.unmount e.path = .ok after ∧ after.stat e.path = .ok e := by
  have text : Path.resolve Path.root e.path = e.path := owns.normal.resolve_eq Path.root
  have unmounts : ns.unmount e.path = .ok { ns with
      mounts := ns.mounts.filter fun m => m.path ≠ Path.resolve Path.root e.path } :=
    unmount_eq_ok_iff.mpr ⟨⟨m, mounted, same.trans text.symm⟩, rfl⟩
  refine ⟨_, unmounts, ?_⟩
  have tidy' := tidy.effect (@Effect.unmounted ns 0 _ _ unmounts)
  -- The mount of the directory has fewer segments than the one that is taken away.
  have away : r.mount.path ≠ Path.resolve Path.root e.path := by
    rw [text]
    intro same
    have covers := routes.near.covers.length_le
    rw [same, owns.segments_eq, List.length_append, List.length_singleton] at covers
    omega
  refine owns.stat_eq tidy' (routes.unmount unmounts away) memory fun m kept => ?_
  rw [← text]
  exact of_decide_eq_true (List.mem_filter.mp kept).2

/-! ## Agreement -/

/-- A mount stands at the path of an entry that the listed store has of its own. -/
structure Hides (ns : Namespace) (dir : String) (e : Entry) (m : Mount) : Prop where
  mem : m ∈ ns.mounts
  path_eq : m.path = e.path
  own : ∃ r own, ns.OwnListing dir r own ∧ e ∈ own

theorem ne_root_of_segments {path dir name : String}
    (h : Path.segments path = Path.segments dir ++ [name]) : path ≠ Path.root := by
  rintro rfl
  have none : Path.segments Path.root = [] := rfl
  rw [none] at h
  simp at h

/-- Every entry of a listing is what is told about its path, unless a mount hides it.  Then
the path tells about the root of the mounted store, and the entry is what it tells once the
mount is taken away. -/
theorem listing_agrees_unless_hidden (reach : ns.Reachable)
    (memory : ∀ m ∈ ns.mounts, ∃ s, ns.storeAt m.store = .memory s) {path : Option String}
    {entries : List Entry} (lists : ns.listDirectory now path = .ok entries) {e : Entry}
    (there : e ∈ entries) :
    ((∀ m, ¬ns.Hides (ns.listed path) e m) → ns.stat e.path = .ok e)
    ∧ ∀ m, ns.Hides (ns.listed path) e m →
      (∃ t root, ns.storeAt m.store = .memory t ∧ t.nodes.get? Path.root = some root
        ∧ ns.stat e.path = .ok (root.entry.relocate e.path))
      ∧ ∃ after, ns.unmount e.path = .ok after ∧ after.stat e.path = .ok e := by
  have tidy := reach.tidy
  obtain ⟨r, own, listing, sources⟩ := tidy.mem_listDirectory lists
  obtain ⟨s, inMemory⟩ := memory r.mount listing.routes.near.mem
  constructor
  · intro plain
    rcases (sources e).mp there with mine | ⟨m, mounted, up, _, rfl⟩
    · obtain ⟨child, name, node, owns⟩ := listing.exists_owns tidy inMemory mine
      refine owns.stat_eq tidy listing.routes inMemory fun m mounted same => ?_
      exact plain m ⟨mounted, same, r, own, listing, mine⟩
    · obtain ⟨t, inMemory'⟩ := memory m mounted
      have below := ((tidy.normal mounted).parent?_eq_some_iff.mp up).1
      obtain ⟨root, _, shown, told⟩ := tidy.stat_of_mount mounted inMemory' below
      rw [shown now]
      exact told
  · rintro m ⟨mounted, same, r', own', listing', mine⟩
    cases listing.routes.unique listing'.routes
    obtain ⟨child, name, node, owns⟩ := listing'.exists_owns tidy inMemory mine
    have below := ne_root_of_segments owns.segments_eq
    obtain ⟨t, inMemory'⟩ := memory m mounted
    obtain ⟨root, found, _, told⟩ := tidy.stat_of_mount mounted inMemory' (same ▸ below)
    rw [same] at told
    refine ⟨⟨t, root, inMemory', found, told⟩, ?_⟩
    exact owns.stat_unmounted tidy listing.routes inMemory mounted same

/-- A store at `/` with the files `data` and `f`, and another store that is mounted over the
first of them. -/
def overlaid : Namespace :=
  (empty (World.bare [])).run
    [.make 0 {} ⟨"/", "root", .virtual, none, false⟩,
      .make 0 {} ⟨"/data", "data", .virtual, none, false⟩,
      .ask 1 (.mount "/" "root" 0), .ask 2 (.createFile "/data" [1]),
      .ask 3 (.createFile "/f" [2]), .ask 4 (.mount "/data" "data" 1)]

theorem reachable_overlaid : overlaid.Reachable := ⟨World.bare [], _, rfl⟩

theorem memory_overlaid {m : Mount} (there : m ∈ overlaid.mounts) :
    ∃ s, overlaid.storeAt m.store = .memory s := by
  have mounts : overlaid.SeparateMounts := .of_kinds (by decide +kernel) (by decide +kernel)
  exact mounts.memory there

/-- Both files are listed, as the store at `/` has them. -/
theorem exists_listing_overlaid :
    ∃ entries r own, overlaid.listDirectory 5 none = .ok entries
      ∧ overlaid.OwnListing "/" r own ∧ own ⊆ entries
      ∧ .file 2 "/data" "rw-r--r--" [1] ∈ own ∧ .file 3 "/f" "rw-r--r--" [2] ∈ own := by
  have tidy := reachable_overlaid.tidy
  cases h : overlaid.listDirectory 5 none with
  | error e =>
      have lists : (overlaid.listDirectory 5 none).isOk = true := by decide +kernel
      rw [h] at lists
      cases lists
  | ok entries =>
      obtain ⟨r, own, listing, sources⟩ := tidy.mem_listDirectory h
      have route : overlaid.route "/" = .ok ⟨⟨"/", "root", 0⟩, "/"⟩ := by decide +kernel
      cases listing.routes.unique (tidy.route_eq_ok_iff.mp route)
      have memory : overlaid.storeAt 0 = .memory ((MemoryStore.create {} 0).run
          [⟨2, .createFile "/data" [1]⟩, ⟨3, .createFile "/f" [2]⟩]) := rfl
      refine ⟨entries, _, own, rfl, listing, fun e mine => (sources e).mpr (Or.inl mine), ?_, ?_⟩
      · exact (listing.mem_iff tidy memory).mpr
          ⟨"/data", ⟨2, .file 2 "/data" "rw-r--r--" [1], [1]⟩, rfl, by decide, rfl⟩
      · exact (listing.mem_iff tidy memory).mpr
          ⟨"/f", ⟨3, .file 3 "/f" "rw-r--r--" [2], [2]⟩, rfl, by decide, rfl⟩

/-- The file that has no mount over it is listed as it is told about.  So is the other one
once the mount is gone. -/
theorem listing_agrees_unless_hidden_overlaid :
    ∃ entries, overlaid.listDirectory 5 none = .ok entries
      ∧ .file 2 "/data" "rw-r--r--" [1] ∈ entries ∧ .file 3 "/f" "rw-r--r--" [2] ∈ entries
      ∧ overlaid.stat "/f" = .ok (.file 3 "/f" "rw-r--r--" [2])
      ∧ ∃ after, overlaid.unmount "/data" = .ok after
        ∧ after.stat "/data" = .ok (.file 2 "/data" "rw-r--r--" [1]) := by
  obtain ⟨entries, r, own, lists, listing, among, data, f⟩ := exists_listing_overlaid
  have agree := fun {e : Entry} (there : e ∈ entries) =>
    listing_agrees_unless_hidden reachable_overlaid (fun _ => memory_overlaid) lists there
  have bare : ∀ m ∈ overlaid.mounts, m.path ≠ "/f" := by decide +kernel
  have mounted : ⟨"/data", "data", 1⟩ ∈ overlaid.mounts := by decide +kernel
  refine ⟨entries, lists, among data, among f, ?_, ?_⟩
  · exact (agree (among f)).1 fun m hides => bare m hides.mem hides.path_eq
  · exact ((agree (among data)).2 _ ⟨mounted, rfl, r, own, listing, data⟩).2

/-- The other file is listed as a file, and its path tells about a directory. -/
theorem hidden_entry_listed :
    overlaid.Reachable ∧ (∀ m ∈ overlaid.mounts, ∃ s, overlaid.storeAt m.store = .memory s)
      ∧ ∃ entries, overlaid.listDirectory 5 none = .ok entries
        ∧ .file 2 "/data" "rw-r--r--" [1] ∈ entries
        ∧ overlaid.stat "/data" = .ok ((Entry.directory 0 "/" "rwxr-xr-x").relocate "/data")
        ∧ overlaid.stat "/data" ≠ .ok (.file 2 "/data" "rw-r--r--" [1]) := by
  obtain ⟨entries, r, own, lists, listing, among, data, _⟩ := exists_listing_overlaid
  have told : overlaid.stat "/data"
      = .ok ((Entry.directory 0 "/" "rwxr-xr-x").relocate "/data") := by decide +kernel
  refine ⟨reachable_overlaid, fun _ => memory_overlaid, entries, lists, among data, told, ?_⟩
  rw [told]
  intro same
  cases congrArg Entry.kind (Except.ok.inj same)

end Namespace

end MountFs
