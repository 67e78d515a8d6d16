import MountFs.Proofs.ByteOrder
import MountFs.Proofs.HostMirror
import MountFs.Proofs.Listing
import MountFs.Proofs.Walks

/-!
# The names of a listing

A listing of a directory has one entry for every name right below it.  A name is there because
the store has it below the place that the directory leads to, or because a mount stands right
below the directory (`Shows`).  Where both are so, the listing has the entry of the store and
leaves the mount out, so no name comes twice, and the names are in the strict order of their
bytes.

Every entry of a listing is named right below the directory (`Entry.ShownAs`), whatever the mount
point and the place in the store are, so its path is the directory and its name.
-/

namespace MountFs

/-! ## Entries of a directory -/

/-- Paths right below one directory with one name are one path. -/
theorem Path.IsNormal.eq_of_fileName_eq {path other dir : String} (h : IsNormal path)
    (h' : IsNormal other) (up : parent? path = some dir) (up' : parent? other = some dir)
    (same : fileName path = fileName other) : path = other := by
  refine h.eq_of_segments_eq h' ?_
  rw [(h.segments_eq_snoc up).2, (h'.segments_eq_snoc up').2, same]

namespace Entry

/-- The entry is what a directory shows under a name. -/
structure ShownAs (e : Entry) (dir name : String) : Prop where
  isName : Path.IsName name
  named : e.NamedAt (Path.render (Path.segments dir ++ [name]))

theorem ShownAs.name_eq {e : Entry} {dir name : String} (h : e.ShownAs dir name) :
    e.name = name := by
  rw [h.named.name_eq, Path.segments_render ((Path.allNames_segments dir).snoc h.isName),
    List.getLastD_concat]

theorem ShownAs.path_eq {e : Entry} {dir name : String} (h : e.ShownAs dir name)
    (normal : Path.IsNormal dir) : e.path = Path.join dir e.name := by
  rw [h.name_eq, h.named.path_eq, ← Path.join_render (Path.allNames_segments dir),
    normal.render_segments]

/-- Entries with different names are put in the strict order of the bytes of their names. -/
theorem strict_sortByName {entries : List Entry} (once : (entries.map name).Nodup) :
    ((sortByName entries).map name).Pairwise
      fun left right => Bytes.ofText left < Bytes.ofText right := by
  have differ := List.pairwise_map.mp (((perm_sortByName entries).map name).nodup_iff.mpr once)
  have trans : ∀ a b c : Entry, decide (a.name ≤ b.name) = true → decide (b.name ≤ c.name) = true →
      decide (a.name ≤ c.name) = true := fun _ _ _ first second =>
    decide_eq_true (le_trans (of_decide_eq_true first) (of_decide_eq_true second))
  have total : ∀ a b : Entry, (decide (a.name ≤ b.name) || decide (b.name ≤ a.name)) = true :=
    fun a b => by simpa using le_total a.name b.name
  have sorted := List.pairwise_mergeSort trans total entries
  refine List.pairwise_map.mpr (sorted.imp₂ (fun a b before ne => ?_) differ)
  exact Bytes.ofText_lt_iff.mpr (lt_of_le_of_ne (of_decide_eq_true before) ne)

end Entry

/-- A store in memory lists no entry twice. -/
theorem MemoryStore.WellFormed.nodup_listDirectory {s : MemoryStore} (wf : s.WellFormed)
    {path : String} (normal : Path.IsNormal path) {entries : List Entry}
    (h : s.listDirectory path = .ok entries) : entries.Nodup := by
  rw [MemoryStore.listDirectory_eq normal h, (Entry.perm_sortByName _).nodup_iff]
  exact TreeStore.Represents.nodup_children wf path

namespace Namespace

variable {ns : Namespace} {now : Time} {dir : String} {r : Route} {s : MemoryStore}
  {own : List Entry}

/-! ## Where a name comes from -/

/-- The names that a directory shows: those that the store has where the directory leads, and
those of the mounts right below the directory. -/
def Shows (ns : Namespace) (dir : String) (r : Route) (s : MemoryStore) (name : String) : Prop :=
  (∃ child node, s.nodes.get? child = some node ∧ Path.parent? child = some r.inner
      ∧ name = Path.fileName child)
    ∨ ∃ m ∈ ns.mounts, Path.parent? m.path = some dir ∧ name = Path.fileName m.path

theorem Routes.shownAs_child (tidy : ns.Tidy) (routes : ns.Routes dir r)
    (memory : ns.storeAt r.mount.store = .memory s) {child : String} {node : MemoryNode}
    (found : s.nodes.get? child = some node) (up : Path.parent? child = some r.inner) :
    (r.externalize node.entry).ShownAs dir (Path.fileName child) :=
  ⟨(((tidy.wellFormed memory).layout.normal found).segments_eq_snoc up).1,
    routes.namedAt_child tidy memory found up⟩

/-- A mount is shown under its last name, whether its store tells about its root or not. -/
theorem Tidy.shownAs_mountEntry (tidy : ns.Tidy) (now : Time) {m : Mount} (there : m ∈ ns.mounts)
    (up : Path.parent? m.path = some dir) :
    (ns.mountEntry now m).ShownAs dir (Path.fileName m.path) := by
  have normal := tidy.normal there
  obtain ⟨isName, below⟩ := normal.segments_eq_snoc up
  refine ⟨isName, ?_⟩
  rw [← below, normal.render_segments, mountEntry]
  split
  · exact Entry.namedAt_relocate _ normal
  · exact ⟨rfl, normal.fileName_eq⟩

/-- The entries that the store of a directory has there have different names, because the names
are those of different paths below one path of the store. -/
theorem OwnListing.nodup_names (tidy : ns.Tidy) (listing : ns.OwnListing dir r own)
    (memory : ns.storeAt r.mount.store = .memory s) : (own.map Entry.name).Nodup := by
  have wf := tidy.wellFormed memory
  obtain ⟨inner, told, rfl⟩ := listing.told
  rw [memory] at told
  rw [List.map_map]
  refine (wf.nodup_listDirectory listing.routes.normal told).map_on fun e there e' there' same => ?_
  obtain ⟨child, node, found, up, rfl⟩ :=
    (wf.mem_listDirectory listing.routes.normal told).mp there
  obtain ⟨child', node', found', up', rfl⟩ :=
    (wf.mem_listDirectory listing.routes.normal told).mp there'
  have names : Path.fileName child = Path.fileName child' := by
    rw [← (listing.routes.shownAs_child tidy memory found up).name_eq,
      ← (listing.routes.shownAs_child tidy memory found' up').name_eq]
    exact same
  obtain rfl : child = child' :=
    (wf.layout.normal found).eq_of_fileName_eq (wf.layout.normal found') up up' names
  rw [Option.some.inj (found.symm.trans found')]

theorem Tidy.nodup_mountsShown (tidy : ns.Tidy) :
    (((ns.mountsShown dir own).map (ns.mountEntry now)).map Entry.name).Nodup := by
  have once : ns.mounts.Nodup := .of_map _ tidy.distinct
  rw [List.map_map]
  refine (once.filter _).map_on fun m there m' there' same => ?_
  obtain ⟨mem, up, _⟩ := mem_mountsShown.mp there
  obtain ⟨mem', up', _⟩ := mem_mountsShown.mp there'
  have names : Path.fileName m.path = Path.fileName m'.path := by
    rw [← (tidy.shownAs_mountEntry now mem up).name_eq,
      ← (tidy.shownAs_mountEntry now mem' up').name_eq]
    exact same
  exact tidy.path_inj mem mem'
    ((tidy.normal mem).eq_of_fileName_eq (tidy.normal mem') up up' names)

/-- No name comes twice: a mount is left out if the store has its name. -/
theorem OwnListing.nodup_sources (tidy : ns.Tidy) (now : Time) (listing : ns.OwnListing dir r own)
    (memory : ns.storeAt r.mount.store = .memory s) :
    ((own ++ (ns.mountsShown dir own).map (ns.mountEntry now)).map Entry.name).Nodup := by
  rw [List.map_append, List.nodup_append]
  refine ⟨listing.nodup_names tidy memory, tidy.nodup_mountsShown, ?_⟩
  rintro name mine other others rfl
  obtain ⟨o, there, rfl⟩ := List.mem_map.mp mine
  obtain ⟨e, added, same⟩ := List.mem_map.mp others
  obtain ⟨m, shown, rfl⟩ := List.mem_map.mp added
  obtain ⟨mounted, up, free⟩ := mem_mountsShown.mp shown
  exact free o there (same.symm.trans (tidy.shownAs_mountEntry now mounted up).name_eq)

/-- Everything in a listing is shown under a name that the directory shows. -/
theorem OwnListing.shows_of_mem (tidy : ns.Tidy) (listing : ns.OwnListing dir r own)
    (memory : ns.storeAt r.mount.store = .memory s) {e : Entry}
    (there : e ∈ own ++ (ns.mountsShown dir own).map (ns.mountEntry now)) :
    ∃ name, ns.Shows dir r s name ∧ e.ShownAs dir name := by
  rcases List.mem_append.mp there with mine | added
  · obtain ⟨child, node, found, up, rfl⟩ := (listing.mem_iff tidy memory).mp mine
    exact ⟨_, .inl ⟨child, node, found, up, rfl⟩,
      listing.routes.shownAs_child tidy memory found up⟩
  · obtain ⟨m, shown, rfl⟩ := List.mem_map.mp added
    obtain ⟨mounted, up, _⟩ := mem_mountsShown.mp shown
    exact ⟨_, .inr ⟨m, mounted, up, rfl⟩, tidy.shownAs_mountEntry now mounted up⟩

/-- Every name that the directory shows is in the listing, that of a mount at the latest when the
store does not have it. -/
theorem OwnListing.mem_names_of_shows (tidy : ns.Tidy) (listing : ns.OwnListing dir r own)
    (memory : ns.storeAt r.mount.store = .memory s) {name : String}
    (shown : ns.Shows dir r s name) :
    name ∈ (own ++ (ns.mountsShown dir own).map (ns.mountEntry now)).map Entry.name := by
  rw [List.map_append, List.mem_append]
  rcases shown with ⟨child, node, found, up, rfl⟩ | ⟨m, mounted, up, rfl⟩
  · have mine := (listing.mem_iff tidy memory).mpr ⟨child, node, found, up, rfl⟩
    exact .inl (List.mem_map.mpr
      ⟨_, mine, (listing.routes.shownAs_child tidy memory found up).name_eq⟩)
  · by_cases taken : ∃ o ∈ own, o.name = Path.fileName m.path
    · exact .inl (List.mem_map.mpr taken)
    · have shown : m ∈ ns.mountsShown dir own :=
        mem_mountsShown.mpr ⟨mounted, up, fun o mine same => taken ⟨o, mine, same⟩⟩
      exact .inr (List.mem_map.mpr ⟨_, List.mem_map.mpr ⟨m, shown, rfl⟩,
        (tidy.shownAs_mountEntry now mounted up).name_eq⟩)

/-! ## When there is a listing -/

/-- A listing fails exactly if the directory leads nowhere, or if the store cannot list the place
that it leads to. -/
theorem Tidy.listDirectory_eq_error_iff (tidy : ns.Tidy) {path : Option String} {e : FsError} :
    ns.listDirectory now path = .error e ↔
      ((∀ m ∈ ns.mounts, ¬Path.segments m.path <+: Path.segments (ns.listed path))
          ∧ e = .noMountPoint (ns.listed path))
        ∨ ∃ r, ns.Routes (ns.listed path) r
          ∧ (ns.storeAt r.mount.store).listDirectory ns.world r.inner = .error e := by
  have lost : ns.route (ns.listed path) = .error e ↔ _ := tidy.route_eq_error_iff
  rw [tidy.absolute_listed] at lost
  rw [← lost]
  simp only [← tidy.route_listed_eq_ok_iff]
  change (ns.route (ns.listed path) >>= _) = _ ↔ _
  cases found : ns.route (ns.listed path) with
  | error e' => simp [bind, Except.bind]
  | ok r =>
      cases told : (ns.storeAt r.mount.store).listDirectory ns.world r.inner with
      | error e' => simp [bind, Except.bind, told]
      | ok own => simp [bind, Except.bind, told, pure, Except.pure]

/-! ## The listing of a directory -/

/-- A listing of a namespace over stores in memory has exactly the names that the directory shows,
each once, in the strict order of their bytes, and every entry has the path of the directory and
its name.  It fails exactly if the directory leads nowhere or its store cannot list the place. -/
theorem listing_is_complete (reach : ns.Reachable)
    (memory : ∀ m ∈ ns.mounts, ∃ s, ns.storeAt m.store = .memory s) (now : Time)
    (path : Option String) :
    (∀ entries, ns.listDirectory now path = .ok entries →
      ∃ r s, ns.Routes (ns.listed path) r ∧ ns.storeAt r.mount.store = .memory s
        ∧ (∀ name, name ∈ entries.map Entry.name ↔ ns.Shows (ns.listed path) r s name)
        ∧ (entries.map Entry.name).Nodup
        ∧ (entries.map Entry.name).Pairwise
          (fun left right => Bytes.ofText left < Bytes.ofText right)
        ∧ ∀ e ∈ entries, e.path = Path.join (ns.listed path) e.name)
    ∧ ∀ e, ns.listDirectory now path = .error e ↔
      ((∀ m ∈ ns.mounts, ¬Path.segments m.path <+: Path.segments (ns.listed path))
          ∧ e = .noMountPoint (ns.listed path))
        ∨ ∃ r, ns.Routes (ns.listed path) r
          ∧ (ns.storeAt r.mount.store).listDirectory ns.world r.inner = .error e := by
  have tidy := reach.tidy
  refine ⟨fun entries lists => ?_, fun e => tidy.listDirectory_eq_error_iff⟩
  obtain ⟨r, own, listing, rfl⟩ := tidy.exists_sources lists
  obtain ⟨s, inMemory⟩ := memory r.mount listing.routes.near.mem
  have once := listing.nodup_sources tidy now inMemory
  have sorted := (Entry.perm_sortByName
    (own ++ (ns.mountsShown (ns.listed path) own).map (ns.mountEntry now))).map Entry.name
  refine ⟨r, s, listing.routes, inMemory, fun name => ?_, sorted.nodup_iff.mpr once,
    Entry.strict_sortByName once, fun e there => ?_⟩
  · rw [sorted.mem_iff]
    refine ⟨fun mem => ?_, listing.mem_names_of_shows tidy inMemory⟩
    obtain ⟨e, there, rfl⟩ := List.mem_map.mp mem
    obtain ⟨name, shown, named⟩ := listing.shows_of_mem tidy inMemory there
    rwa [named.name_eq]
  · obtain ⟨name, _, named⟩ := listing.shows_of_mem tidy inMemory (Entry.mem_sortByName.mp there)
    exact named.path_eq (tidy.isNormal_listed path)

/-- A store at `/` with the files `data` and `f`, and mounts at `/data`, at `/zoo` and below
`/data`. -/
def crowded : Namespace :=
  (empty (World.bare [])).run
    [.make 0 {} ⟨"/", "root", .virtual, none, false⟩,
      .make 0 {} ⟨"/data", "data", .virtual, none, false⟩,
      .make 0 {} ⟨"/zoo", "zoo", .virtual, none, false⟩,
      .make 0 {} ⟨"/data/sub", "sub", .virtual, none, false⟩,
      .ask 1 (.mount "/" "root" 0), .ask 2 (.createFile "/f" [1]),
      .ask 3 (.createFile "/data" [2]), .ask 4 (.mount "/data" "data" 1),
      .ask 5 (.mount "/zoo" "zoo" 2), .ask 6 (.mount "/data/sub" "sub" 3)]

theorem memory_crowded {m : Mount} (there : m ∈ crowded.mounts) :
    ∃ s, crowded.storeAt m.store = .memory s := by
  have mounts : crowded.SeparateMounts := .of_kinds (by decide +kernel) (by decide +kernel)
  exact mounts.memory there

/-- The root shows the mount at `/zoo`, shows `data` once, and does not show the mount below
`/data`. -/
theorem listing_is_complete_crowded :
    ∃ entries, crowded.listDirectory 7 none = .ok entries
      ∧ "data" ∈ entries.map Entry.name ∧ "zoo" ∈ entries.map Entry.name
      ∧ "sub" ∉ entries.map Entry.name ∧ (entries.map Entry.name).Nodup := by
  have reach : crowded.Reachable := ⟨World.bare [], _, rfl⟩
  have route : crowded.route "/" = .ok ⟨⟨"/", "root", 0⟩, "/"⟩ := by decide +kernel
  have memory : crowded.storeAt 0 = .memory ((MemoryStore.create {} 0).run
      [⟨2, .createFile "/f" [1]⟩, ⟨3, .createFile "/data" [2]⟩]) := rfl
  cases h : crowded.listDirectory 7 none with
  | error e =>
      have lists : (crowded.listDirectory 7 none).isOk = true := by decide +kernel
      rw [h] at lists
      cases lists
  | ok entries =>
      obtain ⟨r, s, routes, inMemory, names, once, _⟩ :=
        (listing_is_complete reach (fun _ => memory_crowded) 7 none).1 entries h
      cases routes.unique (reach.tidy.route_eq_ok_iff.mp route)
      cases memory.symm.trans inMemory
      refine ⟨entries, rfl, ?_, ?_, ?_, once⟩
      · exact (names "data").mpr (.inl ⟨"/data", _, rfl, by decide, by decide⟩)
      · exact (names "zoo").mpr (.inr ⟨⟨"/zoo", "zoo", 2⟩, by decide +kernel, by decide⟩)
      · intro listed
        rcases (names "sub").mp listed with ⟨child, node, found, _, same⟩ | ⟨m, there, up, same⟩
        · have keys : ∀ child ∈ ((MemoryStore.create {} 0).run [⟨2, .createFile "/f" [1]⟩,
              ⟨3, .createFile "/data" [2]⟩]).nodes.keys, "sub" ≠ Path.fileName child := by
            decide +kernel
          exact keys child (Registry.mem_keys_iff.mpr ⟨node, found⟩) same
        · have mounts : ∀ m ∈ crowded.mounts, Path.parent? m.path = some "/" →
              "sub" ≠ Path.fileName m.path := by decide +kernel
          exact mounts m there up same

end Namespace

end MountFs
