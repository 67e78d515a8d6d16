import Mathlib.Data.List.Nodup
import MountFs.Proofs.NamespaceEvents

/-!
# Routing

A path of a namespace belongs to the nearest mount above it.  `Nearest` says so on segment
lists: the segments of the mount point are a prefix of those of the path, and no other
mount has as many.  `Tidy.route_eq_ok_iff` says that `route` finds that mount, and that
what it leaves of the path is the other segments, so nothing is lost on the way into a
store.

The code compares texts and picks the longest one in bytes.  The mounts above one path lie
above each other, and there a longer text has more segments (`utf8ByteSize_render_lt`), so
the two orders agree where it matters.

The way back is `externalize`, which puts the mount point before the path of an entry
(`Route.namedAt_externalize`).
-/

namespace MountFs

/-! ## The longest mount -/

namespace Mount

theorem longest_eq_none_iff {mounts : List Mount} : longest mounts = none ↔ mounts = [] := by
  cases mounts with
  | nil => simp [longest]
  | cons m rest =>
      simp only [longest]
      cases longest rest with
      | none => simp
      | some best => by_cases h : best.path.utf8ByteSize < m.path.utf8ByteSize <;> simp [h]

/-- The longest mount is one of them, and no other has a longer path. -/
theorem longest_eq_some {mounts : List Mount} {m : Mount} (h : longest mounts = some m) :
    m ∈ mounts ∧ ∀ n ∈ mounts, n.path.utf8ByteSize ≤ m.path.utf8ByteSize := by
  induction mounts generalizing m with
  | nil => cases h
  | cons first rest ih =>
      rw [longest] at h
      cases below : longest rest with
      | none =>
          rw [below] at h
          cases h
          simp [longest_eq_none_iff.mp below]
      | some best =>
          obtain ⟨there, most⟩ := ih below
          rw [below] at h
          dsimp only at h
          split at h
          next longer =>
            cases h
            refine ⟨List.mem_cons_self, List.forall_mem_cons.mpr ⟨Nat.le_refl _, ?_⟩⟩
            intro n m
            exact Nat.le_trans (most n m) (Nat.le_of_lt longer)
          next short =>
            cases h
            refine ⟨List.mem_cons_of_mem _ there, List.forall_mem_cons.mpr ⟨?_, most⟩⟩
            exact Nat.le_of_not_lt short

/-- A test that a mount fails does not tell whether it was put in. -/
theorem filter_insertSorted {m : Mount} {test : Mount → Bool} (fails : test m = false)
    (mounts : List Mount) : (m.insertSorted mounts).filter test = mounts.filter test := by
  induction mounts with
  | nil => simp [insertSorted, fails]
  | cons first rest ih =>
      rw [insertSorted]
      split
      · rw [List.filter_cons_of_neg (by simp [fails])]
      · simp only [List.filter_cons, ih]

end Mount

namespace Namespace

/-! ## The nearest mount -/

/-- The mount that a path belongs to. -/
structure Nearest (ns : Namespace) (path : String) (m : Mount) : Prop where
  mem : m ∈ ns.mounts
  /-- The path starts with the segments of the mount point. -/
  covers : Path.segments m.path <+: Path.segments path
  /-- Every other mount that the path starts with has fewer segments. -/
  longest : ∀ other ∈ ns.mounts, Path.segments other.path <+: Path.segments path → other ≠ m →
    (Path.segments other.path).length < (Path.segments m.path).length

theorem Nearest.unique {ns : Namespace} {path : String} {m n : Mount} (hm : ns.Nearest path m)
    (hn : ns.Nearest path n) : m = n := by
  by_cases same : m = n
  · exact same
  · have more := hm.longest n hn.mem hn.covers (Ne.symm same)
    have less := hn.longest m hm.mem hm.covers same
    omega

/-- A route to where a path leads. -/
structure Routes (ns : Namespace) (path : String) (r : Route) : Prop where
  near : ns.Nearest path r.mount
  /-- The path inside the store is normal. -/
  normal : Path.IsNormal r.inner
  /-- The mount point and the path inside the store make up the path. -/
  split : Path.segments r.mount.path ++ Path.segments r.inner = Path.segments path

theorem Routes.unique {ns : Namespace} {path : String} {r r' : Route} (h : ns.Routes path r)
    (h' : ns.Routes path r') : r = r' := by
  obtain ⟨m, inner⟩ := r
  obtain ⟨m', inner'⟩ := r'
  obtain rfl : m = m' := h.near.unique h'.near
  have rest : Path.segments inner = Path.segments inner' :=
    List.append_cancel_left (h.split.trans h'.split.symm)
  obtain rfl : inner = inner' := h.normal.eq_of_segments_eq h'.normal rest
  rfl

/-- Of two mounts above one path, the one with fewer segments has the shorter text. -/
theorem utf8ByteSize_lt_of_prefix {path top other : String} (ht : Path.IsNormal top)
    (ho : Path.IsNormal other) (covers : Path.segments top <+: Path.segments path)
    (also : Path.segments other <+: Path.segments path) (differ : other ≠ top)
    (more : (Path.segments top).length ≤ (Path.segments other).length) :
    top.utf8ByteSize < other.utf8ByteSize := by
  obtain ⟨rest, split⟩ := List.prefix_of_prefix_length_le covers also more
  have names : Path.AllNames rest := by
    have all := Path.allNames_segments other
    rw [← split] at all
    exact (Path.allNames_append.mp all).2
  have longer : rest ≠ [] := by
    rintro rfl
    rw [List.append_nil] at split
    exact differ (ho.eq_of_segments_eq ht split.symm)
  have size := Path.utf8ByteSize_render_lt (Path.segments top) names longer
  rwa [split, ht.render_segments, ho.render_segments] at size

theorem Tidy.path_inj {ns : Namespace} (tidy : ns.Tidy) {m n : Mount} (hm : m ∈ ns.mounts)
    (hn : n ∈ ns.mounts) (same : m.path = n.path) : m = n :=
  List.inj_on_of_nodup_map tidy.distinct hm hn same

theorem isNormal_absolute (ns : Namespace) (path : String) : Path.IsNormal (ns.absolute path) :=
  Path.isNormal_resolve ns.cwd path

/-- The mounts that the code looks at are those whose segments a path starts with. -/
theorem Tidy.mem_above_iff {ns : Namespace} (tidy : ns.Tidy) {path : String} {m : Mount} :
    m ∈ (ns.mounts.filter fun m => Path.isUnder (ns.absolute path) m.path) ↔
      m ∈ ns.mounts ∧ Path.segments m.path <+: Path.segments (ns.absolute path) := by
  rw [List.mem_filter]
  exact and_congr_right fun there =>
    (ns.isNormal_absolute path).isUnder_iff (tidy.normal there)

theorem Tidy.nearest_of_longest {ns : Namespace} (tidy : ns.Tidy) {path : String} {m : Mount}
    (h : Mount.longest (ns.mounts.filter fun m => Path.isUnder (ns.absolute path) m.path)
      = some m) : ns.Nearest (ns.absolute path) m := by
  obtain ⟨there, most⟩ := Mount.longest_eq_some h
  obtain ⟨mem, covers⟩ := tidy.mem_above_iff.mp there
  refine ⟨mem, covers, fun other others also differ => Nat.lt_of_not_le fun more => ?_⟩
  have longer := utf8ByteSize_lt_of_prefix (tidy.normal mem) (tidy.normal others) covers also
    (fun same => differ (tidy.path_inj others mem same)) more
  have shorter := most other (tidy.mem_above_iff.mpr ⟨others, also⟩)
  omega

/-- What is left of a path behind its mount point. -/
theorem Tidy.routes_of_nearest {ns : Namespace} (tidy : ns.Tidy) {path : String} {m : Mount}
    (h : ns.Nearest (ns.absolute path) m) :
    ns.Routes (ns.absolute path) ⟨m, Path.stripMount (ns.absolute path) m.path⟩ := by
  obtain ⟨rest, split⟩ := h.covers
  have names : Path.AllNames rest := by
    have all := Path.allNames_segments (ns.absolute path)
    rw [← split] at all
    exact (Path.allNames_append.mp all).2
  have inner : Path.stripMount (ns.absolute path) m.path = Path.render rest := by
    have strip := Path.stripMount_render (Path.allNames_segments m.path) rest
    rwa [split, (ns.isNormal_absolute path).render_segments,
      (tidy.normal h.mem).render_segments] at strip
  refine ⟨h, ?_, ?_⟩
  · rw [inner]
    exact Path.isNormal_render names
  · rw [inner, Path.segments_render names, split]

/-- Routing finds the nearest mount and the path behind it. -/
theorem Tidy.route_eq_ok_iff {ns : Namespace} (tidy : ns.Tidy) {path : String} {r : Route} :
    ns.route path = .ok r ↔ ns.Routes (ns.absolute path) r := by
  rw [route]
  cases found : Mount.longest
      (ns.mounts.filter fun m => Path.isUnder (ns.absolute path) m.path) with
  | none =>
      simp only [reduceCtorEq, false_iff]
      intro routes
      have there := tidy.mem_above_iff.mpr ⟨routes.near.mem, routes.near.covers⟩
      rw [Mount.longest_eq_none_iff.mp found] at there
      cases there
  | some m =>
      have routes := tidy.routes_of_nearest (tidy.nearest_of_longest found)
      simp only [Except.ok.injEq]
      constructor
      · rintro rfl
        exact routes
      · exact fun other => routes.unique other

/-- Routing fails exactly if the path starts with no mount point, and the error names the
path. -/
theorem Tidy.route_eq_error_iff {ns : Namespace} (tidy : ns.Tidy) {path : String} {e : FsError} :
    ns.route path = .error e ↔
      (∀ m ∈ ns.mounts, ¬Path.segments m.path <+: Path.segments (ns.absolute path))
        ∧ e = .noMountPoint (ns.absolute path) := by
  rw [route]
  cases found : Mount.longest
      (ns.mounts.filter fun m => Path.isUnder (ns.absolute path) m.path) with
  | none =>
      have none : ∀ m ∈ ns.mounts,
          ¬Path.segments m.path <+: Path.segments (ns.absolute path) := by
        intro m there covers
        have above := tidy.mem_above_iff.mpr ⟨there, covers⟩
        rw [Mount.longest_eq_none_iff.mp found] at above
        cases above
      simp only [Except.error.injEq]
      exact ⟨fun same => ⟨none, same.symm⟩, fun same => same.2.symm⟩
  | some m =>
      obtain ⟨there, covers⟩ := tidy.mem_above_iff.mp (Mount.longest_eq_some found).1
      simp only [reduceCtorEq, false_iff, not_and]
      exact fun none => absurd covers (none m there)

/-- Two paths with one route are one path. -/
theorem Tidy.absolute_eq_of_route {ns : Namespace} (tidy : ns.Tidy) {path other : String}
    {r r' : Route} (h : ns.route path = .ok r) (h' : ns.route other = .ok r')
    (point : r.mount.path = r'.mount.path) (inner : r.inner = r'.inner) :
    ns.absolute path = ns.absolute other := by
  have left := (tidy.route_eq_ok_iff.mp h).split
  have right := (tidy.route_eq_ok_iff.mp h').split
  rw [point, inner, right] at left
  exact (ns.isNormal_absolute path).eq_of_segments_eq (ns.isNormal_absolute other) left.symm

end Namespace

/-! ## Names of entries -/

/-- An entry has the path, and its name is the last segment, empty for the root. -/
structure Entry.NamedAt (e : Entry) (path : String) : Prop where
  path_eq : e.path = path
  name_eq : e.name = (Path.segments path).getLastD ""

theorem Path.IsNormal.normalize_eq {path : String} (h : IsNormal path) :
    normalize path = .ok path := by
  obtain ⟨names, hn, rfl⟩ := h
  exact normalize_render hn

theorem Entry.namedAt_relocate {path : String} (e : Entry) (normal : Path.IsNormal path) :
    (e.relocate path).NamedAt path :=
  ⟨rfl, normal.fileName_eq⟩

namespace MemoryStore

variable {s after : MemoryStore} {now : Time} {path : String} {e : Entry}

theorem WellFormed.namedAt_of_stat (wf : s.WellFormed) (normal : Path.IsNormal path)
    (h : s.stat path = .ok e) : e.NamedAt path := by
  rw [stat, normal.normalize_eq] at h
  cases found : s.nodes.get? path with
  | none => simp [bind, Except.bind, found] at h
  | some node =>
      have sound := wf.layout.sound found
      simp only [bind, Except.bind, found, Except.ok.injEq] at h
      rw [← h]
      exact ⟨sound.path_eq, sound.name_eq⟩

theorem namedAt_of_createDirectory (normal : Path.IsNormal path)
    (h : s.createDirectory now path = .ok (after, e)) : e.NamedAt path := by
  obtain ⟨p, same, h⟩ := Except.bind_eq_ok.mp h
  cases normal.normalize_eq.symm.trans same
  obtain ⟨_, _, h⟩ := Except.bind_eq_ok.mp h
  cases h
  exact ⟨rfl, normal.fileName_eq⟩

theorem namedAt_of_createFile {content : Bytes} (normal : Path.IsNormal path)
    (h : s.createFile now path content = .ok (after, e)) : e.NamedAt path := by
  obtain ⟨p, same, h⟩ := Except.bind_eq_ok.mp h
  cases normal.normalize_eq.symm.trans same
  obtain ⟨_, _, h⟩ := Except.bind_eq_ok.mp h
  obtain ⟨_, _, h⟩ := Except.bind_eq_ok.mp h
  cases h
  exact ⟨rfl, normal.fileName_eq⟩

end MemoryStore

/-- An entry named inside its store is named under the path that the mount point and its path
in the store make up. -/
theorem Route.namedAt_externalize {r : Route} {path : String} {e : Entry}
    (point : Path.IsNormal r.mount.path) (inside : Path.IsNormal r.inner)
    (normal : Path.IsNormal path)
    (split : Path.segments r.mount.path ++ Path.segments r.inner = Path.segments path)
    (named : e.NamedAt r.inner) : (r.externalize e).NamedAt path := by
  by_cases top : r.mount.path = Path.root
  · -- A mount at the root leaves the path as it is.
    rw [top] at split
    have same : r.inner = path := inside.eq_of_segments_eq normal split
    rw [Route.externalize, if_pos top]
    exact same ▸ named
  · rw [Route.externalize, if_neg top]
    by_cases root : e.path = Path.root
    · -- The root of a store has the path of the mount point.
      rw [← named.path_eq, root] at split
      have same : r.mount.path = path :=
        point.eq_of_segments_eq normal ((List.append_nil _).symm.trans split)
      rw [if_pos root, same]
      exact e.namedAt_relocate normal
    · have front : Path.segments r.mount.path ≠ [] := by
        rwa [ne_eq, ← Path.render_eq_root_iff (Path.allNames_segments _), point.render_segments]
      have rest : Path.segments r.inner ≠ [] := by
        rwa [ne_eq, ← Path.render_eq_root_iff (Path.allNames_segments _),
          inside.render_segments, ← named.path_eq]
      have text : r.mount.path ++ e.path = path := by
        rw [named.path_eq, ← normal.render_segments, ← split, Path.render_append front rest,
          point.render_segments, inside.render_segments]
      rw [if_neg root, text]
      exact e.namedAt_relocate normal

namespace Namespace

/-- An entry named inside its store is named in the namespace. -/
theorem Routes.externalize {ns : Namespace} (tidy : ns.Tidy) {path : String} {r : Route}
    {e : Entry} (routes : ns.Routes path r) (normal : Path.IsNormal path)
    (named : e.NamedAt r.inner) : (r.externalize e).NamedAt path :=
  Route.namedAt_externalize (tidy.normal routes.near.mem) routes.normal normal routes.split named

/-- A path leads to a store in memory. -/
def LeadsToMemory (ns : Namespace) (path : String) (s : MemoryStore) : Prop :=
  ∃ r, ns.route path = .ok r ∧ ns.storeAt r.mount.store = .memory s

theorem stat_of_route {ns : Namespace} {path : String} {r : Route} (h : ns.route path = .ok r) :
    ns.stat path = ((ns.storeAt r.mount.store).stat ns.world r.inner).map r.externalize := by
  rw [stat, h]
  simp only [bind, Except.bind]
  cases (ns.storeAt r.mount.store).stat ns.world r.inner <;> rfl

theorem onRoute_of_route {α : Type} {ns : Namespace} {path : String} {r : Route}
    (h : ns.route path = .ok r) (step : Route → Store → World → Step (Store × World) α) :
    ns.onRoute path step
      = (step r (ns.storeAt r.mount.store) ns.world).lift (ns.withStore r.mount.store) := by
  rw [onRoute, h]
  rfl

theorem ofOutcome_outcome_eq_ok_iff {σ α : Type} {before : σ} {o : Outcome (σ × α)} {a : α} :
    (Step.ofOutcome before o).outcome = .ok a ↔ ∃ after, o = .ok (after, a) := by
  cases o with
  | error e => simp [Step.ofOutcome]
  | ok made => simp [Step.ofOutcome, Prod.ext_iff]

theorem Tidy.namedAt_of_stat {ns : Namespace} (tidy : ns.Tidy) {path : String} {s : MemoryStore}
    {e : Entry} (leads : ns.LeadsToMemory path s) (h : ns.stat path = .ok e) :
    e.NamedAt (ns.absolute path) := by
  obtain ⟨r, found, memory⟩ := leads
  have routes := tidy.route_eq_ok_iff.mp found
  rw [stat_of_route found, memory] at h
  obtain ⟨inner, told, rfl⟩ := Outcome.map_eq_ok.mp h
  have wf := tidy.wellFormed memory
  exact routes.externalize tidy (ns.isNormal_absolute path)
    (wf.namedAt_of_stat routes.normal told)

theorem Tidy.namedAt_of_createDirectory {ns : Namespace} (tidy : ns.Tidy) {now : Time}
    {path : String} {s : MemoryStore} {e : Entry} (leads : ns.LeadsToMemory path s)
    (h : (ns.createDirectory now path).outcome = .ok e) : e.NamedAt (ns.absolute path) := by
  obtain ⟨r, found, memory⟩ := leads
  have routes := tidy.route_eq_ok_iff.mp found
  rw [createDirectory, onRoute_of_route found, memory] at h
  obtain ⟨inner, made, rfl⟩ := Outcome.map_eq_ok.mp h
  obtain ⟨after, made⟩ : ∃ after, s.createDirectory now r.inner = .ok (after, inner) :=
    ofOutcome_outcome_eq_ok_iff.mp made
  exact routes.externalize tidy (ns.isNormal_absolute path)
    (MemoryStore.namedAt_of_createDirectory routes.normal made)

theorem Tidy.namedAt_of_createFile {ns : Namespace} (tidy : ns.Tidy) {now : Time} {path : String}
    {content : Bytes} {s : MemoryStore} {e : Entry} (leads : ns.LeadsToMemory path s)
    (h : (ns.createFile now path content).outcome = .ok e) : e.NamedAt (ns.absolute path) := by
  obtain ⟨r, found, memory⟩ := leads
  have routes := tidy.route_eq_ok_iff.mp found
  rw [createFile, onRoute_of_route found, memory] at h
  obtain ⟨inner, made, rfl⟩ := Outcome.map_eq_ok.mp h
  obtain ⟨after, made⟩ : ∃ after, s.createFile now r.inner content = .ok (after, inner) :=
    ofOutcome_outcome_eq_ok_iff.mp made
  exact routes.externalize tidy (ns.isNormal_absolute path)
    (MemoryStore.namedAt_of_createFile routes.normal made)

/-! ## Mounting and unmounting -/

theorem route_congr {ns other : Namespace} {path : String} (cwd : other.cwd = ns.cwd)
    (above : (other.mounts.filter fun m => Path.isUnder (ns.absolute path) m.path)
      = ns.mounts.filter fun m => Path.isUnder (ns.absolute path) m.path) :
    other.route path = ns.route path := by
  have absolute : other.absolute path = ns.absolute path := by
    rw [Namespace.absolute, cwd]
    rfl
  rw [route, route, absolute, above]

/-- A new mount is not noticed by the paths that it does not cover. -/
theorem route_of_mount {ns after : Namespace} {point name path : String} {store : Nat}
    (mounts : ns.mount point name store = .ok after)
    (away : ¬Path.segments (Path.resolve Path.root point) <+: Path.segments (ns.absolute path)) :
    after.route path = ns.route path := by
  obtain ⟨_, rfl⟩ := mount_eq_ok_iff.mp mounts
  refine route_congr rfl (Mount.filter_insertSorted ?_ ns.mounts)
  rw [Bool.eq_false_iff, ne_eq,
    (ns.isNormal_absolute path).isUnder_iff (Path.isNormal_resolve Path.root point)]
  exact away

/-- To take a new mount away again leaves the namespace as it was. -/
theorem unmount_of_mount {ns after : Namespace} {point name : String} {store : Nat}
    (mounts : ns.mount point name store = .ok after) : after.unmount point = .ok ns := by
  obtain ⟨free, rfl⟩ := mount_eq_ok_iff.mp mounts
  refine unmount_eq_ok_iff.mpr ⟨⟨_, mem_insertSorted.mpr (Or.inl rfl), rfl⟩, ?_⟩
  have rest : ns.mounts.filter (fun m => m.path ≠ Path.resolve Path.root point) = ns.mounts :=
    List.filter_eq_self.mpr fun m there => decide_eq_true (free m there)
  rw [Mount.filter_insertSorted (by simp), rest]

/-! ## Routing in a namespace that can be reached -/

/-- Routing goes to the mount with the most segments that a path starts with and leaves the
other segments, and fails if there is none.  So a route tells the path, entries come back
under the path they were asked for, and a mount is noticed only below its point, and only
until it is taken away. -/
theorem route_longest_prefix {ns : Namespace} (reach : ns.Reachable) :
    (∀ path, Path.IsNormal (ns.absolute path)
      ∧ ((∃ r, ns.route path = .ok r) ↔
        ∃ m ∈ ns.mounts, Path.segments m.path <+: Path.segments (ns.absolute path))
      ∧ ((¬∃ m ∈ ns.mounts, Path.segments m.path <+: Path.segments (ns.absolute path)) →
        ns.route path = .error (.noMountPoint (ns.absolute path)))
      ∧ ∀ r, ns.route path = .ok r → ns.Routes (ns.absolute path) r)
    ∧ (∀ path other r r', ns.route path = .ok r → ns.route other = .ok r' →
        r.mount.path = r'.mount.path → r.inner = r'.inner →
        ns.absolute path = ns.absolute other)
    ∧ (∀ path s now content e, ns.LeadsToMemory path s →
        ns.stat path = .ok e ∨ (ns.createFile now path content).outcome = .ok e
          ∨ (ns.createDirectory now path).outcome = .ok e →
        e.NamedAt (ns.absolute path))
    ∧ ∀ point name store after, ns.mount point name store = .ok after →
        (∀ path,
          ¬Path.segments (Path.resolve Path.root point) <+: Path.segments (ns.absolute path) →
          after.route path = ns.route path)
        ∧ after.unmount point = .ok ns := by
  have tidy := reach.tidy
  refine ⟨fun path => ?_, fun path other r r' h h' => tidy.absolute_eq_of_route h h', ?_, ?_⟩
  · have fails : (¬∃ m ∈ ns.mounts, Path.segments m.path <+: Path.segments (ns.absolute path)) →
        ns.route path = .error (.noMountPoint (ns.absolute path)) := fun none =>
      tidy.route_eq_error_iff.mpr ⟨fun m there covers => none ⟨m, there, covers⟩, rfl⟩
    refine ⟨ns.isNormal_absolute path, ⟨?_, ?_⟩, fails, fun r => tidy.route_eq_ok_iff.mp⟩
    · rintro ⟨r, found⟩
      have near := (tidy.route_eq_ok_iff.mp found).near
      exact ⟨r.mount, near.mem, near.covers⟩
    · rintro ⟨m, there, covers⟩
      cases found : ns.route path with
      | ok r => exact ⟨r, rfl⟩
      | error e => exact absurd covers ((tidy.route_eq_error_iff.mp found).1 m there)
  · rintro path s now content e leads (told | made | made)
    · exact tidy.namedAt_of_stat leads told
    · exact tidy.namedAt_of_createFile leads made
    · exact tidy.namedAt_of_createDirectory leads made
  · intro point name store after mounts
    exact ⟨fun path => route_of_mount mounts, unmount_of_mount mounts⟩

/-- Two stores are made and mounted at `/` and `/data`, which becomes the current
directory. -/
def lookalikes : List NamespaceEvent :=
  [.make 0 {} ⟨"/", "root", .virtual, none, false⟩,
    .make 0 {} ⟨"/data", "data", .virtual, none, false⟩,
    .ask 1 (.mount "/" "root" 0), .ask 2 (.mount "x/../data" "data" 1),
    .ask 3 (.changeDirectory "data")]

/-- The text of one mount point starts the text of a path that it does not cover.  A third
mount below `/data` comes and goes. -/
theorem route_longest_prefix_lookalike :
    let ns := (empty (World.bare [])).run lookalikes
    ns.Reachable ∧ ns.LeadsToMemory "x" (MemoryStore.create {} 0)
      ∧ ns.Routes (ns.absolute "x") ⟨⟨"/data", "data", 1⟩, "/x"⟩
      ∧ ns.Routes (ns.absolute "../database") ⟨⟨"/", "root", 0⟩, "/database"⟩
      ∧ (∃ e, (ns.createDirectory 4 "x").outcome = .ok e ∧ e.NamedAt (ns.absolute "x"))
      ∧ ∃ after, ns.mount "/data/x" "deep" 0 = .ok after
        ∧ after.route "x" = .ok ⟨⟨"/data/x", "deep", 0⟩, "/"⟩
        ∧ after.route "../database" = ns.route "../database"
        ∧ after.unmount "/data/x" = .ok ns := by
  intro ns
  have reach : ns.Reachable := ⟨World.bare [], lookalikes, rfl⟩
  have inside : ns.route "x" = .ok ⟨⟨"/data", "data", 1⟩, "/x"⟩ := by decide +kernel
  have beside : ns.route "../database" = .ok ⟨⟨"/", "root", 0⟩, "/database"⟩ := by decide +kernel
  have leads : ns.LeadsToMemory "x" (MemoryStore.create {} 0) :=
    ⟨_, inside, by decide +kernel⟩
  have made : (ns.createDirectory 4 "x").outcome
      = .ok ((Entry.directory 4 "/x" "rwxr-xr-x").relocate "/data/x") := by decide +kernel
  obtain ⟨routing, _, naming, mounting⟩ := route_longest_prefix reach
  refine ⟨reach, leads, (routing "x").2.2.2 _ inside, (routing "../database").2.2.2 _ beside,
    ?_, ?_⟩
  · exact ⟨_, made, naming "x" _ 4 [] _ leads (Or.inr (Or.inr made))⟩
  · have mounts : ns.mount "/data/x" "deep" 0 = .ok { ns with
        mounts := Mount.insertSorted ⟨"/data/x", "deep", 0⟩ ns.mounts } :=
      mount_eq_ok_iff.mpr ⟨by decide +kernel, rfl⟩
    obtain ⟨kept, restored⟩ := mounting "/data/x" "deep" 0 _ mounts
    exact ⟨_, mounts, by decide +kernel, kept "../database" (by decide +kernel), restored⟩

end Namespace

end MountFs
