import MountFs.Proofs.Listing

/-!
# The current directory

To go to `a` and then to `b` is to go to `a/b`.  On texts this is a law of `resolve`
(`resolve_resolve`).  A path is read piece by piece onto the segments kept so far, and a normal
path read again gives back the segments that it was written from, so it does not matter whether
what was kept is written down in between.  The `..` of the second path may take away what the
first one left, or what was there before it.

For a namespace there is one more thing to see.  Whether a directory can be listed has nothing to
do with the current directory or with the clock (`Lists`), so the directory that the second step
found is also there for the one step from the start.
-/

namespace MountFs

namespace Path

/-! ## One path after another -/

theorem segments_resolve_of_absolute {cwd path : String} (absolute : isAbsolute path = true) :
    segments (resolve cwd path) = segments path := by
  rw [resolve, if_pos absolute, segments_render (allNames_segments path)]

/-- A relative path is read onto the segments of the directory. -/
theorem segments_resolve_of_relative {cwd path : String} (relative : isAbsolute path = false) :
    segments (resolve cwd path) = (pieces path).foldl push (segments cwd) := by
  have names : AllNames ((pieces path).foldl push (segments cwd)) :=
    allNames_foldl_push (allNames_segments cwd) fun _ m => not_mem_of_mem_pieces m
  rw [resolve, if_neg (Bool.eq_false_iff.mp relative), collapse_append]
  exact segments_render names

/-- Whether a path is absolute is told by its first character. -/
theorem isAbsolute_append {left : String} (some : left ≠ "") (right : String) :
    isAbsolute (left ++ right) = isAbsolute left := by
  have chars : left.toList ≠ [] := fun none => some (String.toList_eq_nil_iff.mp none)
  rw [isAbsolute, isAbsolute, String.toList_append, List.head?_append_of_ne_nil _ chars]

/-- To resolve one path after the other is to resolve the two put together. -/
theorem resolve_resolve (cwd : String) {first second : String} (some : first ≠ "")
    (relative : isAbsolute second = false) :
    resolve (resolve cwd first) second = resolve cwd (first ++ "/" ++ second) := by
  refine (isNormal_resolve _ _).eq_of_segments_eq (isNormal_resolve _ _) ?_
  have start : isAbsolute (first ++ "/" ++ second) = isAbsolute first := by
    rw [String.append_assoc, isAbsolute_append some]
  rw [segments_resolve_of_relative relative]
  cases absolute : isAbsolute first with
  | true =>
      rw [segments_resolve_of_absolute absolute,
        segments_resolve_of_absolute (start.trans absolute), segments, segments, pieces_slash,
        collapse_append]
  | false =>
      rw [segments_resolve_of_relative absolute,
        segments_resolve_of_relative (start.trans absolute), pieces_slash, List.foldl_append]

end Path

namespace Namespace

variable {ns : Namespace} {now : Time}

/-! ## Directories that can be listed -/

/-- A directory leads to a place that its store can list. -/
def Lists (ns : Namespace) (dir : String) : Prop :=
  ∃ r own, ns.Routes dir r
    ∧ (ns.storeAt r.mount.store).listDirectory ns.world r.inner = .ok own

/-- Whether a directory can be listed has nothing to do with the current directory. -/
theorem lists_withCwd {dir cwd : String} : Lists { ns with cwd := cwd } dir ↔ ns.Lists dir := by
  constructor
  · rintro ⟨r, own, ⟨⟨mem, covers, longest⟩, normal, split⟩, told⟩
    exact ⟨r, own, ⟨⟨mem, covers, longest⟩, normal, split⟩, told⟩
  · rintro ⟨r, own, ⟨⟨mem, covers, longest⟩, normal, split⟩, told⟩
    exact ⟨r, own, ⟨⟨mem, covers, longest⟩, normal, split⟩, told⟩

theorem Tidy.listDirectory_isOk_iff (tidy : ns.Tidy) (now : Time) (path : Option String) :
    (∃ entries, ns.listDirectory now path = .ok entries) ↔ ns.Lists (ns.listed path) := by
  constructor
  · rintro ⟨entries, lists⟩
    obtain ⟨r, _, ⟨routes, own, told, _⟩, _⟩ := tidy.exists_sources lists
    exact ⟨r, own, routes, told⟩
  · rintro ⟨r, own, routes, told⟩
    have found := tidy.route_listed_eq_ok_iff.mpr routes
    exact ⟨_, Except.bind_eq_ok.mpr ⟨r, found, Except.bind_eq_ok.mpr ⟨own, told, rfl⟩⟩⟩

/-- A change of directory goes through if the directory can be listed, whenever it is asked
for. -/
theorem Tidy.changeDirectory_eq_ok_iff (tidy : ns.Tidy) {path : String} {after : Namespace} :
    ns.changeDirectory now path = .ok after ↔
      ns.Lists (ns.absolute path) ∧ after = { ns with cwd := ns.absolute path } := by
  have same : ns.listed (some (ns.absolute path)) = ns.absolute path :=
    absolute_of_isNormal (ns.isNormal_absolute path)
  have listable := tidy.listDirectory_isOk_iff now (some (ns.absolute path))
  rw [same] at listable
  rw [← listable]
  constructor
  · intro h
    obtain ⟨entries, lists, h⟩ := Except.bind_eq_ok.mp h
    cases h
    exact ⟨⟨entries, lists⟩, rfl⟩
  · rintro ⟨⟨entries, lists⟩, rfl⟩
    exact Except.bind_eq_ok.mpr ⟨entries, lists, rfl⟩

/-- Two changes of directory that go through are one. -/
theorem Tidy.changeDirectory_changeDirectory (tidy : ns.Tidy) {first second : String}
    (some : first ≠ "") (relative : Path.isAbsolute second = false) {mid last : Namespace}
    {now now' : Time} (goes : ns.changeDirectory now first = .ok mid)
    (further : mid.changeDirectory now' second = .ok last) (later : Time) :
    ns.changeDirectory later (first ++ "/" ++ second) = .ok last := by
  obtain ⟨_, rfl⟩ := tidy.changeDirectory_eq_ok_iff.mp goes
  have tidy' : Tidy { ns with cwd := ns.absolute first } :=
    ⟨ns.isNormal_absolute first, tidy.normal, tidy.distinct, tidy.stores⟩
  obtain ⟨lists, rfl⟩ := tidy'.changeDirectory_eq_ok_iff.mp further
  have place : absolute { ns with cwd := ns.absolute first } second
      = ns.absolute (first ++ "/" ++ second) := Path.resolve_resolve ns.cwd some relative
  rw [place] at lists ⊢
  exact tidy.changeDirectory_eq_ok_iff.mpr ⟨lists_withCwd.mp lists, rfl⟩

theorem answer_changeDirectory_of_error {path : String} {e : FsError}
    (fails : (ns.answer now (.changeDirectory path)).outcome = .error e) :
    (ns.answer now (.changeDirectory path)).state = ns := by
  rw [answer] at fails ⊢
  cases h : ns.changeDirectory now path with
  | error => rfl
  | ok after =>
      rw [h] at fails
      cases fails

/-- Relative paths compose, read from any directory.  So in every namespace that a history leads
to, the current directory is a normal path, a change of directory that fails leaves everything as
it was, and two changes of directory that go through come to the same as the one along both
paths. -/
theorem relative_paths_compose :
    (∀ cwd first second : String, first ≠ "" → Path.isAbsolute second = false →
      Path.resolve (Path.resolve cwd first) second = Path.resolve cwd (first ++ "/" ++ second))
    ∧ ∀ ns : Namespace, ns.Reachable →
      Path.IsNormal ns.cwd
      ∧ (∀ now path e, (ns.answer now (.changeDirectory path)).outcome = .error e →
        (ns.answer now (.changeDirectory path)).state = ns)
      ∧ ∀ first second : String, first ≠ "" → Path.isAbsolute second = false →
        ∀ now mid now' last, ns.changeDirectory now first = .ok mid →
          mid.changeDirectory now' second = .ok last →
          ∀ later, ns.changeDirectory later (first ++ "/" ++ second) = .ok last := by
  refine ⟨fun cwd first second some relative => Path.resolve_resolve cwd some relative,
    fun ns reach => ⟨reach.tidy.cwd, fun now path e fails => ?_, ?_⟩⟩
  · exact answer_changeDirectory_of_error fails
  · intro first second some relative now mid now' last goes further later
    exact reach.tidy.changeDirectory_changeDirectory some relative goes further later

/-- A store with the directories `/a` and `/a/b`. -/
def nested : Namespace :=
  (empty (World.bare [])).run
    [.make 0 {} ⟨"/", "root", .virtual, none, false⟩, .ask 1 (.mount "/" "root" 0),
      .ask 2 (.createDirectory "/a"), .ask 3 (.createDirectory "/a/b")]

/-- From the root to `a` and back up from `b` in two steps and in one. -/
theorem relative_paths_compose_nested :
    ∃ mid last, nested.changeDirectory 4 "./a//" = .ok mid
      ∧ mid.changeDirectory 5 "b/.." = .ok last
      ∧ nested.changeDirectory 6 ("./a//" ++ "/" ++ "b/..") = .ok last ∧ last.cwd = "/a" := by
  have reach : nested.Reachable := ⟨World.bare [], _, rfl⟩
  have go : nested.changeDirectory 4 "./a//" = .ok { nested with cwd := "/a" } := by rfl
  have further : changeDirectory { nested with cwd := "/a" } 5 "b/.."
      = .ok { nested with cwd := "/a" } := by rfl
  exact ⟨_, _, go, further,
    (relative_paths_compose.2 nested reach).2.2 "./a//" "b/.." (by decide) (by decide)
      4 _ 5 _ go further 6, rfl⟩

end Namespace

end MountFs
