import MountFs.Proofs.HostEffect
import MountFs.Proofs.Integrity
import MountFs.World.Change

/-!
# Where a store on the host reaches out of its root

Lookups and new items are confined.  Two operations are not, because they do not act where
the check looked.

* A removal takes away what the last name of the path stands for in the directory of the
  parent.  The check looked where the path leads if that name is followed too.  The two
  differ if the name is that of a link, and then the directory can be outside of the root
  (`removal_confined_iff`).
* A commit follows the path of its handle at the close, and the check was made at the open.
  In between the file may have moved.  The inode tells that it is the same file, not that
  it is still under the root (`commit_confined_iff_not_escaped`).

In both cases the statement says exactly when the operation stays under the root.
-/

namespace MountFs

namespace HostStore

variable {s : HostStore} {w : World} {root : Place}

/-! ## Removal -/

/-- The item under the last name of a path is removed from the directory that the parent of
the path leads to.  A link is removed itself, not what it leads to. -/
structure Removes (s : HostStore) (w : World) (path : String) (dir : Place) (item : Item)
    (after : World) : Prop where
  parent : w.lookup true (s.hostParent path) = .ok dir
  isDir : ∃ children, w.DirAt dir children
  found : w.at? (dir ++ [Path.fileName path]) = some item
  bare : ∀ inode mode child rest, item ≠ .dir inode mode (child :: rest)
  result : after = w.modifyAt dir (Item.dropChild (Path.fileName path))

theorem Removes.gone {path : String} {dir : Place} {item : Item} {after : World}
    (removes : s.Removes w path dir item after) :
    after.at? (dir ++ [Path.fileName path]) = none := by
  obtain ⟨children, inode, mode, found⟩ := removes.isDir
  rw [removes.result, World.at?_modifyAt_append, found, Option.bind_some, Item.dropChild,
    Item.at?_dir_cons, Item.child?_filter_ne, if_pos rfl]
  rfl

/-- The root is not removed: a path that is followed through it has a name in it. -/
theorem RootedAt.Spot.root_ne {front : List String} {last : String} {dir : Place} {item : Item}
    (hn : Path.AllNames (front ++ [last])) (spot : RootedAt.Spot w root front last dir)
    (found : w.at? (dir ++ [last]) = some item)
    (bare : ∀ inode mode child rest, item ≠ .dir inode mode (child :: rest)) :
    root ≠ dir ++ [last] := by
  intro same
  cases front with
  | nil =>
      have here : dir = root := by
        have arrives := spot.arrives
        rw [World.walk_eq] at arrives
        cases arrives
        rfl
      rw [here] at same
      have lengths := congrArg List.length same
      simp at lengths
  | cons name rest =>
      obtain ⟨children, isDir⟩ := World.exists_dirAt_of_walk spot.arrives
      have isName : Path.IsName name := hn name (by simp)
      obtain ⟨_, child, hchild⟩ := World.exists_child_of_walk isDir isName spot.arrives
      obtain ⟨inode, mode, atRoot⟩ := isDir
      rw [same, found] at atRoot
      cases children with
      | nil => cases hchild
      | cons first others => exact bare _ _ _ _ (Option.some.inj atRoot)

/-- What a store removes is under the root, or it is a link that leads there. -/
theorem exists_removes (rooted : s.RootedAt w root) {path p : String} {after : World}
    (confined : s.confine w path = .ok p) (below : p ≠ Path.root)
    (removed : w.remove (s.hostText p) = .ok after) :
    Path.normalize path = .ok p ∧ ∃ dir item, s.Removes w p dir item after
      ∧ root ≠ dir ++ [Path.fileName p]
      ∧ (¬root <+: dir → item.isLink = true
        ∧ ∃ place, w.lookup true (s.hostText p) = .ok place ∧ root <+: place) := by
  obtain ⟨names, passed, normal, rfl⟩ := confine_eq_ok rooted confined
  have hn := passed.proper
  have more : names ≠ [] := fun empty => below ((Path.render_eq_root_iff hn).mpr empty)
  obtain ⟨front, last, rfl⟩ : ∃ front last, names = front ++ [last] :=
    ⟨_, _, (List.dropLast_concat_getLast more).symm⟩
  have hlast := Path.allNames_singleton.mp (Path.allNames_append.mp hn).2
  obtain ⟨dir, name, item, parts, found, bare, rfl⟩ := World.remove_eq_ok removed
  rw [rooted.hostText_render hn] at parts
  obtain ⟨spot, rfl⟩ := rooted.spot hn parts
  have apart := spot.root_ne hn found bare
  rw [Path.fileName_render_snoc front hlast, rooted.hostText_render hn]
  refine ⟨normal, dir, item, ⟨?_, spot.isDir, ?_, bare, ?_⟩, apart, ?_⟩
  · rw [rooted.hostParent_render_snoc hn]
    exact spot.parent
  · rw [Path.fileName_render_snoc front hlast]
    exact found
  · rw [Path.fileName_render_snoc front hlast]
  · intro outside
    constructor
    · -- Anything but a link is where the check looked.
      cases link : item.isLink with
      | true => rfl
      | false =>
          obtain ⟨children, isDir⟩ := spot.isDir
          obtain ⟨left, goesOn⟩ := rooted.lookup_snoc hn spot.fits spot.arrives true
          rw [isDir.at?_snoc] at found
          rw [World.walk_child isDir ⟨hlast, spot.short⟩ found link] at goesOn
          rcases List.prefix_concat_iff.mp (passed.place goesOn) with same | under
          · exact absurd same apart
          · exact absurd under outside
    · -- A link that led nowhere would have had its parent checked.
      refine Classical.byContradiction fun nowhere => ?_
      refine outside (passed.parent (fun place leads => ?_) more ?_)
      · exact nowhere ⟨place, leads, passed.place leads⟩
      · rw [List.dropLast_concat]
        exact spot.parent

/-- A removal from a directory under the root, and no other, is not seen outside. -/
theorem Removes.outside_eq_iff {path : String} {dir : Place} {item : Item} {after : World}
    (removes : s.Removes w path dir item after) (apart : root ≠ dir ++ [Path.fileName path]) :
    after.outside root = w.outside root ↔ root <+: dir := by
  constructor
  · intro same
    refine Decidable.byContradiction fun outside => ?_
    have away : ¬root <+: dir ++ [Path.fileName path] := by
      intro under
      rcases List.prefix_concat_iff.mp under with eq | under
      · exact apart eq
      · exact outside under
    have seen := World.at?_of_outside_eq same away
    rw [removes.gone, removes.found] at seen
    cases seen
  · intro under
    rw [removes.result]
    exact World.outside_modifyAt under w _

/-- A removal fails and changes nothing, or it removes one item.  It stays under the root
exactly if the parent of the path leads there.  Otherwise what is removed is a link, and the
check followed it back under the root. -/
theorem removal_confined_iff (rooted : s.RootedAt w root) (path : String) :
    (∃ e, s.call w (.deleteFile path) = ⟨(s, w), .error e⟩)
    ∨ ∃ p dir item after, Path.normalize path = .ok p
      ∧ s.call w (.deleteFile path) = ⟨(s, after), .ok .done⟩
      ∧ s.Removes w p dir item after
      ∧ (after.outside root = w.outside root ↔ root <+: dir)
      ∧ (¬root <+: dir → item.isLink = true
        ∧ ∃ place, w.lookup true (s.hostText p) = .ok place ∧ root <+: place) := by
  cases h : s.deleteFile w path with
  | error e => exact Or.inl ⟨e, by rw [call, h]; rfl⟩
  | ok after =>
      refine Or.inr ?_
      have done : s.call w (.deleteFile path) = ⟨(s, after), .ok .done⟩ := by
        rw [call, h]
        rfl
      obtain ⟨_, _, h⟩ := Except.bind_eq_ok.mp h
      obtain ⟨p, confined, h⟩ := Except.bind_eq_ok.mp h
      split at h
      · cases h
      next below =>
        obtain ⟨_, _, h⟩ := Except.bind_eq_ok.mp h
        obtain ⟨normal, dir, item, removes, apart, crosses⟩ :=
          exists_removes rooted confined below (onPath_eq_ok_iff.mp h)
        exact ⟨p, dir, item, after, normal, done, removes, removes.outside_eq_iff apart, crosses⟩

theorem removal_confined_iff_crossing :
    crossing.RootedAt World.crossed ["root"]
    ∧ ∃ p item after, Path.normalize "/out/back" = .ok p
      ∧ crossing.Removes World.crossed p ["outside"] item after
      ∧ after.outside ["root"] ≠ World.crossed.outside ["root"] ∧ item.isLink = true
      ∧ ∃ place, World.crossed.lookup true (crossing.hostText p) = .ok place
        ∧ ["root"] <+: place := by
  have rooted : crossing.RootedAt World.crossed ["root"] := ⟨rfl, rfl⟩
  refine ⟨rooted, ?_⟩
  rcases removal_confined_iff rooted "/out/back" with
    ⟨e, fails⟩ | ⟨p, dir, item, after, normal, done, removes, frame, crosses⟩
  · have succeeds : (crossing.call World.crossed (.deleteFile "/out/back")).outcome = .ok .done :=
      rfl
    rw [fails] at succeeds
    cases succeeds
  · cases normal
    have parent : World.crossed.lookup true (crossing.hostParent "/out/back") = .ok ["outside"] :=
      rfl
    cases parent.symm.trans removes.parent
    have outside : ¬["root"] <+: ["outside"] := by decide
    obtain ⟨link, leads⟩ := crosses outside
    exact ⟨_, item, after, rfl, removes, mt frame.mp outside, link, leads⟩

/-- A link outside of the root that leads back under it is removed. -/
theorem removal_reaches_outside :
    crossing.RootedAt World.crossed ["root"]
    ∧ (crossing.call World.crossed (.deleteFile "/out/back")).outcome = .ok .done
    ∧ World.crossed.at? ["outside", "back"] = some (.link 7 "../root/f")
    ∧ (crossing.call World.crossed (.deleteFile "/out/back")).state.2.at? ["outside", "back"]
      = none :=
  ⟨⟨rfl, rfl⟩, rfl, rfl, rfl⟩

end HostStore

/-! ## A store in use -/

/-- Something that happens while a store is in use. -/
inductive HostEvent where
  | call (c : Call)
  /-- The host changes behind the back of the store, in any way. -/
  | change (f : World → World)

namespace HostStore

variable {s : HostStore} {w : World} {root : Place}

/-- What an event makes of a store and its host. -/
def meet (now : HostStore × World) : HostEvent → Step (HostStore × World) Answer
  | .call c => now.1.call now.2 c
  | .change f => ⟨(now.1, f now.2), .ok .done⟩

/-- A session starts on a file under the root. -/
structure OpensUnder (s : HostStore) (w : World) (root : Place) (c : Call) (k : Handle) : Prop where
  asked : ∃ path, c = .openFile path k.mode ∧ Path.normalize path = .ok k.path
  file : ∃ place bits data, s.LeadsTo w k.path place (.file k.entryId bits data) ∧ root <+: place
  fresh : k.id = s.handles.nextId

/-- A session joins the table only on a file under the root. -/
theorem call_moves (rooted : s.RootedAt w root) (c : Call) :
    s.handles.Moves (s.OpensUnder w root c) (s.call w c).state.1.handles := by
  have effect := s.call_effect w c
  generalize (s.call w c).state = now at effect ⊢
  cases effect with
  | kept => exact .kept
  | renamed => exact .kept
  | @opened path mode t id opens =>
      obtain ⟨p, place, inode, bits, data, normal, leads, under, fresh, rfl⟩ :=
        openFile_eq_ok rooted opens
      exact .opened ⟨⟨path, rfl, normal⟩, ⟨place, bits, data, leads, under⟩, fresh⟩ fresh
  | used live same => exact .used live same
  | ended id => exact .ended id
  | committed => exact .ended _

/-- The moments of a run. -/
abbrev HostMoment := Moment (HostStore × World) HostEvent Answer

/-- The root of the store was its own canonical path before every event. -/
def RootStayed (root : Place) (past : List HostMoment) : Prop :=
  ∀ m ∈ past, m.before.1.RootedAt m.before.2 root

/-- The session of a handle was started on a file that was under the root then. -/
def OpenedUnder (root : Place) (past : List HostMoment) (h : Handle) : Prop :=
  ∃ m ∈ past, ∃ c k, m.event = .call c ∧ m.before.1.OpensUnder m.before.2 root c k
    ∧ k.SameSession h

theorem OpenedUnder.append {past : List HostMoment} {h h' : Handle}
    (opened : OpenedUnder root past h) (same : h.SameSession h') (since : List HostMoment) :
    OpenedUnder root (past ++ since) h' := by
  obtain ⟨m, there, c, k, event, opens, session⟩ := opened
  exact ⟨m, List.mem_append_left _ there, c, k, event, opens, session.trans same⟩

/-- Every live handle was opened on a file under the root, whatever happened to the host. -/
theorem openedUnder_of_live (w : World) (text : String) (readOnly : Bool) (config : Config)
    (events : List HostEvent)
    (rooted : RootStayed root (History.moments meet (create w text readOnly config, w) events)) :
    (History.final meet (create w text readOnly config, w) events).1.handles.Numbered
      ∧ ∀ {id h},
        (History.final meet (create w text readOnly config, w) events).1.handles.live.get? id
            = some h →
          OpenedUnder root (History.moments meet (create w text readOnly config, w) events) h := by
  -- The relation between a state and its past that every event keeps.
  refine History.moments_induction
    (motive := fun now past => RootStayed root past → now.1.handles.Numbered
      ∧ ∀ {id h}, now.1.handles.live.get? id = some h → OpenedUnder root past h)
    ?start ?next events rooted
  case start =>
    intro _
    exact ⟨Handles.numbered_empty _, fun live => nomatch live⟩
  case next =>
    intro now past e ih rooted
    obtain ⟨num, old⟩ := ih fun m there => rooted m (List.mem_append_left _ there)
    cases e with
    | change f => exact ⟨num, fun live => (old live).append (.refl _) _⟩
    | call c =>
        have here : now.1.RootedAt now.2 root := rooted ⟨now, .call c, meet now (.call c)⟩ (by simp)
        have moves := call_moves here c
        refine ⟨moves.numbered num, fun live => ?_⟩
        rcases moves.get?_live num live with ⟨before, found, same⟩ | ⟨_, opens⟩
        · exact (old found).append same _
        · exact ⟨⟨now, .call c, meet now (.call c)⟩, by simp, c, _, rfl, opens, .refl _⟩

/-! ## Commits -/

/-- The path of a handle leads under the root. -/
def ResolvesUnder (s : HostStore) (w : World) (root : Place) (h : Handle) : Prop :=
  ∃ place, w.lookup true (s.hostBelow h.path) = .ok place ∧ root <+: place

/-- A close that is confined.  It changes something only if the path of the handle leads
under the root.  Otherwise it fails and changes nothing outside. -/
structure ConfinedClose (s : HostStore) (w : World) (root : Place) (id : HandleId) (h : Handle) :
    Prop where
  changes : (s.close w id).state.2 ≠ w → s.ResolvesUnder w root h
  fails : ¬s.ResolvesUnder w root h →
    (∃ e, (s.close w id).outcome = .error e) ∧ (s.close w id).state.2.outside root = w.outside root

theorem confinedClose_iff {id : HandleId} {h : Handle} (live : s.handles.live.get? id = some h)
    (writer : h.mode.isWriter = true) :
    ConfinedClose s w root id h ↔ ¬∃ place, s.Reaches w h place ∧ ¬root <+: place := by
  constructor
  · rintro confined ⟨place, reaches, outside⟩
    have away : ¬s.ResolvesUnder w root h := by
      rintro ⟨other, found, under⟩
      cases reaches.found.symm.trans found
      exact outside under
    obtain ⟨⟨e, failed⟩, _⟩ := confined.fails away
    rw [close_of_reaches live writer reaches] at failed
    cases failed
  · intro inside
    by_cases reaches : ∃ place, s.Reaches w h place
    · obtain ⟨place, reaches⟩ := reaches
      have under : root <+: place :=
        Decidable.byContradiction fun outside => inside ⟨place, reaches, outside⟩
      have resolves : s.ResolvesUnder w root h := ⟨place, reaches.found, under⟩
      exact ⟨fun _ => resolves, fun away => absurd resolves away⟩
    · have stale := close_of_not_reaches live fun place h => reaches ⟨place, h⟩
      refine ⟨fun changed => ?_, fun _ => ?_⟩
      · rw [stale] at changed
        exact absurd rfl changed
      · rw [stale]
        exact ⟨⟨_, rfl⟩, rfl⟩

/-- Whatever happened to the host since, a live handle was opened on a file under the root.
Its commit is confined unless that file is outside of the root by now and the path leads to
it there.  Then the commit succeeds, outside of the root. -/
theorem commit_confined_iff_not_escaped (w₀ : World) (text : String) (readOnly : Bool)
    (config : Config) (events : List HostEvent)
    (rooted : RootStayed root (History.moments meet (create w₀ text readOnly config, w₀) events))
    (now : History.final meet (create w₀ text readOnly config, w₀) events = (s, w))
    {id : HandleId} {h : Handle} (live : s.handles.live.get? id = some h)
    (writer : h.mode.isWriter = true) :
    OpenedUnder root (History.moments meet (create w₀ text readOnly config, w₀) events) h
    ∧ (ConfinedClose s w root id h ↔ ¬∃ place, s.Reaches w h place ∧ ¬root <+: place)
    ∧ (∀ place, s.Reaches w h place → s.close w id
      = ⟨({ s with handles := s.handles.without id }, w.modifyAt place (Item.setData h.buffer)),
        .ok ()⟩)
    ∧ ((∀ place, ¬s.Reaches w h place) → s.close w id
      = ⟨({ s with handles := s.handles.without id }, w), .error (.staleHandle id h.path)⟩) := by
  obtain ⟨_, opened⟩ := openedUnder_of_live w₀ text readOnly config events rooted
  rw [now] at opened
  exact ⟨opened live, confinedClose_iff live writer,
    fun _ reaches => close_of_reaches live writer reaches,
    fun lost => close_of_not_reaches live lost⟩

end HostStore

/-- A file in a directory that is used as a root, and another directory. -/
def World.neighbours : World where
  top := .dir 1 World.newDirMode
    [("root", .dir 2 World.newDirMode [("f", .file 3 World.newFileMode [111, 108, 100])]),
      ("outside", .dir 4 World.newDirMode [])]
  nextInode := 5
  home := []

namespace HostStore

/-- The store at the directory, and its host. -/
def neighbouring : HostStore × World :=
  (create World.neighbours "/root" false {}, World.neighbours)

/-- A file is opened and written.  Then it moves, and a link from its old name leads to it. -/
def relinked (goal : String) : List HostEvent :=
  [.call (.openFile "/f" .write), .call (.write 1 [110, 101, 119]),
    .change fun w => w.apply (.rename "/root/f" goal),
    .change fun w => w.apply (.symlink "/root/f" goal)]

/-- A file that moved but stayed under the root takes the commit. -/
theorem commit_confined_iff_not_escaped_relinked :
    RootStayed ["root"] (History.moments meet neighbouring (relinked "/root/g"))
    ∧ ∃ s w h, History.final meet neighbouring (relinked "/root/g") = (s, w)
      ∧ s.handles.live.get? 1 = some h ∧ h.mode.isWriter = true
      ∧ OpenedUnder ["root"] (History.moments meet neighbouring (relinked "/root/g")) h
      ∧ ConfinedClose s w ["root"] 1 h
      ∧ (s.close w 1).state.2.at? ["root", "g"]
        = some (.file 3 World.newFileMode [110, 101, 119]) := by
  have rooted : RootStayed ["root"] (History.moments meet neighbouring (relinked "/root/g")) := by
    simp only [RootStayed, relinked, History.moments, List.forall_mem_cons]
    exact ⟨⟨rfl, rfl⟩, ⟨rfl, rfl⟩, ⟨rfl, rfl⟩, ⟨rfl, rfl⟩, by simp⟩
  have live : (History.final meet neighbouring (relinked "/root/g")).1.handles.live.get? 1
      = some ⟨1, "/f", 3, .write, 3, [110, 101, 119]⟩ := rfl
  obtain ⟨opened, confined, _⟩ :=
    commit_confined_iff_not_escaped World.neighbours "/root" false {} (relinked "/root/g") rooted
      rfl live rfl
  refine ⟨rooted, _, _, _, rfl, live, rfl, opened, confined.mpr ?_, rfl⟩
  rintro ⟨place, reaches, outside⟩
  have leads : place = ["root", "g"] := Except.ok.inj (reaches.found.symm.trans rfl)
  rw [leads] at outside
  exact outside (by decide)

/-- A file that moved out takes it too, where a link of its old name leads to it. -/
theorem commit_reaches_outside :
    RootStayed ["root"]
        (History.moments meet neighbouring (relinked "/outside/f" ++ [.call (.close 1)]))
    ∧ ∃ s w h, History.final meet neighbouring (relinked "/outside/f") = (s, w)
      ∧ s.handles.live.get? 1 = some h ∧ h.mode.isWriter = true
      ∧ ¬ConfinedClose s w ["root"] 1 h
      ∧ (s.close w 1).outcome = .ok ()
      ∧ w.at? ["outside", "f"] = some (.file 3 World.newFileMode [111, 108, 100])
      ∧ (s.close w 1).state.2.at? ["outside", "f"]
        = some (.file 3 World.newFileMode [110, 101, 119]) := by
  have rooted : RootStayed ["root"]
      (History.moments meet neighbouring (relinked "/outside/f" ++ [.call (.close 1)])) := by
    simp only [RootStayed, relinked, List.cons_append, List.nil_append, History.moments,
      List.forall_mem_cons]
    exact ⟨⟨rfl, rfl⟩, ⟨rfl, rfl⟩, ⟨rfl, rfl⟩, ⟨rfl, rfl⟩, ⟨rfl, rfl⟩, by simp⟩
  refine ⟨rooted, _, _, ⟨1, "/f", 3, .write, 3, [110, 101, 119]⟩, rfl, rfl, rfl, ?_, rfl, rfl, rfl⟩
  rw [confinedClose_iff rfl rfl]
  exact fun inside => inside ⟨["outside", "f"], ⟨rfl, _, _, rfl⟩, by decide⟩

end HostStore

end MountFs
