import MountFs.HostStore
import MountFs.Proofs.Effect
import MountFs.Proofs.HostLookup

/-!
# Confinement of a store on the host

A store on the host is *rooted* at a place if its root text is the canonical path of that
place (`RootedAt`).  Then the host text of a normal path is the text of the root with the
names of the path behind it, and a lookup of it starts at the root.  Links in the tree can
still lead anywhere.

`confine` looks before each operation.  `confine_eq_ok` says what a path has passed that
gets through: if it leads to an item the item is under the root, and otherwise, if its
parent leads to an item, that is.  Each operation then follows the path once more, by its
own rules.

* `stat`, `listDirectory` and `openFile` follow it to its end, where the check looked.
* A new item is made in the directory of the parent.  It is made only if the path leads
  nowhere, and then the check looked at the parent.

`lookups_and_creations_confined` puts this together.
-/

namespace MountFs

/-! ## Texts -/

theorem Path.getLast?_render_snoc (front : List String) {last : String} (h : Path.IsName last) :
    (Path.render (front ++ [last])).toList.getLast? ≠ some '/' := by
  have chars : last.toList ≠ [] := by
    intro empty
    exact h.ne_empty (String.toList_inj.mp empty)
  rw [Path.toList_render_snoc, List.getLast?_append, List.getLast?_cons_of_ne_nil chars]
  intro slash
  have found : last.toList.getLast? = some '/' := by
    cases ends : last.toList.getLast? with
    | none => exact absurd (List.getLast?_eq_none_iff.mp ends) chars
    | some c => simpa [ends] using slash
  exact h.noSlash (List.mem_of_getLast? found)

/-- Joining texts of places is appending the places. -/
theorem hostJoin_render {root names : List String} (hr : Path.AllNames root) (more : names ≠ []) :
    hostJoin (Path.render root) (String.ofList ((Path.render names).toList.drop 1))
      = Path.render (root ++ names) := by
  obtain ⟨name, rest, rfl⟩ := List.exists_cons_of_ne_nil more
  rw [Path.toList_render_cons, List.drop_one, List.tail_cons]
  cases List.eq_nil_or_concat root with
  | inl empty =>
      subst empty
      rw [← String.toList_inj]
      simp [hostJoin, Path.render, Path.root, Path.renderChars]
  | inr split =>
      obtain ⟨front, last, rfl⟩ := split
      rw [List.concat_eq_append] at hr ⊢
      have hl := Path.allNames_singleton.mp (Path.allNames_append.mp hr).2
      have filled : Path.render (front ++ [last]) ≠ "" := by
        intro empty
        have chars := Path.toList_render_snoc front last
        rw [empty] at chars
        simp at chars
      rw [hostJoin, if_neg filled, if_neg (Path.getLast?_render_snoc front hl), ← String.toList_inj]
      simp [Path.render, Path.renderChars, Path.renderChars_append]

theorem placeUnder_render_iff {root place : Place} (hr : Path.AllNames root) :
    placeUnder place (Path.render root) = true ↔ root <+: place := by
  have kept : (Path.pieces (Path.render root)).filter (fun name => name ≠ "" ∧ name ≠ ".")
      = root := by
    rw [World.pieces_render hr]
    cases root with
    | nil => rfl
    | cons name rest =>
        rw [if_neg (List.cons_ne_nil _ _), List.filter_cons_of_neg (by simp)]
        refine List.filter_eq_self.mpr fun other m => ?_
        have proper := hr other m
        simp [proper.ne_empty, proper.ne_dot]
  rw [placeUnder, if_pos (Path.isAbsolute_render root), kept, List.isPrefixOf_iff_prefix]

namespace HostStore

variable {s : HostStore} {w : World} {root : Place} {names : List String}

/-- The root of the store is its own canonical path. -/
structure RootedAt (s : HostStore) (w : World) (root : Place) : Prop where
  /-- The text of the root is the text of the place. -/
  text : s.root = Path.render root
  /-- The text leads to the place. -/
  canonical : w.lookup true s.root = .ok root

namespace RootedAt

theorem top (rooted : s.RootedAt w root) : ∃ children, w.DirAt [] children := by
  have absolute : Path.isAbsolute s.root = true := by
    rw [rooted.text]
    exact Path.isAbsolute_render root
  exact (World.lookup_stands absolute rooted.canonical).1

theorem stands (rooted : s.RootedAt w root) :
    ∃ item, w.Stands root item ∧ item.isLink = false := by
  have absolute : Path.isAbsolute s.root = true := by
    rw [rooted.text]
    exact Path.isAbsolute_render root
  obtain ⟨item, stands, plain⟩ := (World.lookup_stands absolute rooted.canonical).2
  exact ⟨item, stands, plain rfl⟩

theorem allNames (rooted : s.RootedAt w root) : Path.AllNames root := by
  obtain ⟨item, stands, _⟩ := rooted.stands
  exact stands.allNames

/-- The root is not too long to be looked up. -/
theorem checkText_eq_ok (rooted : s.RootedAt w root) :
    World.checkText (Path.render root) = .ok () := by
  have canonical := rooted.canonical
  rw [rooted.text] at canonical
  obtain ⟨_, fits, _⟩ := Except.bind_eq_ok.mp canonical
  exact fits

theorem hostText_render (rooted : s.RootedAt w root) (hn : Path.AllNames names) :
    s.hostText (Path.render names) = Path.render (root ++ names) := by
  rw [hostText]
  by_cases empty : names = []
  · rw [if_pos ((Path.render_eq_root_iff hn).mpr empty), empty, List.append_nil, rooted.text]
  · rw [if_neg fun eq => empty ((Path.render_eq_root_iff hn).mp eq), hostBelow, rooted.text]
    exact hostJoin_render rooted.allNames empty

theorem hostParent_render_snoc (rooted : s.RootedAt w root) {name : String}
    (hn : Path.AllNames (names ++ [name])) :
    s.hostParent (Path.render (names ++ [name])) = Path.render (root ++ names) := by
  obtain ⟨hfront, hlast⟩ := Path.allNames_append.mp hn
  rw [hostParent, Path.parent?_render_snoc hfront (Path.allNames_singleton.mp hlast),
    Option.getD_some, rooted.hostText_render hfront]

theorem checkUnder_eq_ok_iff (rooted : s.RootedAt w root) {place : Place} :
    s.checkUnder place = .ok () ↔ root <+: place := by
  rw [← placeUnder_render_iff rooted.allNames, ← rooted.text, checkUnder]
  cases placeUnder place s.root with
  | true => simp
  | false => simp

/-- The lookup of a path of the store starts at the root. -/
theorem lookup_render (rooted : s.RootedAt w root) (hn : Path.AllNames names)
    (followLast : Bool) :
    w.lookup followLast (Path.render (root ++ names))
      = World.checkText (Path.render (root ++ names))
        >>= fun _ => w.walk followLast maxLinks root names := by
  obtain ⟨children, top⟩ := rooted.top
  obtain ⟨item, stands, plain⟩ := rooted.stands
  have all := Path.allNames_append.mpr ⟨rooted.allNames, hn⟩
  rw [World.lookup_render top all]
  simp only [World.walk_place stands plain names]

/-- The lookup of a path goes on from where its parent leads. -/
theorem lookup_snoc (rooted : s.RootedAt w root) {front : List String} {last : String}
    {dir : Place} (hn : Path.AllNames (front ++ [last]))
    (fits : World.checkText (Path.render (root ++ (front ++ [last]))) = .ok ())
    (arrives : w.walk true maxLinks root front = .ok dir) (followLast : Bool) :
    ∃ left, w.lookup followLast (Path.render (root ++ (front ++ [last])))
      = w.walk followLast left dir [last] := by
  rw [rooted.lookup_render hn, fits]
  rcases w.walk_append followLast maxLinks root front (List.cons_ne_nil last []) with
    ⟨e, fails, _⟩ | ⟨dir', left, ends, goesOn⟩
  · cases fails.symm.trans arrives
  · cases ends.symm.trans arrives
    exact ⟨left, goesOn⟩

/-- Where the host makes or removes an item for a path of the store. -/
structure Spot (w : World) (root : Place) (front : List String) (last : String) (dir : Place) :
    Prop where
  fits : World.checkText (Path.render (root ++ (front ++ [last]))) = .ok ()
  short : last.utf8ByteSize ≤ maxNameBytes
  arrives : w.walk true maxLinks root front = .ok dir
  parent : w.lookup true (Path.render (root ++ front)) = .ok dir
  isDir : ∃ children, w.DirAt dir children

theorem spot (rooted : s.RootedAt w root) {front : List String} {last name : String} {dir : Place}
    (hn : Path.AllNames (front ++ [last]))
    (h : w.parentAndName (Path.render (root ++ (front ++ [last]))) = .ok (dir, name)) :
    Spot w root front last dir ∧ last = name := by
  obtain ⟨children, top⟩ := rooted.top
  obtain ⟨item, stands, plain⟩ := rooted.stands
  have all : Path.AllNames (root ++ front ++ [last]) := by
    rw [List.append_assoc]
    exact Path.allNames_append.mpr ⟨rooted.allNames, hn⟩
  rw [← List.append_assoc] at h
  obtain ⟨fits, arrives, isDir, short, same⟩ := (World.parentAndName_render_snoc top all).mp h
  rw [World.walk_place stands plain] at arrives
  rw [List.append_assoc] at fits
  refine ⟨⟨fits, short, arrives, ?_, isDir⟩, same⟩
  rw [← List.append_assoc] at fits
  rw [rooted.lookup_render (Path.allNames_append.mp hn).1, World.checkText_render_of_snoc fits]
  exact arrives

theorem growsTo {after : World} (rooted : s.RootedAt w root) (grows : w.top.GrowsTo after.top)
    (home : after.home = w.home) : s.RootedAt after root :=
  ⟨rooted.text, World.lookup_growsTo grows home rooted.canonical⟩

end RootedAt

/-! ## What the check lets through -/

/-- A path that gets through the check.  If it leads to an item, that is under the root.
If only its parent does, the item of the parent is. -/
structure Confined (w : World) (root : Place) (names : List String) : Prop where
  proper : Path.AllNames names
  place : ∀ {place}, w.lookup true (Path.render (root ++ names)) = .ok place → root <+: place
  parent : ∀ {dir}, (∀ place, w.lookup true (Path.render (root ++ names)) ≠ .ok place) →
    names ≠ [] → w.lookup true (Path.render (root ++ names.dropLast)) = .ok dir → root <+: dir

theorem confine_eq_ok (rooted : s.RootedAt w root) {path p : String}
    (h : s.confine w path = .ok p) :
    ∃ names, Confined w root names ∧ Path.normalize path = .ok p ∧ p = Path.render names := by
  unfold confine at h
  obtain ⟨q, normal, h⟩ := Except.bind_eq_ok.mp h
  obtain ⟨_, hq⟩ := Path.normalize_eq_ok_iff.mp normal
  have hn := Path.allNames_segments path
  generalize Path.segments path = names at hq hn
  subst hq
  cases List.eq_nil_or_concat names with
  | inl empty =>
      subst empty
      have atRoot : Path.render [] = Path.root := rfl
      rw [if_pos atRoot] at h
      cases h
      refine ⟨[], ⟨hn, ?_, fun _ none => absurd rfl none⟩, normal, rfl⟩
      intro place arrives
      rw [List.append_nil, ← rooted.text, rooted.canonical] at arrives
      cases arrives
      exact List.prefix_rfl
  | inr split =>
      obtain ⟨front, last, rfl⟩ := split
      rw [List.concat_eq_append] at hn normal h
      have below : Path.render (front ++ [last]) ≠ Path.root := by
        rw [ne_eq, Path.render_eq_root_iff hn]
        simp
      rw [if_neg below, rooted.hostText_render hn, rooted.hostParent_render_snoc hn] at h
      have same : p = Path.render (front ++ [last])
          ∧ Confined w root (front ++ [last]) := by
        split at h
        next place arrives =>
          obtain ⟨_, under, h⟩ := Except.bind_eq_ok.mp h
          cases h
          refine ⟨rfl, hn, ?_, fun nowhere => absurd arrives (nowhere place)⟩
          intro other also
          cases arrives.symm.trans also
          exact rooted.checkUnder_eq_ok_iff.mp under
        next e fails =>
          have nowhere : ∀ place, w.lookup true (Path.render (root ++ (front ++ [last])))
              ≠ .ok place := by
            intro place arrives
            cases fails.symm.trans arrives
          split at h
          next dir arrives =>
            obtain ⟨_, under, h⟩ := Except.bind_eq_ok.mp h
            cases h
            refine ⟨rfl, hn, fun arrives => absurd arrives (nowhere _), ?_⟩
            intro other _ _ also
            rw [List.dropLast_concat] at also
            cases arrives.symm.trans also
            exact rooted.checkUnder_eq_ok_iff.mp under
          next e' parentFails =>
            cases h
            refine ⟨rfl, hn, fun arrives => absurd arrives (nowhere _), ?_⟩
            intro other _ _ also
            rw [List.dropLast_concat] at also
            cases parentFails.symm.trans also
      exact ⟨front ++ [last], same.2, same.1 ▸ normal, same.1⟩

/-! ## Lookups -/

/-- A path leads, links followed, to an item at its canonical path. -/
structure LeadsTo (s : HostStore) (w : World) (path : String) (place : Place) (item : Item) :
    Prop where
  found : w.lookup true (s.hostText path) = .ok place
  item : w.at? place = some item

theorem onPath_eq_ok_iff {α : Type} {path : String} {x : Except HostError α} {a : α} :
    onPath path x = .ok a ↔ x = .ok a := by
  cases x with
  | error e => simp [onPath]
  | ok b => simp [onPath]

/-- A path that leads to an item under the root gets through the check. -/
theorem confine_of_lookup (rooted : s.RootedAt w root) {path p : String} {place : Place}
    (normal : Path.normalize path = .ok p) (found : w.lookup true (s.hostText p) = .ok place)
    (under : root <+: place) : s.confine w path = .ok p := by
  have passes : s.checkUnder place = .ok () := rooted.checkUnder_eq_ok_iff.mpr under
  rw [confine, normal]
  by_cases atRoot : p = Path.root
  · exact if_pos atRoot
  · refine (if_neg atRoot).trans ?_
    simp only [found, passes]
    rfl

/-- What is read at a path that gets through the check is what the path leads to, and that
is under the root. -/
theorem read_eq_ok_iff (rooted : s.RootedAt w root) {path p : String} {item : Item} :
    s.confine w path = .ok p ∧ onPath p (w.metadata (s.hostText p)) = .ok item
      ↔ Path.normalize path = .ok p ∧ ∃ place, s.LeadsTo w p place item ∧ root <+: place := by
  constructor
  · rintro ⟨confined, read⟩
    obtain ⟨names, passed, normal, rfl⟩ := confine_eq_ok rooted confined
    obtain ⟨place, found, item⟩ := World.metadata_eq_ok_iff.mp (onPath_eq_ok_iff.mp read)
    refine ⟨normal, place, ⟨found, item⟩, passed.place ?_⟩
    rw [← rooted.hostText_render passed.proper]
    exact found
  · rintro ⟨normal, place, leads, under⟩
    exact ⟨confine_of_lookup rooted normal leads.found under,
      onPath_eq_ok_iff.mpr (World.metadata_eq_ok_iff.mpr ⟨place, leads.found, leads.item⟩)⟩

theorem stat_eq_ok_iff (rooted : s.RootedAt w root) {path : String} {e : Entry} :
    s.stat w path = .ok e
      ↔ ∃ p place item, Path.normalize path = .ok p ∧ s.LeadsTo w p place item
        ∧ root <+: place ∧ e = .ofItem p item := by
  constructor
  · intro h
    obtain ⟨p, confined, h⟩ := Except.bind_eq_ok.mp h
    obtain ⟨item, read, h⟩ := Except.bind_eq_ok.mp h
    cases h
    obtain ⟨normal, place, leads, under⟩ := (read_eq_ok_iff rooted).mp ⟨confined, read⟩
    exact ⟨p, place, item, normal, leads, under, rfl⟩
  · rintro ⟨p, place, item, normal, leads, under, rfl⟩
    obtain ⟨confined, read⟩ := (read_eq_ok_iff rooted).mpr ⟨normal, place, leads, under⟩
    exact Except.bind_eq_ok.mpr ⟨p, confined, Except.bind_eq_ok.mpr ⟨item, read, rfl⟩⟩

theorem listDirectory_eq_ok_iff (rooted : s.RootedAt w root) {path : String}
    {entries : List Entry} :
    s.listDirectory w path = .ok entries
      ↔ ∃ p place inode mode children, Path.normalize path = .ok p
        ∧ s.LeadsTo w p place (.dir inode mode children) ∧ root <+: place
        ∧ entries = Entry.sortByName
            (children.map fun (name, item) => Entry.ofItem (Path.join p name) item) := by
  constructor
  · intro h
    obtain ⟨p, confined, h⟩ := Except.bind_eq_ok.mp h
    obtain ⟨item, read, h⟩ := Except.bind_eq_ok.mp h
    obtain ⟨normal, place, leads, under⟩ := (read_eq_ok_iff rooted).mp ⟨confined, read⟩
    cases item with
    | file inode mode data => cases h
    | link inode target => cases h
    | dir inode mode children =>
        cases h
        exact ⟨p, place, inode, mode, children, normal, leads, under, rfl⟩
  · rintro ⟨p, place, inode, mode, children, normal, leads, under, rfl⟩
    obtain ⟨confined, read⟩ := (read_eq_ok_iff rooted).mpr ⟨normal, place, leads, under⟩
    exact Except.bind_eq_ok.mpr ⟨p, confined, Except.bind_eq_ok.mpr ⟨_, read, rfl⟩⟩

end HostStore

/-! ## Sessions -/

/-- The handle that a session on a file with some content starts with. -/
def Handle.onFile (id : HandleId) (path : String) (inode : Nat) (mode : OpenMode) (data : Bytes) :
    Handle :=
  ⟨id, path, inode, mode, if mode = .append then data.length else 0,
    if mode = .write then [] else data⟩

theorem Handles.add_eq_ok {t t' : Handles} {policy : WritePolicy} {path : String} {entryId : Nat}
    {mode : OpenMode} {buffer : Bytes} {id : HandleId}
    (h : t.add policy path entryId mode buffer = .ok (t', id)) :
    t.count < t.maxOpen
      ∧ ¬(mode.isWriter = true ∧ policy = .exclusive ∧ t.hasWriter path entryId = true)
      ∧ id = t.nextId
      ∧ t' = t.extended
        ⟨id, path, entryId, mode, if mode = .append then buffer.length else 0, buffer⟩ := by
  unfold add at h
  split at h
  · cases h
  next room =>
    split at h
    · cases h
    next alone =>
      cases h
      exact ⟨Nat.lt_of_not_le room, alone, rfl, rfl⟩

namespace HostStore

variable {s : HostStore} {w : World} {root : Place} {names : List String}

theorem checkWritable_eq_ok_iff : s.checkWritable = .ok () ↔ s.readOnly = false := by
  cases h : s.readOnly with
  | true => simp [checkWritable, h]
  | false => simp [checkWritable, h]

theorem normalize_of_confine {path p : String} (confined : s.confine w path = .ok p) :
    Path.normalize path = .ok p := by
  obtain ⟨normal, normalized, checked⟩ := Except.bind_eq_ok.mp confined
  split at checked
  · cases checked
    exact normalized
  · split at checked
    · obtain ⟨_, _, same⟩ := Except.bind_eq_ok.mp checked
      cases same
      exact normalized
    · split at checked
      · obtain ⟨_, _, same⟩ := Except.bind_eq_ok.mp checked
        cases same
        exact normalized
      · cases checked
        exact normalized

theorem LeadsTo.contents_eq {p : String} {place : Place} {inode bits : Nat} {data : Bytes}
    (leads : s.LeadsTo w p place (.file inode bits data)) :
    w.contents (s.hostText p) = .ok data := by
  rw [World.contents, World.metadata_eq_ok_iff.mpr ⟨place, leads.found, leads.item⟩]
  rfl

/-- A lookup that follows the last name does not end on a link. -/
theorem LeadsTo.isLink_eq_false {p : String} {place : Place} {item : Item}
    (leads : s.LeadsTo w p place item) : item.isLink = false := by
  obtain ⟨found, there, plain⟩ := World.plainAt_of_lookup leads.found
  cases there.symm.trans leads.item
  exact plain

/-- The order of the checks of an open. -/
theorem openFile_eq (s : HostStore) (w : World) (path : String) (mode : OpenMode) :
    s.openFile w path mode =
      (if mode.isWriter then s.checkWritable else .ok ()) >>= fun _ =>
      s.confine w path >>= fun p =>
      onPath p (w.metadata (s.hostText p)) >>= fun item =>
      if item.isDir then .error (.isADirectory p)
      else
        (if mode = .write then .ok [] else onPath p (w.contents (s.hostText p))) >>= fun buffer =>
        s.handles.add s.policy p item.inode mode buffer >>= fun added =>
        .ok ({ s with handles := added.1 }, added.2) := by
  cases mode <;> rfl

/-- An open of a path that starts the session `k`. -/
structure Opens (s : HostStore) (w : World) (path : String) (mode : OpenMode) (k : Handle) :
    Prop where
  confined : s.confine w path = .ok k.path
  /-- The session is on the file that the path leads to. -/
  file : ∃ place bits data, s.LeadsTo w k.path place (.file k.entryId bits data)
    ∧ k = .onFile s.handles.nextId k.path k.entryId mode data
  writable : mode.isWriter = true → s.readOnly = false
  room : s.handles.count < s.handles.maxOpen
  /-- The write policy lets it in. -/
  alone : ¬(mode.isWriter = true ∧ s.policy = .exclusive
    ∧ s.handles.hasWriter k.path k.entryId = true)

namespace Opens

variable {path : String} {mode : OpenMode} {k : Handle}

theorem id_eq (opens : s.Opens w path mode k) : k.id = s.handles.nextId := by
  obtain ⟨_, _, _, _, same⟩ := opens.file
  rw [same]
  rfl

theorem mode_eq (opens : s.Opens w path mode k) : k.mode = mode := by
  obtain ⟨_, _, _, _, same⟩ := opens.file
  rw [same]
  rfl

end Opens

/-- An open that succeeds starts a session. -/
theorem exists_opens {path : String} {mode : OpenMode} {t : HostStore} {id : HandleId}
    (h : s.openFile w path mode = .ok (t, id)) :
    ∃ k, s.Opens w path mode k ∧ id = s.handles.nextId
      ∧ t = { s with handles := s.handles.extended k } := by
  rw [openFile_eq] at h
  obtain ⟨_, leave, h⟩ := Except.bind_eq_ok.mp h
  obtain ⟨p, confined, h⟩ := Except.bind_eq_ok.mp h
  obtain ⟨item, read, h⟩ := Except.bind_eq_ok.mp h
  obtain ⟨place, found, there⟩ := World.metadata_eq_ok_iff.mp (onPath_eq_ok_iff.mp read)
  have leads : s.LeadsTo w p place item := ⟨found, there⟩
  have plain := leads.isLink_eq_false
  cases item with
  | link inode target => cases plain
  | dir inode bits children => cases h
  | file inode bits data =>
      obtain ⟨buffer, loaded, h⟩ := Except.bind_eq_ok.mp h
      obtain ⟨⟨handles, number⟩, added, h⟩ := Except.bind_eq_ok.mp h
      cases h
      obtain ⟨room, alone, rfl, rfl⟩ := Handles.add_eq_ok added
      have writable : mode.isWriter = true → s.readOnly = false := by
        intro writer
        rw [if_pos writer] at leave
        exact checkWritable_eq_ok_iff.mp leave
      -- The buffer is what the same lookup finds.
      have buffer_eq : buffer = if mode = .write then [] else data := by
        rw [leads.contents_eq] at loaded
        cases mode <;> cases loaded <;> rfl
      refine ⟨_, ⟨confined, ⟨place, bits, data, leads, ?_⟩, writable, room, alone⟩, rfl, rfl⟩
      rw [buffer_eq, Handle.onFile]
      cases mode <;> rfl

theorem openFile_eq_ok (rooted : s.RootedAt w root) {path : String} {mode : OpenMode}
    {s' : HostStore} {id : HandleId} (h : s.openFile w path mode = .ok (s', id)) :
    ∃ p place inode bits data, Path.normalize path = .ok p
      ∧ s.LeadsTo w p place (.file inode bits data) ∧ root <+: place ∧ id = s.handles.nextId
      ∧ s' = { s with handles := s.handles.extended (.onFile id p inode mode data) } := by
  obtain ⟨k, opens, rfl, rfl⟩ := exists_opens h
  obtain ⟨place, bits, data, leads, same⟩ := opens.file
  obtain ⟨names, passed, normal, path_eq⟩ := confine_eq_ok rooted opens.confined
  refine ⟨k.path, place, k.entryId, bits, data, normal, leads, passed.place ?_, rfl, ?_⟩
  · rw [← rooted.hostText_render passed.proper, ← path_eq]
    exact leads.found
  · rw [← same]

/-- The path of a handle leads to the file that the handle was opened on. -/
structure Reaches (s : HostStore) (w : World) (h : Handle) (place : Place) : Prop where
  found : w.lookup true (s.hostBelow h.path) = .ok place
  file : ∃ bits data, w.at? place = some (.file h.entryId bits data)

theorem leadsToFile_eq_true_iff {h : Handle} :
    s.leadsToFile w h.path h.entryId = true ↔ ∃ place, s.Reaches w h place := by
  constructor
  · intro leads
    unfold leadsToFile at leads
    split at leads
    next inode bits data read =>
      obtain ⟨place, found, file⟩ := World.metadata_eq_ok_iff.mp read
      cases eq_of_beq leads
      exact ⟨place, found, bits, data, file⟩
    next => cases leads
  · rintro ⟨place, found, bits, data, file⟩
    rw [leadsToFile, World.metadata_eq_ok_iff.mpr ⟨place, found, file⟩]
    exact beq_self_eq_true _

theorem close_of_reaches {id : HandleId} {h : Handle} {place : Place}
    (live : s.handles.live.get? id = some h) (writer : h.mode.isWriter = true)
    (reaches : s.Reaches w h place) :
    s.close w id = ⟨({ s with handles := s.handles.without id },
      w.modifyAt place (Item.setData h.buffer)), .ok ()⟩ := by
  obtain ⟨bits, data, file⟩ := reaches.file
  have written : w.overwrite (s.hostBelow h.path) h.buffer
      = .ok (w.modifyAt place (Item.setData h.buffer)) :=
    World.overwrite_eq_ok_iff.mpr ⟨place, _, bits, data, reaches.found, file, rfl⟩
  rw [close, Handles.remove_eq_ok_iff.mpr ⟨live, rfl⟩]
  dsimp only
  rw [if_pos (leadsToFile_eq_true_iff.mpr ⟨place, reaches⟩), if_pos writer, written]

theorem close_of_not_reaches {id : HandleId} {h : Handle}
    (live : s.handles.live.get? id = some h) (lost : ∀ place, ¬s.Reaches w h place) :
    s.close w id = ⟨({ s with handles := s.handles.without id }, w),
      .error (.staleHandle id h.path)⟩ := by
  have stale : ¬s.leadsToFile w h.path h.entryId = true := by
    intro leads
    obtain ⟨place, reaches⟩ := leadsToFile_eq_true_iff.mp leads
    exact lost place reaches
  rw [close, Handles.remove_eq_ok_iff.mpr ⟨live, rfl⟩]
  dsimp only
  rw [if_neg stale]

/-- How the session of a live handle ends when it is closed. -/
inductive Closes (s : HostStore) (w : World) (id : HandleId) (h : Handle) :
    Step (HostStore × World) Answer → Prop
  /-- The file gets the buffer of a writer. -/
  | committed {place : Place} (reaches : s.Reaches w h place) (writer : h.mode.isWriter = true) :
      Closes s w id h ⟨({ s with handles := s.handles.without id },
        w.modifyAt place (Item.setData h.buffer)), .ok .done⟩
  | read {place : Place} (reaches : s.Reaches w h place) (reader : h.mode.isWriter = false) :
      Closes s w id h ⟨({ s with handles := s.handles.without id }, w), .ok .done⟩
  /-- The file is gone from the path. -/
  | stale (lost : ∀ place, ¬s.Reaches w h place) :
      Closes s w id h ⟨({ s with handles := s.handles.without id }, w),
        .error (.staleHandle id h.path)⟩

theorem call_closes (w : World) {id : HandleId} {h : Handle}
    (live : s.handles.live.get? id = some h) : Closes s w id h (s.call w (.close id)) := by
  by_cases reaches : ∃ place, s.Reaches w h place
  · obtain ⟨place, reaches⟩ := reaches
    cases writer : h.mode.isWriter with
    | true =>
        rw [call, close_of_reaches live writer reaches]
        exact .committed reaches writer
    | false =>
        have leads := leadsToFile_eq_true_iff.mpr ⟨place, reaches⟩
        rw [call, close, Handles.remove_eq_ok_iff.mpr ⟨live, rfl⟩]
        dsimp only
        rw [if_pos leads, if_neg (Bool.eq_false_iff.mp writer)]
        exact .read reaches writer
  · rw [call, close_of_not_reaches live (not_exists.mp reaches)]
    exact .stale (not_exists.mp reaches)

/-! ## New items -/

/-- A new item under the last name of a path, in the directory that the parent of the path
leads to. -/
structure MakesIn (s : HostStore) (w : World) (path : String) (dir : Place) (make : Nat → Item)
    (after : World) : Prop where
  parent : w.lookup true (s.hostParent path) = .ok dir
  isDir : ∃ children, w.DirAt dir children
  free : w.at? (dir ++ [Path.fileName path]) = none
  result : after = w.addAt dir (Path.fileName path) make
  /-- The path leads to the new item from now on. -/
  leads : s.LeadsTo after path (dir ++ [Path.fileName path]) (make w.nextInode)

/-- A path whose last name is free in the directory of its parent leads nowhere. -/
theorem RootedAt.lookup_ne_ok (rooted : s.RootedAt w root) {front : List String} {last : String}
    {dir : Place} (hn : Path.AllNames (front ++ [last]))
    (spot : RootedAt.Spot w root front last dir)
    (free : w.at? (dir ++ [last]) = none) (place : Place) :
    w.lookup true (Path.render (root ++ (front ++ [last]))) ≠ .ok place := by
  intro leads
  have hlast := Path.allNames_singleton.mp (Path.allNames_append.mp hn).2
  obtain ⟨children, isDir⟩ := spot.isDir
  obtain ⟨left, goesOn⟩ := rooted.lookup_snoc hn spot.fits spot.arrives true
  rw [goesOn] at leads
  obtain ⟨_, child, hchild⟩ := World.exists_child_of_walk isDir hlast leads
  rw [isDir.at?_snoc, hchild] at free
  cases free

/-- A path leads to an item that was added under its last name. -/
theorem RootedAt.lookup_added (rooted : s.RootedAt w root) {front : List String} {last : String}
    {dir : Place} {make : Nat → Item} (hn : Path.AllNames (front ++ [last]))
    (spot : RootedAt.Spot w root front last dir) (free : w.at? (dir ++ [last]) = none)
    (plain : (make w.nextInode).isLink = false) :
    (w.addAt dir last make).lookup true (Path.render (root ++ (front ++ [last])))
        = .ok (dir ++ [last])
      ∧ (w.addAt dir last make).at? (dir ++ [last]) = some (make w.nextInode) := by
  have grows : w.top.GrowsTo (w.addAt dir last make).top := w.growsTo_addAt dir last make
  have rooted' : s.RootedAt (w.addAt dir last make) root := rooted.growsTo grows rfl
  have hlast := Path.allNames_singleton.mp (Path.allNames_append.mp hn).2
  obtain ⟨children, inode, mode, found⟩ := spot.isDir
  have isDir : w.DirAt dir children := ⟨inode, mode, found⟩
  rw [isDir.at?_snoc] at free
  have isDir' : (w.addAt dir last make).DirAt dir (children ++ [(last, make w.nextInode)]) := by
    refine ⟨inode, mode, ?_⟩
    have changed := w.at?_modifyAt dir (Item.addChild last (make w.nextInode))
    rw [found] at changed
    exact changed
  have child : Item.child? last (children ++ [(last, make w.nextInode)])
      = some (make w.nextInode) := by
    rw [Item.child?_append, free]
    simp [Item.child?]
  obtain ⟨left, goesOn⟩ :=
    rooted'.lookup_snoc hn spot.fits (World.walk_growsTo grows spot.arrives) true
  refine ⟨?_, by rw [isDir'.at?_snoc, child]⟩
  rw [goesOn]
  exact World.walk_child isDir' ⟨hlast, spot.short⟩ child plain

/-- An item that the host lets a store make under a path that got through the check is
under the root. -/
theorem exists_makesIn (rooted : s.RootedAt w root) {path p : String} {make : Nat → Item}
    {after : World} (confined : s.confine w path = .ok p) (below : p ≠ Path.root)
    (plain : ∀ inode, (make inode).isLink = false)
    (made : w.create (s.hostText p) make = .ok after) :
    Path.normalize path = .ok p ∧ ∃ dir, s.MakesIn w p dir make after ∧ root <+: dir := by
  obtain ⟨names, passed, normal, rfl⟩ := confine_eq_ok rooted confined
  have hn := passed.proper
  have more : names ≠ [] := fun empty => below ((Path.render_eq_root_iff hn).mpr empty)
  obtain ⟨front, last, rfl⟩ : ∃ front last, names = front ++ [last] :=
    ⟨_, _, (List.dropLast_concat_getLast more).symm⟩
  have hlast := Path.allNames_singleton.mp (Path.allNames_append.mp hn).2
  obtain ⟨dir, name, parts, free, rfl⟩ := World.create_eq_ok made
  rw [rooted.hostText_render hn] at parts
  obtain ⟨spot, rfl⟩ := rooted.spot hn parts
  have nowhere := rooted.lookup_ne_ok hn spot free
  have leads := rooted.lookup_added hn spot free (plain _)
  have under : root <+: dir := by
    refine passed.parent nowhere more ?_
    rw [List.dropLast_concat]
    exact spot.parent
  refine ⟨normal, dir, ⟨?_, spot.isDir, ?_, ?_, ?_⟩, under⟩
  · rw [rooted.hostParent_render_snoc hn]
    exact spot.parent
  · rw [Path.fileName_render_snoc front hlast]
    exact free
  · rw [Path.fileName_render_snoc front hlast]
  · rw [Path.fileName_render_snoc front hlast]
    refine ⟨?_, leads.2⟩
    rw [rooted.hostText_render hn]
    exact leads.1

/-- What the store tells about a new item is what was made. -/
theorem MakesIn.entryAt_eq {path : String} {dir : Place} {make : Nat → Item} {after : World}
    (makes : s.MakesIn w path dir make after) :
    s.entryAt after path = .ok (.ofItem path (make w.nextInode)) := by
  rw [entryAt, World.metadata_eq_ok_iff.mpr ⟨_, makes.leads.found, makes.leads.item⟩]
  rfl

theorem createDirectory_eq_ok (rooted : s.RootedAt w root) {path : String} {after : World}
    {e : Entry} (h : s.createDirectory w path = .ok (after, e)) :
    ∃ p dir, Path.normalize path = .ok p
      ∧ s.MakesIn w p dir (fun inode => .dir inode World.newDirMode []) after ∧ root <+: dir
      ∧ e = .ofItem p (.dir w.nextInode World.newDirMode []) := by
  obtain ⟨_, _, h⟩ := Except.bind_eq_ok.mp h
  obtain ⟨p, confined, h⟩ := Except.bind_eq_ok.mp h
  split at h
  · cases h
  next free =>
    obtain ⟨_, _, h⟩ := Except.bind_eq_ok.mp h
    obtain ⟨made, created, h⟩ := Except.bind_eq_ok.mp h
    obtain ⟨entry, told, h⟩ := Except.bind_eq_ok.mp h
    cases h
    obtain ⟨normal, dir, makes, under⟩ := exists_makesIn rooted confined (not_or.mp free).1
      (fun _ => rfl) (onPath_eq_ok_iff.mp created)
    rw [makes.entryAt_eq] at told
    cases told
    exact ⟨p, dir, normal, makes, under, rfl⟩

theorem createFile_eq_ok (rooted : s.RootedAt w root) {path : String} {content : Bytes}
    {after : World} {e : Entry} (h : s.createFile w path content = .ok (after, e)) :
    ∃ p dir, Path.normalize path = .ok p
      ∧ s.MakesIn w p dir (fun inode => .file inode World.newFileMode content) after
      ∧ root <+: dir
      ∧ e = { Entry.ofItem p (.file w.nextInode World.newFileMode content) with
          checksum := some (Digest.hex content) } := by
  obtain ⟨_, _, h⟩ := Except.bind_eq_ok.mp h
  obtain ⟨p, confined, h⟩ := Except.bind_eq_ok.mp h
  obtain ⟨_, _, h⟩ := Except.bind_eq_ok.mp h
  split at h
  · cases h
  next below =>
    obtain ⟨_, _, h⟩ := Except.bind_eq_ok.mp h
    obtain ⟨made, created, h⟩ := Except.bind_eq_ok.mp h
    obtain ⟨entry, told, h⟩ := Except.bind_eq_ok.mp h
    cases h
    obtain ⟨normal, dir, makes, under⟩ := exists_makesIn rooted confined below
      (fun _ => rfl) (onPath_eq_ok_iff.mp created)
    rw [makes.entryAt_eq] at told
    cases told
    exact ⟨p, dir, normal, makes, under, rfl⟩

/-! ## The frame -/

theorem MakesIn.outside_eq {path : String} {dir : Place} {make : Nat → Item} {after : World}
    (makes : s.MakesIn w path dir make after) (under : root <+: dir) :
    after.outside root = w.outside root := by
  rw [makes.result]
  exact World.outside_modifyAt under w _

end HostStore

/-- Whether a call looks a path up or makes an item. -/
def Call.looksUpOrMakes : Call → Bool
  | .stat _ | .listDirectory _ | .openFile _ _ | .createDirectory _ | .createFile _ _ => true
  | _ => false

namespace HostStore

variable {s : HostStore} {w : World} {root : Place}

theorem call_outside_eq (rooted : s.RootedAt w root) {c : Call} (kind : c.looksUpOrMakes = true) :
    (s.call w c).state.2.outside root = w.outside root := by
  cases c with
  | stat path => rfl
  | listDirectory path => rfl
  | openFile path mode =>
      cases h : s.openFile w path mode with
      | error e => simp only [call, h, Except.map, Step.ofOutcome]
      | ok opened => simp only [call, h, Except.map, Step.ofOutcome]
  | createDirectory path =>
      cases h : s.createDirectory w path with
      | error e => simp only [call, h, Except.map, Step.ofOutcome]
      | ok made =>
          obtain ⟨_, _, _, makes, under, _⟩ := createDirectory_eq_ok rooted h
          simp only [call, h, Except.map, Step.ofOutcome]
          exact makes.outside_eq under
  | createFile path content =>
      cases h : s.createFile w path content with
      | error e => simp only [call, h, Except.map, Step.ofOutcome]
      | ok made =>
          obtain ⟨_, _, _, makes, under, _⟩ := createFile_eq_ok rooted h
          simp only [call, h, Except.map, Step.ofOutcome]
          exact makes.outside_eq under
  | _ => cases kind

/-- Whatever the links of the world, what a path is looked up to and what is made under it
is at or below the root, and nothing else changes. -/
theorem lookups_and_creations_confined (rooted : s.RootedAt w root) (path : String) :
    (∀ e, s.stat w path = .ok e
      ↔ ∃ p place item, Path.normalize path = .ok p ∧ s.LeadsTo w p place item
        ∧ root <+: place ∧ e = .ofItem p item)
    ∧ (∀ entries, s.listDirectory w path = .ok entries
      ↔ ∃ p place inode mode children, Path.normalize path = .ok p
        ∧ s.LeadsTo w p place (.dir inode mode children) ∧ root <+: place
        ∧ entries = Entry.sortByName
            (children.map fun (name, item) => Entry.ofItem (Path.join p name) item))
    ∧ (∀ mode s' id, s.openFile w path mode = .ok (s', id)
      → ∃ p place inode bits data, Path.normalize path = .ok p
        ∧ s.LeadsTo w p place (.file inode bits data) ∧ root <+: place ∧ id = s.handles.nextId
        ∧ s' = { s with handles := s.handles.extended (.onFile id p inode mode data) })
    ∧ (∀ after e, s.createDirectory w path = .ok (after, e)
      → ∃ p dir, Path.normalize path = .ok p
        ∧ s.MakesIn w p dir (fun inode => .dir inode World.newDirMode []) after ∧ root <+: dir
        ∧ e = .ofItem p (.dir w.nextInode World.newDirMode []))
    ∧ (∀ content after e, s.createFile w path content = .ok (after, e)
      → ∃ p dir, Path.normalize path = .ok p
        ∧ s.MakesIn w p dir (fun inode => .file inode World.newFileMode content) after
        ∧ root <+: dir
        ∧ e = { Entry.ofItem p (.file w.nextInode World.newFileMode content) with
            checksum := some (Digest.hex content) })
    ∧ ∀ c : Call, c.looksUpOrMakes = true →
        (s.call w c).state.2.outside root = w.outside root :=
  ⟨fun _ => stat_eq_ok_iff rooted, fun _ => listDirectory_eq_ok_iff rooted,
    fun _ _ _ => openFile_eq_ok rooted, fun _ _ => createDirectory_eq_ok rooted,
    fun _ _ _ => createFile_eq_ok rooted, fun _ kind => call_outside_eq rooted kind⟩

end HostStore

/-- Two directories with links into each other, and a neighbour whose name goes on where that
of the first ends. -/
def World.crossed : World where
  top := .dir 1 World.newDirMode
    [("root", .dir 2 World.newDirMode
        [("f", .file 3 World.newFileMode [120]), ("out", .link 4 "../outside"),
          ("near", .link 5 "/root2")]),
      ("outside", .dir 6 World.newDirMode
        [("back", .link 7 "../root/f"), ("home", .link 8 "../root")]),
      ("root2", .dir 9 World.newDirMode [])]
  nextInode := 10
  home := []

/-- The store at the first of the two directories. -/
def HostStore.crossing : HostStore := .create World.crossed "/root" false {}

namespace HostStore

/-- Paths that leave the root and come back are used, and the neighbour is refused. -/
theorem lookups_and_creations_confined_crossing :
    crossing.RootedAt World.crossed ["root"]
    ∧ (∃ e, crossing.stat World.crossed "/out/back" = .ok e)
    ∧ (∃ after e, crossing.createDirectory World.crossed "/out/home/new" = .ok (after, e)
      ∧ ∃ p dir, Path.normalize "/out/home/new" = .ok p
        ∧ crossing.MakesIn World.crossed p dir (fun inode => .dir inode World.newDirMode []) after
        ∧ ["root"] <+: dir)
    ∧ (crossing.call World.crossed (.createDirectory "/out/home/new")).state.2.outside ["root"]
      = World.crossed.outside ["root"]
    ∧ crossing.stat World.crossed "/near"
      = .error (.pathEscapesRoot "/root2 is not under /root") := by
  have rooted : crossing.RootedAt World.crossed ["root"] := ⟨rfl, rfl⟩
  obtain ⟨looks, _⟩ := lookups_and_creations_confined rooted "/out/back"
  obtain ⟨_, _, _, makes, _, frame⟩ := lookups_and_creations_confined rooted "/out/home/new"
  have leads : crossing.LeadsTo World.crossed "/out/back" ["root", "f"]
      (.file 3 World.newFileMode [120]) := ⟨rfl, rfl⟩
  have made : crossing.createDirectory World.crossed "/out/home/new"
      = .ok (World.crossed.addAt ["root"] "new" fun inode => .dir inode World.newDirMode [],
        .ofItem "/out/home/new" (.dir 10 World.newDirMode [])) := rfl
  refine ⟨rooted, ⟨_, (looks _).mpr ⟨_, _, _, rfl, leads, ⟨["f"], rfl⟩, rfl⟩⟩, ?_,
    frame (.createDirectory "/out/home/new") rfl, rfl⟩
  obtain ⟨p, dir, normal, new, under, _⟩ := makes _ _ made
  exact ⟨_, _, made, p, dir, normal, new, under⟩

end HostStore

end MountFs
