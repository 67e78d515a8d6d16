import MountFs.Proofs.HostSessions
import MountFs.Proofs.PathPrefix

/-!
# What a close on the host reaches

A close goes by the path of its handle.  It looks whether the path still leads to the file
that the open found, and then it writes to where the path leads.  Between the two the host
stands still, so it is one place (`Reaches`), and the close ends in one of two ways: it
succeeds and one file has other content, or it is stale and the host is as it was.
`commit_reaches_opened_file` says which.

An open takes the root path of the store for the root itself (`hostText`).  A close appends it
to the root like any other path, and so follows the root with a slash behind it
(`hostBelow`).  This leads to a directory or nowhere (`exists_dirAt_of_lookup_slash`).  So on a
store whose root is a file, an open of the root path starts a session, and its close is
stale whatever happened.
-/

namespace MountFs

/-- A text with a slash at its end leads to a directory. -/
theorem World.exists_dirAt_of_lookup_slash {w : World} {text : String} (front : String)
    {place : Place} (ends : text.toList = front.toList ++ ['/'])
    (leads : w.lookup true text = .ok place) : ∃ children, w.DirAt place children := by
  obtain ⟨_, _, arrives⟩ := Except.bind_eq_ok.mp leads
  have blank : Path.pieces (String.ofList []) = [""] := by decide
  rw [Path.pieces_append_slash ends, blank] at arrives
  rcases w.walk_append true maxLinks (w.startOf text) (Path.pieces front)
    (List.cons_ne_nil "" []) with ⟨e, _, fails⟩ | ⟨dir, left, _, goesOn⟩
  · cases fails.symm.trans arrives
  · rw [goesOn] at arrives
    obtain ⟨children, isDir⟩ := exists_dirAt_of_walk arrives
    -- The last name is empty, so the lookup stays in the directory that the front leads to.
    obtain ⟨inode, mode, found⟩ := isDir
    rw [walk_eq, descend, found] at arrives
    cases arrives
    exact ⟨children, inode, mode, found⟩

namespace HostStore

variable {s : HostStore} {w : World} {id : HandleId} {h : Handle}

/-! ## Where a close looks -/

/-- The path of a handle leads, as an open takes it, to the file that the handle was opened
on. -/
def Finds (s : HostStore) (w : World) (h : Handle) (place : Place) : Prop :=
  ∃ bits data, s.LeadsTo w h.path place (.file h.entryId bits data)

theorem reaches_iff_finds (below : h.path ≠ Path.root) {place : Place} :
    s.Reaches w h place ↔ s.Finds w h place := by
  have same : s.hostText h.path = s.hostBelow h.path := if_neg below
  constructor
  · rintro ⟨found, bits, data, file⟩
    exact ⟨bits, data, same ▸ found, file⟩
  · rintro ⟨bits, data, found, file⟩
    exact ⟨same ▸ found, bits, data, file⟩

/-- No file is where a close looks for the root path. -/
theorem not_reaches_of_root (atRoot : h.path = Path.root) (place : Place) :
    ¬s.Reaches w h place := by
  rintro ⟨found, bits, data, file⟩
  have joined : s.hostBelow h.path = hostJoin s.root "" := by rw [hostBelow, atRoot]; rfl
  rw [joined, hostJoin] at found
  have isDir : ∃ children, w.DirAt place children := by
    split at found
    · cases found
    · split at found
      next slash =>
        obtain ⟨front, ends⟩ := List.getLast?_eq_some_iff.mp slash
        refine World.exists_dirAt_of_lookup_slash (String.ofList front) ?_ found
        simp [ends]
      next =>
        refine World.exists_dirAt_of_lookup_slash s.root ?_ found
        simp
  obtain ⟨children, inode, mode, dir⟩ := isDir
  cases file.symm.trans dir

/-! ## What a close does -/

/-- Whatever a close answers, the handle is gone from the table and nothing else in the store
changes. -/
theorem close_store_eq (w : World) (live : s.handles.live.get? id = some h) :
    (s.call w (.close id)).state.1 = { s with handles := s.handles.without id } := by
  have closes := call_closes w live
  generalize s.call w (.close id) = done at closes ⊢
  cases closes <;> rfl

/-- No call on a handle changes the host, but for the close of a writer. -/
theorem call_world_eq {c : Call} (asked : c.handle? = some id)
    (live : s.handles.live.get? id = some h)
    (quiet : c = .close id → h.mode.isWriter = false) : (s.call w c).state.2 = w := by
  cases c with
  | read other size =>
      rw [call]
      cases s.read other size with
      | error | ok => rfl
  | write other data =>
      rw [call]
      cases s.write other data with
      | error | ok => rfl
  | seek other offset =>
      rw [call]
      cases s.seek other offset with
      | error | ok => rfl
  | abort other =>
      rw [call]
      cases s.abort other with
      | error | ok => rfl
  | close other =>
      cases asked
      have closes := call_closes w live
      generalize s.call w (.close id) = done at closes ⊢
      cases closes with
      | committed _ writer =>
          rw [quiet rfl] at writer
          cases writer
      | read | stale => rfl
  | _ => cases asked

/-- The close of a writer is stale and changes nothing on the host, or it succeeds and
rewrites the file that the path of the handle leads to.  It is stale exactly if the path is
the root path or no longer leads to the file that was opened. -/
theorem close_stale_iff (live : s.handles.live.get? id = some h)
    (writer : h.mode.isWriter = true) :
    let closed := s.call w (.close id)
    (closed.outcome = .error (.staleHandle id h.path)
        ↔ h.path = Path.root ∨ ∀ place, ¬s.Finds w h place)
      ∧ (closed.outcome = .error (.staleHandle id h.path) → closed.state.2 = w)
      ∧ ∀ place, h.path ≠ Path.root → s.Finds w h place →
          closed.outcome = .ok .done ∧ w.Rewritten place h.entryId h.buffer closed.state.2 := by
  have closes := call_closes w live
  dsimp only
  generalize s.call w (.close id) = done at closes ⊢
  cases closes with
  | @committed place reaches _ =>
      have below : h.path ≠ Path.root := fun atRoot => not_reaches_of_root atRoot place reaches
      refine ⟨⟨fun stale => (nomatch stale), ?_⟩, fun stale => (nomatch stale), ?_⟩
      · rintro (atRoot | lost)
        · exact absurd atRoot below
        · exact absurd ((reaches_iff_finds below).mp reaches) (lost place)
      · intro other _ finds
        have also := (reaches_iff_finds below).mpr finds
        cases reaches.found.symm.trans also.found
        obtain ⟨bits, data, file⟩ := reaches.file
        exact ⟨rfl, World.rewritten_modifyAt file h.buffer⟩
  | read _ reader =>
      rw [reader] at writer
      cases writer
  | stale lost =>
      refine ⟨⟨fun _ => ?_, fun _ => rfl⟩, fun _ => rfl, ?_⟩
      · by_cases atRoot : h.path = Path.root
        · exact Or.inl atRoot
        · exact Or.inr fun place finds => lost place ((reaches_iff_finds atRoot).mpr finds)
      · intro place below finds
        exact absurd ((reaches_iff_finds below).mpr finds) (lost place)

end HostStore

/-! ## After any run -/

open HostStore

/-- The open of a session found the file of a handle, at the path of the handle. -/
structure HostSession.Saw {first : HostStore × World} {events : List HostEvent} {id : HandleId}
    (x : HostSession first events id) (h : Handle) : Prop where
  normal : Path.normalize x.text = .ok h.path
  mode : x.mode = h.mode
  finds : ∃ place, x.found.1.Finds x.found.2 h place

theorem HostSession.saw_of_live {first : HostStore × World} {events : List HostEvent}
    {id : HandleId} {h : Handle} (x : HostSession first events id)
    (num : first.1.handles.Numbered)
    (live : (History.final meet first events).1.handles.live.get? id = some h) : x.Saw h := by
  obtain ⟨k, starts, same⟩ := x.sameSession_of_live num live
  obtain ⟨place, bits, data, leads, _⟩ := starts.file
  refine ⟨?_, ?_, place, bits, data, ?_⟩
  · rw [same.path]
    exact normalize_of_confine starts.confined
  · rw [same.mode]
    exact starts.mode_eq.symm
  · rw [same.path, same.entryId]
    exact leads

namespace HostStore

variable {s : HostStore} {w : World} {id : HandleId} {h : Handle}

/-- The end of a session after any run, whatever happened to the host since the open.  The
handle is on the file that the open found at its path.  Its close takes it from the table.
The close of a writer succeeds, and then that file holds the buffer and nothing else changed,
or it is stale and nothing changed; it is stale exactly if the path of the handle no longer
leads to that file or is the root path.  A reader never changes the host. -/
theorem commit_reaches_opened_file (w₀ : World) (text : String) (readOnly : Bool)
    (config : Config) (events : List HostEvent)
    (now : History.final meet (create w₀ text readOnly config, w₀) events = (s, w))
    (live : s.handles.live.get? id = some h) :
    Nonempty (HostSession (create w₀ text readOnly config, w₀) events id)
    ∧ (∀ x : HostSession (create w₀ text readOnly config, w₀) events id, x.Saw h)
    ∧ (let closed := s.call w (.close id)
      closed.state.1 = { s with handles := s.handles.without id }
      ∧ closed.state.1.handles.live.get? id = none
      ∧ (h.mode.isWriter = true →
        (closed.outcome = .error (.staleHandle id h.path)
            ↔ h.path = Path.root ∨ ∀ place, ¬s.Finds w h place)
        ∧ (closed.outcome = .error (.staleHandle id h.path) → closed.state.2 = w)
        ∧ ∀ place, h.path ≠ Path.root → s.Finds w h place →
            closed.outcome = .ok .done ∧ w.Rewritten place h.entryId h.buffer closed.state.2))
    ∧ (h.mode.isWriter = false → ∀ c : Call, c.handle? = some id →
        (s.call w c).state.2 = w) := by
  have ended : (s.call w (.close id)).state.1 = { s with handles := s.handles.without id } :=
    close_store_eq w live
  have last : (History.final meet (create w₀ text readOnly config, w₀) events).1 = s :=
    congrArg Prod.fst now
  have live' := live
  rw [← last] at live'
  refine ⟨HostSession.nonempty_of_live live', fun x => ?_, ⟨ended, ?_, ?_⟩, ?_⟩
  · exact x.saw_of_live (Handles.numbered_empty _) live'
  · rw [ended]
    exact (Registry.get?_erase _ _ _).trans (if_pos rfl)
  · exact fun writer => close_stale_iff live writer
  · exact fun reader c asked => call_world_eq asked live fun _ => reader

/-- A file is opened and written, and then the host changes. -/
def editing (changes : List Change) : List HostEvent :=
  [.call (.openFile "/f" .write), .call (.write 1 [110, 101, 119])]
    ++ changes.map fun change => .change fun w => w.apply change

/-- A file that moved away and back takes the commit.  If a link to a directory takes its place
nothing does. -/
theorem commit_reaches_opened_file_moved :
    (∃ s w h, History.final meet neighbouring
        (editing [.rename "/root/f" "/root/g", .rename "/root/g" "/root/f"]) = (s, w)
      ∧ s.handles.live.get? 1 = some h ∧ h.mode.isWriter = true
      ∧ (s.call w (.close 1)).outcome = .ok .done
      ∧ w.Rewritten ["root", "f"] 3 [110, 101, 119] (s.call w (.close 1)).state.2)
    ∧ ∃ s w h, History.final meet neighbouring
        (editing [.rename "/root/f" "/root/g", .symlink "/root/f" "/outside"]) = (s, w)
      ∧ s.handles.live.get? 1 = some h ∧ h.mode.isWriter = true
      ∧ (s.call w (.close 1)).outcome = .error (.staleHandle 1 "/f")
      ∧ (s.call w (.close 1)).state.2 = w := by
  constructor
  · have live : (History.final meet neighbouring
        (editing [.rename "/root/f" "/root/g", .rename "/root/g" "/root/f"])).1.handles.live.get? 1
          = some ⟨1, "/f", 3, .write, 3, [110, 101, 119]⟩ := rfl
    obtain ⟨_, _, ⟨_, _, close⟩, _⟩ :=
      commit_reaches_opened_file World.neighbours "/root" false {}
        (editing [.rename "/root/f" "/root/g", .rename "/root/g" "/root/f"]) rfl live
    obtain ⟨done, rewritten⟩ :=
      (close rfl).2.2 ["root", "f"] (by decide) ⟨World.newFileMode, [111, 108, 100], rfl, rfl⟩
    exact ⟨_, _, _, rfl, live, rfl, done, rewritten⟩
  · have live : (History.final meet neighbouring
        (editing [.rename "/root/f" "/root/g", .symlink "/root/f" "/outside"])).1.handles.live.get?
          1 = some ⟨1, "/f", 3, .write, 3, [110, 101, 119]⟩ := rfl
    obtain ⟨_, _, ⟨_, _, close⟩, _⟩ :=
      commit_reaches_opened_file World.neighbours "/root" false {}
        (editing [.rename "/root/f" "/root/g", .symlink "/root/f" "/outside"]) rfl live
    obtain ⟨stale, kept, _⟩ := close rfl
    have refused := stale.mpr (Or.inr fun place => by
      rintro ⟨bits, data, found, file⟩
      have here : place = ["outside"] := Except.ok.inj (found.symm.trans rfl)
      rw [here] at file
      cases file)
    exact ⟨_, _, _, rfl, live, rfl, refused, kept refused⟩

end HostStore

/-- A host with one file. -/
def World.single : World where
  top := .dir 1 World.newDirMode [("f", .file 2 World.newFileMode [111, 108, 100])]
  nextInode := 3
  home := []

namespace HostStore

/-- On a store whose root is a file a close is stale although the root path leads to the file
that was opened. -/
theorem commit_on_root_is_stale :
    ∃ s w h, History.final meet (create World.single "/f" false {}, World.single)
        [.call (.openFile "/" .write), .call (.write 1 [110, 101, 119])] = (s, w)
      ∧ s.handles.live.get? 1 = some h ∧ h.mode.isWriter = true
      ∧ s.Finds w h ["f"]
      ∧ (s.call w (.close 1)).outcome = .error (.staleHandle 1 "/")
      ∧ (s.call w (.close 1)).state.2.at? ["f"]
        = some (.file 2 World.newFileMode [111, 108, 100]) :=
  ⟨_, _, ⟨1, "/", 2, .write, 3, [110, 101, 119]⟩, rfl, rfl, rfl,
    ⟨World.newFileMode, [111, 108, 100], rfl, rfl⟩, rfl, rfl⟩

end HostStore

end MountFs
