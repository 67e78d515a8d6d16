import MountFs.Proofs.HostEffect

/-!
# The items of the host

A call on a store changes the host in one of three ways: a name comes, a name goes, or one file
gets the buffer of a handle (`Changes`).  Seen from an item that is on the host after the
call this means that it was there before, or is new, or is the file that was rewritten
(`World.exists_before_of_addAt`, `World.exists_before_of_dropChild`, and
`World.Rewritten.eq_or_exists_before`).

A host is `Numbered` if every item has an inode number of its own that was given out.  Calls
keep it so.  Then a file that was there before a call and is there after it is at the place where
it was, and it has the content it had unless a handle on it was committed (`Changes.file_before`).
-/

namespace MountFs

namespace Item

theorem shallow_eq_file_iff {item : Item} {inode bits : Nat} {data : Bytes} :
    item.shallow = .file inode bits data ↔ item = .file inode bits data := by
  cases item with
  | file | link => rfl
  | dir => simp

theorem inode_eq_of_shallow_eq {item item' : Item} (same : item.shallow = item'.shallow) :
    item.inode = item'.inode := by
  have kept (item : Item) : item.shallow.inode = item.inode := by cases item <;> rfl
  rw [← kept item, ← kept item', same]

/-- Nothing is below an item that has nothing in it. -/
theorem eq_of_at?_bare {item found : Item} {place : Place} (bare : item.shallow = item)
    (there : item.at? place = some found) : place = [] ∧ found = item := by
  cases place with
  | nil => exact ⟨rfl, (Option.some.inj there).symm⟩
  | cons name rest =>
      rw [← bare] at there
      cases item <;> cases there

/-- What is at a place after a change elsewhere in the tree was there before, or is at or below
what was changed. -/
theorem exists_before_of_modifyAt {change : Item → Item} {top item : Item} {spot place : Place}
    (there : (modifyAt change spot top).at? place = some item) :
    (∃ old, top.at? place = some old ∧ item.shallow = old.shallow)
      ∨ ∃ rest found, place = spot ++ rest ∧ top.at? spot = some found
        ∧ (change found).at? rest = some item := by
  by_cases below : spot <+: place
  · obtain ⟨rest, rfl⟩ := below
    rw [at?_modifyAt_append] at there
    obtain ⟨found, here, there⟩ := Option.bind_eq_some_iff.mp there
    exact Or.inr ⟨rest, found, rfl, here, there⟩
  · have same := at?_modifyAt_away below change top
    rw [there] at same
    obtain ⟨old, here, eq⟩ := Option.map_eq_some_iff.mp same.symm
    exact Or.inl ⟨old, here, eq.symm⟩

/-- What is in a directory with one more child was there before, or is the new child. -/
theorem exists_before_of_addChild {dir item new : Item} {name : String} {place : Place}
    (bare : new.shallow = new) (there : (addChild name new dir).at? place = some item) :
    (∃ old, dir.at? place = some old ∧ item.shallow = old.shallow)
      ∨ place = [name] ∧ item = new := by
  cases dir with
  | file | link => exact Or.inl ⟨item, there, rfl⟩
  | dir inode mode children =>
      cases place with
      | nil =>
          cases there
          exact Or.inl ⟨_, at?_nil _, rfl⟩
      | cons next rest =>
          rw [addChild, at?_dir_cons, child?_append] at there
          cases found : child? next children with
          | some child =>
              rw [found] at there
              refine Or.inl ⟨item, ?_, rfl⟩
              rw [at?_dir_cons, found]
              exact there
          | none =>
              rw [found, Option.none_or, child?] at there
              split at there
              next same =>
                obtain ⟨rfl, rfl⟩ := eq_of_at?_bare bare there
                exact Or.inr ⟨by rw [same], rfl⟩
              · cases there

/-- What is in a directory with one child less was there before. -/
theorem exists_before_of_dropChild {dir item : Item} {name : String} {place : Place}
    (there : (dropChild name dir).at? place = some item) :
    ∃ old, dir.at? place = some old ∧ item.shallow = old.shallow := by
  cases dir with
  | file | link => exact ⟨item, there, rfl⟩
  | dir inode mode children =>
      cases place with
      | nil =>
          cases there
          exact ⟨_, at?_nil _, rfl⟩
      | cons next rest =>
          rw [dropChild, at?_dir_cons, child?_filter_ne] at there
          split at there
          · cases there
          · refine ⟨item, ?_, rfl⟩
            rw [at?_dir_cons]
            exact there

end Item

namespace World

variable {w after : World} {place : Place} {item : Item}

theorem exists_before_of_addAt {dir : Place} {name : String} {make : Nat → Item}
    (bare : (make w.nextInode).shallow = make w.nextInode)
    (there : (w.addAt dir name make).at? place = some item) :
    (∃ old, w.at? place = some old ∧ item.shallow = old.shallow)
      ∨ place = dir ++ [name] ∧ item = make w.nextInode := by
  rcases Item.exists_before_of_modifyAt there with before | ⟨rest, found, rfl, here, there⟩
  · exact Or.inl before
  · rcases Item.exists_before_of_addChild bare there with ⟨old, below, same⟩ | ⟨rfl, rfl⟩
    · refine Or.inl ⟨old, ?_, same⟩
      rw [at?_append, at?, here]
      exact below
    · exact Or.inr ⟨rfl, rfl⟩

theorem exists_before_of_dropChild {dir : Place} {name : String}
    (there : (w.modifyAt dir (Item.dropChild name)).at? place = some item) :
    ∃ old, w.at? place = some old ∧ item.shallow = old.shallow := by
  rcases Item.exists_before_of_modifyAt there with before | ⟨rest, found, rfl, here, there⟩
  · exact before
  · obtain ⟨old, below, same⟩ := Item.exists_before_of_dropChild there
    refine ⟨old, ?_, same⟩
    rw [at?_append, at?, here]
    exact below

/-- What is there after one file was rewritten is that file or was there before. -/
theorem Rewritten.eq_or_exists_before {spot : Place} {inode : Nat} {data : Bytes}
    (rewritten : w.Rewritten spot inode data after) (there : after.at? place = some item) :
    (place = spot ∧ ∃ bits, item = .file inode bits data)
      ∨ ∃ old, w.at? place = some old ∧ item.shallow = old.shallow := by
  by_cases here : place = spot
  · obtain ⟨bits, _, _, file⟩ := rewritten.file
    rw [here, file] at there
    exact Or.inl ⟨here, bits, (Option.some.inj there).symm⟩
  · have same := rewritten.others place here
    rw [there] at same
    obtain ⟨old, found, eq⟩ := Option.map_eq_some_iff.mp same.symm
    exact Or.inr ⟨old, found, eq.symm⟩

/-! ## Inode numbers -/

/-- Every item has an inode number of its own, and its number was given out. -/
structure Numbered (w : World) : Prop where
  lt : ∀ {place item}, w.at? place = some item → item.inode < w.nextInode
  inj : ∀ {place place' item item'}, w.at? place = some item → w.at? place' = some item' →
    item.inode = item'.inode → place = place'

/-- A host on which every item was at its place before, with its number. -/
theorem Numbered.of_before (num : w.Numbered) (next : after.nextInode = w.nextInode)
    (before : ∀ {place item}, after.at? place = some item →
      ∃ old, w.at? place = some old ∧ item.inode = old.inode) : after.Numbered where
  lt := by
    intro place item there
    obtain ⟨old, found, same⟩ := before there
    rw [same, next]
    exact num.lt found
  inj := by
    intro place place' item item' there there' same
    obtain ⟨old, found, eq⟩ := before there
    obtain ⟨old', found', eq'⟩ := before there'
    exact num.inj found found' (eq.symm.trans (same.trans eq'))

/-- A new item may get the next number. -/
theorem Numbered.addAt (num : w.Numbered) {dir : Place} {name : String} {make : Nat → Item}
    (bare : (make w.nextInode).shallow = make w.nextInode)
    (number : (make w.nextInode).inode = w.nextInode) : (w.addAt dir name make).Numbered where
  lt := by
    intro place item there
    rcases exists_before_of_addAt bare there with ⟨old, found, same⟩ | ⟨_, rfl⟩
    · rw [Item.inode_eq_of_shallow_eq same]
      exact Nat.lt_succ_of_lt (num.lt found)
    · rw [number]
      exact Nat.lt_succ_self _
  inj := by
    intro place place' item item' there there' same
    have old_ne {old : Item} {place : Place} (found : w.at? place = some old) :
        old.inode ≠ (make w.nextInode).inode := by
      rw [number]
      exact Nat.ne_of_lt (num.lt found)
    rcases exists_before_of_addAt bare there with ⟨old, found, eq⟩ | ⟨rfl, rfl⟩
    · have inode := Item.inode_eq_of_shallow_eq eq
      rcases exists_before_of_addAt bare there' with ⟨old', found', eq'⟩ | ⟨_, rfl⟩
      · have inode' := Item.inode_eq_of_shallow_eq eq'
        exact num.inj found found' (inode.symm.trans (same.trans inode'))
      · exact absurd (inode.symm.trans same) (old_ne found)
    · rcases exists_before_of_addAt bare there' with ⟨old', found', eq'⟩ | ⟨rfl, _⟩
      · have inode' := Item.inode_eq_of_shallow_eq eq'
        exact absurd (inode'.symm.trans same.symm) (old_ne found')
      · rfl

theorem Numbered.dropChild (num : w.Numbered) (dir : Place) (name : String) :
    (w.modifyAt dir (Item.dropChild name)).Numbered := by
  refine num.of_before rfl fun there => ?_
  obtain ⟨old, found, same⟩ := exists_before_of_dropChild there
  exact ⟨old, found, Item.inode_eq_of_shallow_eq same⟩

theorem Numbered.rewritten (num : w.Numbered) {spot : Place} {inode : Nat} {data : Bytes}
    (rewritten : w.Rewritten spot inode data after) : after.Numbered := by
  refine num.of_before rewritten.nextInode fun there => ?_
  rcases rewritten.eq_or_exists_before there with ⟨rfl, bits, rfl⟩ | ⟨old, found, same⟩
  · obtain ⟨bits, data, found, _⟩ := rewritten.file
    exact ⟨_, found, rfl⟩
  · exact ⟨old, found, Item.inode_eq_of_shallow_eq same⟩

end World

namespace HostStore

variable {s : HostStore} {w : World} {c : Call} {o : Outcome Answer}

/-! ## What a call does to the host -/

/-- A close of a write or append handle that succeeds. -/
structure Commits (s : HostStore) (c : Call) (o : Outcome Answer) (id : HandleId) (h : Handle) :
    Prop where
  asked : c = .close id
  live : s.handles.live.get? id = some h
  writer : h.mode.isWriter = true
  answer : o = .ok .done

/-- What a call makes of the host. -/
inductive Changes (s : HostStore) (w : World) (c : Call) (o : Outcome Answer) : World → Prop
  | kept : Changes s w c o w
  /-- A name comes, with an item that has nothing in it. -/
  | added {dir : Place} {name : String} {make : Nat → Item}
      (bare : (make w.nextInode).shallow = make w.nextInode)
      (number : (make w.nextInode).inode = w.nextInode) : Changes s w c o (w.addAt dir name make)
  /-- A name goes. -/
  | removed {dir : Place} {name : String} :
      Changes s w c o (w.modifyAt dir (Item.dropChild name))
  /-- The file that a handle was opened on gets its buffer. -/
  | committed {id : HandleId} {h : Handle} {place : Place} {after : World}
      (commits : s.Commits c o id h)
      (rewritten : w.Rewritten place h.entryId h.buffer after) : Changes s w c o after

/-- A commit reaches the file of its handle and ends the session. -/
theorem Commits.exists_reaches {id : HandleId} {h : Handle}
    (commits : s.Commits c (s.call w c).outcome id h) :
    ∃ place, s.Reaches w h place
      ∧ s.call w c = ⟨({ s with handles := s.handles.without id },
        w.modifyAt place (Item.setData h.buffer)), .ok .done⟩ := by
  obtain ⟨rfl, live, writer, answer⟩ := commits
  have closes := call_closes w live
  generalize s.call w (.close id) = done at closes answer ⊢
  cases closes with
  | committed reaches => exact ⟨_, reaches, rfl⟩
  | read _ reader =>
      rw [reader] at writer
      cases writer
  | stale => cases answer

theorem close_changes (s : HostStore) (w : World) (id : HandleId) :
    Changes s w (.close id) (s.call w (.close id)).outcome (s.call w (.close id)).state.2 := by
  cases live : s.handles.live.get? id with
  | none =>
      have unknown : s.handles.remove id = .error (.unknownHandle id) := by
        rw [Handles.remove, Handles.get_eq_error live]
        rfl
      rw [call, close, unknown]
      exact .kept
  | some h =>
      have closes := call_closes w live
      generalize s.call w (.close id) = done at closes ⊢
      cases closes with
      | committed reaches writer =>
          obtain ⟨bits, data, file⟩ := reaches.file
          exact .committed ⟨rfl, live, writer, rfl⟩ (World.rewritten_modifyAt file h.buffer)
      | read | stale => exact .kept

theorem changes_of_create {after : World} {text : String} {make : Nat → Item}
    (bare : ∀ inode, (make inode).shallow = make inode)
    (number : ∀ inode, (make inode).inode = inode) (created : w.create text make = .ok after) :
    Changes s w c o after := by
  obtain ⟨dir, name, _, _, rfl⟩ := World.create_eq_ok created
  exact .added (bare _) (number _)

/-- Every call does one of these things to the host. -/
theorem call_changes (s : HostStore) (w : World) (c : Call) :
    Changes s w c (s.call w c).outcome (s.call w c).state.2 := by
  cases c with
  | close id => exact s.close_changes w id
  | createDirectory path =>
      rw [call]
      cases done : s.createDirectory w path with
      | error e => exact .kept
      | ok made =>
          obtain ⟨_, _, rest⟩ := Except.bind_eq_ok.mp done
          obtain ⟨p, _, rest⟩ := Except.bind_eq_ok.mp rest
          split at rest
          · cases rest
          · obtain ⟨_, _, rest⟩ := Except.bind_eq_ok.mp rest
            obtain ⟨after, created, rest⟩ := Except.bind_eq_ok.mp rest
            obtain ⟨_, _, rest⟩ := Except.bind_eq_ok.mp rest
            cases rest
            exact changes_of_create (fun _ => rfl) (fun _ => rfl) (onPath_eq_ok_iff.mp created)
  | createFile path content =>
      rw [call]
      cases done : s.createFile w path content with
      | error e => exact .kept
      | ok made =>
          obtain ⟨_, _, rest⟩ := Except.bind_eq_ok.mp done
          obtain ⟨p, _, rest⟩ := Except.bind_eq_ok.mp rest
          obtain ⟨_, _, rest⟩ := Except.bind_eq_ok.mp rest
          split at rest
          · cases rest
          · obtain ⟨_, _, rest⟩ := Except.bind_eq_ok.mp rest
            obtain ⟨after, created, rest⟩ := Except.bind_eq_ok.mp rest
            obtain ⟨_, _, rest⟩ := Except.bind_eq_ok.mp rest
            cases rest
            exact changes_of_create (fun _ => rfl) (fun _ => rfl) (onPath_eq_ok_iff.mp created)
  | deleteFile path =>
      rw [call]
      cases done : s.deleteFile w path with
      | error e => exact .kept
      | ok after =>
          obtain ⟨_, _, rest⟩ := Except.bind_eq_ok.mp done
          obtain ⟨p, _, rest⟩ := Except.bind_eq_ok.mp rest
          split at rest
          · cases rest
          · obtain ⟨_, _, rest⟩ := Except.bind_eq_ok.mp rest
            obtain ⟨dir, name, item, _, _, _, rfl⟩ :=
              World.remove_eq_ok (onPath_eq_ok_iff.mp rest)
            exact .removed
  | openFile path mode =>
      rw [call]
      cases s.openFile w path mode with
      | error | ok => exact .kept
  | read id size =>
      rw [call]
      cases s.read id size with
      | error | ok => exact .kept
  | write id data =>
      rw [call]
      cases s.write id data with
      | error | ok => exact .kept
  | seek id offset =>
      rw [call]
      cases s.seek id offset with
      | error | ok => exact .kept
  | abort id =>
      rw [call]
      cases s.abort id with
      | error | ok => exact .kept
  | listDirectory | stat | present | usage | describe => exact .kept

namespace Changes

variable {after : World}

theorem numbered (changes : Changes s w c o after) (num : w.Numbered) : after.Numbered := by
  cases changes with
  | kept => exact num
  | added bare number => exact num.addAt bare number
  | removed => exact num.dropChild _ _
  | committed _ rewritten => exact num.rewritten rewritten

theorem nextInode_le (changes : Changes s w c o after) : w.nextInode ≤ after.nextInode := by
  cases changes with
  | added => exact Nat.le_succ _
  | committed _ rewritten => exact Nat.le_of_eq rewritten.nextInode.symm
  | kept | removed => exact Nat.le_refl _

/-- An old file that is there after a call was at the same place before it.  Its content is the
same, or it is the buffer of a handle on it that the call committed. -/
theorem file_before (changes : Changes s w c o after) {place : Place} {inode bits : Nat}
    {data : Bytes} (there : after.at? place = some (.file inode bits data))
    (old : inode < w.nextInode) :
    w.at? place = some (.file inode bits data)
      ∨ ∃ id h, s.Commits c o id h ∧ h.entryId = inode ∧ h.buffer = data := by
  have kept {before : Item} (found : w.at? place = some before)
      (same : (Item.file inode bits data).shallow = before.shallow) :
      w.at? place = some (.file inode bits data) := by
    rw [found, Item.shallow_eq_file_iff.mp same.symm]
  cases changes with
  | kept => exact Or.inl there
  | added bare number =>
      rcases World.exists_before_of_addAt bare there with ⟨before, found, same⟩ | ⟨_, new⟩
      · exact Or.inl (kept found same)
      · rw [← new] at number
        exact absurd number (Nat.ne_of_lt old)
  | removed =>
      obtain ⟨before, found, same⟩ := World.exists_before_of_dropChild there
      exact Or.inl (kept found same)
  | committed commits rewritten =>
      rcases rewritten.eq_or_exists_before there with ⟨_, bits', new⟩ | ⟨before, found, same⟩
      · cases new
        exact Or.inr ⟨_, _, commits, rfl, rfl⟩
      · exact Or.inl (kept found same)

end Changes

end HostStore

end MountFs
