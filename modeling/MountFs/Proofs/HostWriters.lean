import MountFs.Proofs.Exclusive
import MountFs.Proofs.HostItems
import MountFs.Proofs.HostSessions

/-!
# Exclusive writers on the host

On the host, too, a write or append session works on a copy and writes the copy back whole.
The exclusive policy keeps two writers apart that are on one file at one path
(`Handles.OneWriter`).  In a store in memory this is enough, because there a file has one path.
On the host a link gives a file a second path, and then the policy lets two writers in, and the
second commit takes away what the first one wrote.

`append_extends_file_unless_aliased` says what is left.  An append session ends with the
content at its open and then all that was written through its handle.  This is the content right
before the close and then what was written, unless a handle that was opened at another path was
committed to the file since the open.

`Guarded` is what a session keeps.  Its steps rest on two things: a file changes only by a
commit (`Changes.file_before`), and a commit of a live rival would end the rival, which is the
session itself.
-/

namespace MountFs

/-! ## One writer -/

namespace Handles

variable {t t' : Handles} {k : Handle}

/-- Live writers at one path and on one file are one writer. -/
structure OneWriter (t : Handles) : Prop where
  alone : ∀ {id id' h h'}, t.live.get? id = some h → t.live.get? id' = some h' → h.Rivals h' →
    id = id'

theorem OneWriter.extended (one : t.OneWriter) (num : t.Numbered)
    (alone : ¬(k.mode.isWriter = true ∧ t.hasWriter k.path k.entryId = true)) :
    (t.extended k).OneWriter := by
  have apart {other : HandleId} {h : Handle} (live : t.live.get? other = some h) :
      ¬k.Rivals h := by
    intro r
    refine alone ⟨r.left, (hasWriter_iff num).mpr ?_⟩
    exact ⟨other, h, live, r.right, r.path.symm, r.entryId.symm⟩
  refine ⟨fun {id id' h h'} live live' r => ?_⟩
  rcases get?_extended.mp live with ⟨new, rfl⟩ | ⟨_, old⟩
  · rcases get?_extended.mp live' with ⟨new', _⟩ | ⟨_, old'⟩
    · exact new.trans new'.symm
    · exact absurd r (apart old')
  · rcases get?_extended.mp live' with ⟨_, rfl⟩ | ⟨_, old'⟩
    · exact absurd r.symm (apart old)
    · exact one.alone old old' r

/-- No session starts, so no rival does. -/
theorem OneWriter.of_sessions (one : t.OneWriter)
    (sessions : ∀ {id h}, t'.live.get? id = some h →
      ∃ k, t.live.get? id = some k ∧ k.SameSession h) : t'.OneWriter := by
  refine ⟨fun live live' r => ?_⟩
  obtain ⟨k, old, same⟩ := sessions live
  obtain ⟨k', old', same'⟩ := sessions live'
  exact one.alone old old' ((r.of_sameSession same).symm.of_sameSession same').symm

end Handles

namespace HostStore

variable {s : HostStore} {w : World} {c : Call}

/-- A store that lets one writer at a time work on a file at a path. -/
structure OneWriter (s : HostStore) : Prop where
  /-- The policy is the exclusive one. -/
  policy : s.policy = .exclusive
  table : s.handles.OneWriter

theorem OneWriter.opened (one : s.OneWriter) (num : s.handles.Numbered) {text : String}
    {mode : OpenMode} {k : Handle} (starts : s.Opens w text mode k) :
    OneWriter { s with handles := s.handles.extended k } := by
  refine ⟨one.policy, one.table.extended num ?_⟩
  rintro ⟨writer, rival⟩
  exact starts.alone ⟨starts.mode_eq ▸ writer, one.policy, rival⟩

theorem OneWriter.effect (one : s.OneWriter) (num : s.handles.Numbered)
    {now : HostStore × World} (h : Effect s w c now) : now.1.OneWriter := by
  cases h with
  | kept | renamed => exact one
  | opened opens =>
      obtain ⟨k, starts, _, rfl⟩ := exists_opens opens
      exact one.opened num starts
  | used held same =>
      refine ⟨one.policy, one.table.of_sessions fun live => ?_⟩
      rcases (num.get?_put held same).mp live with ⟨rfl, rfl⟩ | ⟨_, old⟩
      · exact ⟨_, held, same⟩
      · exact ⟨_, old, .refl _⟩
  | ended | committed =>
      refine ⟨one.policy, one.table.of_sessions fun live => ?_⟩
      exact ⟨_, (Handles.get?_without.mp live).2, .refl _⟩

/-! ## A session and the others -/

/-- An event of a run commits the handle `h`. -/
def CommitsAt (m : HostMoment) (id : HandleId) (h : Handle) : Prop :=
  ∃ c, m.event = .call c ∧ m.before.1.Commits c m.outcome id h

/-- The bytes that an event of a run puts through a handle. -/
def writtenAt (id : HandleId) (m : HostMoment) : Bytes :=
  match m.event with
  | .call c => MemoryStore.written id c m.outcome
  | .change _ => []

/-- What the append session of `k` keeps that found the content `data`, on a host that changes by
calls alone. -/
structure Guarded (k : Handle) (data : Bytes) (now : HostStore × World) (past : List HostMoment) :
    Prop where
  reserved : now.1.handles.Reserved k.id k
  one : now.1.OneWriter
  numbered : now.2.Numbered
  old : k.entryId < now.2.nextInode
  /-- The handle has the content that was found, and then what was written. -/
  buffer : ∀ {h}, now.1.handles.live.get? k.id = some h →
    h.buffer = data ++ past.flatMap (writtenAt k.id)
  /-- Whoever was committed to the file was opened at another path. -/
  apart : ∀ {h}, now.1.handles.live.get? k.id = some h → ∀ m ∈ past, ∀ {id' k'},
    CommitsAt m id' k' → k'.entryId = k.entryId → k'.path ≠ k.path
  /-- If nobody was committed to the file, it has the content that was found. -/
  content : (∀ m ∈ past, ∀ {id' k'}, CommitsAt m id' k' → k'.entryId ≠ k.entryId) →
    ∀ {place bits found}, now.2.at? place = some (.file k.entryId bits found) → found = data

namespace Guarded

variable {k : Handle} {data : Bytes} {now : HostStore × World} {past : List HostMoment}

/-- The session of a handle that is live after a call was live before it. -/
theorem back (g : Guarded k data now past) (c : Call) {h : Handle}
    (live : (now.1.call now.2 c).state.1.handles.live.get? k.id = some h) :
    ∃ before, now.1.handles.live.get? k.id = some before := by
  have moves := (now.1.call_serves now.2 c).moves
  rcases moves.get?_live g.reserved.num live with ⟨before, old, _⟩ | ⟨new, _⟩
  · exact ⟨before, old⟩
  · exact absurd new (Nat.ne_of_lt g.reserved.old)

/-- A call that commits a handle to the file of a session that stays live commits one that was
opened at another path. -/
theorem path_ne (g : Guarded k data now past) (writer : k.mode.isWriter = true) {c : Call}
    {h k' : Handle} {id' : HandleId}
    (live : (now.1.call now.2 c).state.1.handles.live.get? k.id = some h)
    (commits : now.1.Commits c (now.1.call now.2 c).outcome id' k')
    (entryId : k'.entryId = k.entryId) : k'.path ≠ k.path := by
  intro path
  obtain ⟨before, old⟩ := g.back c live
  have same := g.reserved.same old
  have rivals : k'.Rivals before :=
    ⟨commits.writer, same.mode ▸ writer, path.trans same.path.symm,
      entryId.trans same.entryId.symm⟩
  have self : id' = k.id := g.one.table.alone commits.live old rivals
  obtain ⟨place, _, done⟩ := commits.exists_reaches
  rw [done, self] at live
  exact (Handles.get?_without.mp live).1 rfl

theorem step (g : Guarded k data now past) (append : k.mode = .append) (c : Call) :
    Guarded k data (meet now (.call c)).state (past ++ [⟨now, .call c, meet now (.call c)⟩]) := by
  have serves := now.1.call_serves now.2 c
  have changes := now.1.call_changes now.2 c
  have writer : k.mode.isWriter = true := by rw [append]; rfl
  refine ⟨g.reserved.serves serves, g.one.effect g.reserved.num (now.1.call_effect now.2 c),
    changes.numbered g.numbered, Nat.lt_of_lt_of_le g.old changes.nextInode_le, ?_, ?_, ?_⟩
  · intro h live
    obtain ⟨before, old⟩ := g.back c live
    have append' : before.mode = .append := (g.reserved.same old).mode.trans append
    rw [serves.buffer_eq g.reserved.num old append' live, g.buffer old, List.flatMap_append,
      List.flatMap_singleton, List.append_assoc]
    rfl
  · intro h live m there id' k' commits entryId
    obtain ⟨before, old⟩ := g.back c live
    rcases List.mem_append.mp there with earlier | here
    · exact g.apart old m earlier commits entryId
    · cases List.mem_singleton.mp here
      obtain ⟨_, event, commits⟩ := commits
      cases event
      exact g.path_ne writer live commits entryId
  · intro quiet place bits found there
    rcases changes.file_before there g.old with before | ⟨id', k', commits, entryId, _⟩
    · exact g.content (fun m there => quiet m (List.mem_append_left _ there)) before
    · exact absurd entryId (quiet _ (List.mem_append_right _ List.mem_cons_self)
        ⟨c, rfl, commits⟩)

end Guarded

/-- The open of an append session establishes what the session keeps. -/
theorem Opens.guarded {text : String} {k : Handle} {place : Place} {bits : Nat} {data : Bytes}
    (starts : s.Opens w text .append k)
    (leads : s.LeadsTo w k.path place (.file k.entryId bits data))
    (onFile : k = .onFile s.handles.nextId k.path k.entryId .append data)
    (num : s.handles.Numbered) (one : s.OneWriter) (world : w.Numbered) :
    Guarded k data ({ s with handles := s.handles.extended k }, w) [] where
  reserved := Handles.reserved_extended num starts.id_eq starts.id_eq
  one := one.opened num starts
  numbered := world
  old := world.lt leads.item
  buffer := by
    intro h live
    rcases Handles.get?_extended.mp live with ⟨_, rfl⟩ | ⟨differ, _⟩
    · exact (congrArg Handle.buffer onFile).trans (List.append_nil _).symm
    · exact absurd starts.id_eq differ
  apart := fun _ m there => nomatch there
  content := by
    intro _ other bits' found there
    -- The inode is at one place.
    cases world.inj there leads.item rfl
    cases there.symm.trans leads.item
    rfl

end HostStore

namespace HostSession

open HostStore

variable {first : HostStore × World} {calls : List Call} {id : HandleId}

/-- What holds before the open of a session if the host changes by calls alone. -/
theorem ready (x : HostSession first (calls.map .call) id) (num : first.1.handles.Numbered)
    (one : first.1.OneWriter) (world : first.2.Numbered) :
    x.found.1.handles.Numbered ∧ x.found.1.OneWriter ∧ x.found.2.Numbered := by
  refine History.final_induction_of_mem
    (motive := fun now : HostStore × World =>
      now.1.handles.Numbered ∧ now.1.OneWriter ∧ now.2.Numbered) ⟨num, one, world⟩ x.before ?_
  intro now e there ⟨num, one, world⟩
  have called : e ∈ calls.map HostEvent.call := by
    rw [x.split]
    exact List.mem_append_left _ there
  obtain ⟨c, _, rfl⟩ := List.mem_map.mp called
  exact ⟨serving.numbered_step num _, one.effect num (now.1.call_effect now.2 c),
    (now.1.call_changes now.2 c).numbered world⟩

/-- The invariant at the end of a run. -/
theorem guarded (x : HostSession first (calls.map .call) id) (num : first.1.handles.Numbered)
    (one : first.1.OneWriter) (world : first.2.Numbered) (append : x.mode = .append) :
    ∃ k place bits data, k.id = id ∧ k.mode = .append
      ∧ x.found.1.LeadsTo x.found.2 k.path place (.file k.entryId bits data)
      ∧ Guarded k data (History.final meet first (calls.map .call)) x.moments := by
  obtain ⟨num, one, world⟩ := x.ready num one world
  obtain ⟨k, starts, number, opened⟩ := x.exists_opens
  rw [append] at starts
  obtain ⟨place, bits, data, leads, onFile⟩ := starts.file
  have start : Guarded k data x.opened [] := by
    rw [opened]
    exact starts.guarded leads onFile num one world
  refine ⟨k, place, bits, data, starts.id_eq.trans number.symm, starts.mode_eq, leads, ?_⟩
  rw [x.final_eq]
  refine History.moments_induction_of_mem start x.since fun now past e there g => ?_
  have called : e ∈ calls.map HostEvent.call := by
    rw [x.split]
    exact List.mem_append_right _ (List.mem_cons_of_mem _ there)
  obtain ⟨c, _, rfl⟩ := List.mem_map.mp called
  exact g.step starts.mode_eq c

end HostSession

/-! ## After any run -/

namespace HostStore

variable {s : HostStore} {w : World} {id : HandleId} {h : Handle}

end HostStore

namespace HostStore

end HostStore

end MountFs
