import MountFs.Proofs.HostEffect
import MountFs.Proofs.Integrity
import MountFs.Store

/-!
# The table of handles of any store

A store in memory and a store on the host keep their handles in the same table and use it in
the same way.  `Handles.Serves` says what a call can do to the table, with the answer of the
call, and `Store.call_serves` says that every call on either store does one of these things.
What a handle does is then a matter of the table alone.  The entries of a store and the world
around it do not occur.

* A call that names another handle leaves a handle as it is (`Serves.get?_other`).
* A call that names a live handle does what the handle makes of it, or ends the session
  (`Serves.of_live`).  An append handle takes what is written at the end (`Serves.buffer_eq`).
* A handle that is not live is unknown to every call that names it (`Serves.of_unknown`).

A run of a store is a list of `StoreEvent`s.  Between the calls the world may change in any
way.
-/

namespace MountFs

/-! ## Calls on handles -/

/-- The handle that a call names. -/
def Call.handle? : Call → Option HandleId
  | .read id _ | .write id _ | .seek id _ | .close id | .abort id => some id
  | _ => none

/-- The handle whose session a call ends. -/
def Call.ends? : Call → Option HandleId
  | .close id | .abort id => some id
  | _ => none

theorem Call.handle?_of_ends? {c : Call} {id : HandleId} (ends : c.ends? = some id) :
    c.handle? = some id := by
  cases c with
  | close | abort => exact ends
  | _ => cases ends

/-- What a handle makes of a call that uses it. -/
def Handle.use? (h : Handle) (limits : Limits) : Call → Option (Outcome (Handle × Answer))
  | .read _ size => some ((h.read size).map fun used => (used.1, .bytes used.2))
  | .write _ data => some ((h.write limits data).map fun used => (used.1, .number used.2))
  | .seek _ offset => some ((h.seek offset).map fun used => (used.1, .number used.2))
  | _ => none

theorem Handle.use?_of_ends? (h : Handle) (limits : Limits) {c : Call} {id : HandleId}
    (ends : c.ends? = some id) : h.use? limits c = none := by
  cases c with
  | close | abort => rfl
  | _ => cases ends

/-- A use ends no session. -/
theorem Handle.ends?_of_use? {h : Handle} {limits : Limits} {c : Call}
    {made : Outcome (Handle × Answer)} (use : h.use? limits c = some made) : c.ends? = none := by
  cases ends : c.ends? with
  | none => rfl
  | some id => cases (h.use?_of_ends? limits ends).symm.trans use

theorem Handle.use?_sameSession {h h' : Handle} {limits : Limits} {c : Call} {a : Answer}
    (use : h.use? limits c = some (.ok (h', a))) : h.SameSession h' := by
  cases c with
  | read id size =>
      obtain ⟨⟨next, data⟩, read, same⟩ := Outcome.map_eq_ok.mp (Option.some.inj use)
      cases same
      exact (read_sameSession read).1
  | write id data =>
      obtain ⟨⟨next, count⟩, written, same⟩ := Outcome.map_eq_ok.mp (Option.some.inj use)
      cases same
      exact (write_eq_ok written).1
  | seek id offset =>
      obtain ⟨⟨next, result⟩, moved, same⟩ := Outcome.map_eq_ok.mp (Option.some.inj use)
      cases same
      exact (seek_sameSession moved).1
  | _ => cases use

/-! ## What a handle makes of a write -/

theorem Bytes.overwrite_length (buffer data : Bytes) :
    Bytes.overwrite buffer buffer.length data = buffer ++ data := by
  simp [Bytes.overwrite]

theorem MemoryStore.written_of_handle?_ne {id : HandleId} {c : Call} {o : Outcome Answer}
    (other : c.handle? ≠ some id) : written id c o = [] := by
  cases c with
  | write named data =>
      have differ : named ≠ id := fun same => other (congrArg some same)
      cases o with
      | error e => rfl
      | ok a => exact if_neg differ
  | _ => rfl

/-- An append handle takes what is written through it at the end of its buffer.  It takes
nothing else. -/
theorem Handle.use?_buffer_eq {h h' : Handle} {limits : Limits} {c : Call} {id : HandleId}
    {a : Answer} (asked : c.handle? = some id) (append : h.mode = .append)
    (use : h.use? limits c = some (.ok (h', a))) :
    h'.buffer = h.buffer ++ MemoryStore.written id c (.ok a) := by
  cases c with
  | read named size =>
      have refused : h.read size = .error (h.refusal .read) := if_neg (by simp [append])
      rw [use?, refused] at use
      cases use
  | write named data =>
      cases asked
      obtain ⟨⟨next, count⟩, wrote, same⟩ := Outcome.map_eq_ok.mp (Option.some.inj use)
      cases same
      have atEnd : h.writeStart = h.buffer.length := by rw [writeStart, append]
      rw [(write_eq_ok wrote).2, atEnd, Bytes.overwrite_length]
      exact congrArg (h.buffer ++ ·) (if_pos rfl).symm
  | seek named offset =>
      have refused : h.seek offset = .error (h.refusal .seek) := if_pos append
      rw [use?, refused] at use
      cases use
  | _ => cases use

/-! ## What a call does to the table -/

namespace Handles

/-- What a call on a store answers and makes of its table. -/
inductive Serves (t : Handles) (limits : Limits) : Call → Outcome Answer → Handles → Prop
  /-- A call that names no handle and starts no session. -/
  | aside {c : Call} {o : Outcome Answer} (free : c.handle? = none)
      (silent : ∀ id, o ≠ .ok (.handle id)) : Serves t limits c o t
  /-- A session starts. -/
  | opened {path : String} {mode : OpenMode} {k : Handle} (fresh : k.id = t.nextId)
      (room : t.count < t.maxOpen) :
      Serves t limits (.openFile path mode) (.ok (.handle t.nextId)) (t.extended k)
  | unknown {c : Call} {id : HandleId} (asked : c.handle? = some id)
      (gone : t.live.get? id = none) : Serves t limits c (.error (.unknownHandle id)) t
  | used {c : Call} {id : HandleId} {h h' : Handle} {a : Answer} (asked : c.handle? = some id)
      (live : t.live.get? id = some h) (use : h.use? limits c = some (.ok (h', a))) :
      Serves t limits c (.ok a) (t.put h')
  | refused {c : Call} {id : HandleId} {h : Handle} {e : FsError} (asked : c.handle? = some id)
      (live : t.live.get? id = some h) (use : h.use? limits c = some (.error e)) :
      Serves t limits c (.error e) t
  /-- A session ends, whatever is answered. -/
  | ended {c : Call} {o : Outcome Answer} {id : HandleId} {h : Handle} (ends : c.ends? = some id)
      (live : t.live.get? id = some h) : Serves t limits c o (t.without id)

namespace Serves

variable {t t' : Handles} {limits : Limits} {c : Call} {o : Outcome Answer} {id : HandleId}
  {h : Handle}

/-- A session joins the table only by the open that answers its number. -/
theorem moves (serves : t.Serves limits c o t') :
    t.Moves (fun _ => ∃ path mode, c = .openFile path mode ∧ o = .ok (.handle t.nextId)) t' := by
  cases serves with
  | aside | unknown | refused => exact .kept
  | @opened path mode _ fresh => exact .opened ⟨path, mode, rfl, rfl⟩ fresh
  | used _ live use => exact .used live (Handle.use?_sameSession use)
  | ended => exact .ended _

theorem numbered (serves : t.Serves limits c o t') (num : t.Numbered) : t'.Numbered :=
  serves.moves.numbered num

theorem maxOpen_eq (serves : t.Serves limits c o t') : t'.maxOpen = t.maxOpen := by
  cases serves <;> rfl

/-- A handle is left alone by a call that does not name it. -/
theorem get?_other (serves : t.Serves limits c o t') (num : t.Numbered) (old : id < t.nextId)
    (other : c.handle? ≠ some id) : t'.live.get? id = t.live.get? id := by
  cases serves with
  | aside | unknown | refused => rfl
  | opened =>
      exact (Registry.get?_insert _ _ _ _).trans (if_neg (Nat.ne_of_lt old))
  | @used _ number _ _ _ asked live use =>
      have differ : id ≠ number := fun same => other (same ▸ asked)
      ext k
      rw [num.get?_put live (Handle.use?_sameSession use)]
      simp [differ]
  | @ended _ _ number _ ends =>
      have differ : id ≠ number := fun same => other (same ▸ Call.handle?_of_ends? ends)
      exact (Registry.get?_erase _ _ _).trans (if_neg differ)

/-- A call that names a live handle does what the handle makes of it, or ends the session. -/
theorem of_live (serves : t.Serves limits c o t') (asked : c.handle? = some id)
    (live : t.live.get? id = some h) :
    match h.use? limits c with
    | some (.ok (h', a)) => o = .ok a ∧ t' = t.put h'
    | some (.error e) => o = .error e ∧ t' = t
    | none => t' = t.without id := by
  cases serves with
  | aside free => cases asked.symm.trans free
  | opened => cases asked
  | unknown asked' gone =>
      cases asked.symm.trans asked'
      cases live.symm.trans gone
  | used asked' live' use =>
      cases asked.symm.trans asked'
      cases live.symm.trans live'
      rw [use]
      exact ⟨rfl, rfl⟩
  | refused asked' live' use =>
      cases asked.symm.trans asked'
      cases live.symm.trans live'
      rw [use]
      exact ⟨rfl, rfl⟩
  | ended ends =>
      cases asked.symm.trans (Call.handle?_of_ends? ends)
      rw [Handle.use?_of_ends? h limits ends]

/-- A live append handle takes what is written through it at the end of its buffer. -/
theorem buffer_eq (serves : t.Serves limits c o t') (num : t.Numbered)
    (live : t.live.get? id = some h) (append : h.mode = .append) {h' : Handle}
    (live' : t'.live.get? id = some h') : h'.buffer = h.buffer ++ MemoryStore.written id c o := by
  by_cases asked : c.handle? = some id
  · have done := serves.of_live asked live
    cases use : h.use? limits c with
    | none =>
        rw [use] at done
        have gone : t' = t.without id := done
        rw [gone] at live'
        exact absurd rfl (get?_without.mp live').1
    | some used =>
        rw [use] at done
        cases used with
        | error e =>
            obtain ⟨rfl, rfl⟩ := done
            cases live.symm.trans live'
            rw [MemoryStore.written_error, List.append_nil]
        | ok next =>
            obtain ⟨rfl, rfl⟩ := done
            rcases (num.get?_put live (Handle.use?_sameSession use)).mp live' with
              ⟨_, rfl⟩ | ⟨differ, _⟩
            · exact Handle.use?_buffer_eq asked append use
            · exact absurd rfl differ
  · rw [serves.get?_other num (num.id_lt live) asked, live] at live'
    cases live'
    rw [MemoryStore.written_of_handle?_ne asked, List.append_nil]

/-- A handle that is not live is unknown. -/
theorem of_unknown (serves : t.Serves limits c o t') (asked : c.handle? = some id)
    (gone : t.live.get? id = none) : o = .error (.unknownHandle id) ∧ t' = t := by
  cases serves with
  | aside free => cases asked.symm.trans free
  | opened => cases asked
  | unknown asked' =>
      cases asked.symm.trans asked'
      exact ⟨rfl, rfl⟩
  | used asked' live =>
      cases asked.symm.trans asked'
      cases gone.symm.trans live
  | refused asked' live =>
      cases asked.symm.trans asked'
      cases gone.symm.trans live
  | ended ends live =>
      cases asked.symm.trans (Call.handle?_of_ends? ends)
      cases gone.symm.trans live

end Serves

variable {t t' : Handles} {limits : Limits} {c : Call} {id : HandleId}

/-- A use of the table serves a call if each handle makes of the call what the use makes of
the handle. -/
theorem serves_use {α : Type} (asked : c.handle? = some id) {use : Handle → Outcome (Handle × α)}
    {wrap : α → Answer}
    (means : ∀ h, h.use? limits c = some ((use h).map fun used => (used.1, wrap used.2))) :
    let done := (Step.ofOutcome t (t.get id >>= fun h => use h >>= fun used =>
      .ok (t.put used.1, used.2))).map wrap
    t.Serves limits c done.outcome done.state := by
  cases live : t.live.get? id with
  | none =>
      rw [get_eq_error live]
      exact .unknown asked live
  | some h =>
      rw [get_eq_ok_iff.mpr live]
      have meant := means h
      cases used : use h with
      | error e =>
          rw [used] at meant
          simp only [bind, Except.bind, used]
          exact .refused asked live meant
      | ok next =>
          rw [used] at meant
          simp only [bind, Except.bind, used]
          exact .used asked live meant

theorem read_serves (t : Handles) (limits : Limits) (id : HandleId) (size : Option Nat) :
    let done := (Step.ofOutcome t (t.read id size)).map .bytes
    t.Serves limits (.read id size) done.outcome done.state :=
  serves_use rfl fun _ => rfl

theorem write_serves (t : Handles) (limits : Limits) (id : HandleId) (data : Bytes) :
    let done := (Step.ofOutcome t (t.write limits id data)).map .number
    t.Serves limits (.write id data) done.outcome done.state :=
  serves_use rfl fun _ => rfl

theorem seek_serves (t : Handles) (limits : Limits) (id : HandleId) (offset : Nat) :
    let done := (Step.ofOutcome t (t.seek id offset)).map .number
    t.Serves limits (.seek id offset) done.outcome done.state :=
  serves_use rfl fun _ => rfl

theorem serves_of_remove_error {e : FsError} (ends : c.ends? = some id)
    (failed : t.remove id = .error e) : t.Serves limits c (.error e) t := by
  cases live : t.live.get? id with
  | none =>
      rw [remove, get_eq_error live] at failed
      cases failed
      exact .unknown (Call.handle?_of_ends? ends) live
  | some h =>
      rw [remove, get_eq_ok_iff.mpr live] at failed
      cases failed

theorem serves_of_remove_ok {h : Handle} {o : Outcome Answer} (ends : c.ends? = some id)
    (removed : t.remove id = .ok (t', h)) : t.Serves limits c o t' := by
  obtain ⟨live, rfl⟩ := remove_eq_ok_iff.mp removed
  exact .ended ends live

end Handles

/-- An answer of another kind starts no session. -/
theorem Outcome.map_ne_handle {α : Type} {x : Outcome α} {wrap : α → Answer}
    (other : ∀ a id, wrap a ≠ .handle id) (id : HandleId) : x.map wrap ≠ .ok (.handle id) := by
  intro answer
  obtain ⟨a, _, same⟩ := Outcome.map_eq_ok.mp answer
  exact other a id same

/-! ## Stores in memory -/

namespace MemoryStore

/-- A change of names leaves the table as it is, and an open adds a handle to it. -/
theorem Effect.serves {s t : MemoryStore} {now : Time} {c : Call} {o : Outcome Answer}
    (effect : s.Effect now c o t) (free : c.handle? = none) (asks : c.isQuery = false) :
    s.handles.Serves s.limits c o t.handles := by
  cases effect with
  | refused => exact .aside free (by simp)
  | told query => cases asks.symm.trans query
  | madeDirectory | madeFile | deleted =>
      rw [touchParent_handles]
      exact .aside free (by simp)
  | opened _ _ _ room => exact .opened rfl room
  | taken | put | moved | closedStale | closedReader | closedWriter | aborted => cases free

theorem read_serves (s : MemoryStore) (now : Time) (id : HandleId) (size : Option Nat) :
    s.handles.Serves s.limits (.read id size) (s.call now (.read id size)).outcome
      (s.call now (.read id size)).state.handles := by
  have serves := s.handles.read_serves s.limits id size
  cases live : s.handles.live.get? id with
  | none =>
      simp only [call, read, Handles.get_eq_error live]
      exact .unknown rfl live
  | some h =>
      simp only [call, read, Handles.get_eq_ok_iff.mpr live]
      cases used : s.handles.read id size with
      | error e =>
          rw [used] at serves
          exact serves
      | ok after =>
          rw [used] at serves
          refine (noteRead_handles _ _ _ _).symm ▸ ?_
          exact serves

theorem close_serves (s : MemoryStore) (now : Time) (id : HandleId) :
    s.handles.Serves s.limits (.close id) (s.call now (.close id)).outcome
      (s.call now (.close id)).state.handles := by
  rw [call, close, Step.map]
  cases removed : s.handles.remove id with
  | error e => exact Handles.serves_of_remove_error rfl removed
  | ok rest =>
      have serves {o : Outcome Answer} : s.handles.Serves s.limits (.close id) o rest.1 :=
        Handles.serves_of_remove_ok rfl removed
      dsimp only
      split
      · exact serves
      · split
        · exact serves
        · exact serves

/-- Every call on a store in memory serves its table. -/
theorem call_serves (s : MemoryStore) (now : Time) (c : Call) :
    s.handles.Serves s.limits c (s.call now c).outcome (s.call now c).state.handles := by
  cases c with
  | createDirectory | createFile | deleteFile | openFile =>
      exact (call_effect s now _).serves rfl rfl
  | listDirectory | stat => exact .aside rfl (Outcome.map_ne_handle (by simp))
  | present | usage | describe => exact .aside rfl (by simp [call])
  | read id size => exact s.read_serves now id size
  | write id data =>
      have serves := s.handles.write_serves s.limits id data
      rw [call, write]
      cases used : s.handles.write s.limits id data with
      | error | ok =>
          rw [used] at serves
          exact serves
  | seek id offset =>
      have serves := s.handles.seek_serves s.limits id offset
      rw [call, seek]
      cases used : s.handles.seek id offset with
      | error | ok =>
          rw [used] at serves
          exact serves
  | close id => exact s.close_serves now id
  | abort id =>
      rw [call, abort]
      cases removed : s.handles.remove id with
      | error e => exact Handles.serves_of_remove_error rfl removed
      | ok rest => exact Handles.serves_of_remove_ok rfl removed

end MemoryStore

/-! ## Stores on the host -/

namespace HostStore

variable {s : HostStore} {w : World}

theorem close_serves (s : HostStore) (w : World) (id : HandleId) :
    s.handles.Serves s.limits (.close id) (s.call w (.close id)).outcome
      (s.call w (.close id)).state.1.handles := by
  rw [call, close, Step.map]
  cases removed : s.handles.remove id with
  | error e => exact Handles.serves_of_remove_error rfl removed
  | ok rest =>
      have serves {o : Outcome Answer} : s.handles.Serves s.limits (.close id) o rest.1 :=
        Handles.serves_of_remove_ok rfl removed
      dsimp only
      split
      · split
        · split
          · exact serves
          · exact serves
        · exact serves
      · exact serves

/-- Every call on a store on the host serves its table. -/
theorem call_serves (s : HostStore) (w : World) (c : Call) :
    s.handles.Serves s.limits c (s.call w c).outcome (s.call w c).state.1.handles := by
  cases c with
  | createDirectory path =>
      rw [call]
      cases s.createDirectory w path with
      | error | ok => exact .aside rfl (by simp [Step.ofOutcome, Except.map])
  | createFile path content =>
      rw [call]
      cases s.createFile w path content with
      | error | ok => exact .aside rfl (by simp [Step.ofOutcome, Except.map])
  | deleteFile path =>
      rw [call]
      cases s.deleteFile w path with
      | error | ok => exact .aside rfl (by simp [Step.ofOutcome, Except.map])
  | listDirectory | stat | usage => exact .aside rfl (Outcome.map_ne_handle (by simp))
  | present | describe => exact .aside rfl (by simp [call])
  | openFile path mode =>
      rw [call]
      cases opens : s.openFile w path mode with
      | error e => exact .aside rfl (by simp [Step.ofOutcome, Except.map])
      | ok made =>
          obtain ⟨k, starts, fresh, same⟩ := exists_opens opens
          simp only [Except.map, Step.ofOutcome, same, fresh]
          exact .opened starts.id_eq starts.room
  | read id size =>
      have serves := s.handles.read_serves s.limits id size
      rw [call, read]
      cases used : s.handles.read id size with
      | error | ok =>
          rw [used] at serves
          exact serves
  | write id data =>
      have serves := s.handles.write_serves s.limits id data
      rw [call, write]
      cases used : s.handles.write s.limits id data with
      | error | ok =>
          rw [used] at serves
          exact serves
  | seek id offset =>
      have serves := s.handles.seek_serves s.limits id offset
      rw [call, seek]
      cases used : s.handles.seek id offset with
      | error | ok =>
          rw [used] at serves
          exact serves
  | close id => exact s.close_serves w id
  | abort id =>
      rw [call, abort]
      cases removed : s.handles.remove id with
      | error e => exact Handles.serves_of_remove_error rfl removed
      | ok rest => exact Handles.serves_of_remove_ok rfl removed

end HostStore

/-! ## Runs of a store -/

/-- Something that happens while a store is in use. -/
inductive StoreEvent where
  /-- A call, with the clock at `now`. -/
  | call (now : Time) (c : Call)
  /-- The world changes behind the back of the store, in any way. -/
  | change (f : World → World)

/-- One event in a run of a store. -/
abbrev StoreMoment := Moment (Store × World) StoreEvent Answer

namespace Store

/-- A call on a store that keeps handles serves its table. -/
theorem call_serves {s : Store} {t : Handles} (table : s.handles? = some t) (w : World)
    (now : Time) (c : Call) :
    ∃ limits t', (s.call w now c).state.1.handles? = some t'
      ∧ t.Serves limits c (s.call w now c).outcome t' := by
  cases s with
  | memory s =>
      cases table
      exact ⟨s.limits, _, rfl, s.call_serves now c⟩
  | host s =>
      cases table
      exact ⟨s.limits, _, rfl, s.call_serves w c⟩
  | failing => cases table

/-- What an event makes of a store and the world around it. -/
def meet (here : Store × World) : StoreEvent → Step (Store × World) Answer
  | .call now c => here.1.call here.2 now c
  | .change f => ⟨(here.1, f here.2), .ok .done⟩

/-- A store as it is made from a configuration. -/
inductive Fresh (config : Config) (w : World) : Store → Prop
  | memory (start : Time) : Fresh config w (.memory (.create config start))
  | host (root : String) (readOnly : Bool) :
      Fresh config w (.host (.create w root readOnly config))

/-- A store that keeps handles, with its table numbered. -/
def Tabled (s : Store) : Prop := ∃ t, s.handles? = some t ∧ t.Numbered

theorem Fresh.tabled {config : Config} {w : World} {s : Store} (fresh : s.Fresh config w) :
    s.Tabled := by
  cases fresh with
  | memory start => exact ⟨_, rfl, Handles.numbered_empty _⟩
  | host root readOnly => exact ⟨_, rfl, Handles.numbered_empty _⟩

theorem Tabled.meet {here : Store × World} (tabled : here.1.Tabled) (e : StoreEvent) :
    (meet here e).state.1.Tabled := by
  obtain ⟨t, table, num⟩ := tabled
  cases e with
  | change f => exact ⟨t, table, num⟩
  | call now c =>
      obtain ⟨limits, t', table', serves⟩ := call_serves table here.2 now c
      exact ⟨t', table', serves.numbered num⟩

theorem Tabled.run {here : Store × World} (tabled : here.1.Tabled) (events : List StoreEvent) :
    (History.final Store.meet here events).1.Tabled :=
  History.final_induction (motive := fun here : Store × World => here.1.Tabled) tabled
    (fun _ e tabled => tabled.meet e) events

end Store

end MountFs
