import MountFs.Proofs.Escapes
import MountFs.Proofs.Sessions

/-!
# Read handles are snapshots

A read handle holds the content of its file as it was at the open, and a cursor.  What is read
through it depends on these two and on what is asked of the handle, and on nothing else that
happens: not on commits of other handles, not on deletes, and not on changes of the host from
outside.

The uses of a handle are `ReaderUse`s, and `replay` runs them on a content without any store.
A `StoreSession` is a run of a store in memory or on the host, cut at the open that answered
the handle, and a `ReadSession` is one whose open is for reading.
`ReadSession.reads_eq_replay` says that its reads are the replay of its uses on the content at
the open.  So two sessions on the same content, in different runs of different stores, read the
same if the same is asked of them.

What is left of the content after a read is the content from the new cursor on
(`ReaderUse.taken_append_drop`).  So reads without a seek put together the content from its
start, as far as they got.
-/

namespace MountFs

/-! ## Reading a content -/

/-- Something that is asked of a read handle. -/
inductive ReaderUse where
  | read (size : Option Nat)
  | seek (offset : Nat)
deriving DecidableEq, Repr, Inhabited

namespace ReaderUse

/-- The bytes of a content from a cursor on, up to `size` of them or all. -/
def taken (content : Bytes) (cursor : Nat) (size : Option Nat) : Bytes :=
  match size with
  | some n => (content.drop (min cursor content.length)).take n
  | none => content.drop (min cursor content.length)

/-- Where the cursor is after bytes were taken: at the end of them. -/
def stop (content : Bytes) (cursor : Nat) (size : Option Nat) : Nat :=
  min cursor content.length + (taken content cursor size).length

/-- What the reads among some uses return, on a content that stays as it is. -/
def replay (content : Bytes) : Nat → List ReaderUse → List Bytes
  | _, [] => []
  | cursor, .read size :: rest =>
      taken content cursor size :: replay content (stop content cursor size) rest
  | _, .seek offset :: rest => replay content offset rest

theorem length_taken_le (content : Bytes) (cursor : Nat) (size : Option Nat) :
    (taken content cursor size).length ≤ content.length - min cursor content.length := by
  cases size with
  | none => simp [taken]
  | some n =>
      simp only [taken, List.length_take, List.length_drop]
      omega

/-- What is left after a read is the content from the new cursor on. -/
theorem taken_append_drop (content : Bytes) (cursor : Nat) (size : Option Nat) :
    taken content cursor size ++ content.drop (min (stop content cursor size) content.length)
      = content.drop (min cursor content.length) := by
  have inside := length_taken_le content cursor size
  have front : taken content cursor size
      = (content.drop (min cursor content.length)).take (taken content cursor size).length := by
    cases size with
    | none => exact List.take_length.symm
    | some n => simp [taken, List.take_eq_take_iff]
  have within : min (stop content cursor size) content.length
      = min cursor content.length + (taken content cursor size).length := by
    simp only [stop]
    omega
  have whole := List.take_append_drop (taken content cursor size).length
    (content.drop (min cursor content.length))
  rw [← front, List.drop_drop, ← within] at whole
  exact whole

/-- The end of a slice matters only as far as the content goes. -/
theorem taken_eq_slice {content : Bytes} {cursor n stop : Nat}
    (same : min stop content.length = min (min cursor content.length + n) content.length) :
    taken content cursor (some n) = Bytes.slice content (min cursor content.length) stop := by
  rw [taken, Bytes.slice, List.drop_take, List.take_eq_take_iff, List.length_drop]
  omega

/-- Reads without a seek, the last of them without a size, put together what is left. -/
theorem flatten_replay_of_last (content : Bytes) (cursor : Nat) (sizes : List (Option Nat)) :
    (replay content cursor (sizes.map .read ++ [.read none])).flatten
      = content.drop (min cursor content.length) := by
  induction sizes generalizing cursor with
  | nil => simp [replay, taken]
  | cons size rest ih =>
      rw [← taken_append_drop content cursor size, ← ih]
      rfl

/-- Reads without a seek put together a front part of what is left. -/
theorem flatten_replay_isPrefix (content : Bytes) (cursor : Nat) (sizes : List (Option Nat)) :
    (replay content cursor (sizes.map .read)).flatten
      <+: content.drop (min cursor content.length) := by
  induction sizes generalizing cursor with
  | nil => exact List.nil_prefix
  | cons size rest ih =>
      rw [← taken_append_drop content cursor size]
      exact (List.prefix_append_right_inj _).mpr (ih _)

end ReaderUse

/-- A read handle takes bytes from its buffer. -/
theorem Handle.read_of_reader {h : Handle} (reader : h.mode = .read) (size : Option Nat) :
    h.read size = .ok ({ h with cursor := ReaderUse.stop h.buffer h.cursor size },
      ReaderUse.taken h.buffer h.cursor size) := by
  rw [read, if_pos reader]
  cases size with
  | none =>
      have stop : ReaderUse.stop h.buffer h.cursor none = h.buffer.length := by
        simp only [ReaderUse.stop, ReaderUse.taken, List.length_drop]
        omega
      simp only [stop, ReaderUse.taken, Bytes.slice, List.take_length]
  | some n =>
      have stop : ReaderUse.stop h.buffer h.cursor (some n)
          = min (min h.cursor h.buffer.length + n) h.buffer.length := by
        simp only [ReaderUse.stop, ReaderUse.taken, List.length_take, List.length_drop]
        omega
      have data : ReaderUse.taken h.buffer h.cursor (some n)
          = Bytes.slice h.buffer (min h.cursor h.buffer.length)
            (min (min h.cursor h.buffer.length + n) h.buffer.length) :=
        ReaderUse.taken_eq_slice (by omega)
      rw [stop, data]

theorem Handle.seek_of_reader {h : Handle} (reader : h.mode = .read) (offset : Nat) :
    h.seek offset = .ok ({ h with cursor := offset }, offset) := by
  simp [seek, reader]

theorem Handle.write_of_reader {h : Handle} (reader : h.mode = .read) (limits : Limits) (data : Bytes) :
    h.write limits data = .error (h.refusal .write) := by
  simp [write, reader]

/-! ## The uses of a handle in a run -/

/-- What an event asks of a read handle. -/
def ReaderUse.of? (id : HandleId) : StoreEvent → Option ReaderUse
  | .call _ (.read number size) => if number = id then some (.read size) else none
  | .call _ (.seek number offset) => if number = id then some (.seek offset) else none
  | _ => none

/-- Whether an event ends the session of a handle. -/
def StoreEvent.ends (id : HandleId) : StoreEvent → Bool
  | .call _ c => c.ends? = some id
  | .change _ => false

/-- What is asked of a read handle until its session ends. -/
def usesOf (id : HandleId) (events : List StoreEvent) : List ReaderUse :=
  (events.takeWhile fun e => !e.ends id).filterMap (ReaderUse.of? id)

/-- The bytes that a successful read through a handle returns. -/
def readResult? (id : HandleId) (m : StoreMoment) : Option Bytes :=
  match m.event with
  | .call _ (.read number _) =>
      if number = id then
        match m.outcome with
        | .ok (.bytes data) => some data
        | _ => none
      else none
  | _ => none

/-- The results of the successful reads through a handle. -/
def readsOf (id : HandleId) (past : List StoreMoment) : List Bytes :=
  past.filterMap (readResult? id)

section Calls

variable {id : HandleId} {now : Time} {c : Call} {here : Store × World}
  {result : Step (Store × World) Answer}

theorem readResult?_of_other (other : c.handle? ≠ some id) :
    readResult? id ⟨here, .call now c, result⟩ = none := by
  cases c with
  | read number size => exact if_neg fun same => other (congrArg some same)
  | _ => rfl

theorem readResult?_of_error {e : FsError} (failed : result.outcome = .error e) :
    readResult? id ⟨here, .call now c, result⟩ = none := by
  cases c with
  | read number size => simp [readResult?, Moment.outcome, failed]
  | _ => rfl

theorem usesOf_of_other (other : c.handle? ≠ some id) (rest : List StoreEvent) :
    usesOf id (.call now c :: rest) = usesOf id rest := by
  have goes : StoreEvent.ends id (.call now c) = false := by
    simpa [StoreEvent.ends] using fun ends => other (Call.handle?_of_ends? ends)
  have unused : ReaderUse.of? id (.call now c) = none := by
    cases c with
    | read number size => exact if_neg fun same => other (congrArg some same)
    | seek number offset => exact if_neg fun same => other (congrArg some same)
    | _ => rfl
  simp [usesOf, goes, unused]

theorem usesOf_read (size : Option Nat) (rest : List StoreEvent) :
    usesOf id (.call now (.read id size) :: rest) = .read size :: usesOf id rest := by
  simp [usesOf, StoreEvent.ends, Call.ends?, ReaderUse.of?]

theorem usesOf_seek (offset : Nat) (rest : List StoreEvent) :
    usesOf id (.call now (.seek id offset) :: rest) = .seek offset :: usesOf id rest := by
  simp [usesOf, StoreEvent.ends, Call.ends?, ReaderUse.of?]

theorem usesOf_of_ends (ends : c.ends? = some id) (rest : List StoreEvent) :
    usesOf id (.call now c :: rest) = [] := by
  simp [usesOf, StoreEvent.ends, ends]

theorem readResult?_read {size : Option Nat} {data : Bytes}
    (answer : result.outcome = .ok (.bytes data)) :
    readResult? id ⟨here, .call now (.read id size), result⟩ = some data := by
  simp [readResult?, Moment.outcome, answer]

end Calls

/-! ## Reads in a run -/

namespace Store

variable {here : Store × World} {t : Handles} {id : HandleId}

/-- Nothing is read through a handle that is not live. -/
theorem readsOf_of_gone (table : here.1.handles? = some t) (num : t.Numbered)
    (old : id < t.nextId) (gone : t.live.get? id = none) (events : List StoreEvent) :
    readsOf id (History.moments meet here events) = [] := by
  induction events generalizing here t with
  | nil => rfl
  | cons e rest ih =>
      cases e with
      | change f => exact ih table num old gone
      | call now c =>
          obtain ⟨limits, t', table', serves⟩ := call_serves table here.2 now c
          have old' := Nat.lt_of_lt_of_le old serves.moves.nextId_le
          by_cases asked : c.handle? = some id
          · obtain ⟨failed, rfl⟩ := serves.of_unknown asked gone
            have later := ih table' num old gone
            exact (List.filterMap_cons_none (readResult?_of_error failed)).trans later
          · have later := ih table' (serves.numbered num) old'
              ((serves.get?_other num old asked).trans gone)
            exact (List.filterMap_cons_none (readResult?_of_other asked)).trans later

/-- Nothing is read through a handle whose session ends. -/
theorem readsOf_of_ends {h : Handle} {now : Time} {c : Call} (table : here.1.handles? = some t)
    (num : t.Numbered) (live : t.live.get? id = some h) (ends : c.ends? = some id)
    (rest : List StoreEvent) :
    readsOf id (History.moments meet here (.call now c :: rest)) = [] := by
  obtain ⟨limits, t', table', serves⟩ := call_serves table here.2 now c
  have does := serves.of_live (Call.handle?_of_ends? ends) live
  rw [Handle.use?_of_ends? h limits ends] at does
  subst does
  have silent : readResult? id ⟨here, .call now c, meet here (.call now c)⟩ = none := by
    cases c with
    | close | abort => rfl
    | _ => cases ends
  have gone : (t.without id).live.get? id = none :=
    (Registry.get?_erase _ _ _).trans (if_pos rfl)
  exact (List.filterMap_cons_none silent).trans
    (readsOf_of_gone table' (num.without id) (num.id_lt live) gone rest)

/-- What is read through a live read handle is the replay of what is asked of it. -/
theorem readsOf_eq_replay {h : Handle} (table : here.1.handles? = some t) (num : t.Numbered)
    (live : t.live.get? id = some h) (reader : h.mode = .read) (events : List StoreEvent) :
    readsOf id (History.moments meet here events)
      = ReaderUse.replay h.buffer h.cursor (usesOf id events) := by
  induction events generalizing here t h with
  | nil => rfl
  | cons e rest ih =>
      cases e with
      | change f => exact ih table num live reader
      | call now c =>
          obtain ⟨limits, t', table', serves⟩ := call_serves table here.2 now c
          have old := num.id_lt live
          have num' := serves.numbered num
          by_cases asked : c.handle? = some id
          · have does := serves.of_live asked live
            -- A use that is let in moves the cursor of the handle and nothing else.
            have moved (cursor : Nat) : (t.put { h with cursor }).live.get? id
                = some { h with cursor } := by
              have same : h.SameSession { h with cursor } := ⟨rfl, rfl, rfl, rfl⟩
              exact (num.get?_put live same).mpr (Or.inl ⟨rfl, rfl⟩)
            cases c with
            | read number size =>
                cases asked
                simp only [Handle.use?, Handle.read_of_reader reader, Except.map] at does
                obtain ⟨answer, rfl⟩ := does
                rw [usesOf_read]
                refine (List.filterMap_cons_some (readResult?_read answer)).trans ?_
                exact congrArg _ (ih table' num' (moved _) reader)
            | seek number offset =>
                cases asked
                simp only [Handle.use?, Handle.seek_of_reader reader, Except.map] at does
                obtain ⟨_, rfl⟩ := does
                rw [usesOf_seek]
                exact ih table' num' (moved offset) reader
            | write number data =>
                cases asked
                simp only [Handle.use?, Handle.write_of_reader reader, Except.map] at does
                obtain ⟨_, rfl⟩ := does
                exact ih table' num' live reader
            | close number | abort number =>
                cases asked
                rw [usesOf_of_ends rfl]
                exact readsOf_of_ends table num live rfl rest
            | _ => cases asked
          · have later := ih table' num' ((serves.get?_other num old asked).trans live)
              reader
            rw [usesOf_of_other asked]
            exact (List.filterMap_cons_none (readResult?_of_other asked)).trans later

/-- The content of the file at a normal path. -/
def content? (s : Store) (w : World) (path : String) : Option Bytes :=
  match s with
  | .memory s => (s.nodes.get? path).map MemoryNode.data
  | .host s => (w.contents (s.hostText path)).toOption
  | .failing => none

/-- An open that answers a number puts a handle on the file into the table.  Unless it is for
writing the handle holds the content of the file. -/
theorem exists_started {s : Store} {w : World} {now : Time} {text : String} {mode : OpenMode}
    {id : HandleId} (tabled : s.Tabled)
    (answer : (s.call w now (.openFile text mode)).outcome = .ok (.handle id)) :
    ∃ path content t h, Path.normalize text = .ok path ∧ s.content? w path = some content
      ∧ (s.call w now (.openFile text mode)).state.1.handles? = some t ∧ t.Numbered
      ∧ t.live.get? id = some h ∧ h.mode = mode
      ∧ h.buffer = (if mode = .write then [] else content)
      ∧ h.cursor = if mode = .append then h.buffer.length else 0 := by
  obtain ⟨t, table, num⟩ := tabled
  cases s with
  | memory s =>
      cases table
      have effect := s.call_effect now (.openFile text mode)
      obtain ⟨path, node, normal, found, _, fresh, opened⟩ := effect.of_handle answer
      refine ⟨path, node.data, s.handles.extended (node.session id path mode), _, normal, ?_, ?_,
        num.extended fresh, Handles.get?_extended.mpr (Or.inl ⟨fresh, rfl⟩), rfl, rfl, rfl⟩
      · rw [content?, found]
        rfl
      · exact congrArg (fun after => some after.handles) opened
  | host s =>
      cases table
      cases opens : s.openFile w text mode with
      | error e =>
          simp [call, onHost, HostStore.call, opens, Step.ofOutcome, Step.lift, Except.map] at answer
      | ok made =>
          obtain ⟨after, number⟩ := made
          simp only [call, onHost, HostStore.call, opens, Step.ofOutcome, Step.lift, Except.map,
            Except.ok.injEq, Answer.handle.injEq] at answer ⊢
          obtain ⟨k, starts, fresh, rfl⟩ := HostStore.exists_opens opens
          obtain ⟨place, bits, data, leads, opened⟩ := starts.file
          refine ⟨k.path, data, _, k, HostStore.normalize_of_confine starts.confined, ?_, rfl,
            num.extended starts.id_eq,
            Handles.get?_extended.mpr (Or.inl ⟨answer ▸ fresh, rfl⟩), starts.mode_eq,
            congrArg Handle.buffer opened, ?_⟩
          · rw [content?, leads.contents_eq]
            rfl
          · rw [opened]
            cases mode <;> rfl
  | failing => cases table

end Store

/-! ## Sessions on any store -/

/-- A run of a store from the start, and the number of a handle. -/
structure StoreRun where
  /-- What the store was made from. -/
  config : Config
  /-- The world the store was made in. -/
  world : World
  /-- The store as it was made. -/
  store : Store
  fresh : store.Fresh config world
  /-- All that happened. -/
  events : List StoreEvent
  id : HandleId

/-- A run of a store, cut at the open of a handle. -/
structure StoreSession extends StoreRun,
  History.Cut Store.meet StoreEvent.call (store, world) events id

namespace StoreSession

/-- The content of the file at the open. -/
def content? (x : StoreSession) : Option Bytes :=
  (Path.normalize x.text).toOption.bind (x.found.1.content? x.found.2)

/-- The open of a session put a handle on the file into the table. -/
theorem exists_started (x : StoreSession) :
    ∃ content t k, x.content? = some content ∧ x.opened.1.handles? = some t ∧ t.Numbered
      ∧ t.live.get? x.id = some k ∧ k.mode = x.mode
      ∧ k.buffer = (if x.mode = .write then [] else content)
      ∧ k.cursor = if x.mode = .append then k.buffer.length else 0 := by
  have tabled : x.found.1.Tabled := x.fresh.tabled.run x.before
  obtain ⟨path, content, t, k, normal, there, started⟩ := Store.exists_started tabled x.answer
  refine ⟨content, t, k, ?_, started⟩
  rw [content?, normal]
  exact there

end StoreSession

/-! ## Sessions that read -/

/-- A run of a store, cut at the open of a read handle. -/
structure ReadSession extends StoreSession where
  reader : mode = .read

namespace ReadSession

/-- What was asked of the handle. -/
def uses (x : ReadSession) : List ReaderUse := usesOf x.id x.since

/-- What the successful reads returned. -/
def reads (x : ReadSession) : List Bytes :=
  readsOf x.id (History.moments Store.meet x.opened x.since)

open ReaderUse

theorem exists_content (x : ReadSession) :
    ∃ content, x.content? = some content ∧ x.reads = replay content 0 x.uses := by
  obtain ⟨content, t, h, there, table, num, live, mode, buffer, start⟩ := x.exists_started
  have reader := mode.trans x.reader
  rw [x.reader] at buffer start
  obtain rfl : h.buffer = content := buffer
  have start : h.cursor = 0 := start
  refine ⟨h.buffer, there, ?_⟩
  rw [reads, uses, ← start]
  exact Store.readsOf_eq_replay table num live reader x.since

/-- What is read through a read handle is the replay of its uses on the content of the file at
the open.  So any other session with the same content and the same uses reads the same.  Reads
without a seek put together a front part of the content, and a last read without a size
completes it.  No size is too large: that the sum of cursor and size is cut off at the largest
offset makes no difference. -/
theorem reads_eq_replay (x : ReadSession) :
    ∃ content, x.content? = some content ∧ x.reads = replay content 0 x.uses ∧
      (∀ y : ReadSession, y.content? = x.content? → y.uses = x.uses → y.reads = x.reads) ∧
      (∀ sizes : List (Option Nat), x.uses = sizes.map .read → x.reads.flatten <+: content) ∧
      (∀ sizes : List (Option Nat), x.uses = sizes.map .read ++ [.read none] →
        x.reads.flatten = content) ∧
      (content.length ≤ maxOffset → ∀ cursor n, taken content cursor (some n)
        = Bytes.slice content (min cursor content.length)
          (min (min (min cursor content.length + n) maxOffset) content.length)) := by
  obtain ⟨content, there, reads⟩ := x.exists_content
  refine ⟨content, there, reads, ?_, ?_, ?_, ?_⟩
  · intro y same uses
    obtain ⟨content', there', reads'⟩ := y.exists_content
    cases (there'.symm.trans same).trans there
    rw [reads', uses, reads]
  · intro sizes uses
    have front := flatten_replay_isPrefix content 0 sizes
    rw [reads, uses]
    simpa using front
  · intro sizes uses
    have whole := flatten_replay_of_last content 0 sizes
    rw [reads, uses]
    simpa using whole
  · intro fits cursor n
    exact taken_eq_slice (by omega)

/-- A file in memory is written by another handle and deleted while it is read. -/
def contested : ReadSession where
  config := {}
  world := World.neighbours
  store := .memory (.create {} 0)
  fresh := .memory 0
  before := [.call 1 (.createFile "/f" [111, 108, 100])]
  now := 2
  text := "/f"
  mode := .read
  id := 1
  events := _
  since := [.call 3 (.openFile "/f" .write), .call 4 (.read 1 (some 2)), .call 5 (.write 2 [110]),
    .call 6 (.close 2), .call 7 (.deleteFile "/f"), .call 8 (.read 1 none), .call 9 (.close 1)]
  split := rfl
  answer := rfl
  reader := rfl

/-- A file on the host is written and removed from outside while it is read. -/
def disturbed : ReadSession where
  config := {}
  world := World.neighbours
  store := .host (.create World.neighbours "/root" true {})
  fresh := .host "/root" true
  before := []
  now := 0
  text := "/f"
  mode := .read
  id := 1
  events := _
  since := [.change fun w => w.apply (.file "/root/f" [110] none), .call 0 (.read 1 (some 2)),
    .change fun w => w.apply (.remove "/root/f"), .call 0 (.read 1 none)]
  split := rfl
  answer := rfl
  reader := rfl

/-- Neither session sees what happens to its file. -/
theorem reads_eq_replay_disturbed :
    contested.content? = some [111, 108, 100] ∧ contested.reads = [[111, 108], [100]]
      ∧ contested.reads.flatten = [111, 108, 100] ∧ disturbed.reads = contested.reads := by
  have content : contested.content? = some [111, 108, 100] := rfl
  obtain ⟨_, there, reads, alike, _, complete, _⟩ := reads_eq_replay contested
  cases content.symm.trans there
  exact ⟨content, reads, complete [some 2] rfl, alike disturbed rfl rfl⟩

end ReadSession

end MountFs
