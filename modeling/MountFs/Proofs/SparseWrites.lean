import MountFs.Proofs.SizeLimit
import MountFs.Proofs.Snapshots

/-!
# Writes make a sparse file

A write handle starts with an empty buffer and can be sent anywhere.  `Sparse` says what its
buffer holds after some writes, each with the offset where it starts (`Put`).  The length is the
largest end of a write, also of an empty one.  A byte is that of the last write that covers it,
and zero if none does.  So a later write changes the bytes that it covers and keeps the rest, and
a gap is filled with zeros.

Where a write starts follows from the uses before it: at the end of the last write, or where the
last seek put the cursor (`WriterUse.puts`).  A use that is refused has no part in this.

`StoreSession.buffer_of_ongoing` says this of every session on every store, whatever else happens
between the uses, and the same of append handles: they take what is written at the end, their
cursor stays there, and they cannot be sent anywhere.  The uses are read off the answers of the
run, and the theorem ends with what the next use will be answered.
-/

namespace MountFs

/-! ## What writes put together -/

/-- One write: its data, and the offset where it starts. -/
structure Put where
  start : Nat
  data : Bytes
deriving DecidableEq, Repr, Inhabited

namespace Put

/-- The offset after the data. -/
def stop (p : Put) : Nat := p.start + p.data.length

/-- The byte that a write puts at an offset, if it covers the offset. -/
def at? (p : Put) (i : Nat) : Option UInt8 := if p.start ≤ i then p.data[i - p.start]? else none

/-- The largest end of some writes, zero if there are none. -/
def extent (puts : List Put) : Nat := (puts.map stop).foldr max 0

/-- The byte at an offset after some writes, oldest first: that of the last one that covers the
offset, zero if none does. -/
def byteAt (puts : List Put) (i : Nat) : UInt8 := (puts.reverse.findSome? fun p => p.at? i).getD 0

theorem at?_eq_none_iff {p : Put} {i : Nat} : p.at? i = none ↔ i < p.start ∨ p.stop ≤ i := by
  rw [at?, stop]
  split
  · rw [List.getElem?_eq_none_iff]
    omega
  next before => exact iff_of_true rfl (Or.inl (Nat.lt_of_not_le before))

theorem extent_snoc (puts : List Put) (p : Put) : extent (puts ++ [p]) = max (extent puts) p.stop := by
  induction puts with
  | nil => simp [extent]
  | cons first rest ih =>
      simp only [extent, List.cons_append, List.map_cons, List.foldr_cons] at ih ⊢
      rw [ih, Nat.max_assoc]

theorem byteAt_snoc (puts : List Put) (p : Put) (i : Nat) :
    byteAt (puts ++ [p]) i = (p.at? i).getD (byteAt puts i) := by
  rw [byteAt, List.reverse_append, List.reverse_singleton, List.singleton_append,
    List.findSome?_cons]
  cases p.at? i with
  | some byte => rfl
  | none => rfl

theorem byteAt_of_extent_le {puts : List Put} {i : Nat} (beyond : extent puts ≤ i) :
    byteAt puts i = 0 := by
  have uncovered : ∀ p ∈ puts.reverse, p.at? i = none := by
    intro p there
    refine at?_eq_none_iff.mpr (Or.inr (Nat.le_trans ?_ beyond))
    rw [List.mem_reverse] at there
    clear beyond
    induction puts with
    | nil => cases there
    | cons first rest ih =>
        simp only [extent, List.map_cons, List.foldr_cons] at ih ⊢
        rcases List.mem_cons.mp there with rfl | later
        · exact Nat.le_max_left _ _
        · exact Nat.le_trans (ih later) (Nat.le_max_right _ _)
  rw [byteAt, List.findSome?_eq_none_iff.mpr uncovered]
  rfl

end Put

/-! ## One write into a buffer -/

/-- What stands before the data of a write: the old bytes, and zeros if there are not enough. -/
theorem Bytes.length_front (buffer : Bytes) (start : Nat) :
    (buffer.take start ++ List.replicate (start - buffer.length) 0).length = start := by
  rw [List.length_append, List.length_take, List.length_replicate]
  omega

theorem Bytes.getElem?_front {buffer : Bytes} {start i : Nat} (before : i < start) :
    (buffer.take start ++ List.replicate (start - buffer.length) 0)[i]?
      = some (buffer[i]?.getD 0) := by
  by_cases old : i < buffer.length
  · rw [List.getElem?_append_left (by rw [List.length_take]; omega),
      List.getElem?_take_of_lt before, List.getElem?_eq_getElem old, Option.getD_some]
  · have length : (buffer.take start).length = buffer.length := by
      rw [List.length_take]
      omega
    rw [List.getElem?_append_right (by omega), length, List.getElem?_replicate_of_lt (by omega),
      List.getElem?_eq_none (Nat.le_of_not_lt old), Option.getD_none]

theorem Bytes.getElem?_overwrite_of_at? {buffer : Bytes} {p : Put} {i : Nat} {byte : UInt8}
    (covered : p.at? i = some byte) : (overwrite buffer p.start p.data)[i]? = some byte := by
  rw [Put.at?] at covered
  split at covered
  next after =>
    have inside : i - p.start < p.data.length := (List.getElem?_eq_some_iff.mp covered).1
    have front := length_front buffer p.start
    rw [overwrite, List.getElem?_append_left, List.getElem?_append_right, front]
    · exact covered
    · rw [front]
      exact after
    · rw [List.length_append, front]
      omega
  next => cases covered

/-- Outside of the data of a write the bytes stay, and there are zeros in the gap before it. -/
theorem Bytes.getElem?_overwrite_of_at?_eq_none {buffer : Bytes} {p : Put} {i : Nat}
    (uncovered : p.at? i = none) (inside : i < max buffer.length p.stop) :
    (overwrite buffer p.start p.data)[i]? = some (buffer[i]?.getD 0) := by
  have front := length_front buffer p.start
  rcases Put.at?_eq_none_iff.mp uncovered with before | after
  · rw [overwrite, List.append_assoc, List.getElem?_append_left (by rw [front]; exact before)]
    exact getElem?_front before
  · have old : i < buffer.length := by omega
    rw [Put.stop] at after
    have length : (buffer.take p.start ++ List.replicate (p.start - buffer.length) 0
        ++ p.data).length = p.start + p.data.length := by
      rw [List.length_append, front]
    rw [overwrite, List.getElem?_append_right (by rw [length]; exact after), length,
      List.getElem?_drop, Nat.add_sub_cancel' after, List.getElem?_eq_getElem old, Option.getD_some]

/-- A buffer is what some writes, oldest first, make of an empty one. -/
structure Sparse (puts : List Put) (buffer : Bytes) : Prop where
  length_eq : buffer.length = Put.extent puts
  byte : ∀ i, i < buffer.length → buffer[i]? = some (Put.byteAt puts i)

theorem sparse_nil : Sparse [] [] := ⟨rfl, fun _ inside => nomatch inside⟩

theorem Sparse.overwrite {puts : List Put} {buffer : Bytes} (h : Sparse puts buffer) (p : Put) :
    Sparse (puts ++ [p]) (Bytes.overwrite buffer p.start p.data) where
  length_eq := by rw [Bytes.length_overwrite, Put.extent_snoc, h.length_eq, Put.stop]
  byte := by
    intro i inside
    rw [Put.byteAt_snoc]
    cases covered : p.at? i with
    | some byte => exact Bytes.getElem?_overwrite_of_at? covered
    | none =>
        rw [Bytes.length_overwrite] at inside
        rw [Bytes.getElem?_overwrite_of_at?_eq_none covered inside, Option.getD_none]
        by_cases old : i < buffer.length
        · rw [h.byte i old, Option.getD_some]
        · have beyond : Put.extent puts ≤ i := h.length_eq ▸ Nat.le_of_not_lt old
          rw [List.getElem?_eq_none (Nat.le_of_not_lt old), Put.byteAt_of_extent_le beyond,
            Option.getD_none]

/-! ## The uses of a writer -/

/-- Something that was done through a write or append handle. -/
inductive WriterUse where
  | write (data : Bytes)
  | seek (offset : Nat)
deriving DecidableEq, Repr, Inhabited

namespace WriterUse

/-- The cursor after one more use: at the end of the data, or where it was put. -/
def move (cursor : Nat) : WriterUse → Nat
  | .write data => cursor + data.length
  | .seek offset => offset

/-- The cursor after some uses of a handle that was opened for writing. -/
def cursor (uses : List WriterUse) : Nat := uses.foldl move 0

/-- The writes among some uses, each where the uses before it left the cursor. -/
def putsFrom : Nat → List WriterUse → List Put
  | _, [] => []
  | start, .write data :: rest => ⟨start, data⟩ :: putsFrom (start + data.length) rest
  | _, .seek offset :: rest => putsFrom offset rest

/-- The writes of a handle that was opened for writing. -/
def puts (uses : List WriterUse) : List Put := putsFrom 0 uses

/-- All that was written, in order. -/
def data (uses : List WriterUse) : Bytes :=
  uses.flatMap fun use =>
    match use with
    | .write data => data
    | .seek _ => []

theorem putsFrom_append (start : Nat) (before since : List WriterUse) :
    putsFrom start (before ++ since)
      = putsFrom start before ++ putsFrom (before.foldl move start) since := by
  induction before generalizing start with
  | nil => rfl
  | cons use rest ih =>
      cases use with
      | write data => exact congrArg (Put.mk start data :: ·) (ih _)
      | seek offset => exact ih offset

theorem puts_write (uses : List WriterUse) (data : Bytes) :
    puts (uses ++ [.write data]) = puts uses ++ [⟨cursor uses, data⟩] :=
  putsFrom_append 0 uses [.write data]

theorem puts_seek (uses : List WriterUse) (offset : Nat) :
    puts (uses ++ [.seek offset]) = puts uses :=
  (putsFrom_append 0 uses [.seek offset]).trans (List.append_nil _)

theorem cursor_snoc (uses : List WriterUse) (use : WriterUse) :
    cursor (uses ++ [use]) = move (cursor uses) use := by
  rw [cursor, List.foldl_append]
  rfl

theorem data_write (uses : List WriterUse) (bytes : Bytes) :
    data (uses ++ [.write bytes]) = data uses ++ bytes := by
  rw [data, List.flatMap_append, List.flatMap_singleton]
  rfl

/-- What a moment of a run did through a handle: a write or a seek that succeeded. -/
def of? (id : HandleId) (m : StoreMoment) : Option WriterUse :=
  match m.event, m.outcome with
  | .call _ (.write number data), .ok _ => if number = id then some (.write data) else none
  | .call _ (.seek number offset), .ok _ => if number = id then some (.seek offset) else none
  | _, _ => none

/-- What was done through a handle in a run. -/
def through (id : HandleId) (past : List StoreMoment) : List WriterUse := past.filterMap (of? id)

section Moments

variable {id : HandleId} {here : Store × World} {now : Time} {c : Call}
  {result : Step (Store × World) Answer} {past : List StoreMoment} {m : StoreMoment}

theorem through_snoc : through id (past ++ [m]) = through id past ++ (of? id m).toList :=
  History.filterMap_snoc (of? id) past m

theorem of?_of_other (other : c.handle? ≠ some id) : of? id ⟨here, .call now c, result⟩ = none := by
  obtain ⟨after, o⟩ := result
  cases c with
  | write number data =>
      cases o with
      | error e => rfl
      | ok a => exact if_neg fun same => other (congrArg some same)
  | seek number offset =>
      cases o with
      | error e => rfl
      | ok a => exact if_neg fun same => other (congrArg some same)
  | _ => cases o <;> rfl

theorem of?_of_error {e : FsError} (failed : result.outcome = .error e) :
    of? id ⟨here, .call now c, result⟩ = none := by
  obtain ⟨after, o⟩ := result
  cases failed
  cases c <;> rfl

theorem of?_write {data : Bytes} {a : Answer} (answer : result.outcome = .ok a) :
    of? id ⟨here, .call now (.write id data), result⟩ = some (.write data) := by
  obtain ⟨after, o⟩ := result
  cases answer
  exact if_pos rfl

theorem of?_seek {offset : Nat} {a : Answer} (answer : result.outcome = .ok a) :
    of? id ⟨here, .call now (.seek id offset), result⟩ = some (.seek offset) := by
  obtain ⟨after, o⟩ := result
  cases answer
  exact if_pos rfl

end Moments

/-- What a writer becomes by what was done through it, if anything was. -/
inductive Makes (limits : Limits) (h : Handle) : Option WriterUse → Handle → Prop
  | idle : Makes limits h none h
  | wrote {h' : Handle} {data : Bytes} {count : Nat}
      (use : h.write limits data = .ok (h', count)) : Makes limits h (some (.write data)) h'
  | sought {h' : Handle} {offset result : Nat} (use : h.seek offset = .ok (h', result)) :
      Makes limits h (some (.seek offset)) h'

theorem Makes.sameSession {limits : Limits} {h h' : Handle} {use : Option WriterUse}
    (makes : Makes limits h use h') : h.SameSession h' := by
  cases makes with
  | idle => exact .refl h
  | wrote use => exact (Handle.write_eq_ok use).1
  | sought use => exact (Handle.seek_sameSession use).1

end WriterUse

/-- A call on a writer that does not end its session makes of it what is done through it. -/
theorem Handles.Serves.makes {t t' : Handles} {limits : Limits} {c : Call} {id : HandleId}
    {k : Handle} {here : Store × World} {now : Time} {result : Step (Store × World) Answer}
    (serves : t.Serves limits c result.outcome t') (num : t.Numbered)
    (live : t.live.get? id = some k) (writer : k.mode ≠ .read) (asked : c.handle? = some id)
    (goes : StoreEvent.ends id (.call now c) = false) :
    ∃ k', t'.live.get? id = some k'
      ∧ WriterUse.Makes limits k (WriterUse.of? id ⟨here, .call now c, result⟩) k' := by
  have does := serves.of_live asked live
  -- A use that is refused leaves the writer as it is.
  have refused {e : FsError} (made : k.use? limits c = some (.error e)) :
      ∃ k', t'.live.get? id = some k'
        ∧ WriterUse.Makes limits k (WriterUse.of? id ⟨here, .call now c, result⟩) k' := by
    rw [made] at does
    obtain ⟨failed, rfl⟩ := does
    exact ⟨k, live, (WriterUse.of?_of_error failed).symm ▸ .idle⟩
  have used {k' : Handle} {a : Answer} {use : WriterUse}
      (made : k.use? limits c = some (.ok (k', a)))
      (told : result.outcome = .ok a → WriterUse.of? id ⟨here, .call now c, result⟩ = some use)
      (makes : WriterUse.Makes limits k (some use) k') :
      ∃ k', t'.live.get? id = some k'
        ∧ WriterUse.Makes limits k (WriterUse.of? id ⟨here, .call now c, result⟩) k' := by
    rw [made] at does
    obtain ⟨answer, rfl⟩ := does
    have put := (num.get?_put live makes.sameSession).mpr (Or.inl ⟨rfl, rfl⟩)
    exact ⟨k', put, (told answer).symm ▸ makes⟩
  cases c with
  | read number size =>
      have use : k.read size = .error (k.refusal .read) := if_neg writer
      exact refused (by rw [Handle.use?, use]; rfl)
  | write number data =>
      cases asked
      cases use : k.write limits data with
      | error e => exact refused (by rw [Handle.use?, use]; rfl)
      | ok next => exact used (by rw [Handle.use?, use]; rfl) WriterUse.of?_write (.wrote use)
  | seek number offset =>
      cases asked
      cases use : k.seek offset with
      | error e => exact refused (by rw [Handle.use?, use]; rfl)
      | ok next => exact used (by rw [Handle.use?, use]; rfl) WriterUse.of?_seek (.sought use)
  | close number | abort number =>
      cases asked
      exact absurd goes (by simp [StoreEvent.ends, Call.ends?])
  | _ => cases asked

/-! ## A writer in a run -/

namespace Store

/-- The limits of a store that keeps handles. -/
def limits? : Store → Option Limits
  | .memory s => some s.limits
  | .host s => some s.limits
  | .failing => none

/-- A store keeps the table `t`, numbered, and checks writes against `limits`. -/
structure Keeps (s : Store) (limits : Limits) (t : Handles) : Prop where
  table : s.handles? = some t
  limited : s.limits? = some limits
  num : t.Numbered

theorem Fresh.keeps {config : Config} {w : World} {s : Store} (fresh : s.Fresh config w) :
    ∃ t, s.Keeps config.limits t := by
  cases fresh with
  | memory start => exact ⟨_, rfl, rfl, Handles.numbered_empty _⟩
  | host root readOnly => exact ⟨_, rfl, rfl, Handles.numbered_empty _⟩

end Store

theorem HostStore.Effect.limits_eq {s : HostStore} {w : World} {c : Call}
    {now : HostStore × World} (h : s.Effect w c now) : now.1.limits = s.limits := by
  cases h with
  | opened opens =>
      obtain ⟨k, _, _, rfl⟩ := exists_opens opens
      rfl
  | _ => rfl

namespace Store

variable {s : Store} {limits : Limits} {t : Handles} {id : HandleId} {k : Handle}

/-- A call leaves a store that keeps what the call makes of the table, under the same limits. -/
theorem Keeps.call (keeps : s.Keeps limits t) (w : World) (now : Time) (c : Call) :
    ∃ t', (s.call w now c).state.1.Keeps limits t'
      ∧ t.Serves limits c (s.call w now c).outcome t' := by
  obtain ⟨table, limited, num⟩ := keeps
  cases s with
  | memory s =>
      cases table
      cases limited
      have serves := s.call_serves now c
      have same := (s.call_effect now c).limits_eq
      exact ⟨_, ⟨rfl, congrArg some same, serves.numbered num⟩, serves⟩
  | host s =>
      cases table
      cases limited
      have serves := s.call_serves w c
      have same := (s.call_effect w c).limits_eq
      exact ⟨_, ⟨rfl, congrArg some same, serves.numbered num⟩, serves⟩
  | failing => cases table

/-- A run leaves a store that keeps a table, under the same limits. -/
theorem Keeps.run {here : Store × World} (keeps : here.1.Keeps limits t)
    (events : List StoreEvent) : ∃ t', (History.final meet here events).1.Keeps limits t' := by
  refine History.final_induction
    (motive := fun here : Store × World => ∃ t', here.1.Keeps limits t') ⟨t, keeps⟩ ?_ events
  rintro here e ⟨t', keeps⟩
  cases e with
  | change f => exact ⟨t', keeps.table, keeps.limited, keeps.num⟩
  | call now c =>
      obtain ⟨after, keeps', _⟩ := keeps.call here.2 now c
      exact ⟨after, keeps'⟩

/-- An event that does not end the session of a writer makes of it what is done through it. -/
theorem Keeps.meet_writer {here : Store × World} (keeps : here.1.Keeps limits t)
    (live : t.live.get? id = some k) (writer : k.mode ≠ .read) {e : StoreEvent}
    (goes : e.ends id = false) :
    ∃ t' k', (meet here e).state.1.Keeps limits t' ∧ t'.live.get? id = some k'
      ∧ WriterUse.Makes limits k (WriterUse.of? id ⟨here, e, meet here e⟩) k' := by
  cases e with
  | change f => exact ⟨t, k, ⟨keeps.table, keeps.limited, keeps.num⟩, live, .idle⟩
  | call now c =>
      obtain ⟨t', keeps', serves⟩ := keeps.call here.2 now c
      by_cases asked : c.handle? = some id
      · obtain ⟨k', live', makes⟩ := serves.makes keeps.num live writer asked goes
        exact ⟨t', k', keeps', live', makes⟩
      · have idle : WriterUse.of? id ⟨here, .call now c, meet here (.call now c)⟩ = none :=
          WriterUse.of?_of_other asked
        have old := keeps.num.id_lt live
        exact ⟨t', k, keeps', (serves.get?_other keeps.num old asked).trans live, idle ▸ .idle⟩

/-- A writer lives on through a run that does not end its session.  What holds of it at the
start, and is kept by what is done through it, holds at the end with all that was done. -/
theorem Keeps.exists_writer {motive : Handle → List WriterUse → Prop} {here : Store × World}
    (keeps : here.1.Keeps limits t) (live : t.live.get? id = some k) (writer : k.mode ≠ .read)
    (start : motive k [])
    (next : ∀ {h h' use uses}, k.SameSession h → WriterUse.Makes limits h use h' →
      motive h uses → motive h' (uses ++ use.toList))
    {events : List StoreEvent} (ongoing : ∀ e ∈ events, e.ends id = false) :
    ∃ t' h, (History.final meet here events).1.Keeps limits t' ∧ t'.live.get? id = some h
      ∧ k.SameSession h ∧ motive h (WriterUse.through id (History.moments meet here events)) := by
  refine History.moments_induction_of_mem
    (motive := fun (here : Store × World) past => ∃ t' h, here.1.Keeps limits t'
      ∧ t'.live.get? id = some h ∧ k.SameSession h ∧ motive h (WriterUse.through id past))
    ⟨t, k, keeps, live, .refl k, start⟩ events ?_
  rintro here past e there ⟨t, h, keeps, live, same, holds⟩
  have writer' : h.mode ≠ .read := fun reader => writer (same.mode ▸ reader)
  obtain ⟨t', h', keeps', live', makes⟩ := keeps.meet_writer live writer' (ongoing e there)
  refine ⟨t', h', keeps', live', same.trans makes.sameSession, ?_⟩
  rw [WriterUse.through_snoc]
  exact next same makes holds

/-- A use of a live handle is answered by what the handle makes of it. -/
theorem Keeps.outcome_eq (keeps : s.Keeps limits t) (live : t.live.get? id = some k) {c : Call}
    (asked : c.handle? = some id) {made : Outcome (Handle × Answer)}
    (use : k.use? limits c = some made) (w : World) (now : Time) :
    (s.call w now c).outcome = made.map (·.2) := by
  obtain ⟨t', _, serves⟩ := keeps.call w now c
  have does := serves.of_live asked live
  rw [use] at does
  cases made with
  | error e => exact does.1
  | ok next => exact does.1

end Store

/-- What a write through a writer is answered if it starts at an offset. -/
def Handle.writeAnswer (h : Handle) (limits : Limits) (start : Nat) (data : Bytes) :
    Outcome Answer :=
  if start + data.length ≤ limits.maxFileSize.toNat then
    if start + data.length ≤ max h.buffer.length Bytes.maxLength then .ok (.number data.length)
    else .error .fault
  else
    .error (.fileTooLarge h.path (min (start + data.length) maxOffset) limits.maxFileSize.toNat)

namespace Handle

variable {h h' : Handle} {limits : Limits} {data : Bytes} {count : Nat}

theorem use?_write (writer : h.mode ≠ .read) (limits : Limits) (id : HandleId) (data : Bytes) :
    ∃ made, h.use? limits (.write id data) = some made
      ∧ made.map (·.2) = h.writeAnswer limits h.writeStart data := by
  refine ⟨_, rfl, ?_⟩
  rw [write_of_writer writer, writeAnswer]
  split
  · split <;> rfl
  · rfl

/-- What is done through a write handle keeps its buffer what the writes make of it. -/
theorem sparse_of_makes {use : Option WriterUse} {uses : List WriterUse}
    (makes : WriterUse.Makes limits h use h') (mode : h.mode = .write)
    (sparse : Sparse (WriterUse.puts uses) h.buffer) (cursor : h.cursor = WriterUse.cursor uses) :
    Sparse (WriterUse.puts (uses ++ use.toList)) h'.buffer
      ∧ h'.cursor = WriterUse.cursor (uses ++ use.toList) := by
  have start : h.writeStart = WriterUse.cursor uses := by rw [writeStart, mode, cursor]
  cases makes with
  | idle => exact (List.append_nil uses).symm ▸ ⟨sparse, cursor⟩
  | @wrote _ data _ use =>
      obtain ⟨_, rfl⟩ := of_write_eq_ok use
      rw [Option.toList_some, WriterUse.puts_write, WriterUse.cursor_snoc, start]
      exact ⟨sparse.overwrite ⟨_, data⟩, rfl⟩
  | @sought _ offset _ use =>
      rw [Option.toList_some, WriterUse.puts_seek, WriterUse.cursor_snoc,
        (seek_sameSession use).2]
      refine ⟨sparse, ?_⟩
      rw [seek, if_neg (by simp [mode])] at use
      cases use
      rfl

/-- What is done through an append handle goes to the end of its buffer. -/
theorem appended_of_makes {use : Option WriterUse} {uses : List WriterUse} {content : Bytes}
    (makes : WriterUse.Makes limits h use h') (mode : h.mode = .append)
    (buffer : h.buffer = content ++ WriterUse.data uses) (cursor : h.cursor = h.buffer.length) :
    h'.buffer = content ++ WriterUse.data (uses ++ use.toList)
      ∧ h'.cursor = h'.buffer.length := by
  have start : h.writeStart = h.buffer.length := by rw [writeStart, mode]
  cases makes with
  | idle => exact (List.append_nil uses).symm ▸ ⟨buffer, cursor⟩
  | @wrote _ data _ use =>
      obtain ⟨_, rfl⟩ := of_write_eq_ok use
      simp only [start, Bytes.overwrite_length, Option.toList_some, WriterUse.data_write]
      exact ⟨by rw [buffer, List.append_assoc], List.length_append.symm⟩
  | sought use =>
      rw [seek, if_pos mode] at use
      cases use

end Handle

/-! ## Sessions that write -/

namespace StoreSession

/-- The store and the world at the end. -/
def final (x : StoreSession) : Store × World := History.final Store.meet x.opened x.since

/-- The handle at the end, if it is live. -/
def live? (x : StoreSession) : Option Handle :=
  x.final.1.handles?.bind fun t => t.live.get? x.id

/-- What was done through the handle. -/
def uses (x : StoreSession) : List WriterUse :=
  WriterUse.through x.id (History.moments Store.meet x.opened x.since)

/-- The session has not been ended. -/
def Ongoing (x : StoreSession) : Prop := ∀ e ∈ x.since, e.ends x.id = false

instance (x : StoreSession) : Decidable x.Ongoing :=
  inferInstanceAs (Decidable (∀ e ∈ x.since, e.ends x.id = false))

/-- What is answered to one more call. -/
def next (x : StoreSession) (now : Time) (c : Call) : Outcome Answer :=
  (x.final.1.call x.final.2 now c).outcome

open WriterUse

/-- The store right after the open keeps the handle, under the limits of the configuration. -/
theorem exists_opened (x : StoreSession) :
    ∃ content t k, x.content? = some content ∧ x.opened.1.Keeps x.config.limits t
      ∧ t.live.get? x.id = some k ∧ k.mode = x.mode
      ∧ k.buffer = (if x.mode = .write then [] else content)
      ∧ k.cursor = if x.mode = .append then k.buffer.length else 0 := by
  obtain ⟨_, keeps₀⟩ := x.fresh.keeps
  obtain ⟨_, keeps₁⟩ : ∃ t, x.found.1.Keeps x.config.limits t := keeps₀.run x.before
  obtain ⟨_, keeps, _⟩ := keeps₁.call x.found.2 x.now (.openFile x.text x.mode)
  obtain ⟨content, t, k, there, table, num, opened⟩ := x.exists_started
  exact ⟨content, t, k, there, ⟨table, keeps.limited, num⟩, opened⟩

/-- A session that has not been ended has its handle.  It follows from what was done through it,
if this says what a fresh handle is and what each use makes of it. -/
theorem exists_live (x : StoreSession) (ongoing : x.Ongoing) (writer : x.mode ≠ .read)
    {motive : Handle → List WriterUse → Prop}
    (start : ∀ k content, x.content? = some content → k.mode = x.mode →
      k.buffer = (if x.mode = .write then [] else content) →
      k.cursor = (if x.mode = .append then k.buffer.length else 0) → motive k [])
    (step : ∀ {h h' use uses}, h.mode = x.mode → WriterUse.Makes x.config.limits h use h' →
      motive h uses → motive h' (uses ++ use.toList)) :
    ∃ t h, x.final.1.Keeps x.config.limits t ∧ x.live? = some h ∧ t.live.get? x.id = some h
      ∧ h.mode = x.mode ∧ motive h x.uses := by
  obtain ⟨content, t, k, there, keeps, live, mode, buffer, cursor⟩ := x.exists_opened
  obtain ⟨t', h, keeps', live', same, holds⟩ :=
    keeps.exists_writer live (mode ▸ writer) (start k content there mode buffer cursor)
      (fun same => step (same.mode.trans mode)) ongoing
  refine ⟨t', h, keeps', ?_, live', same.mode.trans mode, holds⟩
  rw [live?, final, keeps'.table]
  exact live'

/-- The buffer of an ongoing write session is the sparse file that its writes make, and its
cursor is where the last use left it.  The next seek is let in at any offset, and the next write
exactly if its end is within the size limit and the buffer has room.

The buffer of an ongoing append session is the content of the file at the open with all that was
written after it, and its cursor is at the end.  A seek is refused, and a write starts at the end
of the buffer. -/
theorem buffer_of_ongoing (x : StoreSession) (ongoing : x.Ongoing) :
    (x.mode = .write → ∃ h, x.live? = some h ∧ Sparse (puts x.uses) h.buffer
      ∧ h.cursor = cursor x.uses
      ∧ (∀ now offset, x.next now (.seek x.id offset) = .ok (.number offset))
      ∧ ∀ now data, x.next now (.write x.id data)
          = h.writeAnswer x.config.limits (cursor x.uses) data) ∧
    (x.mode = .append → ∃ content h, x.content? = some content ∧ x.live? = some h
      ∧ h.buffer = content ++ data x.uses ∧ h.cursor = h.buffer.length
      ∧ (∀ now offset, x.next now (.seek x.id offset) = .error (.wrongMode x.id .append .seek))
      ∧ ∀ now data, x.next now (.write x.id data)
          = h.writeAnswer x.config.limits h.buffer.length data) := by
  constructor
  · intro opened
    have writer : x.mode ≠ .read := by simp [opened]
    obtain ⟨t, h, keeps, there, live, mode, sparse, cursor⟩ := x.exists_live ongoing writer
      (motive := fun h uses => Sparse (puts uses) h.buffer ∧ h.cursor = cursor uses)
      (fun k _ _ _ buffer start => by
        rw [if_pos opened] at buffer
        rw [if_neg (by simp [opened])] at start
        exact ⟨buffer ▸ sparse_nil, start⟩)
      (fun mode makes holds => Handle.sparse_of_makes makes (mode.trans opened) holds.1 holds.2)
    have start : h.writeStart = WriterUse.cursor x.uses := by
      rw [Handle.writeStart, mode.trans opened, cursor]
    refine ⟨h, there, sparse, cursor, fun now offset => ?_, fun now data => ?_⟩
    · have use : h.seek offset = .ok ({ h with cursor := offset }, offset) :=
        if_neg (by simp [mode, opened])
      have answer := keeps.outcome_eq (c := .seek x.id offset) live rfl rfl x.final.2 now
      rw [use] at answer
      exact answer
    · obtain ⟨made, use, answer⟩ := Handle.use?_write (mode.symm ▸ writer) x.config.limits x.id data
      rw [next, keeps.outcome_eq live rfl use, answer, start]
  · intro opened
    have writer : x.mode ≠ .read := by simp [opened]
    obtain ⟨t, h, keeps, there, live, mode, content, known, buffer, cursor⟩ :=
      x.exists_live ongoing writer
      (motive := fun h uses => ∃ content, x.content? = some content
        ∧ h.buffer = content ++ data uses ∧ h.cursor = h.buffer.length)
      (fun k content known _ buffer start => by
        rw [if_neg (by simp [opened])] at buffer
        rw [if_pos opened] at start
        exact ⟨content, known, buffer.trans (List.append_nil _).symm, start⟩)
      (fun mode makes holds => by
        obtain ⟨content, known, buffer, cursor⟩ := holds
        exact ⟨content, known, Handle.appended_of_makes makes (mode.trans opened) buffer cursor⟩)
    have start : h.writeStart = h.buffer.length := by rw [Handle.writeStart, mode.trans opened]
    refine ⟨content, h, known, there, buffer, cursor, fun now offset => ?_, fun now data => ?_⟩
    · have use : h.seek offset = .error (.wrongMode x.id .append .seek) := by
        rw [Handle.seek, if_pos (mode.trans opened), Handle.refusal, mode, opened,
          keeps.num.id_eq live]
      have answer := keeps.outcome_eq (c := .seek x.id offset) live rfl rfl x.final.2 now
      rw [use] at answer
      exact answer
    · obtain ⟨made, use, answer⟩ := Handle.use?_write (mode.symm ▸ writer) x.config.limits x.id data
      rw [next, keeps.outcome_eq live rfl use, answer, start]

/-- A file in memory is written back and forth.  Of the writes at `20` one is too long and
refused, the other is empty. -/
def gapped : StoreSession where
  config := { limits := { maxFileSize := 20 } }
  world := World.neighbours
  store := .memory (.create { limits := { maxFileSize := 20 } } 0)
  fresh := .memory 0
  before := [.call 1 (.createFile "/f" [1, 2, 3])]
  now := 2
  text := "/f"
  mode := .write
  id := 1
  events := _
  since := [.call 3 (.write 1 [10, 11]), .call 3 (.seek 1 5), .call 4 (.write 1 [12, 13]),
    .call 4 (.deleteFile "/f"), .call 5 (.seek 1 1), .call 5 (.write 1 [14, 15, 16]),
    .call 6 (.seek 1 20), .call 6 (.write 1 [17]), .call 7 (.write 1 [])]
  split := rfl
  answer := rfl

/-- A file on the host is appended to while it is changed from outside. -/
def grown : StoreSession where
  config := { limits := { maxFileSize := 5 } }
  world := World.neighbours
  store := .host (.create World.neighbours "/root" false { limits := { maxFileSize := 5 } })
  fresh := .host "/root" false
  before := []
  now := 0
  text := "/f"
  mode := .append
  id := 1
  events := _
  since := [.call 0 (.write 1 [1]), .change fun w => w.apply (.file "/root/f" [9] none),
    .call 0 (.seek 1 0), .call 0 (.write 1 [2, 3]), .call 0 (.write 1 [4])]
  split := rfl
  answer := rfl

theorem buffer_of_ongoing_gapped :
    (gapped.Ongoing ∧ puts gapped.uses = [⟨0, [10, 11]⟩, ⟨5, [12, 13]⟩, ⟨1, [14, 15, 16]⟩, ⟨20, []⟩]
      ∧ ∃ h, gapped.live? = some h ∧ h.buffer.length = 20 ∧ h.buffer[1]? = some 14
        ∧ h.buffer[4]? = some 0 ∧ h.cursor = 20
        ∧ gapped.next 8 (.write 1 [17]) = .error (.fileTooLarge h.path 21 20)) ∧
    (grown.Ongoing ∧ data grown.uses = [1, 4]
      ∧ ∃ h, grown.live? = some h ∧ h.buffer = [111, 108, 100] ++ [1, 4] ∧ h.cursor = 5
        ∧ grown.next 0 (.seek 1 0) = .error (.wrongMode 1 .append .seek)) := by
  have gappedOngoing : gapped.Ongoing := by decide
  have grownOngoing : grown.Ongoing := by decide
  obtain ⟨h, live, sparse, cursor, _, write⟩ := (buffer_of_ongoing gapped gappedOngoing).1 rfl
  obtain ⟨content, k, known, there, buffer, atEnd, seek, _⟩ :=
    (buffer_of_ongoing grown grownOngoing).2 rfl
  have written : puts gapped.uses
      = [⟨0, [10, 11]⟩, ⟨5, [12, 13]⟩, ⟨1, [14, 15, 16]⟩, ⟨20, []⟩] := rfl
  have length : h.buffer.length = 20 := by rw [sparse.length_eq, written]; rfl
  have appended : data grown.uses = [1, 4] := rfl
  have old : grown.content? = some [111, 108, 100] := rfl
  cases old.symm.trans known
  refine ⟨⟨gappedOngoing, written, h, live, length, ?_, ?_, cursor, write 8 [17]⟩,
    grownOngoing, appended, k, there, buffer, ?_, seek 0 0⟩
  · rw [sparse.byte 1 (by omega), written]
    rfl
  · rw [sparse.byte 4 (by omega), written]
    rfl
  · rw [atEnd, buffer, appended]
    rfl

end StoreSession

end MountFs
