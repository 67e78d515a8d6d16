import Mathlib.Algebra.GroupWithZero.Nat
import MountFs.Proofs.Integrity

/-!
# The size limit

The end of a write is checked against the size limit.  It is the sum of two numbers of 64 bits,
and a handle can be sent to any offset, so the sum may not fit into a word.  `Handle.write` works
with natural numbers, where this cannot go wrong.  `Handle.writeInWords` is the same write on a
machine with words: the sum is checked for overflow, the buffer is made long enough, and the data
is copied between two bounds.  It has no result if a bound is not in the buffer or does not fit
the data.  `writeInWords_eq` says that this never happens and that it does what `Handle.write`
does.

The limit alone does not let a write in.  A limit above `Bytes.maxLength` allows ends that no
buffer reaches, and a write that ends there stops in a fault
(`far_write_within_limit_faults`).  All other writes are let in exactly if they end within the
limit.

For a whole store the limit is an invariant (`Within`).  Content comes from a new file, which is
checked, or from a buffer.  A buffer comes from content or grows by a write, which is checked.
-/

namespace MountFs

/-! ## Words -/

/-- The sum of two words, if it does not wrap around. -/
def checkedSum (a b : UInt64) : Option UInt64 := if a ≤ a + b then some (a + b) else none

theorem checkedSum_eq_some {a b : UInt64} (fits : a.toNat + b.toNat < 2 ^ 64) :
    ∃ c, checkedSum a b = some c ∧ c.toNat = a.toNat + b.toNat := by
  have exact : (a + b).toNat = a.toNat + b.toNat := by
    rw [UInt64.toNat_add, Nat.mod_eq_of_lt fits]
  have above : a ≤ a + b := by
    rw [UInt64.le_iff_toNat_le, exact]
    exact Nat.le_add_right _ _
  exact ⟨a + b, if_pos above, exact⟩

theorem checkedSum_eq_none {a b : UInt64} (wraps : 2 ^ 64 ≤ a.toNat + b.toNat) :
    checkedSum a b = none := by
  refine if_neg ?_
  rw [UInt64.le_iff_toNat_le, UInt64.toNat_add]
  have small := b.toNat_lt
  omega

theorem toNat_ofNat_of_lt {n : Nat} (fits : n < 2 ^ 64) : (UInt64.ofNat n).toNat = n := by
  rw [UInt64.toNat_ofNat']
  exact Nat.mod_eq_of_lt fits

/-! ## Copying between bounds -/

/-- A buffer that is at least `size` long, with zeros at its end where it had to grow.  There is
none if it would have to grow to a length that no buffer can have. -/
def Bytes.grown? (buffer : Bytes) (size : Nat) : Option Bytes :=
  if buffer.length < size then
    if size ≤ maxLength then some (buffer ++ List.replicate (size - buffer.length) 0) else none
  else some buffer

/-- A buffer with the bytes between two bounds replaced.  There is none if the bounds are not in
order and in the buffer, or if the data is not as long as what it replaces. -/
def Bytes.copyBetween? (buffer : Bytes) (start stop : Nat) (data : Bytes) : Option Bytes :=
  if start ≤ stop ∧ stop ≤ buffer.length ∧ data.length = stop - start then
    some (buffer.take start ++ data ++ buffer.drop stop)
  else none

/-- A buffer with room for a size grows to it. -/
theorem Bytes.grown?_of_room {buffer : Bytes} {size : Nat}
    (room : size ≤ max buffer.length maxLength) :
    buffer.grown? size = some (buffer ++ List.replicate (size - buffer.length) 0) := by
  rw [grown?]
  split
  next short =>
    have possible : size ≤ maxLength := by omega
    exact if_pos possible
  next long =>
    have full : size - buffer.length = 0 := Nat.sub_eq_zero_of_le (Nat.le_of_not_lt long)
    rw [full, List.replicate_zero, List.append_nil]

theorem Bytes.grown?_eq_none {buffer : Bytes} {size : Nat}
    (full : max buffer.length maxLength < size) : buffer.grown? size = none := by
  obtain ⟨short, beyond⟩ := Nat.max_lt.mp full
  rw [grown?, if_pos short, if_neg (Nat.not_le_of_lt beyond)]

/-- To make room in a buffer and copy into it is to overwrite it. -/
theorem Bytes.copyBetween?_append_replicate {buffer data : Bytes} {start stop : Nat}
    (spans : stop = start + data.length) :
    copyBetween? (buffer ++ List.replicate (stop - buffer.length) 0) start stop data
      = some (overwrite buffer start data) := by
  have bounds : start ≤ stop ∧ stop ≤ (buffer ++ List.replicate (stop - buffer.length) 0).length
      ∧ data.length = stop - start := by
    rw [List.length_append, List.length_replicate]
    omega
  have front : (buffer ++ List.replicate (stop - buffer.length) 0).take start
      = buffer.take start ++ List.replicate (start - buffer.length) 0 := by
    rw [List.take_append, List.take_replicate]
    congr 2
    omega
  have back : (buffer ++ List.replicate (stop - buffer.length) 0).drop stop = buffer.drop stop := by
    rw [List.drop_append, List.drop_replicate, Nat.sub_self, List.replicate_zero, List.append_nil]
  rw [copyBetween?, if_pos bounds, front, back, spans, overwrite]

/-! ## One write -/

theorem Limits.checkFileSize_eq_ok_iff {limits : Limits} {path : String} {size : Nat} :
    limits.checkFileSize path size = .ok () ↔ size ≤ limits.maxFileSize.toNat := by
  rw [checkFileSize]
  split
  next fits => exact iff_of_true rfl fits
  next exceeds =>
    refine iff_of_false ?_ exceeds
    intro ok
    cases ok

namespace Handle

variable {h h' : Handle} {limits : Limits} {data : Bytes} {count : Nat}

/-- `write` on a machine with words of 64 bits.  There is no result if a bound of the copy is out
of range. -/
def writeInWords (h : Handle) (limits : Limits) (data : Bytes) :
    Option (Outcome (Handle × Nat)) :=
  if h.mode = .read then some (.error (h.refusal .write))
  else
    let tooLarge (size : UInt64) : FsError :=
      .fileTooLarge h.path size.toNat limits.maxFileSize.toNat
    let start := UInt64.ofNat h.writeStart
    match checkedSum start (.ofNat data.length) with
    | none => some (.error (tooLarge (.ofNat maxOffset)))
    | some stop =>
        if limits.maxFileSize < stop then some (.error (tooLarge stop))
        else
          match h.buffer.grown? stop.toNat with
          | none => some (.error .fault)
          | some grown =>
              (grown.copyBetween? start.toNat stop.toNat data).map fun buffer =>
                .ok ({ h with cursor := stop.toNat, buffer }, data.length)

/-- With a cursor, a buffer and data that words can count, no bound of a write on a machine with
words is out of range, and the write does what `write` does. -/
theorem writeInWords_eq (cursor : h.cursor < 2 ^ 64) (buffer : h.buffer.length < 2 ^ 64)
    (length : data.length < 2 ^ 64) : h.writeInWords limits data = some (h.write limits data) := by
  rw [writeInWords]
  split
  next reader => rw [write, if_pos reader]
  next writer =>
    have start : (UInt64.ofNat h.writeStart).toNat = h.writeStart := by
      refine toNat_ofNat_of_lt ?_
      rw [writeStart]
      split
      · exact buffer
      · exact cursor
    have size := toNat_ofNat_of_lt length
    have limit := limits.maxFileSize.toNat_lt
    rw [write_of_writer writer]
    by_cases wraps : 2 ^ 64 ≤ h.writeStart + data.length
    · -- The end does not fit into a word, so it is beyond every limit.
      have none := checkedSum_eq_none (a := .ofNat h.writeStart) (b := .ofNat data.length)
        (by rw [start, size]; exact wraps)
      have capped : min (h.writeStart + data.length) maxOffset = (UInt64.ofNat maxOffset).toNat :=
        Nat.min_eq_right (by simp only [maxOffset]; omega)
      simp only [none]
      rw [if_neg (by omega), capped]
    · obtain ⟨stop, sum, exact⟩ := checkedSum_eq_some (a := .ofNat h.writeStart)
        (b := .ofNat data.length) (by rw [start, size]; omega)
      rw [start, size] at exact
      have capped : min stop.toNat maxOffset = stop.toNat :=
        Nat.min_eq_left (by simp only [maxOffset]; omega)
      simp only [sum, start, UInt64.lt_iff_toNat_lt, ← exact, capped, ← Nat.not_le, ite_not]
      split
      · by_cases room : stop.toNat ≤ max h.buffer.length Bytes.maxLength
        · simp only [Bytes.grown?_of_room room, if_pos room,
            Bytes.copyBetween?_append_replicate exact, Option.map_some]
        · simp only [Bytes.grown?_eq_none (Nat.lt_of_not_le room), if_neg room]
      · rfl

/-- A limit that a buffer can reach leaves no room for a fault. -/
theorem write_ne_fault (reachable : limits.maxFileSize.toNat < 2 ^ 63) :
    h.write limits data ≠ .error .fault := by
  intro faults
  by_cases reader : h.mode = .read
  · rw [write, if_pos reader, refusal] at faults
    cases faults
  · rw [write_of_writer reader] at faults
    split at faults
    next fits =>
      have room : h.writeStart + data.length ≤ max h.buffer.length Bytes.maxLength := by
        simp only [Bytes.maxLength]
        omega
      rw [if_pos room] at faults
      cases faults
    next => cases faults

/-- A write that is let in leaves a buffer within the limit. -/
theorem length_buffer_le_of_write (within : h.buffer.length ≤ limits.maxFileSize.toNat)
    (e : h.write limits data = .ok (h', count)) :
    h'.buffer.length ≤ limits.maxFileSize.toNat := by
  obtain ⟨fits, rfl⟩ := of_write_eq_ok e
  rw [Bytes.length_overwrite]
  exact Nat.max_le.mpr ⟨within, fits⟩

end Handle

/-! ## A whole store -/

namespace MemoryStore

variable {s t : MemoryStore} {now : Time} {c : Call} {o : Outcome Answer}

theorem Effect.limits_eq (h : s.Effect now c o t) : t.limits = s.limits := by
  cases h with
  | madeDirectory | madeFile | deleted => exact touchParent_limits _ _ _
  | taken => rw [noteRead_eq]
  | _ => rfl

/-- Content and buffers are at most as long as a limit. -/
structure Within (s : MemoryStore) (limit : Nat) : Prop where
  content : ∀ {path node}, s.nodes.get? path = some node → node.data.length ≤ limit
  buffer : ∀ {id h}, s.handles.live.get? id = some h → h.buffer.length ≤ limit

namespace Within

variable {limit : Nat}

/-- The bound speaks of the bytes of the entries and of the handles only. -/
theorem congr (within : s.Within limit) (handles : t.handles = s.handles)
    (data : ∀ path, (t.nodes.get? path).map MemoryNode.data
      = (s.nodes.get? path).map MemoryNode.data) : t.Within limit where
  content := by
    intro path node found
    have same := data path
    rw [found] at same
    obtain ⟨old, there, eq⟩ := Option.map_eq_some_iff.mp same.symm
    exact eq ▸ within.content there
  buffer := by
    intro id h live
    rw [handles] at live
    exact within.buffer live

theorem touchParent (within : s.Within limit) (now : Time) (p : String) :
    (s.touchParent now p).Within limit := by
  refine within.congr (touchParent_handles s now p) fun path => ?_
  rw [get?_touchParent, Option.map_map]
  congr 1
  funext node
  exact (change_touch node).data_eq

theorem noteRead (within : s.Within limit) (now : Time) (path : String) (id : Nat) :
    (s.noteRead now path id).Within limit := by
  refine within.congr (noteRead_handles s now path id) fun other => ?_
  rw [get?_noteRead, Option.map_map]
  congr 1
  funext node
  dsimp only [Function.comp_apply]
  split <;> rfl

theorem addNode (within : s.Within limit) (entry : Entry) {data : Bytes}
    (fits : data.length ≤ limit) : (s.addNode entry data).Within limit where
  content := by
    intro path node found
    rcases Registry.get?_insert_eq_some.mp found with ⟨_, rfl⟩ | ⟨_, old⟩
    · exact fits
    · exact within.content old
  buffer := within.buffer

theorem commit (within : s.Within limit) (now : Time) (path : String) {content : Bytes}
    (fits : content.length ≤ limit) : (s.commit now path content).Within limit where
  content := by
    intro other node found
    rw [get?_commit] at found
    obtain ⟨old, there, rfl⟩ := Option.map_eq_some_iff.mp found
    split
    · exact fits
    · exact within.content there
  buffer := within.buffer

theorem extended (within : s.Within limit) {k : Handle} (fits : k.buffer.length ≤ limit) :
    { s with handles := s.handles.extended k }.Within limit where
  content := within.content
  buffer := by
    intro id h live
    rcases Handles.get?_extended.mp live with ⟨_, rfl⟩ | ⟨_, old⟩
    · exact fits
    · exact within.buffer old

theorem put (within : s.Within limit) (num : s.handles.Numbered) {id : HandleId} {h k : Handle}
    (live : s.handles.live.get? id = some h) (same : h.SameSession k)
    (fits : k.buffer.length ≤ limit) : { s with handles := s.handles.put k }.Within limit where
  content := within.content
  buffer := by
    intro other h' live'
    rcases (num.get?_put live same).mp live' with ⟨_, rfl⟩ | ⟨_, old⟩
    · exact fits
    · exact within.buffer old

theorem without (within : s.Within limit) (id : HandleId) :
    { s with handles := s.handles.without id }.Within limit where
  content := within.content
  buffer := fun live => within.buffer (Handles.get?_without.mp live).2

/-- Every call keeps content and buffers within the limit. -/
theorem effect (within : s.Within s.limits.maxFileSize.toNat) (num : s.handles.Numbered)
    (h : s.Effect now c o t) : t.Within s.limits.maxFileSize.toNat := by
  cases h with
  | refused => exact within
  | told => exact within
  | madeDirectory => exact (within.addNode _ (Nat.zero_le _)).touchParent now _
  | madeFile normal fits =>
      exact (within.addNode _ (Limits.checkFileSize_eq_ok_iff.mp fits)).touchParent now _
  | deleted =>
      refine touchParent (s := { s with nodes := s.nodes.erase _ }) ⟨?_, within.buffer⟩ now _
      intro path node found
      exact within.content (Registry.get?_erase_eq_some.mp found).2
  | @opened _ p mode node normal found =>
      refine within.extended ?_
      cases mode with
      | write => exact Nat.zero_le _
      | read => exact within.content found
      | append => exact within.content found
  | taken live use =>
      obtain ⟨same, buffer⟩ := Handle.read_sameSession use
      exact (within.put num live same (buffer ▸ within.buffer live)).noteRead now _ _
  | put live use =>
      have fits := Handle.length_buffer_le_of_write (within.buffer live) use
      exact within.put num live (Handle.write_eq_ok use).1 fits
  | moved live use =>
      obtain ⟨same, buffer⟩ := Handle.seek_sameSession use
      exact within.put num live same (buffer ▸ within.buffer live)
  | closedStale => exact within.without _
  | closedReader => exact within.without _
  | closedWriter live => exact (within.without _).commit now _ (within.buffer live)
  | aborted => exact within.without _

end Within

theorem within_create (config : Config) (start : Time) (limit : Nat) :
    (create config start).Within limit where
  content := by
    intro path node found
    rcases Registry.get?_insert_eq_some.mp found with ⟨_, rfl⟩ | ⟨_, old⟩
    · exact Nat.zero_le _
    · cases old
  buffer := fun live => (nomatch live)

/-- After every run content and buffers are within the limit of the configuration. -/
theorem within_run (config : Config) (start : Time) (events : List Timed) :
    ((create config start).run events).Within config.limits.maxFileSize.toNat := by
  -- The limit of the store stays, so every call is checked against the same one.
  let motive (s : MemoryStore) : Prop :=
    s.WellFormed ∧ s.limits = config.limits ∧ s.Within config.limits.maxFileSize.toNat
  suffices run : motive ((create config start).run events) from run.2.2
  refine History.final_induction (motive := motive)
    ⟨wellFormed_create config start, rfl, within_create config start _⟩ ?_ events
  rintro s e ⟨wf, limits, within⟩
  have effect := step_effect s e
  rw [← limits] at within
  refine ⟨wf.effect effect, effect.limits_eq.trans limits, ?_⟩
  rw [← limits]
  exact within.effect wf.table effect

/-- A write through a write or append handle that ends beyond the size limit is refused, where
the end is the sum as a natural number.  The refusal tells the end, or the largest word if the end
is larger.  A write that ends within the limit is let in if the buffer has room for it.  Otherwise
it stops in a fault, and for this the limit must be at least `2 ^ 63`.  In words it comes to the
same, without a sum that wraps around and without a bound out of range.  In a store nothing is
ever longer than the limit. -/
theorem size_limit_exact (config : Config) (origin : Time) (events : List Timed) :
    (∀ (h : Handle) (limits : Limits) (data : Bytes) (start : Nat),
      h.mode = .write ∧ start = h.cursor ∨ h.mode = .append ∧ start = h.buffer.length →
        (h.write limits data =
          if start + data.length ≤ limits.maxFileSize.toNat then
            if start + data.length ≤ max h.buffer.length (2 ^ 63 - 1) then
              .ok ({ h with
                cursor := start + data.length
                buffer := Bytes.overwrite h.buffer start data }, data.length)
            else .error .fault
          else
            .error (.fileTooLarge h.path (min (start + data.length) (2 ^ 64 - 1))
              limits.maxFileSize.toNat))
        ∧ (limits.maxFileSize.toNat < 2 ^ 63 → h.write limits data ≠ .error .fault)
        ∧ (h.cursor < 2 ^ 64 → h.buffer.length < 2 ^ 64 → data.length < 2 ^ 64 →
          h.writeInWords limits data = some (h.write limits data)))
    ∧ (∀ path node, ((create config origin).run events).nodes.get? path = some node →
        node.data.length ≤ config.limits.maxFileSize.toNat)
    ∧ ∀ id h, ((create config origin).run events).handles.live.get? id = some h →
        h.buffer.length ≤ config.limits.maxFileSize.toNat := by
  have within := within_run config origin events
  refine ⟨?_, fun path node found => within.content found, fun id h live => within.buffer live⟩
  intro h limits data start starts
  have writer : h.mode ≠ .read := by
    rcases starts with ⟨mode, _⟩ | ⟨mode, _⟩ <;> simp [mode]
  obtain rfl : h.writeStart = start := by
    rcases starts with ⟨mode, rfl⟩ | ⟨mode, rfl⟩ <;> simp [Handle.writeStart, mode]
  exact ⟨Handle.write_of_writer writer, Handle.write_ne_fault, Handle.writeInWords_eq⟩

/-- A write handle at the largest offset. -/
def farWriter : Handle := ⟨1, "/f", 2, .write, 0xffffffffffffffff, []⟩

/-- An append that is one byte too long, and one that fits. -/
def appends : List Timed :=
  [⟨1, .createFile "/f" [1, 2, 3]⟩, ⟨2, .openFile "/f" .append⟩, ⟨3, .write 1 [4, 5]⟩,
    ⟨4, .write 1 [4]⟩, ⟨5, .close 1⟩, ⟨6, .openFile "/f" .append⟩, ⟨7, .write 2 [5]⟩]

theorem size_limit_exact_far :
    farWriter.write {} [120] = .error (.fileTooLarge "/f" (2 ^ 64 - 1) 1073741824)
    ∧ farWriter.write {} [120] ≠ .error .fault
    ∧ farWriter.writeInWords {} [120] = some (farWriter.write {} [120])
    ∧ (∃ node, ((create { limits := { maxFileSize := 4 } } 0).run appends).nodes.get? "/f"
        = some node ∧ node.data = [1, 2, 3, 4] ∧ node.data.length ≤ 4)
    ∧ ∃ h, ((create { limits := { maxFileSize := 4 } } 0).run appends).handles.live.get? 2
        = some h ∧ h.buffer = [1, 2, 3, 4] ∧ h.buffer.length ≤ 4 := by
  obtain ⟨one, content, buffer⟩ := size_limit_exact { limits := { maxFileSize := 4 } } 0 appends
  obtain ⟨refused, answered, words⟩ := one farWriter {} [120] (2 ^ 64 - 1) (Or.inl ⟨rfl, rfl⟩)
  have found : ∃ node, ((create { limits := { maxFileSize := 4 } } 0).run appends).nodes.get? "/f"
      = some node ∧ node.data = [1, 2, 3, 4] := ⟨_, rfl, rfl⟩
  have live : ∃ h, ((create { limits := { maxFileSize := 4 } } 0).run appends).handles.live.get? 2
      = some h ∧ h.buffer = [1, 2, 3, 4] := ⟨_, rfl, rfl⟩
  obtain ⟨node, found, data⟩ := found
  obtain ⟨h, live, bytes⟩ := live
  exact ⟨refused, answered (by decide), words (by decide) (by decide) (by decide),
    ⟨node, found, data, content _ _ found⟩, h, live, bytes, buffer _ _ live⟩

/-- A configuration that lets in every size. -/
def unlimited : Config := { limits := { maxFileSize := 0xffffffffffffffff } }

/-- A write handle is sent to an offset that no buffer reaches. -/
def farSeek : List Timed :=
  [⟨1, .createFile "/f" []⟩, ⟨2, .openFile "/f" .write⟩, ⟨3, .seek 1 0x8000000000000000⟩]

/-- The write of one byte ends within the size limit, but it is neither let in nor refused. -/
theorem far_write_within_limit_faults :
    ∃ h, ((create unlimited 0).run farSeek).handles.live.get? 1 = some h ∧ h.mode = .write
      ∧ h.cursor + [120].length ≤ unlimited.limits.maxFileSize.toNat
      ∧ h.write unlimited.limits [120] = .error .fault
      ∧ h.writeInWords unlimited.limits [120] = some (.error .fault)
      ∧ (((create unlimited 0).run farSeek).step ⟨4, .write 1 [120]⟩).outcome = .error .fault :=
  ⟨_, rfl, rfl, by decide, rfl, rfl, rfl⟩

end MemoryStore

end MountFs
