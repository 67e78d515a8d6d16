import MountFs.Proofs.SizeLimit
import MountFs.Proofs.Snapshots
import MountFs.Proofs.Totals

/-!
# The life of a handle

The numbers of handles are told from a run by its opens, its closes and its aborts alone.  An
open that succeeds gives a number out (`issued`).  A close or an abort ends it, whatever the call
is answered, if it was given out before (`Ended`).  In between the number is known (`Known`).

`Ledger` ties these to the table of handles.  Numbers are given out in order and without gaps,
those in the table are the known ones, and the table stays within its limit.  A call on a store
in memory or on the host keeps this (`Ledger.serves`), and a change of the world does not touch
the table.  `Store.handle_lifecycle` is what follows for the callers.
-/

namespace MountFs

/-! ## Numbers in a run -/

/-- The number that a moment of a run gave out: the answer of an open. -/
def issued? (m : StoreMoment) : Option HandleId :=
  match m.event, m.outcome with
  | .call _ (.openFile _ _), .ok (.handle id) => some id
  | _, _ => none

/-- The numbers that a run gave out, oldest first. -/
def issued (past : List StoreMoment) : List HandleId := past.filterMap issued?

/-- A number was given out, and then its session was ended. -/
def Ended (id : HandleId) (past : List StoreMoment) : Prop :=
  ∃ before m since, past = before ++ m :: since ∧ id ∈ issued before ∧ m.event.ends id = true

/-- A number was given out, and its session was not ended since. -/
def Known (id : HandleId) (past : List StoreMoment) : Prop := id ∈ issued past ∧ ¬Ended id past

section Snoc

variable {id n : HandleId} {past : List StoreMoment} {m : StoreMoment}

theorem issued_snoc : issued (past ++ [m]) = issued past ++ (issued? m).toList :=
  History.filterMap_snoc issued? past m

theorem Ended.issued (ended : Ended id past) : id ∈ issued past := by
  obtain ⟨before, m, since, rfl, given, _⟩ := ended
  rw [MountFs.issued, List.filterMap_append]
  exact List.mem_append_left _ given

theorem ended_snoc :
    Ended id (past ++ [m]) ↔ Ended id past ∨ id ∈ issued past ∧ m.event.ends id = true := by
  constructor
  · rintro ⟨before, n, since, same, given, ends⟩
    rcases List.eq_nil_or_concat since with rfl | ⟨rest, last, rfl⟩
    · obtain ⟨rfl, rfl⟩ := List.append_singleton_inj.mp same
      exact Or.inr ⟨given, ends⟩
    · rw [List.concat_eq_append, ← List.cons_append, ← List.append_assoc] at same
      exact Or.inl ⟨before, n, rest, (List.append_singleton_inj.mp same).1, given, ends⟩
  · rintro (⟨before, n, since, rfl, given, ends⟩ | ⟨given, ends⟩)
    · exact ⟨before, n, since ++ [m], by simp, given, ends⟩
    · exact ⟨past, m, [], rfl, given, ends⟩

/-- A moment that gives no number out can only end one. -/
theorem known_snoc_of_silent (silent : issued? m = none) :
    Known id (past ++ [m]) ↔ Known id past ∧ m.event.ends id = false := by
  rw [Known, Known, issued_snoc, silent, ended_snoc, Option.toList_none, List.append_nil,
    ← Bool.not_eq_true]
  grind

/-- A moment that gives a new number out ends none. -/
theorem known_snoc_of_issued (gives : issued? m = some n) (fresh : n ∉ issued past)
    (goes : ∀ id, m.event.ends id = false) : Known id (past ++ [m]) ↔ id = n ∨ Known id past := by
  rw [Known, Known, issued_snoc, gives, ended_snoc, goes, Option.toList_some, List.mem_append,
    List.mem_singleton]
  by_cases new : id = n
  · have notEnded : ¬Ended id past := fun ended => fresh (new ▸ ended.issued)
    simp [new ▸ notEnded, new]
  · simp [new]

end Snoc

section Calls

variable {id : HandleId} {here : Store × World} {now : Time} {c : Call}
  {result : Step (Store × World) Answer}

theorem issued?_of_handle? (asked : c.handle? = some id) :
    issued? ⟨here, .call now c, result⟩ = none := by
  cases c with
  | openFile => cases asked
  | _ => rfl

theorem issued?_of_silent (silent : ∀ id, result.outcome ≠ .ok (.handle id)) :
    issued? ⟨here, .call now c, result⟩ = none := by
  rw [issued?]
  split
  next answer => exact absurd answer (silent _)
  next => rfl

theorem StoreEvent.ends_eq_false_of_ends? (goes : c.ends? = none) :
    StoreEvent.ends id (.call now c) = false := by
  simp [ends, goes]

end Calls

/-! ## The ledger -/

namespace Handles

variable {t t' : Handles} {id : HandleId}

theorem count_put (t : Handles) (h : Handle) : (t.put h).count = t.count :=
  List.length_map _

theorem count_without_le (t : Handles) (id : HandleId) : (t.without id).count ≤ t.count :=
  List.length_filter_le _ _

theorem count_extended_le (t : Handles) (h : Handle) : (t.extended h).count ≤ t.count + 1 := by
  have length : (t.extended h).count = (t.without t.nextId).count + 1 := List.length_append
  rw [length]
  exact Nat.succ_le_succ (t.count_without_le _)

theorem isSome_get?_put (t : Handles) (h : Handle) (id : HandleId) :
    ((t.put h).live.get? id).isSome = (t.live.get? id).isSome := by
  rw [put, Registry.get?_adjust_map, Option.isSome_map]

end Handles

/-- A table holds what a run tells about the numbers. -/
structure Ledger (past : List StoreMoment) (t : Handles) : Prop where
  num : t.Numbered
  room : t.count ≤ t.maxOpen
  next : t.nextId = (issued past).length + 1
  /-- The numbers were given out in order, from `1` and without gaps. -/
  issued_eq : issued past = List.range' 1 (issued past).length
  live_iff : ∀ id, (t.live.get? id).isSome = true ↔ Known id past

namespace Ledger

variable {past : List StoreMoment} {t t' : Handles} {m : StoreMoment} {id : HandleId}

theorem mem_issued_iff (ledger : Ledger past t) : id ∈ issued past ↔ 1 ≤ id ∧ id < t.nextId := by
  rw [ledger.issued_eq, List.mem_range'_1, ledger.next, Nat.add_comm]

/-- A number that was given out and is not live was ended. -/
theorem ended_of_gone (ledger : Ledger past t) (given : id ∈ issued past)
    (gone : t.live.get? id = none) : Ended id past := by
  by_contra notEnded
  have live := (ledger.live_iff id).mpr ⟨given, notEnded⟩
  rw [gone] at live
  cases live

/-- An event that gives no number out can only end a session. -/
theorem quiet (ledger : Ledger past t) (num : t'.Numbered) (silent : issued? m = none)
    (count : t'.count ≤ t.count) (maxOpen : t'.maxOpen = t.maxOpen) (next : t'.nextId = t.nextId)
    (live : ∀ id, (t'.live.get? id).isSome = true
      ↔ (t.live.get? id).isSome = true ∧ m.event.ends id = false) : Ledger (past ++ [m]) t' := by
  have same : issued (past ++ [m]) = issued past := by
    rw [issued_snoc, silent, Option.toList_none, List.append_nil]
  refine ⟨num, ?_, ?_, ?_, fun id => ?_⟩
  · rw [maxOpen]
    exact Nat.le_trans count ledger.room
  · rw [next, same]
    exact ledger.next
  · rw [same]
    exact ledger.issued_eq
  · rw [live, ledger.live_iff, known_snoc_of_silent silent]

/-- An event that leaves the table as it is. -/
theorem idle (ledger : Ledger past t) (silent : issued? m = none)
    (goes : ∀ id, (t.live.get? id).isSome = true → m.event.ends id = false) :
    Ledger (past ++ [m]) t :=
  ledger.quiet ledger.num silent (Nat.le_refl _) rfl rfl fun id =>
    ⟨fun live => ⟨live, goes id live⟩, And.left⟩

/-- An open gives the next number out. -/
theorem opened (ledger : Ledger past t) {k : Handle} (fresh : k.id = t.nextId)
    (room : t.count < t.maxOpen) (gives : issued? m = some t.nextId)
    (goes : ∀ id, m.event.ends id = false) : Ledger (past ++ [m]) (t.extended k) := by
  have unused : t.nextId ∉ issued past := fun old =>
    absurd (ledger.mem_issued_iff.mp old).2 (Nat.lt_irrefl _)
  have grown : issued (past ++ [m]) = issued past ++ [t.nextId] := by
    rw [issued_snoc, gives, Option.toList_some]
  have length : (issued (past ++ [m])).length = (issued past).length + 1 := by
    rw [grown, List.length_append, List.length_singleton]
  refine ⟨ledger.num.extended fresh, Nat.le_trans (t.count_extended_le k) room, ?_, ?_,
    fun id => ?_⟩
  · rw [length, ← ledger.next]
    rfl
  · rw [length, List.range'_concat, grown, Nat.one_mul, Nat.add_comm 1, ← ledger.next,
      ← ledger.issued_eq]
  · rw [known_snoc_of_issued gives unused goes, ← ledger.live_iff, Handles.extended,
      Registry.get?_insert]
    by_cases new : id = t.nextId
    · simp [new]
    · simp [new]

/-- A call keeps the ledger. -/
theorem serves (ledger : Ledger past t) {limits : Limits} {c : Call} {here : Store × World}
    {now : Time} {result : Step (Store × World) Answer}
    (serves : t.Serves limits c result.outcome t') :
    Ledger (past ++ [⟨here, .call now c, result⟩]) t' := by
  have num := serves.numbered ledger.num
  obtain ⟨after, o⟩ := result
  cases serves with
  | aside free silent =>
      refine ledger.idle (issued?_of_silent silent) fun id _ => ?_
      refine StoreEvent.ends_eq_false_of_ends? ?_
      cases ends : c.ends? with
      | none => rfl
      | some id => cases free.symm.trans (Call.handle?_of_ends? ends)
  | opened fresh room =>
      exact ledger.opened fresh room rfl fun _ => StoreEvent.ends_eq_false_of_ends? rfl
  | @unknown _ id asked gone =>
      refine ledger.idle (issued?_of_handle? asked) fun other live => ?_
      have differ : c.ends? ≠ some other := by
        intro ends
        cases asked.symm.trans (Call.handle?_of_ends? ends)
        rw [gone] at live
        cases live
      simpa [StoreEvent.ends] using differ
  | @used _ id h h' a asked live use =>
      have goes : c.ends? = none := Handle.ends?_of_use? use
      refine ledger.quiet num (issued?_of_handle? asked) (Nat.le_of_eq (t.count_put h')) rfl rfl fun id => ?_
      rw [Handles.isSome_get?_put, StoreEvent.ends_eq_false_of_ends? goes]
      exact (and_iff_left rfl).symm
  | @refused _ id h e asked live use =>
      exact ledger.idle (issued?_of_handle? asked) fun _ _ =>
        StoreEvent.ends_eq_false_of_ends? (Handle.ends?_of_use? use)
  | @ended _ _ id h ends live =>
      refine ledger.quiet num (issued?_of_handle? (Call.handle?_of_ends? ends))
        (t.count_without_le id) rfl rfl fun other => ?_
      rw [Handles.without, Registry.get?_erase]
      by_cases same : other = id
      · simp [same, StoreEvent.ends, ends]
      · simp [same, StoreEvent.ends, ends, Ne.symm same]

end Ledger

/-! ## What a call on a number is answered -/

theorem Handle.use?_ne_unknown {h : Handle} {limits : Limits} {c : Call} {e : FsError}
    (use : h.use? limits c = some (.error e)) (n : HandleId) : e ≠ .unknownHandle n := by
  rintro rfl
  cases c with
  | read id size =>
      rw [use?, read] at use
      split at use <;> cases use
  | write id data =>
      rw [use?] at use
      by_cases reader : h.mode = .read
      · rw [write_of_reader reader] at use
        cases use
      · rw [write_of_writer reader] at use
        split at use
        · split at use <;> cases use
        · cases use
  | seek id offset =>
      rw [use?, seek] at use
      split at use <;> cases use
  | _ => cases use

/-- The end of the session of a live handle does not say that its number is unknown. -/
theorem MemoryStore.end_ne_unknown (s : MemoryStore) {c : Call} {id : HandleId} {h : Handle}
    (ends : c.ends? = some id) (live : s.handles.live.get? id = some h) (now : Time)
    (n : HandleId) :
    (s.call now c).outcome ≠ .error (.unknownHandle n) := by
  cases c with
  | close =>
      cases ends
      rw [call, Step.map, close_of_live now live]
      split <;> simp [Except.map]
  | abort =>
      cases ends
      simp only [call, abort, Handles.remove, Handles.get_eq_ok_iff.mpr live]
      intro wrong
      cases wrong
  | _ => cases ends

theorem HostStore.end_ne_unknown (s : HostStore) {c : Call} {id : HandleId} {h : Handle}
    (ends : c.ends? = some id) (live : s.handles.live.get? id = some h) (w : World) (n : HandleId) :
    (s.call w c).outcome ≠ .error (.unknownHandle n) := by
  cases c with
  | close =>
      cases ends
      have closes := call_closes w live
      generalize s.call w (.close id) = done at closes ⊢
      cases closes <;> simp
  | abort =>
      cases ends
      simp only [call, abort, Handles.remove, Handles.get_eq_ok_iff.mpr live]
      intro wrong
      cases wrong
  | _ => cases ends

namespace Store

variable {s : Store} {t : Handles} {c : Call} {id : HandleId}

/-- A call on a number that is not live changes nothing and says so. -/
theorem call_of_unknown (table : s.handles? = some t) (asked : c.handle? = some id)
    (gone : t.live.get? id = none) (w : World) (now : Time) :
    s.call w now c = ⟨(s, w), .error (.unknownHandle id)⟩ := by
  have get : t.get id = .error (.unknownHandle id) := Handles.get_eq_error gone
  cases s with
  | memory s =>
      cases table
      cases c with
      | read | write | seek | close | abort =>
          cases asked
          simp only [call, inMemory, MemoryStore.call, MemoryStore.read, MemoryStore.write,
            MemoryStore.seek, MemoryStore.close, MemoryStore.abort, Handles.read, Handles.write,
            Handles.seek, Handles.remove, get]
          rfl
      | _ => cases asked
  | host s =>
      cases table
      cases c with
      | read | write | seek | close | abort =>
          cases asked
          simp only [call, onHost, HostStore.call, HostStore.read, HostStore.write,
            HostStore.seek, HostStore.close, HostStore.abort, Handles.read, Handles.write,
            Handles.seek, Handles.remove, get]
          rfl
      | _ => cases asked
  | failing => cases table

/-- No call on a live handle says that the number is unknown. -/
theorem outcome_ne_unknown {h : Handle} (table : s.handles? = some t) (asked : c.handle? = some id)
    (live : t.live.get? id = some h) (w : World) (now : Time) (n : HandleId) :
    (s.call w now c).outcome ≠ .error (.unknownHandle n) := by
  cases ends : c.ends? with
  | some other =>
      cases asked.symm.trans (Call.handle?_of_ends? ends)
      cases s with
      | memory s =>
          cases table
          exact s.end_ne_unknown ends live now n
      | host s =>
          cases table
          exact s.end_ne_unknown ends live w n
      | failing => cases table
  | none =>
      obtain ⟨limits, t', _, serves⟩ := call_serves table w now c
      have does := serves.of_live asked live
      cases use : h.use? limits c with
      | none =>
          cases c with
          | read | write | seek => cases use
          | close | abort => cases ends
          | _ => cases asked
      | some made =>
          rw [use] at does
          cases made with
          | ok next =>
              rw [does.1]
              intro wrong
              cases wrong
          | error e =>
              rw [does.1]
              exact fun wrong => h.use?_ne_unknown use n (Except.error.inj wrong)

/-- The totals count the live handles. -/
theorem openHandles_eq_count (table : s.handles? = some t) {w : World} {now : Time} {u : Usage}
    (total : (s.call w now .usage).outcome = .ok (.usage u)) : u.openHandles = t.count := by
  cases s with
  | memory s =>
      cases table
      cases total
      rw [MemoryStore.usage_eq_counting]
      rfl
  | host s =>
      cases table
      obtain ⟨u', total, same⟩ := Outcome.map_eq_ok.mp total
      cases same
      obtain ⟨children, _, total⟩ := Except.bind_eq_ok.mp total
      obtain ⟨_, _, total⟩ := Except.bind_eq_ok.mp total
      cases total
      rw [Item.tallyAll_eq_counting children []]
      rfl
  | failing => cases table

/-! ## Runs -/

/-- After every run the table is what the run tells, and its limit is that of the
configuration. -/
theorem Fresh.exists_ledger {config : Config} {w : World} (fresh : s.Fresh config w)
    (events : List StoreEvent) :
    ∃ t, (History.final meet (s, w) events).1.handles? = some t
      ∧ t.maxOpen = config.limits.maxOpenHandles
      ∧ Ledger (History.moments meet (s, w) events) t := by
  refine History.moments_induction
    (motive := fun (here : Store × World) past => ∃ t, here.1.handles? = some t
      ∧ t.maxOpen = config.limits.maxOpenHandles ∧ Ledger past t) ?_ ?_ events
  · have empty : Ledger [] (.empty config.limits.maxOpenHandles) :=
      ⟨Handles.numbered_empty _, Nat.zero_le _, rfl, rfl,
        fun id => ⟨fun live => (nomatch live), fun known => (nomatch known.1)⟩⟩
    cases fresh with
    | memory start => exact ⟨_, rfl, rfl, empty⟩
    | host root readOnly => exact ⟨_, rfl, rfl, empty⟩
  · rintro here past e ⟨t, table, limit, ledger⟩
    cases e with
    | change f => exact ⟨t, table, limit, ledger.idle rfl fun _ _ => rfl⟩
    | call now c =>
        obtain ⟨limits, t', table', serves⟩ := call_serves table here.2 now c
        exact ⟨t', table', serves.maxOpen_eq.trans limit, ledger.serves serves⟩

/-- What holds of handle numbers after every run of a store in memory or on the host, with any
changes of the world in between.

* The live handles are those with a known number.  There are at most as many as the
  configuration allows, and the totals, if they can be made, count them.
* The numbers that were given out are increasing, and none is larger than their count.  So with
  fewer than `2 ^ 64` opens they are words.
* A call on a known number does not say that it is unknown.  A call on a number that was ended,
  or not given out yet, says so and changes nothing. -/
theorem handle_lifecycle {config : Config} {w : World} (fresh : s.Fresh config w)
    (events : List StoreEvent) :
    let here := History.final meet (s, w) events
    let past := History.moments meet (s, w) events
    (∃ live : List HandleId, live.Nodup ∧ (∀ id, id ∈ live ↔ Known id past)
      ∧ live.length ≤ config.limits.maxOpenHandles
      ∧ ∀ now u, (here.1.call here.2 now .usage).outcome = .ok (.usage u) →
          u.openHandles = live.length)
    ∧ (issued past).Pairwise (· < ·)
    ∧ (∀ id ∈ issued past, 1 ≤ id ∧ id ≤ (issued past).length)
    ∧ (∀ id, Known id past → ∀ now c, c.handle? = some id →
        ∀ n, (here.1.call here.2 now c).outcome ≠ .error (.unknownHandle n))
    ∧ ∀ id, id ∉ issued past ∨ Ended id past → ∀ now c, c.handle? = some id →
        here.1.call here.2 now c = ⟨here, .error (.unknownHandle id)⟩ := by
  intro here past
  obtain ⟨t, table, limit, ledger⟩ := fresh.exists_ledger events
  have keys (id : HandleId) : id ∈ t.live.keys ↔ Known id past := by
    rw [Registry.mem_keys_iff, ← Option.isSome_iff_exists, ledger.live_iff]
  have length : t.live.keys.length = t.count := List.length_map _
  refine ⟨⟨t.live.keys, ledger.num.keys_nodup, keys, ?_, ?_⟩, ?_, ?_, ?_, ?_⟩
  · rw [length, ← limit]
    exact ledger.room
  · intro now u total
    rw [length]
    exact openHandles_eq_count table total
  · rw [ledger.issued_eq]
    exact List.pairwise_lt_range'
  · intro id given
    obtain ⟨first, last⟩ := ledger.mem_issued_iff.mp given
    rw [ledger.next] at last
    exact ⟨first, Nat.le_of_lt_succ last⟩
  · intro id known now c asked
    obtain ⟨h, live⟩ := Option.isSome_iff_exists.mp ((ledger.live_iff id).mpr known)
    exact outcome_ne_unknown table asked live here.2 now
  · intro id unknown now c asked
    have gone : t.live.get? id = none := by
      refine Option.not_isSome_iff_eq_none.mp fun live => ?_
      obtain ⟨given, notEnded⟩ := (ledger.live_iff id).mp live
      exact unknown.elim (· given) notEnded
    exact call_of_unknown table asked gone here.2 now

/-- Three opens with room for two.  The file goes before the first handle is closed, and after
that there is room again. -/
def crowded : List StoreEvent :=
  [.call 1 (.createFile "/f" []), .call 2 (.openFile "/f" .write), .call 2 (.openFile "/f" .read),
    .call 2 (.openFile "/f" .read), .call 3 (.deleteFile "/f"), .call 4 (.close 1),
    .call 5 (.createFile "/f" []), .call 6 (.openFile "/f" .read)]

/-- The configuration with room for two. -/
def narrow : Config := { limits := { maxOpenHandles := 2 } }

/-- The file goes from the host before the first of two handles is closed. -/
def removed : List StoreEvent :=
  [.call 0 (.openFile "/f" .read), .call 0 (.openFile "/f" .write),
    .change fun w => w.apply (.remove "/root/f"), .call 0 (.close 1)]

/-- A refused open takes no number, and a close that fails ends the session. -/
theorem handle_lifecycle_crowded :
    (let here := (Store.memory (.create narrow 0), World.neighbours)
      let past := History.moments meet here crowded
      let after := History.final meet here crowded
      issued past = [1, 2, 3] ∧ Known 2 past ∧ Ended 1 past
        ∧ (after.1.call after.2 7 (.read 2 none)).outcome ≠ .error (.unknownHandle 2)
        ∧ after.1.call after.2 7 (.abort 1) = ⟨after, .error (.unknownHandle 1)⟩
        ∧ after.1.call after.2 7 (.seek 4 0) = ⟨after, .error (.unknownHandle 4)⟩)
    ∧ (let here := (Store.host (.create World.neighbours "/root" false narrow), World.neighbours)
      let past := History.moments meet here removed
      let after := History.final meet here removed
      issued past = [1, 2] ∧ Known 2 past ∧ Ended 1 past
        ∧ (after.1.call after.2 0 (.close 2)).outcome ≠ .error (.unknownHandle 2)
        ∧ after.1.call after.2 0 (.close 1) = ⟨after, .error (.unknownHandle 1)⟩) := by
  constructor
  · intro here past after
    have fresh : here.1.Fresh narrow here.2 := .memory 0
    have given : issued past = [1, 2, 3] := rfl
    obtain ⟨_, table, _, ledger⟩ := fresh.exists_ledger crowded
    cases table
    have known : Known 2 past := (ledger.live_iff 2).mp rfl
    have ended : Ended 1 past := ledger.ended_of_gone (given ▸ List.mem_cons_self) rfl
    obtain ⟨_, _, _, knows, unknown⟩ := handle_lifecycle fresh crowded
    exact ⟨given, known, ended, knows 2 known 7 _ rfl 2, unknown 1 (Or.inr ended) 7 _ rfl,
      unknown 4 (Or.inl (by rw [given]; decide)) 7 _ rfl⟩
  · intro here past after
    have fresh : here.1.Fresh narrow here.2 := .host "/root" false
    have given : issued past = [1, 2] := rfl
    obtain ⟨_, table, _, ledger⟩ := fresh.exists_ledger removed
    cases table
    have known : Known 2 past := (ledger.live_iff 2).mp rfl
    have ended : Ended 1 past := ledger.ended_of_gone (given ▸ List.mem_cons_self) rfl
    obtain ⟨_, _, _, knows, unknown⟩ := handle_lifecycle fresh removed
    exact ⟨given, known, ended, knows 2 known 0 _ rfl 2, unknown 1 (Or.inr ended) 0 _ rfl⟩

end Store

end MountFs
