import MountFs.Proofs.HandleTable
import MountFs.Proofs.WholeFiles

/-!
# Sessions inside requests

A request that reads or writes a whole file starts a session of its own.  The session is ended
on every way out: after a read that is refused, after a write that is given up, and by a close
that finds the file gone.  So no request leaves a session behind, and none touches the sessions
that others have open.

The argument is one for all stores.  Seen from the table of handles a session is three calls,
the open, one use and the end, and `Handles.Serves` tells what each does.  The new handle has a
number that no other has, so the end takes away just what the open put in
(`Handles.settled_session`).  It does not matter whether the use was let in, or what the end
was answered.

That numbers are fresh is kept by every event of a namespace (`Namespace.Tabled`).
-/

namespace MountFs

/-! ## The table -/

namespace Handles

variable {t t' t'' : Handles} {limits limits' : Limits} {c c' : Call} {o o' : Outcome Answer}

theorem Serves.eq_of_silent (serves : t.Serves limits c o t') (free : c.handle? = none)
    (silent : ∀ id, o ≠ .ok (.handle id)) : t' = t := by
  cases serves with
  | aside => rfl
  | opened => exact absurd rfl (silent _)
  | unknown asked | used asked | refused asked => cases free.symm.trans asked
  | ended ends => cases free.symm.trans (Call.handle?_of_ends? ends)

theorem Serves.exists_extended {path : String} {mode : OpenMode} {id : HandleId}
    (serves : t.Serves limits (.openFile path mode) (.ok (.handle id)) t') :
    id = t.nextId ∧ ∃ k : Handle, k.id = t.nextId ∧ t' = t.extended k := by
  cases serves with
  | aside free silent => exact absurd rfl (silent id)
  | opened fresh => exact ⟨rfl, _, fresh, rfl⟩
  | used asked => cases asked
  | ended ends => cases ends

/-- A session that is opened, used once and ended leaves the table as it was, whatever the use
and the end are answered. -/
theorem settled_session (num : t.Numbered) {k : Handle} (fresh : k.id = t.nextId)
    (uses : (t.extended k).Serves limits c o t') (asked : c.handle? = some t.nextId)
    (ends : t'.Serves limits' c' o' t'') (goes : c'.ends? = some t.nextId) :
    t.Settled t'' := by
  have num' : (t.extended k).Numbered := num.extended fresh
  have live : (t.extended k).live.get? t.nextId = some k := get?_extended.mpr (Or.inl ⟨rfl, rfl⟩)
  have asked' := Call.handle?_of_ends? goes
  have used := uses.of_live asked live
  cases use : k.use? limits c with
  | none =>
      -- The use has ended the session already.
      rw [use] at used
      dsimp only at used
      subst used
      obtain ⟨_, rfl⟩ := ends.of_unknown asked' (by simp [without, Registry.get?_erase])
      exact num.settled k
  | some made =>
      rw [use] at used
      cases made with
      | error e =>
          obtain ⟨_, rfl⟩ := used
          have gone := ends.of_live asked' live
          rw [Handle.use?_of_ends? k limits' goes] at gone
          exact gone ▸ num.settled k
      | ok next =>
          obtain ⟨_, rfl⟩ := used
          have same := Handle.use?_sameSession use
          have live' : ((t.extended k).put next.1).live.get? t.nextId = some next.1 :=
            (num'.get?_put live same).mpr (Or.inl ⟨rfl, rfl⟩)
          have gone := ends.of_live asked' live'
          rw [Handle.use?_of_ends? next.1 limits' goes] at gone
          exact gone ▸ num.settled_put k (same.id.trans fresh)

end Handles

/-! ## One store -/

namespace Store

variable {s : Store} {w : World} {now : Time}

/-- The live handles of a store, each with its mode, its cursor and its buffer, if the store keeps
any. -/
def sessions? (s : Store) : Option (Registry HandleId Handle) := s.handles?.map (·.live)

theorem Tabled.ne_failing (tabled : s.Tabled) : s ≠ .failing := by
  rintro rfl
  obtain ⟨t, table, _⟩ := tabled
  cases table

theorem sessions?_of_settled {s' : Store} {t t' : Handles} (table : s.handles? = some t)
    (table' : s'.handles? = some t') (settled : t.Settled t') : s'.sessions? = s.sessions? := by
  rw [sessions?, sessions?, table, table', Option.map_some, Option.map_some, settled.live]

/-- A call that names no handle and starts no session leaves the table. -/
theorem handles?_call {c : Call} (s : Store) (w : World) (now : Time) (free : c.handle? = none)
    (silent : ∀ id, (s.call w now c).outcome ≠ .ok (.handle id)) :
    (s.call w now c).state.1.handles? = s.handles? := by
  cases table : s.handles? with
  | none =>
      cases s with
      | failing => rfl
      | memory | host => cases table
  | some t =>
      obtain ⟨limits, t', table', serves⟩ := call_serves table w now c
      rw [table', serves.eq_of_silent free silent]

/-- So does the operation behind such a call. -/
theorem handles?_of_call {c : Call} {now : Time} {α : Type} {does : Step (Store × World) α}
    {wrap : α → Answer} (calls : s.call w now c = does.map wrap) (free : c.handle? = none)
    (plain : ∀ a id, wrap a ≠ .handle id) : does.state.1.handles? = s.handles? := by
  have kept := handles?_call s w now free
  rw [calls] at kept
  exact kept (Outcome.map_ne_handle plain)

theorem handles?_createDirectory (s : Store) (w : World) (now : Time) (path : String) :
    (s.createDirectory w now path).state.1.handles? = s.handles? :=
  handles?_of_call (s.call_createDirectory w now path) rfl (by simp)

theorem handles?_createFile (s : Store) (w : World) (now : Time) (path : String)
    (content : Bytes) : (s.createFile w now path content).state.1.handles? = s.handles? :=
  handles?_of_call (s.call_createFile w now path content) rfl (by simp)

theorem handles?_deleteFile (s : Store) (w : World) (now : Time) (path : String) :
    (s.deleteFile w now path).state.1.handles? = s.handles? :=
  handles?_of_call (s.call_deleteFile w now path) rfl (by simp)

/-- An open that is refused leaves the table. -/
theorem sessions?_of_openFile_error {path : String} {mode : OpenMode} {state : Store × World}
    {e : FsError} (refused : s.openFile w path mode = ⟨state, .error e⟩) (now : Time) :
    state.1.sessions? = s.sessions? := by
  have kept := handles?_call (c := .openFile path mode) s w now rfl
  rw [call_openFile, refused] at kept
  rw [sessions?, sessions?, ← kept (by simp [Step.map, Except.map])]
  rfl

/-- An open that is let in, a use of the new handle and the end of its session. -/
theorem Tabled.sessions?_eq (tabled : s.Tabled) {path : String} {mode : OpenMode}
    {opened used : Store × World} {id : HandleId} {c : Call} (c' : Call)
    (opens : s.openFile w path mode = ⟨opened, .ok id⟩) (asked : c.handle? = some id)
    (uses : (opened.1.call opened.2 now c).state = used) (goes : c'.ends? = some id) :
    (used.1.call used.2 now c').state.1.sessions? = s.sessions? := by
  obtain ⟨t, table, num⟩ := tabled
  obtain ⟨limits, t₁, table₁, serves⟩ := call_serves table w now (.openFile path mode)
  rw [call_openFile, opens] at table₁ serves
  obtain ⟨rfl, k, fresh, rfl⟩ := serves.exists_extended
  obtain ⟨limits', t₂, table₂, serves'⟩ := call_serves table₁ opened.2 now c
  have table₂ : used.1.handles? = some t₂ := uses ▸ table₂
  obtain ⟨limits'', t₃, table₃, serves''⟩ := call_serves table₂ used.2 now c'
  exact sessions?_of_settled table table₃
    (Handles.settled_session num fresh serves' asked serves'' goes)

theorem Tabled.sessions?_readWhole (tabled : s.Tabled) (w : World) (now : Time) (path : String) :
    (s.readWhole w now path).state.1.sessions? = s.sessions? := by
  unfold readWhole
  split
  next state e refused => exact sessions?_of_openFile_error refused now
  next store world id opens =>
    have reads := congrArg Step.state (store.call_read world now id none)
    have ended := tabled.sessions?_eq (.close id) opens rfl reads rfl
    rw [call_close] at ended
    exact ended

theorem Tabled.sessions?_writeOver (tabled : s.Tabled) (w : World) (now : Time) (path : String)
    (mode : OpenMode) (content : Bytes) :
    (s.writeOver w now path mode content).state.1.sessions? = s.sessions? := by
  unfold writeOver
  split
  next state e refused => exact sessions?_of_openFile_error refused now
  next store world id opens =>
    have writes := congrArg Step.state (store.call_write world now id content)
    split
    next store' world' count wrote =>
      rw [wrote] at writes
      have ended := tabled.sessions?_eq (.close id) opens rfl writes rfl
      rw [call_close] at ended
      exact ended
    next store' world' e refused =>
      rw [refused] at writes
      have ended := tabled.sessions?_eq (.abort id) opens rfl writes rfl
      rw [call_abort] at ended
      exact ended

theorem Tabled.sessions?_writeWith (tabled : s.Tabled) (w : World) (now : Time) (path : String)
    (mode : OpenMode) (content : Bytes) :
    (s.writeWith w now path mode content).state.1.sessions? = s.sessions? := by
  have table := s.handles?_createFile w now path []
  have same : (s.createFile w now path []).state.1.sessions? = s.sessions? := by
    rw [sessions?, sessions?, table]
  have tabled' : (s.createFile w now path []).state.1.Tabled := by
    rw [Tabled, table]
    exact tabled
  unfold writeWith
  dsimp only
  split
  · exact (tabled'.sessions?_writeOver _ now path mode content).trans same
  · exact (tabled'.sessions?_writeOver _ now path mode content).trans same
  · exact same

end Store

/-! ## In a namespace -/

namespace Namespace

variable {ns after : Namespace} {path : String}

/-- Every store keeps a table of handles, which is numbered. -/
def Tabled (ns : Namespace) : Prop := ∀ s ∈ ns.stores, s.Tabled

theorem tabled_of_leads {start last : Store × World} (leads : Store.Leads start last)
    (tabled : start.1.Tabled) : last.1.Tabled := by
  obtain ⟨calls, rfl⟩ := leads
  exact History.final_induction (motive := fun here : Store × World => here.1.Tabled) tabled
    (fun _ e tabled => tabled.meet (.call e.now e.call)) calls

theorem tabled_of_makeStore {w : World} {config : Config} {now : Time} {spec : MountSpec}
    {s : Store} (made : makeStore w config now spec = .ok s) : s.Tabled := by
  unfold makeStore at made
  split at made
  · cases made
    exact (Store.Fresh.memory (w := w) now).tabled
  · split at made
    next root _ =>
      cases made
      exact (Store.Fresh.host root spec.readOnly).tabled
    · cases made

theorem Tabled.effect {e : NamespaceEvent} (tabled : ns.Tabled) (h : Effect ns e after) :
    after.Tabled :=
  h.forall_stores Store.Tabled tabled (fun _ made => tabled_of_makeStore made) tabled_of_leads

theorem Reachable.tabled (reach : ns.Reachable) : ns.Tabled := by
  refine reach.induction ?_ Tabled.effect
  intro world s there
  cases there

/-- What keeps the sessions of the store that a path leads to keeps those of every store. -/
theorem Tabled.sessions?_onRoute {α : Type} (tabled : ns.Tabled)
    {step : Route → Store → World → Step (Store × World) α}
    (keeps : ∀ r s w, s.Tabled → (step r s w).state.1.sessions? = s.sessions?) (index : Nat) :
    ((ns.onRoute path step).state.storeAt index).sessions? = (ns.storeAt index).sessions? := by
  cases found : ns.route path with
  | error e => rw [onRoute, found]
  | ok r =>
      rw [onRoute_of_route found]
      rcases Nat.lt_or_ge r.mount.store ns.stores.length with inside | beyond
      · by_cases here : r.mount.store = index
        · have kept := keeps r _ ns.world (tabled _ (storeAt_mem inside))
          have works := (tabled _ (storeAt_mem inside)).ne_failing
          rw [← here, ← kept, Step.lift, storeAt_withStore_self works]
        · rw [Step.lift, ns.storeAt_withStore_of_ne here]
      · rw [Step.lift, storeAt, withStore_of_length_le beyond]
        rfl

/-- A request that reaches no store leaves the stores. -/
theorem Effect.stores_eq_of_target {now : Time} {request : Request}
    (h : Effect ns (.ask now request) after) (aims : ns.target request = none) :
    after.stores = ns.stores := by
  cases h with
  | kept | moved => rfl
  | mounted mounts =>
      obtain ⟨_, rfl⟩ := mount_eq_ok_iff.mp mounts
      rfl
  | unmounted unmounts =>
      obtain ⟨_, rfl⟩ := unmount_eq_ok_iff.mp unmounts
      rfl
  | used aims' => cases aims.symm.trans aims'

/-- A request that is answered by the namespace, and not by one of its stores at once, leaves the
live handles of every store as they were, with their modes, their cursors and their buffers.  It
does not matter whether it succeeds. -/
theorem request_keeps_sessions (reach : ns.Reachable) (now : Time) {request : Request}
    (whole : ∀ index call, request ≠ .store index call) (index : Nat) :
    ((ns.answer now request).state.storeAt index).sessions? = (ns.storeAt index).sessions? := by
  have tabled := reach.tabled
  cases request with
  | readWhole path =>
      exact tabled.sessions?_onRoute (fun r _ w tabled => tabled.sessions?_readWhole w now r.inner)
        index
  | writeWhole path content =>
      exact tabled.sessions?_onRoute
        (fun r _ w tabled => tabled.sessions?_writeWith w now r.inner .write content) index
  | appendWhole path content =>
      exact tabled.sessions?_onRoute
        (fun r _ w tabled => tabled.sessions?_writeWith w now r.inner .append content) index
  | createDirectory path =>
      have keeps : ∀ (r : Route) (s : Store) w, s.Tabled →
          ((s.createDirectory w now r.inner).map r.externalize).state.1.sessions?
            = s.sessions? := fun r s w _ =>
        congrArg (Option.map Handles.live) (s.handles?_createDirectory w now r.inner)
      exact tabled.sessions?_onRoute keeps index
  | createFile path content =>
      have keeps : ∀ (r : Route) (s : Store) w, s.Tabled →
          ((s.createFile w now r.inner content).map r.externalize).state.1.sessions?
            = s.sessions? := fun r s w _ =>
        congrArg (Option.map Handles.live) (s.handles?_createFile w now r.inner content)
      exact tabled.sessions?_onRoute keeps index
  | deleteFile path =>
      exact tabled.sessions?_onRoute (fun r s w _ =>
        congrArg (Option.map Handles.live) (s.handles?_deleteFile w now r.inner)) index
  | store index call => exact absurd rfl (whole index call)
  | _ => rw [storeAt, (answer_effect ns now _).stores_eq_of_target rfl, storeAt]

/-- A store in memory whose files may hold four bytes, with a writer on its file, and a store on
the host with a reader that has taken one byte. -/
def inUse : Namespace :=
  (empty World.crossed).run
    [.make 0 { limits := { maxFileSize := 4 } } ⟨"/", "root", .virtual, none, false⟩,
      .make 0 {} ⟨"/host", "host", .host, some "/root", false⟩,
      .ask 0 (.mount "/" "root" 0), .ask 0 (.mount "/host" "host" 1),
      .ask 1 (.createFile "/f" [1, 2]), .ask 2 (.store 0 (.openFile "/f" .append)),
      .ask 3 (.store 1 (.openFile "/f" .read)), .ask 4 (.store 1 (.read 1 (some 1)))]

/-- The open of a file that has a writer is refused, and so is a write that is too long, after
its file was made and opened.  The third write is let in and commits.  The sessions of the others
are as before. -/
theorem request_keeps_sessions_refused :
    (inUse.storeAt 0).sessions? = some ⟨[(1, ⟨1, "/f", 2, .append, 2, [1, 2]⟩)]⟩
      ∧ (inUse.storeAt 1).sessions? = some ⟨[(1, ⟨1, "/f", 3, .read, 1, [120]⟩)]⟩
      ∧ ∀ write ∈ [(Request.appendWhole "/f" [3], Except.error (FsError.busy "/f")),
          (.writeWhole "/g" [1, 2, 3, 4, 5], .error (.fileTooLarge "/g" 5 4)),
          (.writeWhole "/host/f" [9], .ok .done)],
        (inUse.answer 5 write.1).outcome = write.2
          ∧ ∀ index, ((inUse.answer 5 write.1).state.storeAt index).sessions?
            = (inUse.storeAt index).sessions? := by
  have reach : inUse.Reachable := ⟨World.crossed, _, rfl⟩
  refine ⟨by decide +kernel, by decide +kernel, fun write there => ⟨?_, fun index => ?_⟩⟩
  · revert write
    decide +kernel
  · refine request_keeps_sessions reach 5 (fun _ _ same => ?_) index
    simp only [List.mem_cons, List.not_mem_nil, or_false] at there
    rcases there with rfl | rfl | rfl <;> cases same

end Namespace

end MountFs
