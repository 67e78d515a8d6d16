import MountFs.Namespace.Request
import MountFs.Proofs.Integrity
import MountFs.Proofs.PathPrefix

/-!
# A namespace in use

Three things happen to a namespace.  A store is made, a request is answered, and the host
changes from outside.  `Namespace.Effect` says what each of them can do.

* The table of mounts changes by `mount` and `unmount`, the current directory by
  `changeDirectory`, and no request does two of these.
* Every other request reaches one store at most, the one its path leads to, and what it
  does there is a list of calls.  So what every call keeps, a request keeps.

From this come the facts that hold in every namespace that can be reached (`Tidy`): the
current directory and the mount points are normal paths, no two mounts have one path, and
the stores in memory are well formed.
-/

namespace MountFs

/-! ## Stores in use -/

namespace Store

/-- Answer a call at its time. -/
def step (now : Store × World) (e : Timed) : Step (Store × World) Answer :=
  now.1.call now.2 e.now e.call

/-- The store and its world after calls. -/
abbrev run (start : Store × World) (calls : List Timed) : Store × World :=
  History.final step start calls

/-- Calls lead from one state of a store and its world to another. -/
def Leads (start last : Store × World) : Prop := ∃ calls, last = run start calls

theorem Leads.trans {first middle last : Store × World} (left : Leads first middle)
    (right : Leads middle last) : Leads first last := by
  obtain ⟨before, rfl⟩ := left
  obtain ⟨since, rfl⟩ := right
  exact ⟨before ++ since, (History.final_append _ _ _).symm⟩

theorem run_memory (s : MemoryStore) (w : World) (calls : List Timed) :
    run (.memory s, w) calls = (.memory (s.run calls), w) := by
  induction calls generalizing s with
  | nil => rfl
  | cons e rest ih => exact ih _

/-- A store on the host stays one. -/
theorem exists_run_host (s : HostStore) (w : World) (calls : List Timed) :
    ∃ t, (run (.host s, w) calls).1 = .host t := by
  induction calls generalizing s w with
  | nil => exact ⟨s, rfl⟩
  | cons e rest ih => exact ih _ _

theorem run_failing (w : World) (calls : List Timed) : run (.failing, w) calls = (.failing, w) := by
  induction calls with
  | nil => rfl
  | cons e rest ih => exact ih

/-! ### The operations are calls -/

section Calls

variable (s : Store) (w : World) (now : Time)

theorem call_createDirectory (path : String) :
    s.call w now (.createDirectory path) = (s.createDirectory w now path).map .entry := by
  cases s with
  | memory s => rfl
  | host s =>
      rw [call, HostStore.call, createDirectory]
      cases s.createDirectory w path <;> rfl
  | failing => rfl

theorem call_createFile (path : String) (content : Bytes) :
    s.call w now (.createFile path content) = (s.createFile w now path content).map .entry := by
  cases s with
  | memory s => rfl
  | host s =>
      rw [call, HostStore.call, createFile]
      cases s.createFile w path content <;> rfl
  | failing => rfl

theorem call_deleteFile (path : String) :
    s.call w now (.deleteFile path) = (s.deleteFile w now path).map fun _ => .done := by
  cases s with
  | memory s =>
      rw [call, MemoryStore.call, deleteFile]
      cases s.deleteFile now path <;> rfl
  | host s =>
      rw [call, HostStore.call, deleteFile]
      cases s.deleteFile w path <;> rfl
  | failing => rfl

theorem call_openFile (path : String) (mode : OpenMode) :
    s.call w now (.openFile path mode) = (s.openFile w path mode).map .handle := by
  cases s with
  | memory s => rfl
  | host s =>
      rw [call, HostStore.call, openFile]
      cases s.openFile w path mode <;> rfl
  | failing => rfl

theorem call_read (id : HandleId) (size : Option Nat) :
    s.call w now (.read id size) = (s.read w now id size).map .bytes := by
  cases s with
  | memory s => rfl
  | host s =>
      rw [call, HostStore.call, read]
      cases s.read id size <;> rfl
  | failing => rfl

theorem call_write (id : HandleId) (data : Bytes) :
    s.call w now (.write id data) = (s.write w id data).map .number := by
  cases s with
  | memory s => rfl
  | host s =>
      rw [call, HostStore.call, write]
      cases s.write id data <;> rfl
  | failing => rfl

theorem call_close (id : HandleId) :
    s.call w now (.close id) = (s.close w now id).map fun _ => .done := by
  cases s <;> rfl

theorem call_abort (id : HandleId) :
    s.call w now (.abort id) = (s.abort w id).map fun _ => .done := by
  cases s with
  | memory s =>
      rw [call, MemoryStore.call, abort]
      cases s.abort id <;> rfl
  | host s =>
      rw [call, HostStore.call, abort]
      cases s.abort id <;> rfl
  | failing => rfl

end Calls

/-- An operation that is a call leads to where it ends. -/
theorem leads_of_call {α : Type} {s : Store} {w : World} {now : Time} {c : Call}
    {op : Step (Store × World) α} {wrap : α → Answer} (eq : s.call w now c = op.map wrap) :
    Leads (s, w) op.state :=
  ⟨[⟨now, c⟩], (congrArg Step.state eq).symm⟩

/-! ### Whole files -/

/-- Read a whole file in one session. -/
def readWhole (s : Store) (w : World) (now : Time) (path : String) : Step (Store × World) Bytes :=
  match s.openFile w path .read with
  | ⟨state, .error e⟩ => ⟨state, .error e⟩
  | ⟨(store, world), .ok handle⟩ =>
      let taken := store.read world now handle none
      let closed := taken.state.1.close taken.state.2 now handle
      ⟨closed.state, do
        let data ← taken.outcome
        closed.outcome
        return data⟩

/-- Write to a file that is there, in one session. -/
def writeOver (s : Store) (w : World) (now : Time) (path : String) (mode : OpenMode)
    (content : Bytes) : Step (Store × World) Unit :=
  match s.openFile w path mode with
  | ⟨state, .error e⟩ => ⟨state, .error e⟩
  | ⟨(store, world), .ok handle⟩ =>
      match store.write world handle content with
      | ⟨(store, world), .ok _⟩ => store.close world now handle
      | ⟨(store, world), .error e⟩ => ⟨(store.abort world handle).state, .error e⟩

/-- Write to a file, which is made if it is missing. -/
def writeWith (s : Store) (w : World) (now : Time) (path : String) (mode : OpenMode)
    (content : Bytes) : Step (Store × World) Unit :=
  let made := s.createFile w now path []
  match made.outcome with
  | .ok _ => made.state.1.writeOver made.state.2 now path mode content
  | .error (.alreadyExists _) => made.state.1.writeOver made.state.2 now path mode content
  | .error e => ⟨made.state, .error e⟩

theorem leads_readWhole (s : Store) (w : World) (now : Time) (path : String) :
    Leads (s, w) (s.readWhole w now path).state := by
  have opens : Leads (s, w) (s.openFile w path .read).state :=
    leads_of_call (s.call_openFile w now path .read)
  unfold readWhole
  split
  next state e eq =>
    rw [eq] at opens
    exact opens
  next store world handle eq =>
    rw [eq] at opens
    have reads : Leads (store, world) (store.read world now handle none).state :=
      leads_of_call (store.call_read world now handle none)
    have closes := leads_of_call (call_close (store.read world now handle none).state.1
      (store.read world now handle none).state.2 now handle)
    exact (opens.trans reads).trans closes

theorem leads_writeOver (s : Store) (w : World) (now : Time) (path : String) (mode : OpenMode)
    (content : Bytes) : Leads (s, w) (s.writeOver w now path mode content).state := by
  have opens : Leads (s, w) (s.openFile w path mode).state :=
    leads_of_call (s.call_openFile w now path mode)
  unfold writeOver
  split
  next state e eq =>
    rw [eq] at opens
    exact opens
  next store world handle eq =>
    rw [eq] at opens
    have writes : Leads (store, world) (store.write world handle content).state :=
      leads_of_call (store.call_write world now handle content)
    split
    next store' world' count eq' =>
      rw [eq'] at writes
      exact (opens.trans writes).trans (leads_of_call (call_close _ _ now handle))
    next store' world' e eq' =>
      rw [eq'] at writes
      have aborts := leads_of_call (store'.call_abort world' now handle)
      exact (opens.trans writes).trans aborts

theorem leads_writeWith (s : Store) (w : World) (now : Time) (path : String) (mode : OpenMode)
    (content : Bytes) : Leads (s, w) (s.writeWith w now path mode content).state := by
  have makes : Leads (s, w) (s.createFile w now path []).state :=
    leads_of_call (s.call_createFile w now path [])
  unfold writeWith
  dsimp only
  split
  · exact makes.trans (leads_writeOver _ _ now path mode content)
  · exact makes.trans (leads_writeOver _ _ now path mode content)
  · exact makes

end Store

/-! ## Events -/

/-- Something that happens to a namespace. -/
inductive NamespaceEvent where
  /-- A store is made, and is not mounted yet. -/
  | make (now : Time) (config : Config) (spec : MountSpec)
  | ask (now : Time) (request : Request)
  /-- The host changes from outside, in any way. -/
  | change (f : World → World)

namespace Namespace

/-- What an event makes of a namespace. -/
def step (ns : Namespace) : NamespaceEvent → Step Namespace Reply
  | .make now config spec =>
      match makeStore ns.world config now spec with
      | .ok store => ⟨(ns.addStore store).1, .ok .done⟩
      | .error e => ⟨ns, .error e⟩
  | .ask now request => ns.answer now request
  | .change f => ⟨{ ns with world := f ns.world }, .ok .done⟩

/-- The namespace after events. -/
abbrev run (ns : Namespace) (events : List NamespaceEvent) : Namespace :=
  History.final step ns events

/-- Events lead to the namespace from one without stores. -/
def Reachable (ns : Namespace) : Prop := ∃ world events, ns = (empty world).run events

/-- The namespace with the store at a position and the world as they are now. -/
def withStore (ns : Namespace) (index : Nat) (now : Store × World) : Namespace :=
  { ns with stores := ns.stores.set index now.1, world := now.2 }

/-- The store that a request may change: the one its path leads to, or the one it names. -/
def target (ns : Namespace) : Request → Option Nat
  | .readWhole path | .writeWhole path _ | .appendWhole path _ | .createDirectory path
  | .createFile path _ | .deleteFile path =>
      (ns.route path).toOption.map fun r => r.mount.store
  | .store index _ => some index
  | _ => none

/-- What an event may leave behind. -/
inductive Effect (ns : Namespace) : NamespaceEvent → Namespace → Prop
  | kept {e : NamespaceEvent} : Effect ns e ns
  /-- A new store. -/
  | made {now : Time} {config : Config} {spec : MountSpec} {store : Store}
      (made : makeStore ns.world config now spec = .ok store) :
      Effect ns (.make now config spec) (ns.addStore store).1
  /-- A change from outside. -/
  | changed (f : World → World) : Effect ns (.change f) { ns with world := f ns.world }
  | mounted {now : Time} {path name : String} {store : Nat} {after : Namespace}
      (mounts : ns.mount path name store = .ok after) :
      Effect ns (.ask now (.mount path name store)) after
  | unmounted {now : Time} {path : String} {after : Namespace}
      (unmounts : ns.unmount path = .ok after) : Effect ns (.ask now (.unmount path)) after
  /-- Another current directory. -/
  | moved {now : Time} {path : String} :
      Effect ns (.ask now (.changeDirectory path)) { ns with cwd := ns.absolute path }
  /-- Calls on one store. -/
  | used {now : Time} {request : Request} {index : Nat} {last : Store × World}
      (aims : ns.target request = some index)
      (leads : Store.Leads (ns.storeAt index, ns.world) last) :
      Effect ns (.ask now request) (ns.withStore index last)

/-- What happens along a path happens to the store it leads to, or not at all. -/
theorem onRoute_effect {α : Type} {ns : Namespace} {now : Time} {request : Request} {path : String}
    {step : Route → Store → World → Step (Store × World) α}
    (aims : ns.target request = (ns.route path).toOption.map fun r => r.mount.store)
    (leads : ∀ r s w, Store.Leads (s, w) (step r s w).state) :
    Effect ns (.ask now request) (ns.onRoute path step).state := by
  unfold onRoute
  cases h : ns.route path with
  | error e => exact .kept
  | ok r =>
      rw [h] at aims
      exact .used aims (leads r _ _)

theorem answer_effect (ns : Namespace) (now : Time) (request : Request) :
    Effect ns (.ask now request) (ns.answer now request).state := by
  cases request with
  | mount path name store =>
      rw [answer]
      cases h : ns.mount path name store with
      | error e => exact .kept
      | ok after => exact .mounted h
  | unmount path =>
      rw [answer]
      cases h : ns.unmount path with
      | error e => exact .kept
      | ok after => exact .unmounted h
  | changeDirectory path =>
      rw [answer]
      cases h : ns.changeDirectory now path with
      | error e => exact .kept
      | ok after =>
          obtain ⟨_, _, same⟩ := Except.bind_eq_ok.mp h
          cases same
          exact .moved
  | readWhole path => exact onRoute_effect rfl fun _ _ _ => Store.leads_readWhole ..
  | writeWhole path content => exact onRoute_effect rfl fun _ _ _ => Store.leads_writeWith ..
  | appendWhole path content => exact onRoute_effect rfl fun _ _ _ => Store.leads_writeWith ..
  | createDirectory path =>
      have leads : ∀ (r : Route) s w, Store.Leads (s, w)
          ((s.createDirectory w now r.inner).map r.externalize).state := by
        intro r s w
        have makes := Store.leads_of_call (s.call_createDirectory w now r.inner)
        exact makes
      exact onRoute_effect rfl leads
  | createFile path content =>
      have leads : ∀ (r : Route) s w, Store.Leads (s, w)
          ((s.createFile w now r.inner content).map r.externalize).state := by
        intro r s w
        have makes := Store.leads_of_call (s.call_createFile w now r.inner content)
        exact makes
      exact onRoute_effect rfl leads
  | deleteFile path =>
      exact onRoute_effect rfl fun r s w => Store.leads_of_call (s.call_deleteFile w now r.inner)
  | store index call => exact .used rfl ⟨[⟨now, call⟩], rfl⟩
  | listMounts => exact .kept
  | absolute => exact .kept
  | route => exact .kept
  | stat => exact .kept
  | listDirectory => exact .kept
  | currentDirectory => exact .kept
  | usage => exact .kept
  | debug => exact .kept

theorem step_effect (ns : Namespace) (e : NamespaceEvent) : Effect ns e (ns.step e).state := by
  cases e with
  | make now config spec =>
      rw [step]
      cases h : makeStore ns.world config now spec with
      | error e => exact .kept
      | ok store => exact .made h
  | ask now request => exact answer_effect ns now request
  | change f => exact .changed f

/-! ## Stores at their positions -/

/-- Beyond the stores there are only failing ones. -/
theorem lt_length_of_storeAt {ns : Namespace} {index : Nat} (h : ns.storeAt index ≠ .failing) :
    index < ns.stores.length := by
  rw [← Nat.not_le]
  intro beyond
  rw [storeAt, List.getD_eq_getElem?_getD, List.getElem?_eq_none beyond] at h
  exact h rfl

theorem mem_stores_of_storeAt {ns : Namespace} {index : Nat} {store : Store}
    (h : ns.storeAt index = store) (works : store ≠ .failing) : store ∈ ns.stores := by
  subst h
  have inside := lt_length_of_storeAt works
  simp [storeAt, List.getElem?_eq_getElem inside]

theorem storeAt_addStore {ns : Namespace} {index : Nat} (h : ns.storeAt index ≠ .failing)
    (store : Store) : (ns.addStore store).1.storeAt index = ns.storeAt index := by
  simp [storeAt, addStore, List.getElem?_append_left (lt_length_of_storeAt h)]

theorem storeAt_withStore_self {ns : Namespace} {index : Nat}
    (h : ns.storeAt index ≠ .failing) (now : Store × World) :
    (ns.withStore index now).storeAt index = now.1 := by
  simp [storeAt, withStore, lt_length_of_storeAt h]

theorem storeAt_withStore_of_ne (ns : Namespace) {index other : Nat} (differ : index ≠ other)
    (now : Store × World) : (ns.withStore index now).storeAt other = ns.storeAt other := by
  simp [storeAt, withStore, List.getElem?_set_ne differ]

/-! ## What every event keeps -/

/-- A namespace that is in order. -/
structure Tidy (ns : Namespace) : Prop where
  /-- The current directory is a normal path. -/
  cwd : Path.IsNormal ns.cwd
  /-- Mount points are normal paths. -/
  normal : ∀ {m}, m ∈ ns.mounts → Path.IsNormal m.path
  /-- A path has one mount. -/
  distinct : (ns.mounts.map fun m => m.path).Nodup
  /-- The stores in memory are well formed. -/
  stores : ∀ {s}, .memory s ∈ ns.stores → s.WellFormed

theorem Tidy.wellFormed {ns : Namespace} (tidy : ns.Tidy) {index : Nat} {s : MemoryStore}
    (memory : ns.storeAt index = .memory s) : s.WellFormed :=
  tidy.stores (mem_stores_of_storeAt memory (by simp))

theorem tidy_empty (world : World) : (empty world).Tidy where
  cwd := Path.isNormal_root
  normal := fun there => nomatch there
  distinct := List.nodup_nil
  stores := fun there => nomatch there

theorem perm_insertSorted (m : Mount) (mounts : List Mount) :
    (m.insertSorted mounts).Perm (m :: mounts) := by
  induction mounts with
  | nil => exact List.Perm.refl _
  | cons first rest ih =>
      rw [Mount.insertSorted]
      split
      · exact List.Perm.refl _
      · exact (ih.cons first).trans (List.Perm.swap m first rest)

theorem mem_insertSorted {m n : Mount} {mounts : List Mount} :
    n ∈ m.insertSorted mounts ↔ n = m ∨ n ∈ mounts :=
  (perm_insertSorted m mounts).mem_iff.trans List.mem_cons

theorem any_path_eq_true_iff {mounts : List Mount} {path : String} :
    (mounts.any fun m => m.path == path) = true ↔ ∃ m ∈ mounts, m.path = path := by
  simp

/-- A mount that is let in has a path of its own. -/
theorem mount_eq_ok_iff {ns after : Namespace} {path name : String} {store : Nat} :
    ns.mount path name store = .ok after ↔
      (∀ m ∈ ns.mounts, m.path ≠ Path.resolve Path.root path) ∧
        after = { ns with
          mounts := Mount.insertSorted ⟨Path.resolve Path.root path, name, store⟩ ns.mounts } := by
  unfold mount
  extract_lets
  split
  next taken =>
    obtain ⟨m, there, same⟩ := any_path_eq_true_iff.mp taken
    simp only [reduceCtorEq, false_iff, not_and]
    exact fun free => absurd same (free m there)
  next free =>
    have free : ∀ m ∈ ns.mounts, m.path ≠ Path.resolve Path.root path :=
      fun m there same => free (any_path_eq_true_iff.mpr ⟨m, there, same⟩)
    simp only [Except.ok.injEq]
    exact ⟨fun same => ⟨free, same.symm⟩, fun same => same.2.symm⟩

theorem unmount_eq_ok_iff {ns after : Namespace} {path : String} :
    ns.unmount path = .ok after ↔
      (∃ m ∈ ns.mounts, m.path = Path.resolve Path.root path) ∧
        after = { ns with
          mounts := ns.mounts.filter fun m => m.path ≠ Path.resolve Path.root path } := by
  unfold unmount
  extract_lets
  split
  next taken =>
    simp only [Except.ok.injEq]
    exact ⟨fun same => ⟨any_path_eq_true_iff.mp taken, same.symm⟩, fun same => same.2.symm⟩
  next free =>
    simp only [reduceCtorEq, false_iff, not_and]
    exact fun taken => absurd (any_path_eq_true_iff.mpr taken) free

theorem storeAt_mem {ns : Namespace} {index : Nat} (inside : index < ns.stores.length) :
    ns.storeAt index ∈ ns.stores := by
  simp [storeAt, List.getElem?_eq_getElem inside]

/-- A position beyond the stores cannot be filled. -/
theorem withStore_of_length_le {ns : Namespace} {index : Nat} (beyond : ns.stores.length ≤ index)
    (now : Store × World) : (ns.withStore index now).stores = ns.stores :=
  List.set_eq_of_length_le beyond

/-- What holds of every store holds of every store after an event, if it holds of a new one and
calls keep it. -/
theorem Effect.forall_stores {ns after : Namespace} {e : NamespaceEvent} (h : Effect ns e after)
    (good : Store → Prop) (all : ∀ s ∈ ns.stores, good s)
    (new : ∀ {now config spec s}, e = .make now config spec →
      makeStore ns.world config now spec = .ok s → good s)
    (calls : ∀ {start last}, Store.Leads start last → good start.1 → good last.1) :
    ∀ s ∈ after.stores, good s := by
  cases h with
  | kept | changed | moved => exact all
  | made made =>
      intro s there
      rcases List.mem_append.mp there with old | last
      · exact all s old
      · rw [List.mem_singleton.mp last]
        exact new rfl made
  | mounted mounts =>
      obtain ⟨_, rfl⟩ := mount_eq_ok_iff.mp mounts
      exact all
  | unmounted unmounts =>
      obtain ⟨_, rfl⟩ := unmount_eq_ok_iff.mp unmounts
      exact all
  | @used _ _ index last aims leads =>
      intro s there
      rcases Nat.lt_or_ge index ns.stores.length with inside | beyond
      · rcases List.mem_or_eq_of_mem_set there with old | rfl
        · exact all s old
        · exact calls leads (all _ (storeAt_mem inside))
      · rw [withStore_of_length_le beyond] at there
        exact all s there

/-- A store in memory stays well formed through calls, and no other store turns into one. -/
theorem wellFormed_of_leads {start last : Store × World} {s : MemoryStore}
    (leads : Store.Leads start last) (memory : last.1 = .memory s)
    (wf : ∀ {t}, start.1 = .memory t → t.WellFormed) : s.WellFormed := by
  obtain ⟨calls, rfl⟩ := leads
  obtain ⟨store, w⟩ := start
  cases store with
  | memory t =>
      rw [Store.run_memory] at memory
      cases memory
      exact (wf rfl).run calls
  | host t =>
      obtain ⟨t', host⟩ := Store.exists_run_host t w calls
      rw [host] at memory
      cases memory
  | failing =>
      rw [Store.run_failing] at memory
      cases memory

theorem wellFormed_of_makeStore {w : World} {config : Config} {now : Time} {spec : MountSpec}
    {s : MemoryStore} (made : makeStore w config now spec = .ok (.memory s)) : s.WellFormed := by
  unfold makeStore at made
  split at made
  · cases made
    exact MemoryStore.wellFormed_create config now
  · split at made
    · cases made
    · cases made

theorem Tidy.stores_effect {ns after : Namespace} {e : NamespaceEvent} (tidy : ns.Tidy)
    (h : Effect ns e after) {s : MemoryStore} (there : .memory s ∈ after.stores) :
    s.WellFormed := by
  refine h.forall_stores (fun store => ∀ t, store = .memory t → t.WellFormed)
    ?_ ?_ ?_ _ there s rfl
  · rintro _ there t rfl
    exact tidy.stores there
  · rintro now config spec _ - made t rfl
    exact wellFormed_of_makeStore made
  · exact fun leads wf t memory => wellFormed_of_leads leads memory (wf _)

theorem Tidy.effect {ns after : Namespace} {e : NamespaceEvent} (tidy : ns.Tidy)
    (h : Effect ns e after) : after.Tidy := by
  have stores := fun {s} => tidy.stores_effect h (s := s)
  cases h with
  | kept => exact tidy
  | changed | made => exact ⟨tidy.cwd, tidy.normal, tidy.distinct, stores⟩
  | moved => exact ⟨Path.isNormal_resolve _ _, tidy.normal, tidy.distinct, stores⟩
  | used => exact ⟨tidy.cwd, tidy.normal, tidy.distinct, stores⟩
  | @mounted _ path name store _ mounts =>
      obtain ⟨free, rfl⟩ := mount_eq_ok_iff.mp mounts
      refine ⟨tidy.cwd, fun there => ?_, ?_, stores⟩
      · rcases mem_insertSorted.mp there with rfl | old
        · exact Path.isNormal_resolve _ _
        · exact tidy.normal old
      · have perm := (perm_insertSorted ⟨Path.resolve Path.root path, name, store⟩ ns.mounts).map
          fun m : Mount => m.path
        rw [perm.nodup_iff, List.map_cons, List.nodup_cons]
        refine ⟨fun there => ?_, tidy.distinct⟩
        obtain ⟨m, there, same⟩ := List.mem_map.mp there
        exact free m there same
  | unmounted unmounts =>
      obtain ⟨_, rfl⟩ := unmount_eq_ok_iff.mp unmounts
      refine ⟨tidy.cwd, fun there => tidy.normal (List.mem_filter.mp there).1, ?_, stores⟩
      exact tidy.distinct.sublist (List.filter_sublist.map _)

/-- What holds before any store is made, and is kept by every effect of an event, holds of every
namespace that events lead to. -/
theorem Reachable.induction {motive : Namespace → Prop} (start : ∀ world, motive (empty world))
    (next : ∀ {ns after e}, motive ns → Effect ns e after → motive after) {ns : Namespace}
    (reach : ns.Reachable) : motive ns := by
  obtain ⟨world, events, rfl⟩ := reach
  exact History.final_induction (start world)
    (fun ns e held => next held (step_effect ns e)) events

theorem Reachable.tidy {ns : Namespace} (reach : ns.Reachable) : ns.Tidy :=
  reach.induction tidy_empty Tidy.effect

theorem Reachable.run {ns : Namespace} (reach : ns.Reachable) (events : List NamespaceEvent) :
    (ns.run events).Reachable := by
  obtain ⟨world, before, rfl⟩ := reach
  exact ⟨world, before ++ events, (History.final_append _ _ _).symm⟩

/-! ## From a configuration -/

/-- To make and mount stores is to live through two events for each of them. -/
theorem exists_events_of_mountAll {config : Config} {now : Time} {specs : List MountSpec}
    {ns after : Namespace} (h : mountAll config now ns specs = .ok after) :
    ∃ events, after = ns.run events := by
  induction specs generalizing ns with
  | nil =>
      cases h
      exact ⟨[], rfl⟩
  | cons spec rest ih =>
      obtain ⟨store, made, h⟩ := Except.bind_eq_ok.mp h
      obtain ⟨mounted, mounts, h⟩ := Except.bind_eq_ok.mp h
      obtain ⟨events, rfl⟩ := ih h
      refine ⟨.make now config spec :: .ask now (.mount spec.path spec.name ns.stores.length)
        :: events, ?_⟩
      have first : (ns.step (.make now config spec)).state = (ns.addStore store).1 := by
        rw [step, made]
      have second : ((ns.addStore store).1.step
          (.ask now (.mount spec.path spec.name ns.stores.length))).state = mounted := by
        have mounts : (ns.addStore store).1.mount spec.path spec.name ns.stores.length
            = .ok mounted := mounts
        rw [step, answer, mounts]
        rfl
      rw [run, run, History.final, first, History.final, second]

theorem reachable_ofConfig {world : World} {config : Config} {now : Time} {ns : Namespace}
    (h : ofConfig world config now = .ok ns) : ns.Reachable := by
  obtain ⟨events, rfl⟩ := exists_events_of_mountAll h
  exact ⟨world, events, rfl⟩

end Namespace

end MountFs
