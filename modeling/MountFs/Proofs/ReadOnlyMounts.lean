import MountFs.Proofs.Escapes
import MountFs.Proofs.Routing

/-!
# Mounts that take no changes

A store on the host may be read-only.  Then every change of names and every open for
writing is refused before anything else is looked at, so its table never holds a writer
(`HostStore.Frozen`), and no call on it, the close of a handle included, changes the host.
Neither a write nor a close asks for the flag.  They are harmless because of the table, which
stays without writers whatever happens to the host (`read_only_keeps_host`).

A store in memory has no such flag.  `read_only_iff_host` says what that makes of a
configuration: a mount that asks to be read-only is so if it is on the host, and a mount in
memory is the same store whatever it asks for.  The host as a whole is shared, so what keeps
it is said of every event: it changes from outside, or by a request that leads to a store on
the host that takes changes.
-/

namespace MountFs

namespace HostStore

variable {s : HostStore} {w : World} {c : Call} {now : HostStore × World}

/-! ## A store that takes no changes -/

/-- A read-only store without writers. -/
structure Frozen (s : HostStore) : Prop where
  flag : s.readOnly = true
  readers : ∀ {id h}, s.handles.live.get? id = some h → h.mode.isWriter = false

theorem Effect.readOnly_eq (h : Effect s w c now) : now.1.readOnly = s.readOnly := by
  cases h with
  | opened opens =>
      obtain ⟨_, _, _, rfl⟩ := exists_opens opens
      rfl
  | _ => rfl

/-- No call gives such a store a writer or changes the host. -/
theorem Frozen.effect (frozen : s.Frozen) (h : Effect s w c now) : now.1.Frozen ∧ now.2 = w := by
  have flag := h.readOnly_eq.trans frozen.flag
  cases h with
  | kept => exact ⟨frozen, rfl⟩
  | renamed writable =>
      rw [frozen.flag] at writable
      cases writable
  | opened opens =>
      obtain ⟨h, starts, _, rfl⟩ := exists_opens opens
      refine ⟨⟨flag, fun live => ?_⟩, rfl⟩
      rcases Handles.get?_extended.mp live with ⟨_, rfl⟩ | ⟨_, old⟩
      · rw [Bool.eq_false_iff]
        intro writer
        have taken := starts.writable (starts.mode_eq ▸ writer)
        rw [frozen.flag] at taken
        cases taken
      · exact frozen.readers old
  | used held same =>
      refine ⟨⟨flag, fun live => ?_⟩, rfl⟩
      obtain ⟨old, found, eq⟩ := Registry.get?_adjust_eq_some.mp live
      split at eq
      · rw [← eq, same.mode]
        exact frozen.readers held
      · rw [← eq]
        exact frozen.readers found
  | ended id => exact ⟨⟨flag, fun live => frozen.readers (Handles.get?_without.mp live).2⟩, rfl⟩
  | committed live writer =>
      rw [frozen.readers live] at writer
      cases writer

theorem frozen_create (w : World) (root : String) (config : Config) :
    (create w root true config).Frozen :=
  ⟨rfl, fun live => nomatch live⟩

theorem Frozen.meet {here : HostStore × World} (frozen : here.1.Frozen) (e : HostEvent) :
    (meet here e).state.1.Frozen := by
  cases e with
  | call c => exact (frozen.effect (here.1.call_effect here.2 c)).1
  | change f => exact frozen

/-- After any run of a read-only store, whatever happened to the host in between, every live
handle is a reader and every call leaves the host as it is. -/
theorem read_only_keeps_host (w₀ : World) (root : String) (config : Config)
    (events : List HostEvent) :
    let here := History.final HostStore.meet (create w₀ root true config, w₀) events
    (∀ id h, here.1.handles.live.get? id = some h → h.mode = .read) ∧
      ∀ c, (here.1.call here.2 c).state.2 = here.2 := by
  intro here
  have frozen : here.1.Frozen :=
    History.final_induction (motive := fun here : HostStore × World => here.1.Frozen)
      (frozen_create w₀ root config) (fun _ e frozen => frozen.meet e) events
  refine ⟨fun id h live => ?_, fun c => (frozen.effect (here.1.call_effect here.2 c)).2⟩
  have reader := frozen.readers live
  cases mode : h.mode with
  | read => rfl
  | write | append =>
      rw [mode] at reader
      cases reader

end HostStore

/-! ## Calls on any store -/

namespace Store

/-- A store on the host stays one, and read-only or not.  If it is frozen it stays so, and
its host stays as it is. -/
theorem exists_host_of_leads {s : HostStore} {w : World} {last : Store × World}
    (leads : Leads (.host s, w) last) :
    ∃ t, last.1 = .host t ∧ t.readOnly = s.readOnly ∧ (s.Frozen → t.Frozen ∧ last.2 = w) := by
  obtain ⟨calls, rfl⟩ := leads
  induction calls generalizing s w with
  | nil => exact ⟨s, rfl, rfl, fun frozen => ⟨frozen, rfl⟩⟩
  | cons e rest ih =>
      have effect := s.call_effect w e.call
      obtain ⟨t, host, flag, stays⟩ := @ih (s.call w e.call).state.1 (s.call w e.call).state.2
      refine ⟨t, host, flag.trans effect.readOnly_eq, fun frozen => ?_⟩
      obtain ⟨frozen', world⟩ := frozen.effect effect
      obtain ⟨last, same⟩ := stays frozen'
      exact ⟨last, same.trans world⟩

/-- A store on the host was one before. -/
theorem exists_host_of_leads_host {start last : Store × World} {t : HostStore}
    (leads : Leads start last) (host : last.1 = .host t) :
    ∃ s, start.1 = .host s ∧ t.readOnly = s.readOnly ∧ (s.Frozen → t.Frozen) := by
  obtain ⟨store, w⟩ := start
  cases store with
  | host s =>
      obtain ⟨t', host', flag, stays⟩ := exists_host_of_leads leads
      cases host.symm.trans host'
      exact ⟨s, rfl, flag, fun frozen => (stays frozen).1⟩
  | memory s =>
      obtain ⟨calls, rfl⟩ := leads
      rw [run_memory] at host
      cases host
  | failing =>
      obtain ⟨calls, rfl⟩ := leads
      rw [run_failing] at host
      cases host

/-- The host changes only through a store that is on it and not frozen. -/
theorem exists_host_of_world_ne {start last : Store × World} (leads : Leads start last)
    (changed : last.2 ≠ start.2) : ∃ s, start.1 = .host s ∧ ¬s.Frozen := by
  obtain ⟨store, w⟩ := start
  cases store with
  | host s =>
      refine ⟨s, rfl, fun frozen => ?_⟩
      obtain ⟨_, _, _, stays⟩ := exists_host_of_leads leads
      exact changed (stays frozen).2
  | memory s =>
      obtain ⟨calls, rfl⟩ := leads
      rw [run_memory] at changed
      exact absurd rfl changed
  | failing =>
      obtain ⟨calls, rfl⟩ := leads
      rw [run_failing] at changed
      exact absurd rfl changed

end Store

/-! ## In a namespace -/

namespace Namespace

variable {ns after : Namespace} {e : NamespaceEvent}

/-- Every read-only store on the host is frozen. -/
def ReadOnlyFrozen (ns : Namespace) : Prop :=
  ∀ s, .host s ∈ ns.stores → s.readOnly = true → s.Frozen

theorem frozen_of_makeStore {w : World} {config : Config} {now : Time} {spec : MountSpec}
    {s : HostStore} (made : makeStore w config now spec = .ok (.host s))
    (flag : s.readOnly = true) : s.Frozen := by
  unfold makeStore at made
  split at made
  · cases made
  · split at made
    next root given =>
      cases made
      have asked : spec.readOnly = true := flag
      rw [asked]
      exact HostStore.frozen_create w root config
    · cases made

theorem ReadOnlyFrozen.effect (frozen : ns.ReadOnlyFrozen) (h : Effect ns e after) :
    after.ReadOnlyFrozen := by
  intro s there
  refine h.forall_stores (fun store => ∀ s, store = .host s → s.readOnly = true → s.Frozen)
    ?_ ?_ ?_ _ there s rfl
  · rintro _ there s rfl
    exact frozen s there
  · rintro now config spec _ - made s rfl
    exact frozen_of_makeStore made
  · intro start last leads kept s host flag
    obtain ⟨before, host', same, stays⟩ := Store.exists_host_of_leads_host leads host
    exact stays (kept before host' (same.symm.trans flag))

theorem Reachable.readOnlyFrozen (reach : ns.Reachable) : ns.ReadOnlyFrozen := by
  refine reach.induction ?_ ReadOnlyFrozen.effect
  intro world s there
  cases there

/-- What may change the host: a change from outside, or a request that leads to a store on
the host that takes changes. -/
inductive ChangesHost (ns : Namespace) : NamespaceEvent → Prop
  | outside (f : World → World) : ChangesHost ns (.change f)
  | through {now : Time} {request : Request} {index : Nat} {s : HostStore}
      (aims : ns.target request = some index) (host : ns.storeAt index = .host s)
      (writable : s.readOnly = false) : ChangesHost ns (.ask now request)

theorem ReadOnlyFrozen.changesHost (frozen : ns.ReadOnlyFrozen) (h : Effect ns e after)
    (changed : after.world ≠ ns.world) : ns.ChangesHost e := by
  cases h with
  | changed f => exact .outside f
  | used aims leads =>
      obtain ⟨s, host, thawed⟩ := Store.exists_host_of_world_ne leads changed
      refine .through aims host (Bool.eq_false_iff.mpr fun flag => thawed ?_)
      exact frozen s (mem_stores_of_storeAt host (by simp)) flag
  | mounted mounts =>
      obtain ⟨_, rfl⟩ := mount_eq_ok_iff.mp mounts
      exact absurd rfl changed
  | unmounted unmounts =>
      obtain ⟨_, rfl⟩ := unmount_eq_ok_iff.mp unmounts
      exact absurd rfl changed
  | _ => exact absurd rfl changed

/-! ## One store that takes no changes -/

/-- The store at a position is on the host and read-only. -/
def ReadOnlyAt (ns : Namespace) (index : Nat) : Prop :=
  ∃ s, ns.storeAt index = .host s ∧ s.readOnly = true

theorem ReadOnlyAt.effect {index : Nat} (h : ns.ReadOnlyAt index) (effect : Effect ns e after) :
    after.ReadOnlyAt index := by
  obtain ⟨s, host, flag⟩ := h
  cases effect with
  | made made => exact ⟨s, (storeAt_addStore (by simp [host]) _).trans host, flag⟩
  | mounted mounts =>
      obtain ⟨_, rfl⟩ := mount_eq_ok_iff.mp mounts
      exact ⟨s, host, flag⟩
  | unmounted unmounts =>
      obtain ⟨_, rfl⟩ := unmount_eq_ok_iff.mp unmounts
      exact ⟨s, host, flag⟩
  | @used now request other last aims leads =>
      by_cases here : other = index
      · subst here
        rw [host] at leads
        obtain ⟨t, host', same, _⟩ := Store.exists_host_of_leads leads
        refine ⟨t, ?_, same.trans flag⟩
        rw [storeAt_withStore_self (by simp [host]), host']
      · exact ⟨s, (ns.storeAt_withStore_of_ne here last).trans host, flag⟩
  | _ => exact ⟨s, host, flag⟩

theorem ReadOnlyAt.run {index : Nat} (h : ns.ReadOnlyAt index) (events : List NamespaceEvent) :
    (ns.run events).ReadOnlyAt index :=
  History.final_induction (motive := fun ns : Namespace => ns.ReadOnlyAt index) h
    (fun ns e h => h.effect (step_effect ns e)) events

/-- The store at a position shows that it takes no changes, and takes none. -/
structure TakesNoChange (ns : Namespace) (index : Nat) : Prop where
  /-- A mount of it is listed as read-only. -/
  told : ∀ m ∈ ns.mounts, m.store = index →
    ns.mountInfo m = ⟨m.path, m.name, .host, true⟩
  /-- Every change through a path that leads to it is refused, and nothing happens. -/
  refuses : ∀ path r, ns.route path = .ok r → r.mount.store = index → ∀ now content,
    ns.createDirectory now path = ⟨ns, .error .readOnly⟩
      ∧ ns.createFile now path content = ⟨ns, .error .readOnly⟩
      ∧ ns.writeWhole now path content = ⟨ns, .error .readOnly⟩
      ∧ ns.appendWhole now path content = ⟨ns, .error .readOnly⟩
      ∧ ns.deleteFile now path = ⟨ns, .error .readOnly⟩
  /-- No request that reaches it changes the host. -/
  keeps : ∀ now request, ns.target request = some index →
    (ns.answer now request).state.world = ns.world

theorem withStore_storeAt (ns : Namespace) (index : Nat) :
    ns.withStore index (ns.storeAt index, ns.world) = ns := by
  have same : ns.stores.set index (ns.storeAt index) = ns.stores := by
    by_cases inside : index < ns.stores.length
    · simp [storeAt, List.getElem?_eq_getElem inside]
    · exact List.set_eq_of_length_le (Nat.le_of_not_lt inside)
  rw [withStore, same]

/-- A step that is refused and leaves its store and the host leaves the namespace. -/
theorem onRoute_of_refused {α : Type} {path : String} {r : Route} {refusal : FsError}
    {step : Route → Store → World → Step (Store × World) α} (found : ns.route path = .ok r)
    (refused : step r (ns.storeAt r.mount.store) ns.world
      = ⟨(ns.storeAt r.mount.store, ns.world), .error refusal⟩) :
    ns.onRoute path step = ⟨ns, .error refusal⟩ := by
  rw [onRoute_of_route found, refused, Step.lift, withStore_storeAt]

theorem ReadOnlyAt.takesNoChange {index : Nat} (h : ns.ReadOnlyAt index)
    (frozen : ns.ReadOnlyFrozen) : ns.TakesNoChange index := by
  obtain ⟨s, host, flag⟩ := h
  have leave : s.checkWritable = .error .readOnly := if_pos flag
  refine ⟨?_, ?_, ?_⟩
  · rintro m _ rfl
    rw [mountInfo, host]
    simp only [Store.kind, Store.readOnly, flag]
  · rintro path r found rfl now content
    refine ⟨onRoute_of_refused found ?_, onRoute_of_refused found ?_, onRoute_of_refused found ?_,
      onRoute_of_refused found ?_, onRoute_of_refused found ?_⟩
    all_goals rw [host]
    · simp only [Store.createDirectory, HostStore.createDirectory, leave]
      rfl
    · simp only [Store.createFile, HostStore.createFile, leave]
      rfl
    · simp only [Store.createFile, HostStore.createFile, leave]
      rfl
    · simp only [Store.createFile, HostStore.createFile, leave]
      rfl
    · simp only [Store.deleteFile, HostStore.deleteFile, leave]
      rfl
  · intro now request aims
    by_cases same : (ns.answer now request).state.world = ns.world
    · exact same
    · cases frozen.changesHost (answer_effect ns now request) same with
      | through aims' host' writable =>
          cases aims.symm.trans aims'
          cases host.symm.trans host'
          rw [flag] at writable
          cases writable

/-! ## From a configuration -/

/-- A mount that a configuration asks for, with the store that is made for it. -/
structure Configured (ns : Namespace) (world : World) (config : Config) (now : Time)
    (spec : MountSpec) (m : Mount) : Prop where
  mem : m ∈ ns.mounts
  path : m.path = Path.resolve Path.root spec.path
  name : m.name = spec.name
  store : makeStore world config now spec = .ok (ns.storeAt m.store)

theorem ne_failing_of_makeStore {w : World} {config : Config} {now : Time} {spec : MountSpec}
    {store : Store} (made : makeStore w config now spec = .ok store) : store ≠ .failing := by
  rintro rfl
  unfold makeStore at made
  split at made
  · cases made
  · split at made <;> cases made

/-- Later mounts of a list leave earlier ones and their stores. -/
theorem Configured.mountAll {world : World} {config config' : Config} {now now' : Time}
    {spec : MountSpec} {m : Mount} (h : ns.Configured world config now spec m)
    {specs : List MountSpec} (rest : mountAll config' now' ns specs = .ok after) :
    after.Configured world config now spec m := by
  induction specs generalizing ns with
  | nil =>
      cases rest
      exact h
  | cons next others ih =>
      obtain ⟨store, _, rest⟩ := Except.bind_eq_ok.mp rest
      obtain ⟨mounted, mounts, rest⟩ := Except.bind_eq_ok.mp rest
      obtain ⟨_, rfl⟩ := mount_eq_ok_iff.mp mounts
      refine ih ⟨mem_insertSorted.mpr (Or.inr h.mem), h.path, h.name, ?_⟩ rest
      have kept := storeAt_addStore (ne_failing_of_makeStore h.store) store
      exact h.store.trans (congrArg Except.ok kept.symm)

/-- Every mount of a list is there in the end. -/
theorem exists_configured {config : Config} {now : Time} {specs : List MountSpec}
    (h : mountAll config now ns specs = .ok after) {spec : MountSpec} (listed : spec ∈ specs) :
    ∃ m, after.Configured ns.world config now spec m := by
  induction specs generalizing ns with
  | nil => cases listed
  | cons first others ih =>
      obtain ⟨store, made, rest⟩ := Except.bind_eq_ok.mp h
      obtain ⟨mounted, mounts, rest⟩ := Except.bind_eq_ok.mp rest
      obtain ⟨_, rfl⟩ := mount_eq_ok_iff.mp mounts
      rcases List.mem_cons.mp listed with rfl | later
      · refine ⟨_, Configured.mountAll ⟨mem_insertSorted.mpr (Or.inl rfl), rfl, rfl, ?_⟩ rest⟩
        have last : (ns.addStore store).1.storeAt ns.stores.length = store := by
          simp [storeAt, addStore]
        exact made.trans (congrArg Except.ok last.symm)
      · have configured := ih rest later
        exact configured

theorem exists_configured_of_ofConfig {world : World} {config : Config} {now : Time}
    (h : ofConfig world config now = .ok ns) {spec : MountSpec} (listed : spec ∈ config.mounts) :
    ∃ m, ns.Configured world config now spec m := by
  have some : config.mounts.isEmpty = false := by
    rw [List.isEmpty_eq_false_iff]
    exact List.ne_nil_of_mem listed
  rw [ofConfig, some] at h
  exact exists_configured h listed

/-- What is told about a mount, by what the configuration asks for. -/
theorem Configured.mountInfo_eq {world : World} {config : Config} {now : Time} {spec : MountSpec}
    {m : Mount} (h : ns.Configured world config now spec m) :
    ns.mountInfo m = ⟨Path.resolve Path.root spec.path, spec.name, spec.kind,
      spec.kind == .host && spec.readOnly⟩ := by
  have made := h.store
  unfold makeStore at made
  rw [mountInfo, h.path, h.name]
  split at made
  next virtual =>
    rw [← Except.ok.inj made, virtual]
    rfl
  next host =>
    split at made
    · rw [← Except.ok.inj made, host]
      rfl
    · cases made

theorem Configured.store_of_virtual {world : World} {config : Config} {now : Time}
    {spec : MountSpec} {m : Mount} (h : ns.Configured world config now spec m)
    (virtual : spec.kind = .virtual) : ns.storeAt m.store = .memory (.create config now) := by
  have made := h.store
  rw [makeStore, virtual] at made
  exact (Except.ok.inj made).symm

theorem Configured.readOnlyAt {world : World} {config : Config} {now : Time} {spec : MountSpec}
    {m : Mount} (h : ns.Configured world config now spec m) (host : spec.kind = .host)
    (asks : spec.readOnly = true) : ns.ReadOnlyAt m.store := by
  have made := h.store
  rw [makeStore, host] at made
  dsimp only at made
  split at made
  · exact ⟨_, (Except.ok.inj made).symm, asks⟩
  · cases made

/-- The mount of an entry of the configuration is read-only exactly if it is on the host and
asks to be.  Then it takes no change in any run.  In memory it is an ordinary store, whatever
it asks for.  In every run the host changes from outside, or through a store on the host
that takes changes, and in no other way. -/
theorem read_only_iff_host {world : World} {config : Config} {now : Time}
    (h : ofConfig world config now = .ok ns) {spec : MountSpec} (listed : spec ∈ config.mounts) :
    (∃ m ∈ ns.mounts,
      ns.mountInfo m = ⟨Path.resolve Path.root spec.path, spec.name, spec.kind,
        spec.kind == .host && spec.readOnly⟩
      ∧ (spec.kind = .virtual → ns.storeAt m.store = .memory (.create config now))
      ∧ (spec.kind = .host → spec.readOnly = true →
        ∀ events, (ns.run events).TakesNoChange m.store))
    ∧ ∀ events e, ((ns.run events).step e).state.world ≠ (ns.run events).world →
        (ns.run events).ChangesHost e := by
  have reach := reachable_ofConfig h
  obtain ⟨m, configured⟩ := exists_configured_of_ofConfig h listed
  refine ⟨⟨m, configured.mem, configured.mountInfo_eq, configured.store_of_virtual, ?_⟩, ?_⟩
  · intro host asks events
    exact ((configured.readOnlyAt host asks).run events).takesNoChange
      (reach.run events).readOnlyFrozen
  · intro events e changed
    exact (reach.run events).readOnlyFrozen.changesHost (step_effect _ e) changed

/-- A store in memory and one on the host, which both ask to be read-only. -/
def shelves : Config :=
  { mounts := [⟨"/", "root", .virtual, none, true⟩, ⟨"host", "host", .host, some "/root", true⟩] }

/-- What is made of it. -/
def shelved : Namespace where
  world := World.crossed
  stores := [.memory (.create shelves 0), .host (.create World.crossed "/root" true shelves)]
  mounts := [⟨"/", "root", 0⟩, ⟨"/host", "host", 1⟩]

theorem ofConfig_shelves : ofConfig World.crossed shelves 0 = .ok shelved := rfl

/-- The file on the host is open and its directory is the current one, and it takes no
write. -/
theorem read_only_iff_host_shelved :
    let later := shelved.run [.ask 1 (.store 1 (.openFile "/f" .read)),
      .ask 2 (.changeDirectory "host")]
    ofConfig World.crossed shelves 0 = .ok shelved
      ∧ ⟨"/host", "host", .host, true⟩ ∈ shelved.listMounts
      ∧ later.writeWhole 3 "f" [121] = ⟨later, .error .readOnly⟩ := by
  intro later
  have listed : ⟨"host", "host", .host, some "/root", true⟩ ∈ shelves.mounts := by decide
  obtain ⟨⟨m, there, info, _, takes⟩, _⟩ := read_only_iff_host ofConfig_shelves listed
  have second : m = ⟨"/host", "host", 1⟩ := by
    have name : m.name = "host" := congrArg MountInfo.name info
    rcases List.mem_cons.mp there with rfl | there
    · exact absurd name (by decide)
    · exact List.mem_singleton.mp there
  have route : later.route "f" = .ok ⟨m, "/f"⟩ := by
    rw [second]
    decide +kernel
  refine ⟨ofConfig_shelves, ?_, ?_⟩
  · exact List.mem_map.mpr ⟨m, there, info⟩
  · exact ((takes rfl rfl _).refuses "f" _ route rfl 3 [121]).2.2.1

/-- The mount in memory asks for the same.  It is listed as one that takes changes, and it
takes them. -/
theorem read_only_virtual_mount_takes_writes :
    ⟨"/", "root", .virtual, none, true⟩ ∈ shelves.mounts
      ∧ ofConfig World.crossed shelves 0 = .ok shelved
      ∧ shelved.listMounts = [⟨"/", "root", .virtual, false⟩, ⟨"/host", "host", .host, true⟩]
      ∧ shelved.route "/f" = .ok ⟨⟨"/", "root", 0⟩, "/f"⟩
      ∧ (shelved.readWhole 1 "/f").outcome = .error (.notFound "/f")
      ∧ (shelved.writeWhole 1 "/f" [120]).outcome = .ok ()
      ∧ ((shelved.writeWhole 1 "/f" [120]).state.readWhole 2 "/f").outcome = .ok [120] := by
  refine ⟨by decide, ofConfig_shelves, ?_, ?_, ?_, ?_, ?_⟩
  all_goals decide +kernel

end Namespace

end MountFs
