import MountFs.Proofs.WholeFiles

/-!
# Writes that fail

A write of a whole file makes the file if it is missing, opens it, writes and closes.  Each
of these can be refused.  A session that is refused or given up changes no entry, so what a
write that fails leaves behind is what the first step made: an empty file, and the time of
change of the directory it is in (`GainsEmpty`).  The file is not taken away again.
-/

namespace MountFs

/-- Where a directory had no entry, the later store has an empty file.  All else is as it was,
but for the time of change of the directory. -/
structure MemoryStore.GainsEmpty (s : MemoryStore) (now : Time) (path : String)
    (t : MemoryStore) : Prop where
  missing : s.nodes.get? path = none
  parent : ∃ up dir, Path.parent? path = some up ∧ s.nodes.get? up = some dir
    ∧ dir.entry.kind = .directory
  file : t.nodes.get? path = some ⟨s.nextNode, .file now path s.permissions.file [], []⟩
  others : ∀ q, q ≠ path → t.nodes.get? q = (s.nodes.get? q).map fun node =>
    if Path.parent? path = some q then { node with entry := node.entry.touch now } else node

theorem MemoryStore.gainsEmpty_prepared {s t : MemoryStore} {now : Time} {path : String}
    (free : s.checkCreatable path = .ok ()) (nodes : t.nodes = (s.prepared now path).nodes) :
    s.GainsEmpty now path t := by
  obtain ⟨missing, parent⟩ := checkCreatable_eq_ok_iff.mp free
  refine ⟨missing, parent, ?_, fun q other => ?_⟩
  · rw [nodes]
    exact get?_prepared_self now free
  · rw [nodes]
    exact get?_prepared_of_ne now free other

namespace Namespace

variable {ns : Namespace} {path : String}

/-- A path leads to `inner` in the store at a position, and a file can be made there. -/
def MakesAt (ns : Namespace) (path : String) (index : Nat) (s : MemoryStore) (inner : String) :
    Prop :=
  ∃ m, ns.route path = .ok ⟨m, inner⟩ ∧ m.store = index ∧ s.checkCreatable inner = .ok ()

theorem Tidy.nodes_of_writeWith (tidy : ns.Tidy) {now : Time} {mode : OpenMode} {content : Bytes}
    {after : Namespace} {e : FsError} (h : ns.writeWith now path mode content = ⟨after, .error e⟩)
    {index : Nat} {s : MemoryStore} (memory : ns.storeAt index = .memory s) :
    ∃ t, after.storeAt index = .memory t ∧
      ((∃ inner, ns.MakesAt path index s inner ∧ s.GainsEmpty now inner t)
        ∨ (¬∃ inner, ns.MakesAt path index s inner) ∧ t.nodes = s.nodes) := by
  obtain ⟨t, memory', writes⟩ := tidy.memory_of_writeWith now path mode content memory
  rw [h] at memory' writes
  refine ⟨t, memory', ?_⟩
  rcases writes with ⟨r, found, here, writes⟩ | ⟨away, rfl⟩
  · have nodes := writes.nodes_of_error
    cases free : s.checkCreatable r.inner with
    | ok _ =>
        have gains := MemoryStore.gainsEmpty_prepared free nodes
        exact Or.inl ⟨r.inner, ⟨r.mount, found, here, free⟩, gains⟩
    | error refusal =>
        rw [MemoryStore.prepared_of_error now free] at nodes
        refine Or.inr ⟨?_, nodes⟩
        rintro ⟨inner, m, found', _, free'⟩
        cases found.symm.trans found'
        cases free.symm.trans free'
  · refine Or.inr ⟨?_, rfl⟩
    rintro ⟨inner, m, found, here, _⟩
    exact away _ found here

/-- A write of a whole file that fails changes no entry of any store, but for one case.  If
the file was missing and could be made, it is there now, and is empty. -/
theorem failed_write_leaves_at_most_empty_file (reach : ns.Reachable) {now : Time}
    {content : Bytes} {after : Namespace} {e : FsError}
    (fails : ns.writeWhole now path content = ⟨after, .error e⟩
      ∨ ns.appendWhole now path content = ⟨after, .error e⟩)
    {index : Nat} {s : MemoryStore} (memory : ns.storeAt index = .memory s) :
    ∃ t, after.storeAt index = .memory t ∧
      ((∃ inner, ns.MakesAt path index s inner ∧ s.GainsEmpty now inner t)
        ∨ (¬∃ inner, ns.MakesAt path index s inner) ∧ t.nodes = s.nodes) := by
  rcases fails with h | h
  · exact reach.tidy.nodes_of_writeWith h memory
  · exact reach.tidy.nodes_of_writeWith h memory

/-- A store in memory at the root, whose files may hold four bytes. -/
def narrow : Namespace :=
  (empty (World.bare [])).run
    [.make 0 { limits := { maxFileSize := 4 } } ⟨"/", "root", .virtual, none, false⟩,
      .ask 0 (.mount "/" "root" 0)]

/-- Content that has no room there. -/
def tooLong : Bytes := [116, 111, 111, 32, 108, 111, 110, 103]

theorem reachable_narrow : narrow.Reachable := ⟨World.bare [], _, rfl⟩

theorem storeAt_narrow :
    narrow.storeAt 0 = .memory (.create { limits := { maxFileSize := 4 } } 0) := by
  decide +kernel

theorem outcome_narrow :
    (narrow.writeWhole 1 "/f" tooLong).outcome = .error (.fileTooLarge "/f" 8 4) := by
  decide +kernel

/-- Content beyond the limit leaves the file that was made for it. -/
theorem failed_write_leaves_at_most_empty_file_narrow :
    narrow.Reachable
      ∧ ∃ after, narrow.writeWhole 1 "/f" tooLong = ⟨after, .error (.fileTooLarge "/f" 8 4)⟩
        ∧ ∃ t, after.storeAt 0 = .memory t
          ∧ (MemoryStore.create { limits := { maxFileSize := 4 } } 0).GainsEmpty 1 "/f" t := by
  have fails := Step.eq_of_outcome outcome_narrow
  obtain ⟨t, memory, ⟨inner, ⟨m, found, _⟩, gains⟩ | ⟨none, _⟩⟩ :=
    failed_write_leaves_at_most_empty_file reachable_narrow (Or.inl fails) storeAt_narrow
  · have route : narrow.route "/f" = .ok ⟨⟨"/", "root", 0⟩, "/f"⟩ := by decide +kernel
    cases found.symm.trans route
    exact ⟨reachable_narrow, _, fails, t, memory, gains⟩
  · exact absurd ⟨"/f", ⟨"/", "root", 0⟩, by decide +kernel, rfl, by decide +kernel⟩ none

/-- So the entries of a store need not be the same after a write that fails. -/
theorem failed_write_leaves_trace :
    narrow.Reachable ∧ narrow.SeparateMounts
      ∧ ∃ after e, narrow.writeWhole 1 "/f" tooLong = ⟨after, .error e⟩
        ∧ ¬∀ index s, narrow.storeAt index = .memory s →
          ∃ t, after.storeAt index = .memory t ∧ t.nodes = s.nodes := by
  have mounts : narrow.SeparateMounts := .of_kinds (by decide +kernel) (by decide +kernel)
  have fails := Step.eq_of_outcome outcome_narrow
  refine ⟨reachable_narrow, mounts, _, _, fails, fun untouched => ?_⟩
  obtain ⟨t, memory, nodes⟩ := untouched 0 _ storeAt_narrow
  have told : (((narrow.writeWhole 1 "/f" tooLong).state.storeAt 0).stat
      (World.bare []) "/f").isOk = true := by decide +kernel
  have missing : ((narrow.storeAt 0).stat (World.bare []) "/f").isOk = false := by decide +kernel
  rw [storeAt_narrow, Store.stat, MemoryStore.stat, ← nodes] at missing
  rw [memory, Store.stat, MemoryStore.stat, missing] at told
  cases told

end Namespace

end MountFs
