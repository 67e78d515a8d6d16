import MountFs.Proofs.HostPlaces
import MountFs.Proofs.NormalPath

/-!
# Lookup on the host

A lookup follows names through directories and links.  This module says where it can
end and how lookups compose.

* Where a lookup ends, an item stands, and all names of its place are names the host
  takes (`Stands`).  A lookup that follows the last name does not end on a link.
* Names lead through a place that stands as they are (`walk_place`), so a place is its
  own canonical path.
* To follow `front ++ rest` is to follow `front` to its end, links included, and then
  `rest` with the links that are left (`walk_append`).

The statements about `walk` rest on the same statements about `descend`, which stops at
the first link.
-/

namespace MountFs

namespace World

variable {w : World}

/-! ## Places that stand -/

/-- A name that the host takes. -/
structure HostName (name : String) : Prop where
  isName : Path.IsName name
  short : name.utf8ByteSize ≤ maxNameBytes

/-- An item stands at a place, under names that the host takes. -/
structure Stands (w : World) (place : Place) (item : Item) : Prop where
  names : ∀ name ∈ place, HostName name
  found : w.at? place = some item

theorem Stands.allNames {place : Place} {item : Item} (h : w.Stands place item) :
    Path.AllNames place :=
  fun name m => (h.names name m).isName

theorem Stands.dirAt_of_cons {place rest : Place} {name : String} {item : Item}
    (h : w.Stands (place ++ name :: rest) item) : ∃ children, w.DirAt place children := by
  obtain ⟨children, dir, _⟩ := exists_dirAt_of_at?_cons h.found
  exact ⟨children, dir⟩

theorem DirAt.stands {place : Place} {children : List (String × Item)}
    (h : w.DirAt place children) (names : ∀ name ∈ place, HostName name) :
    ∃ item, w.Stands place item ∧ item.isLink = false := by
  obtain ⟨inode, mode, found⟩ := h
  exact ⟨_, ⟨names, found⟩, rfl⟩

/-- Above an item stands a directory. -/
theorem Stands.dropLast {place : Place} {item : Item} (h : w.Stands place item)
    (plain : item.isLink = false) : ∃ up, w.Stands place.dropLast up ∧ up.isLink = false := by
  cases List.eq_nil_or_concat place with
  | inl empty => exact ⟨item, by rw [empty] at h ⊢; exact h, plain⟩
  | inr split =>
      obtain ⟨front, last, rfl⟩ := split
      rw [List.concat_eq_append] at h ⊢
      rw [List.dropLast_concat]
      obtain ⟨children, dir⟩ := h.dirAt_of_cons
      exact dir.stands fun name m => h.names name (List.mem_append_left _ m)

theorem Stands.snoc {place : Place} {item child : Item} {name : String}
    {children : List (String × Item)} (h : w.Stands place item) (dir : w.DirAt place children)
    (fits : HostName name) (found : Item.child? name children = some child) :
    w.Stands (place ++ [name]) child where
  names := by
    intro other m
    rcases List.mem_append.mp m with old | new
    · exact h.names other old
    · rw [List.mem_singleton.mp new]
      exact fits
  found := by rw [dir.at?_snoc, found]

/-! ## One stretch without links -/

/-- What one stretch of a lookup can end with. -/
def Descent.Sound (w : World) (followLast : Bool) (names : List String) : Descent → Prop
  | .arrived place =>
      ∃ item, w.Stands place item ∧ (followLast = true → item.isLink = false)
  | .link dir _ rest =>
      (∃ item, w.Stands dir item ∧ item.isLink = false) ∧ ∀ name ∈ rest, name ∈ names
  | .failed _ => True

theorem Descent.Sound.cons {followLast : Bool} {names : List String} {d : Descent} {name : String}
    (h : Descent.Sound w followLast names d) : Descent.Sound w followLast (name :: names) d := by
  cases d with
  | arrived place => exact h
  | failed e => exact h
  | link dir target rest => exact ⟨h.1, fun other m => List.mem_cons_of_mem _ (h.2 other m)⟩

theorem descend_sound {here : Place} {item : Item} {names : List String} (followLast : Bool)
    (stands : w.Stands here item) (plain : item.isLink = false)
    (pieces : ∀ name ∈ names, '/' ∉ name.toList) :
    Descent.Sound w followLast names (w.descend followLast here names) := by
  induction names generalizing here item with
  | nil => exact ⟨item, stands, fun _ => plain⟩
  | cons name rest ih =>
      have later : ∀ other ∈ rest, '/' ∉ other.toList :=
        fun other m => pieces other (List.mem_cons_of_mem _ m)
      rw [descend]
      split
      next inode mode children found =>
        have dir : w.DirAt here children := ⟨inode, mode, found⟩
        split
        next => exact (ih stands plain later).cons
        next stay =>
          split
          next =>
            obtain ⟨up, hup, hplain⟩ := stands.dropLast plain
            exact (ih hup hplain later).cons
          next up =>
            split
            next => trivial
            next short =>
              have fits : HostName name :=
                ⟨⟨(not_or.mp stay).1, (not_or.mp stay).2, up, pieces name (List.mem_cons_self ..)⟩,
                  Nat.le_of_not_lt short⟩
              split
              next => trivial
              next inode target child =>
                split
                next last =>
                  refine ⟨_, stands.snoc dir fits child, ?_⟩
                  intro follow
                  simp [follow] at last
                next => exact ⟨⟨item, stands, plain⟩, fun other m => List.mem_cons_of_mem _ m⟩
              next child notLink hchild =>
                refine (ih (stands.snoc dir fits hchild) ?_ later).cons
                cases child with
                | link inode target => exact absurd rfl (notLink inode target)
                | file inode mode data => rfl
                | dir inode mode children => rfl
      next => trivial

/-- Without a directory to stand in, no name can be followed. -/
theorem exists_dirAt_of_descend {followLast : Bool} {here : Place} {name : String}
    {rest : List String} (ok : ∀ e, w.descend followLast here (name :: rest) ≠ .failed e) :
    ∃ children, w.DirAt here children := by
  rw [descend] at ok
  split at ok
  next inode mode children found => exact ⟨children, inode, mode, found⟩
  next => exact absurd rfl (ok _)

/-- Names lead through a place that stands as they are. -/
theorem descend_place {followLast : Bool} {here place : Place} {item : Item}
    (stands : w.Stands (here ++ place) item) (plain : item.isLink = false) (rest : List String) :
    w.descend followLast here (place ++ rest) = w.descend followLast (here ++ place) rest := by
  induction place generalizing here with
  | nil => simp
  | cons name place ih =>
      obtain ⟨children, ⟨inode, mode, found⟩, below⟩ := exists_dirAt_of_at?_cons stands.found
      obtain ⟨child, hchild, hrest⟩ := Option.bind_eq_some_iff.mp below
      have fits : HostName name := stands.names name (by simp)
      -- The child is not a link: either the item itself or a directory above it.
      have notLink : child.isLink = false := by
        cases child with
        | file inode mode data => rfl
        | dir inode mode children => rfl
        | link inode target =>
            cases place with
            | nil =>
                rw [Item.at?_nil] at hrest
                cases hrest
                exact plain
            | cons next place => cases hrest
      have step : w.descend followLast here (name :: (place ++ rest))
          = w.descend followLast (here ++ [name]) (place ++ rest) := by
        have stay : ¬(name = "" ∨ name = ".") :=
          not_or.mpr ⟨fits.isName.ne_empty, fits.isName.ne_dot⟩
        rw [descend, found]
        simp only [if_neg stay, if_neg fits.isName.ne_dots, if_neg (Nat.not_lt.mpr fits.short),
          hchild]
        cases child with
        | file inode mode data => rfl
        | dir inode mode children => rfl
        | link inode target => cases notLink
      have split : here ++ name :: place = here ++ [name] ++ place := by simp
      rw [List.cons_append, step, split]
      rw [split] at stands
      exact ih stands

/-- One stretch over names in two parts. -/
theorem descend_append {followLast : Bool} {here : Place} {front rest : List String}
    (more : rest ≠ []) :
    w.descend followLast here (front ++ rest) =
      match w.descend true here front with
      | .arrived place => w.descend followLast place rest
      | .link dir target left => .link dir target (left ++ rest)
      | .failed e => .failed e := by
  induction front generalizing here with
  | nil => rfl
  | cons name front ih =>
      rw [List.cons_append, descend, descend]
      split
      next =>
        split
        next => exact ih
        next =>
          split
          next => exact ih
          next =>
            split
            next => rfl
            next =>
              split
              next => rfl
              next => simp [more]
              next => exact ih
      next => rfl

/-! ## Whole lookups -/

theorem walk_eq (w : World) (followLast : Bool) (links : Nat) (here : Place)
    (names : List String) :
    w.walk followLast links here names =
      match w.descend followLast here names with
      | .arrived place => .ok place
      | .failed e => .error e
      | .link dir target rest =>
          match links with
          | 0 => .error .tooManyLinks
          | links + 1 =>
              w.walk followLast links (if Path.isAbsolute target then [] else dir)
                (Path.pieces target ++ rest) :=
  walk.eq_def w followLast links here names

theorem walk_congr {followLast : Bool} {here here' : Place} {names names' : List String}
    (same : w.descend followLast here names = w.descend followLast here' names') (links : Nat) :
    w.walk followLast links here names = w.walk followLast links here' names' := by
  rw [walk_eq, same, ← walk_eq]

/-- A lookup that arrives does so in one stretch, or goes on behind a link. -/
theorem walk_eq_ok {followLast : Bool} {links : Nat} {here place : Place} {names : List String}
    (arrives : w.walk followLast links here names = .ok place) :
    w.descend followLast here names = .arrived place ∨
      ∃ dir target rest left, w.descend followLast here names = .link dir target rest
        ∧ links = left + 1
        ∧ w.walk followLast left (if Path.isAbsolute target then [] else dir)
            (Path.pieces target ++ rest) = .ok place := by
  rw [walk_eq] at arrives
  cases stretch : w.descend followLast here names with
  | arrived there =>
      rw [stretch] at arrives
      cases arrives
      exact Or.inl rfl
  | failed e =>
      rw [stretch] at arrives
      cases arrives
  | link dir target rest =>
      rw [stretch] at arrives
      cases links with
      | zero => cases arrives
      | succ left => exact Or.inr ⟨dir, target, rest, left, rfl, rfl, arrives⟩

/-- Where a lookup ends, an item stands. -/
theorem walk_stands {followLast : Bool} {links : Nat} {here place : Place} {item top : Item}
    {names : List String} (stands : w.Stands here item) (plain : item.isLink = false)
    (root : w.Stands [] top) (rootPlain : top.isLink = false)
    (pieces : ∀ name ∈ names, '/' ∉ name.toList)
    (arrives : w.walk followLast links here names = .ok place) :
    ∃ found, w.Stands place found ∧ (followLast = true → found.isLink = false) := by
  induction links generalizing here item names with
  | zero =>
      have sound := descend_sound followLast stands plain pieces
      rcases walk_eq_ok arrives with stretch | ⟨_, _, _, _, _, none, _⟩
      · rw [stretch] at sound
        exact sound
      · cases none
  | succ links ih =>
      have sound := descend_sound followLast stands plain pieces
      rcases walk_eq_ok arrives with stretch | ⟨dir, target, rest, left, stretch, eq, goesOn⟩
      · rw [stretch] at sound
        exact sound
      · rw [stretch] at sound
        obtain ⟨⟨dirItem, hdir, dirPlain⟩, left⟩ := sound
        cases eq
        have later : ∀ name ∈ Path.pieces target ++ rest, '/' ∉ name.toList := by
          intro name m
          rcases List.mem_append.mp m with piece | old
          · exact Path.not_mem_of_mem_pieces piece
          · exact pieces name (left name old)
        cases absolute : Path.isAbsolute target with
        | true =>
            simp only [absolute, if_true] at goesOn
            exact ih root rootPlain later goesOn
        | false =>
            simp only [absolute, Bool.false_eq_true, if_false] at goesOn
            exact ih hdir dirPlain later goesOn

/-- Something that is no link is at a place. -/
def PlainAt (w : World) (place : Place) : Prop :=
  ∃ item, w.at? place = some item ∧ item.isLink = false

theorem DirAt.plainAt {place : Place} {children : List (String × Item)}
    (h : w.DirAt place children) : w.PlainAt place := by
  obtain ⟨inode, mode, found⟩ := h
  exact ⟨_, found, rfl⟩

theorem DirAt.plainAt_dropLast {place : Place} {children : List (String × Item)}
    (h : w.DirAt place children) : w.PlainAt place.dropLast := by
  rcases List.eq_nil_or_concat place with rfl | ⟨front, last, rfl⟩
  · exact h.plainAt
  · obtain ⟨inode, mode, found⟩ := h
    rw [List.concat_eq_append] at found ⊢
    obtain ⟨_, dir, _⟩ := exists_dirAt_of_at?_cons found
    rw [List.dropLast_concat]
    exact dir.plainAt

/-- A stretch that follows the last name does not end on a link. -/
theorem plainAt_of_descend {here place : Place} {names : List String} (plain : w.PlainAt here)
    (arrives : w.descend true here names = .arrived place) : w.PlainAt place := by
  induction names generalizing here with
  | nil =>
      cases arrives
      exact plain
  | cons name rest ih =>
      rw [descend] at arrives
      split at arrives
      next inode mode children found =>
        have dir : w.DirAt here children := ⟨inode, mode, found⟩
        split at arrives
        next => exact ih plain arrives
        next =>
          split at arrives
          next => exact ih dir.plainAt_dropLast arrives
          next =>
            split at arrives
            next => cases arrives
            next =>
              split at arrives
              next => cases arrives
              next => simp at arrives
              next child notLink hchild =>
                refine ih ⟨child, by rw [dir.at?_snoc, hchild], ?_⟩ arrives
                cases child with
                | link inode target => exact absurd rfl (notLink inode target)
                | file inode mode data => rfl
                | dir inode mode children => rfl
      next => cases arrives

/-- A lookup that follows the last name does not end on a link, wherever it starts. -/
theorem plainAt_of_walk {links : Nat} {here place : Place} {names : List String}
    (more : names ≠ []) (arrives : w.walk true links here names = .ok place) :
    w.PlainAt place := by
  have stretch : ∀ {here names}, names ≠ [] → w.descend true here names = .arrived place →
      w.PlainAt place := by
    intro here names more arrives
    obtain ⟨name, rest, rfl⟩ := List.exists_cons_of_ne_nil more
    obtain ⟨_, dir⟩ := exists_dirAt_of_descend (by rw [arrives]; simp)
    exact plainAt_of_descend dir.plainAt arrives
  induction links generalizing here names with
  | zero =>
      rcases walk_eq_ok arrives with direct | ⟨_, _, _, _, _, none, _⟩
      · exact stretch more direct
      · cases none
  | succ links ih =>
      rcases walk_eq_ok arrives with direct | ⟨_, target, rest, _, _, fewer, goesOn⟩
      · exact stretch more direct
      · cases fewer
        exact ih (List.append_ne_nil_of_left_ne_nil (Path.pieces_ne_nil target) rest) goesOn

theorem plainAt_of_lookup {text : String} {place : Place}
    (arrives : w.lookup true text = .ok place) : w.PlainAt place := by
  obtain ⟨_, _, arrives⟩ := Except.bind_eq_ok.mp arrives
  exact plainAt_of_walk (Path.pieces_ne_nil text) arrives

/-- To follow names in two parts is to follow the first part to its end, and then the
second with the links that are left. -/
theorem walk_append (w : World) (followLast : Bool) (links : Nat) (here : Place)
    (front : List String) {rest : List String} (more : rest ≠ []) :
    (∃ e, w.walk true links here front = .error e
        ∧ w.walk followLast links here (front ++ rest) = .error e) ∨
      ∃ place left, w.walk true links here front = .ok place
        ∧ w.walk followLast links here (front ++ rest) = w.walk followLast left place rest := by
  induction links generalizing here front with
  | zero =>
      rw [walk_eq, walk_eq w followLast, descend_append more]
      cases w.descend true here front with
      | arrived place => exact Or.inr ⟨place, 0, rfl, (walk_eq w followLast 0 place rest).symm⟩
      | failed e => exact Or.inl ⟨e, rfl, rfl⟩
      | link dir target rest => exact Or.inl ⟨_, rfl, rfl⟩
  | succ links ih =>
      rw [walk_eq, walk_eq w followLast, descend_append more]
      cases w.descend true here front with
      | arrived place =>
          exact Or.inr ⟨place, links + 1, rfl, (walk_eq w followLast (links + 1) place rest).symm⟩
      | failed e => exact Or.inl ⟨e, rfl, rfl⟩
      | link dir target rest =>
          simp only [← List.append_assoc]
          exact ih _ _

/-- Names lead through a place that stands as they are. -/
theorem walk_place {followLast : Bool} {links : Nat} {place : Place} {item : Item}
    (stands : w.Stands place item) (plain : item.isLink = false) (rest : List String) :
    w.walk followLast links [] (place ++ rest) = w.walk followLast links place rest :=
  walk_congr (descend_place stands plain rest) links

/-- Without a directory to stand in, a lookup ends. -/
theorem exists_dirAt_of_walk {followLast : Bool} {links : Nat} {here place : Place} {name : String}
    {rest : List String} (arrives : w.walk followLast links here (name :: rest) = .ok place) :
    ∃ children, w.DirAt here children := by
  have goes : ∀ e, w.descend followLast here (name :: rest) ≠ .failed e := by
    intro e failed
    rw [walk_eq, failed] at arrives
    cases arrives
  exact exists_dirAt_of_descend goes

/-! ## The last name -/

/-- A name of a directory that is no link is where a lookup of it ends. -/
theorem walk_child {followLast : Bool} {links : Nat} {dir : Place} {name : String} {item : Item}
    {children : List (String × Item)} (standsDir : w.DirAt dir children) (fits : HostName name)
    (found : Item.child? name children = some item) (plain : item.isLink = false) :
    w.walk followLast links dir [name] = .ok (dir ++ [name]) := by
  obtain ⟨inode, mode, hdir⟩ := standsDir
  have stay : ¬(name = "" ∨ name = ".") := not_or.mpr ⟨fits.isName.ne_empty, fits.isName.ne_dot⟩
  rw [walk_eq, descend, hdir]
  simp only [if_neg stay, if_neg fits.isName.ne_dots, if_neg (Nat.not_lt.mpr fits.short), found]
  cases item with
  | file inode mode data => rfl
  | dir inode mode children => rfl
  | link inode target => cases plain

/-- A lookup that gets beyond a name found an item under it. -/
theorem exists_child_of_walk {followLast : Bool} {links : Nat} {dir place : Place} {name : String}
    {rest : List String} {children : List (String × Item)} (standsDir : w.DirAt dir children)
    (isName : Path.IsName name)
    (arrives : w.walk followLast links dir (name :: rest) = .ok place) :
    name.utf8ByteSize ≤ maxNameBytes ∧ ∃ item, Item.child? name children = some item := by
  obtain ⟨inode, mode, hdir⟩ := standsDir
  have stay : ¬(name = "" ∨ name = ".") := not_or.mpr ⟨isName.ne_empty, isName.ne_dot⟩
  rw [walk_eq, descend, hdir] at arrives
  simp only [if_neg stay, if_neg isName.ne_dots] at arrives
  by_cases long : maxNameBytes < name.utf8ByteSize
  · simp [long] at arrives
  · refine ⟨Nat.le_of_not_lt long, ?_⟩
    cases found : Item.child? name children with
    | none => simp [long, found] at arrives
    | some item => exact ⟨item, rfl⟩

/-! ## Texts of places -/

theorem checkText_eq_ok_iff {text : String} :
    checkText text = .ok () ↔
      Char.ofNat 0 ∉ text.toList ∧ text ≠ "" ∧ text.utf8ByteSize ≤ maxPathBytes := by
  unfold checkText
  by_cases nul : Char.ofNat 0 ∈ text.toList
  · simp [nul]
  · by_cases empty : text = ""
    · simp [empty]
    · by_cases long : maxPathBytes < text.utf8ByteSize
      · simp [nul, empty, long, Nat.not_le.mpr long]
      · simp [nul, empty, long, Nat.le_of_not_lt long]

/-- The text of a place is no longer than the text of what is in it. -/
theorem checkText_render_of_snoc {place : Place} {name : String}
    (h : checkText (Path.render (place ++ [name])) = .ok ()) :
    checkText (Path.render place) = .ok () := by
  obtain ⟨nul, _, long⟩ := checkText_eq_ok_iff.mp h
  cases place with
  | nil => rfl
  | cons first rest =>
      have split : Path.render (first :: rest ++ [name])
          = Path.render (first :: rest) ++ ("/" ++ name) := by
        rw [← String.toList_inj, Path.toList_render_snoc, String.toList_append]
        simp [Path.render]
      rw [split, String.toList_append] at nul
      rw [split, String.utf8ByteSize_append] at long
      refine checkText_eq_ok_iff.mpr ⟨fun m => nul (List.mem_append_left _ m), ?_, by omega⟩
      intro empty
      have chars := Path.toList_render_cons first rest
      rw [empty] at chars
      cases chars

theorem pieces_render {place : Place} (h : Path.AllNames place) :
    Path.pieces (Path.render place) = "" :: if place = [] then [""] else place := by
  cases place with
  | nil => decide
  | cons name rest => rw [Path.pieces_render_cons h, if_neg (List.cons_ne_nil _ _)]

theorem descend_blank {children : List (String × Item)} (top : w.DirAt [] children)
    (followLast : Bool) (names : List String) :
    w.descend followLast [] ("" :: names) = w.descend followLast [] names := by
  obtain ⟨inode, mode, found⟩ := top
  rw [descend, found]
  simp

/-- The lookup of the text of a place follows the names of the place. -/
theorem lookup_render {children : List (String × Item)} (top : w.DirAt [] children)
    {place : Place} (h : Path.AllNames place) (followLast : Bool) :
    w.lookup followLast (Path.render place)
      = checkText (Path.render place) >>= fun _ => w.walk followLast maxLinks [] place := by
  rw [lookup, startOf, Path.isAbsolute_render, if_pos rfl, pieces_render h]
  have same : w.walk followLast maxLinks [] ("" :: if place = [] then [""] else place)
      = w.walk followLast maxLinks [] place := by
    refine walk_congr ?_ _
    rw [descend_blank top]
    cases place with
    | nil => exact descend_blank top followLast []
    | cons name rest => rw [if_neg (List.cons_ne_nil _ _)]
  rw [same]

/-- The text of a place leads there. -/
theorem lookup_place {children : List (String × Item)} (top : w.DirAt [] children) {place : Place}
    {item : Item} (stands : w.Stands place item) (plain : item.isLink = false)
    (fits : checkText (Path.render place) = .ok ()) :
    w.lookup true (Path.render place) = .ok place := by
  have arrives : w.walk true maxLinks [] (place ++ []) = w.walk true maxLinks place [] :=
    walk_place stands plain []
  rw [List.append_nil] at arrives
  rw [lookup_render top stands.allNames, fits]
  refine arrives.trans ?_
  rw [walk_eq]
  rfl

/-- A lookup that starts at the top ends at a place that stands. -/
theorem lookup_stands {followLast : Bool} {text : String} {place : Place}
    (absolute : Path.isAbsolute text = true) (arrives : w.lookup followLast text = .ok place) :
    (∃ children, w.DirAt [] children)
      ∧ ∃ item, w.Stands place item ∧ (followLast = true → item.isLink = false) := by
  obtain ⟨_, _, arrives⟩ := Except.bind_eq_ok.mp arrives
  rw [startOf, if_pos absolute] at arrives
  have top : ∃ children, w.DirAt [] children := by
    cases pieces : Path.pieces text with
    | nil => exact absurd (List.map_eq_nil_iff.mp pieces) (Path.splitSlash_ne_nil _)
    | cons name rest =>
        rw [pieces] at arrives
        exact exists_dirAt_of_walk arrives
  obtain ⟨children, dir⟩ := top
  obtain ⟨item, stands, plain⟩ := dir.stands (by simp)
  exact ⟨⟨children, dir⟩, walk_stands stands plain stands plain
    (fun _ m => Path.not_mem_of_mem_pieces m) arrives⟩

/-- The directory and the name of the text of a place are the place cut before its last
name, with the directory looked up. -/
theorem parentAndName_render_snoc {children : List (String × Item)} (top : w.DirAt [] children)
    {front dir : Place} {name last : String} (h : Path.AllNames (front ++ [name])) :
    w.parentAndName (Path.render (front ++ [name])) = .ok (dir, last) ↔
      checkText (Path.render (front ++ [name])) = .ok ()
        ∧ w.walk true maxLinks [] front = .ok dir ∧ (∃ children, w.DirAt dir children)
        ∧ name.utf8ByteSize ≤ maxNameBytes ∧ name = last := by
  have hname := Path.allNames_singleton.mp (Path.allNames_append.mp h).2
  have cut : Path.pieces (Path.render (front ++ [name])) = ("" :: front) ++ [name] := by
    rw [pieces_render h, if_neg (by simp)]
    rfl
  have proper : ¬(name = "" ∨ name = "." ∨ name = "..") := by
    simp [hname.ne_empty, hname.ne_dot, hname.ne_dots]
  have walks : w.walk true maxLinks [] ("" :: front) = w.walk true maxLinks [] front :=
    walk_congr (descend_blank top true front) _
  rw [parentAndName, Except.bind_eq_ok]
  simp only [startOf, Path.isAbsolute_render, if_true, cut, spot, List.dropLast_concat,
    List.getLastD_concat, walks, Except.bind_eq_ok]
  constructor
  · rintro ⟨_, fits, dir', arrives, ends⟩
    split at ends
    next inode mode found rows there =>
      rw [if_neg proper] at ends
      split at ends
      · cases ends
      next short =>
        cases ends
        exact ⟨fits, arrives, ⟨_, _, _, there⟩, Nat.le_of_not_lt short, rfl⟩
    next => cases ends
  · rintro ⟨fits, arrives, ⟨rows, inode, mode, there⟩, short, rfl⟩
    refine ⟨(), fits, dir, arrives, ?_⟩
    simp only [there, if_neg proper, if_neg (Nat.not_lt.mpr short)]

/-! ## Worlds that grow -/

/-- What names lead to stays when items are added. -/
theorem descend_growsTo {w' : World} (grows : w.top.GrowsTo w'.top) {followLast : Bool}
    {here : Place} {names : List String}
    (ok : ∀ e, w.descend followLast here names ≠ .failed e) :
    w'.descend followLast here names = w.descend followLast here names := by
  induction names generalizing here with
  | nil => rfl
  | cons name rest ih =>
      obtain ⟨children, dir⟩ := exists_dirAt_of_descend ok
      obtain ⟨inode, mode, found⟩ := dir
      have dir : w.DirAt here children := ⟨inode, mode, found⟩
      obtain ⟨item', found', same⟩ := grows found
      obtain ⟨children', rfl⟩ : ∃ children', item' = .dir inode mode children' := by
        cases item' with
        | file inode mode data => cases same
        | link inode target => cases same
        | dir inode mode children =>
            cases same
            exact ⟨_, rfl⟩
      have dir' : w'.DirAt here children' := ⟨inode, mode, found'⟩
      rw [descend, found] at ok
      rw [descend, descend, found, show w'.at? here = _ from found']
      simp only at ok ⊢
      split
      next stay =>
        simp only [if_pos stay] at ok
        exact ih ok
      next stay =>
        simp only [if_neg stay] at ok
        split
        next up =>
          simp only [if_pos up] at ok
          exact ih ok
        next up =>
          simp only [if_neg up] at ok
          split
          next => rfl
          next short =>
            simp only [if_neg short] at ok
            cases hchild : Item.child? name children with
            | none =>
                simp only [hchild] at ok
                exact absurd rfl (ok _)
            | some child =>
                have there : w.at? (here ++ [name]) = some child := by rw [dir.at?_snoc, hchild]
                obtain ⟨child', there', alike⟩ := grows there
                have hchild' : Item.child? name children' = some child' := by
                  rw [← dir'.at?_snoc]
                  exact there'
                rw [hchild']
                cases child with
                | file inode mode data =>
                    cases child' with
                    | file inode mode data => exact ih (by simpa only [hchild] using ok)
                    | link inode target => cases alike
                    | dir inode mode children => cases alike
                | link inode target =>
                    cases child' with
                    | file inode mode data => cases alike
                    | dir inode mode children => cases alike
                    | link inode' target' =>
                        cases alike
                        rfl
                | dir inode mode rows =>
                    cases child' with
                    | file inode mode data => cases alike
                    | link inode target => cases alike
                    | dir inode mode children => exact ih (by simpa only [hchild] using ok)

theorem walk_growsTo {w' : World} (grows : w.top.GrowsTo w'.top) {followLast : Bool} {links : Nat}
    {here place : Place} {names : List String}
    (arrives : w.walk followLast links here names = .ok place) :
    w'.walk followLast links here names = .ok place := by
  induction links generalizing here names with
  | zero =>
      rcases walk_eq_ok arrives with stretch | ⟨_, _, _, _, _, none, _⟩
      · rw [walk_eq, descend_growsTo grows (by simp [stretch]), stretch]
      · cases none
  | succ links ih =>
      rcases walk_eq_ok arrives with stretch | ⟨dir, target, rest, left, stretch, eq, goesOn⟩
      · rw [walk_eq, descend_growsTo grows (by simp [stretch]), stretch]
      · cases eq
        rw [walk_eq, descend_growsTo grows (by simp [stretch]), stretch]
        exact ih goesOn

theorem lookup_growsTo {w' : World} (grows : w.top.GrowsTo w'.top) (home : w'.home = w.home)
    {followLast : Bool} {text : String} {place : Place}
    (arrives : w.lookup followLast text = .ok place) : w'.lookup followLast text = .ok place := by
  obtain ⟨_, fits, arrives⟩ := Except.bind_eq_ok.mp arrives
  refine Except.bind_eq_ok.mpr ⟨(), fits, ?_⟩
  rw [startOf, home]
  exact walk_growsTo grows arrives

theorem growsTo_addAt (w : World) (dir : Place) (name : String) (make : Nat → Item) :
    w.top.GrowsTo (w.addAt dir name make).top :=
  Item.growsTo_modifyAt (Item.growsTo_addChild name (make w.nextInode)) dir w.top

/-! ## What the operations of the host do -/

theorem metadata_eq_ok_iff {text : String} {item : Item} :
    w.metadata text = .ok item ↔
      ∃ place, w.lookup true text = .ok place ∧ w.at? place = some item := by
  rw [metadata, Except.bind_eq_ok]
  refine exists_congr fun place => and_congr_right fun _ => ?_
  cases w.at? place with
  | none => simp
  | some found => simp

theorem create_eq_ok {text : String} {make : Nat → Item} {after : World}
    (h : w.create text make = .ok after) :
    ∃ dir name, w.parentAndName text = .ok (dir, name) ∧ w.at? (dir ++ [name]) = none
      ∧ after = w.addAt dir name make := by
  obtain ⟨⟨dir, name⟩, spot, h⟩ := Except.bind_eq_ok.mp h
  refine ⟨dir, name, spot, ?_⟩
  dsimp only at h
  split at h
  · cases h
  next free =>
    cases h
    exact ⟨free, rfl⟩

theorem remove_eq_ok {text : String} {after : World} (h : w.remove text = .ok after) :
    ∃ dir name item, w.parentAndName text = .ok (dir, name) ∧ w.at? (dir ++ [name]) = some item
      ∧ (∀ inode mode child rest, item ≠ .dir inode mode (child :: rest))
      ∧ after = w.modifyAt dir (Item.dropChild name) := by
  obtain ⟨⟨dir, name⟩, spot, h⟩ := Except.bind_eq_ok.mp h
  dsimp only at h
  split at h
  · cases h
  · cases h
  next item full found =>
    cases h
    refine ⟨dir, name, item, spot, found, ?_, rfl⟩
    rintro inode mode child rest rfl
    exact full inode mode child rest rfl

theorem overwrite_eq_ok_iff {text : String} {data : Bytes} {after : World} :
    w.overwrite text data = .ok after ↔
      ∃ place inode mode old, w.lookup true text = .ok place
        ∧ w.at? place = some (.file inode mode old)
        ∧ after = w.modifyAt place (Item.setData data) := by
  rw [overwrite, Except.bind_eq_ok]
  constructor
  · rintro ⟨place, arrives, h⟩
    split at h
    next inode mode old found =>
      cases h
      exact ⟨place, inode, mode, old, arrives, found, rfl⟩
    · cases h
    · cases h
  · rintro ⟨place, inode, mode, old, arrives, found, rfl⟩
    refine ⟨place, arrives, ?_⟩
    rw [found]

end World

end MountFs
