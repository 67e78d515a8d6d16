import MountFs.Path

/-!
# Normal paths

A *name* is a text that can stand as one segment of a path: not empty, not `.`,
not `..`, and without a slash.  A *normal path* is a list of names written out by
`render`.  The functions on path text are operations on these lists.

* `segments` reads the names back (`segments_render`), so `render` is injective on
  lists of names (`render_injective`).
* `normalize` answers with a normal path or refuses (`normalize_eq_ok_iff`), and
  leaves a normal path as it is (`normalize_render`).
* `parent?` drops the last name, `fileName` is the last name, and `join` adds one
  (`parent?_render_snoc`, `fileName_render_snoc`, `join_render`).

The text functions cut at slashes.  What makes them agree with the lists is that no
name has a slash, so the slashes of a written path are the ones `render` put there.
-/

namespace MountFs.Path

/-! ## Names -/

/-- A text that can stand as one segment of a path. -/
structure IsName (name : String) : Prop where
  /-- It is not empty. -/
  ne_empty : name ≠ ""
  /-- It does not stand for the directory itself. -/
  ne_dot : name ≠ "."
  /-- It does not stand for the directory above. -/
  ne_dots : name ≠ ".."
  /-- It is one piece. -/
  noSlash : '/' ∉ name.toList

instance (name : String) : Decidable (IsName name) :=
  decidable_of_iff (name ≠ "" ∧ name ≠ "." ∧ name ≠ ".." ∧ '/' ∉ name.toList)
    ⟨fun ⟨h1, h2, h3, h4⟩ => ⟨h1, h2, h3, h4⟩, fun ⟨h1, h2, h3, h4⟩ => ⟨h1, h2, h3, h4⟩⟩

/-- A list of names. -/
def AllNames (names : List String) : Prop := ∀ name ∈ names, IsName name

instance (names : List String) : Decidable (AllNames names) :=
  inferInstanceAs (Decidable (∀ name ∈ names, IsName name))

/-- A path that is a list of names written out. -/
def IsNormal (path : String) : Prop := ∃ names, AllNames names ∧ path = render names

theorem allNames_nil : AllNames [] := by
  intro name h
  cases h

theorem allNames_append {left right : List String} :
    AllNames (left ++ right) ↔ AllNames left ∧ AllNames right := by
  simp only [AllNames, List.mem_append]
  constructor
  · intro h
    exact ⟨fun name m => h name (Or.inl m), fun name m => h name (Or.inr m)⟩
  · rintro ⟨hl, hr⟩ name (m | m)
    · exact hl name m
    · exact hr name m

theorem allNames_singleton {name : String} : AllNames [name] ↔ IsName name := by
  simp [AllNames]

theorem allNames_cons {name : String} {names : List String} :
    AllNames (name :: names) ↔ IsName name ∧ AllNames names := by
  simp [AllNames]

theorem AllNames.snoc {names : List String} {name : String} (h : AllNames names)
    (hn : IsName name) : AllNames (names ++ [name]) :=
  allNames_append.mpr ⟨h, allNames_singleton.mpr hn⟩

theorem AllNames.dropLast {names : List String} (h : AllNames names) : AllNames names.dropLast :=
  fun name m => h name (List.dropLast_subset names m)

theorem isNormal_render {names : List String} (h : AllNames names) : IsNormal (render names) :=
  ⟨names, h, rfl⟩

theorem isNormal_root : IsNormal root := ⟨[], allNames_nil, rfl⟩

/-! ## Reading back what was written -/

theorem renderChars_append (left right : List String) :
    renderChars (left ++ right) = renderChars left ++ renderChars right := by
  induction left with
  | nil => rfl
  | cons segment rest ih => simp [renderChars, ih]

/-- A written list of names splits into those names.  The first name is given apart,
without the slash before it, so that the induction can go on behind it. -/
theorem splitSlash_name_renderChars {name : String} {names : List String} (hn : IsName name)
    (h : AllNames names) :
    splitSlash (name.toList ++ renderChars names) = name.toList :: names.map String.toList := by
  induction names generalizing name with
  | nil =>
      rw [renderChars, List.append_nil]
      exact splitSlash_of_not_mem hn.noSlash
  | cons next rest ih =>
      obtain ⟨hnext, hrest⟩ := allNames_cons.mp h
      rw [renderChars, List.cons_append, splitSlash_append_slash,
        splitSlash_of_not_mem hn.noSlash, ih hnext hrest]
      rfl

theorem toList_render_cons (name : String) (names : List String) :
    (render (name :: names)).toList = '/' :: (name.toList ++ renderChars names) := by
  simp [render, renderChars]

theorem pieces_ne_nil (path : String) : pieces path ≠ [] := by
  simp [pieces, splitSlash_ne_nil]

theorem pieces_render_cons {name : String} {names : List String}
    (h : AllNames (name :: names)) : pieces (render (name :: names)) = "" :: name :: names := by
  obtain ⟨hn, hr⟩ := allNames_cons.mp h
  have hsplit : splitSlash ('/' :: (name.toList ++ renderChars names))
      = [] :: name.toList :: names.map String.toList := by
    rw [splitSlash, if_pos rfl, splitSlash_name_renderChars hn hr]
  rw [pieces, toList_render_cons, hsplit]
  simp [Function.comp_def]

theorem push_of_isName {kept : List String} {name : String} (h : IsName name) :
    push kept name = kept ++ [name] := by
  simp [push, h.ne_empty, h.ne_dot, h.ne_dots]

theorem foldl_push_names {names : List String} (h : AllNames names) (kept : List String) :
    names.foldl push kept = kept ++ names := by
  induction names generalizing kept with
  | nil => simp
  | cons name rest ih =>
      obtain ⟨hn, hr⟩ := allNames_cons.mp h
      rw [List.foldl_cons, push_of_isName hn, ih hr]
      simp

/-- The segments of a written list of names are the names. -/
theorem segments_render {names : List String} (h : AllNames names) :
    segments (render names) = names := by
  cases names with
  | nil => rfl
  | cons name rest =>
      rw [segments, pieces_render_cons h, collapse, List.foldl_cons]
      exact foldl_push_names h []

theorem isAbsolute_render (names : List String) : isAbsolute (render names) = true := by
  cases names with
  | nil => rfl
  | cons name rest => simp [isAbsolute, toList_render_cons]

theorem render_injective {left right : List String} (hl : AllNames left) (hr : AllNames right)
    (h : render left = render right) : left = right := by
  rw [← segments_render hl, h, segments_render hr]

theorem render_eq_root_iff {names : List String} (h : AllNames names) :
    render names = root ↔ names = [] := by
  constructor
  · exact fun e => render_injective h allNames_nil e
  · rintro rfl
    rfl

theorem IsNormal.render_segments {path : String} (h : IsNormal path) :
    render (segments path) = path := by
  obtain ⟨names, hn, rfl⟩ := h
  rw [segments_render hn]

/-! ## What reading can leave behind -/

theorem not_mem_of_mem_splitSlash {text : List Char} :
    ∀ part ∈ splitSlash text, '/' ∉ part := by
  induction text with
  | nil => simp [splitSlash]
  | cons c rest ih =>
      by_cases hc : c = '/'
      · intro part m
        rw [splitSlash, if_pos hc] at m
        cases List.mem_cons.mp m with
        | inl he => simp [he]
        | inr hm => exact ih part hm
      · cases hs : splitSlash rest with
        | nil => exact absurd hs (splitSlash_ne_nil rest)
        | cons first parts =>
            rw [hs] at ih
            intro part m
            rw [splitSlash, if_neg hc, hs] at m
            cases List.mem_cons.mp m with
            | inl he =>
                have hf : '/' ∉ first := ih first (List.mem_cons_self ..)
                simp only [he, List.mem_cons, not_or]
                exact ⟨Ne.symm hc, hf⟩
            | inr hm => exact ih part (List.mem_cons_of_mem _ hm)

theorem not_mem_of_mem_pieces {path piece : String} (h : piece ∈ pieces path) :
    '/' ∉ piece.toList := by
  obtain ⟨part, hp, rfl⟩ := List.mem_map.mp h
  simpa using not_mem_of_mem_splitSlash part hp

theorem allNames_push {kept : List String} {piece : String} (h : AllNames kept)
    (hp : '/' ∉ piece.toList) : AllNames (push kept piece) := by
  by_cases hskip : piece = "" ∨ piece = "."
  · rw [push, if_pos hskip]
    exact h
  · by_cases hup : piece = ".."
    · rw [push, if_neg hskip, if_pos hup]
      exact h.dropLast
    · rw [push, if_neg hskip, if_neg hup]
      have hne := not_or.mp hskip
      exact h.snoc ⟨hne.1, hne.2, hup, hp⟩

theorem allNames_foldl_push {ps kept : List String} (h : AllNames kept)
    (hp : ∀ piece ∈ ps, '/' ∉ piece.toList) : AllNames (ps.foldl push kept) := by
  induction ps generalizing kept with
  | nil => exact h
  | cons piece rest ih =>
      rw [List.foldl_cons]
      exact ih (allNames_push h (hp piece (List.mem_cons_self ..)))
        fun p m => hp p (List.mem_cons_of_mem _ m)

/-- The segments of any text are names. -/
theorem allNames_segments (path : String) : AllNames (segments path) :=
  allNames_foldl_push allNames_nil fun _ m => not_mem_of_mem_pieces m

/-! ## Normal form -/

theorem normalize_eq_ok_iff {path p : String} :
    normalize path = .ok p ↔ isAbsolute path = true ∧ p = render (segments path) := by
  unfold normalize
  by_cases h : isAbsolute path = true
  · simp only [h, if_true, true_and, Except.ok.injEq]
    exact eq_comm
  · simp [h]

theorem normalize_eq_error {path : String} (h : isAbsolute path = false) :
    normalize path = .error (.invalidPath path) := by
  simp [normalize, h]

theorem normalize_eq_ok {path : String} (h : isAbsolute path = true) :
    normalize path = .ok (render (segments path)) :=
  normalize_eq_ok_iff.mpr ⟨h, rfl⟩

theorem normalize_render {names : List String} (h : AllNames names) :
    normalize (render names) = .ok (render names) := by
  rw [normalize_eq_ok (isAbsolute_render names), segments_render h]

theorem isNormal_of_normalize {path p : String} (h : normalize path = .ok p) : IsNormal p := by
  obtain ⟨_, rfl⟩ := normalize_eq_ok_iff.mp h
  exact isNormal_render (allNames_segments path)

/-! ## Parents and last names -/

/-- The characters of a written list of names that is not empty end in the last name,
after a slash. -/
theorem toList_render_snoc (names : List String) (name : String) :
    (render (names ++ [name])).toList = renderChars names ++ '/' :: name.toList := by
  simp [render, renderChars_append, renderChars]

theorem cutLast_render_snoc (names : List String) {name : String} (h : IsName name) :
    cutLast (render (names ++ [name])).toList = some (renderChars names, name.toList) := by
  rw [toList_render_snoc]
  exact cutLast_append_slash _ h.noSlash

@[simp] theorem parent?_root : parent? root = none := by simp [parent?]

/-- The parent of a written list of names has all names but the last. -/
theorem parent?_render_snoc {names : List String} {name : String} (h : AllNames names)
    (hn : IsName name) : parent? (render (names ++ [name])) = some (render names) := by
  have hne : render (names ++ [name]) ≠ root := by
    rw [ne_eq, render_eq_root_iff (h.snoc hn)]
    simp
  rw [parent?, if_neg hne, cutLast_render_snoc names hn]
  cases names with
  | nil => rfl
  | cons first rest => simp [render, renderChars]

/-- The file name of a written list of names is the last name. -/
theorem fileName_render_snoc (names : List String) {name : String} (h : IsName name) :
    fileName (render (names ++ [name])) = name := by
  rw [fileName, cutLast_render_snoc names h]
  simp

theorem fileName_root : fileName root = "" := by decide

/-- The file name of a normal path is its last segment, empty for the root. -/
theorem fileName_render {names : List String} (h : AllNames names) :
    fileName (render names) = names.getLastD "" := by
  cases List.eq_nil_or_concat names with
  | inl he =>
      rw [he]
      exact fileName_root
  | inr he =>
      obtain ⟨front, last, rfl⟩ := he
      rw [List.concat_eq_append] at h ⊢
      rw [fileName_render_snoc front (allNames_singleton.mp (allNames_append.mp h).2)]
      simp

/-- The parent of a normal path, read as an equation for the directory. -/
theorem parent?_render_eq_some_iff {names : List String} {dir : String} (h : AllNames names) :
    parent? (render names) = some dir ↔ names ≠ [] ∧ dir = render names.dropLast := by
  cases List.eq_nil_or_concat names with
  | inl he =>
      subst he
      simp [render]
  | inr he =>
      obtain ⟨front, last, rfl⟩ := he
      rw [List.concat_eq_append] at h ⊢
      obtain ⟨hf, hl⟩ := allNames_append.mp h
      rw [parent?_render_snoc hf (allNames_singleton.mp hl), Option.some.injEq,
        List.dropLast_concat]
      constructor
      · intro e
        exact ⟨by simp, e.symm⟩
      · rintro ⟨_, e⟩
        exact e.symm

/-- A child of a written list of names has one name more. -/
theorem join_render {names : List String} (hn : AllNames names) (name : String) :
    join (render names) name = render (names ++ [name]) := by
  rw [← String.toList_inj, toList_render_snoc]
  simp only [join, render_eq_root_iff hn]
  cases names with
  | nil => simp [renderChars]
  | cons first rest => simp [render]

/-- The path of the directory that a normal path lies in. -/
def above (path : String) : String := render (segments path).dropLast

theorem IsNormal.parent?_eq_some_iff {path dir : String} (h : IsNormal path) :
    parent? path = some dir ↔ path ≠ root ∧ dir = above path := by
  obtain ⟨names, hn, rfl⟩ := h
  rw [parent?_render_eq_some_iff hn, above, segments_render hn, ne_eq, ne_eq,
    render_eq_root_iff hn]

theorem IsNormal.fileName_eq {path : String} (h : IsNormal path) :
    fileName path = (segments path).getLastD "" := by
  obtain ⟨names, hn, rfl⟩ := h
  rw [fileName_render hn, segments_render hn]

/-- A normal path with a parent is its parent and one more name. -/
theorem IsNormal.segments_eq_snoc {path dir : String} (h : IsNormal path)
    (up : parent? path = some dir) :
    IsName (fileName path) ∧ segments path = segments dir ++ [fileName path] := by
  obtain ⟨names, hn, rfl⟩ := h
  obtain ⟨some, rfl⟩ := (parent?_render_eq_some_iff hn).mp up
  have last : fileName (render names) = names.getLast some := by
    rw [fileName_render hn, List.getLastD_eq_getLast?, List.getLast?_eq_some_getLast some,
      Option.getD_some]
  rw [last, segments_render hn, segments_render hn.dropLast]
  exact ⟨hn _ (List.getLast_mem some), (List.dropLast_concat_getLast some).symm⟩

end MountFs.Path
