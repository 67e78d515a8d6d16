import MountFs.Proofs.PathPrefix

/-!
# The normal form of paths

What `normalize` and the functions on normal paths do, said of texts.

A text is *parted* at its slashes (`Parted`).  That is the inverse of putting parts together with
slashes between them (`pieces_eq_iff`).  Read from left to right the parts *leave* some names
(`Leaves`), and a text *denotes* the names that its parts leave (`Denotes`).  A text is in normal
form if it starts with a slash, no part behind that is empty, `.` or `..`, and only the root ends
with a slash (`InNormalForm`).

* The texts in normal form are the lists of names written out (`InNormalForm.isNormal`,
  `IsNormal.inNormalForm`), and they are what `normalize` leaves as it is
  (`normalize_eq_self_iff`).
* `normalize` refuses a text that does not start with a slash (`normalize_eq_error_iff`).  Of any
  other it gives the text in normal form that denotes the same names.  There is no second one,
  because the names tell how it is written (`InNormalForm.eq_render`).
* `parent?`, `fileName`, `join`, `isUnder` and `stripMount` cut and compare texts.  On texts in
  normal form they do so to the segments (`exists_snoc_render`, `isUnder_render_iff`,
  `stripMount_render`).
-/

namespace MountFs.Path

/-! ## The parts of a text -/

/-- The text is the parts with slashes between them.  There is at least one part, and no part has a
slash. -/
structure Parted (text : String) (parts : List String) : Prop where
  some : parts ≠ []
  noSlash : ∀ part ∈ parts, '/' ∉ part.toList
  joined : text = "/".intercalate parts

theorem splitSlash_eq_splitOn (text : List Char) : splitSlash text = text.splitOn '/' := by
  induction text with
  | nil => rfl
  | cons c rest ih =>
      rw [List.splitOn_cons_eq_if_modifyHead, ← ih, splitSlash]
      by_cases slash : c = '/'
      · simp [slash]
      · rw [if_neg slash, if_neg (by simpa using slash)]
        cases parts : splitSlash rest with
        | nil => exact absurd parts (splitSlash_ne_nil rest)
        | cons part others => rfl

/-- The pieces of a text are the parts that it is put together from. -/
theorem pieces_eq_iff {text : String} {parts : List String} :
    pieces text = parts ↔ Parted text parts := by
  have slash : "/".toList = ['/'] := rfl
  constructor
  · rintro rfl
    refine ⟨pieces_ne_nil text, fun _ => not_mem_of_mem_pieces, ?_⟩
    rw [← String.toList_inj, String.toList_intercalate, pieces, splitSlash_eq_splitOn, slash]
    simp [Function.comp_def]
  · rintro ⟨some, noSlash, rfl⟩
    have apart : ∀ part ∈ parts.map String.toList, '/' ∉ part := by simpa using noSlash
    rw [pieces, splitSlash_eq_splitOn, String.toList_intercalate, slash,
      List.splitOn_intercalate '/' apart (by simpa using some)]
    simp [Function.comp_def]

/-! ## What the parts leave -/

/-- Read from left to right, the parts leave the names.  Empty parts and `.` leave everything as it
is, `..` takes the last name away if there is one, and any other part is one more name. -/
inductive Leaves : List String → List String → Prop
  | start : Leaves [] []
  | empty {parts names : List String} (h : Leaves parts names) : Leaves (parts ++ [""]) names
  | dot {parts names : List String} (h : Leaves parts names) : Leaves (parts ++ ["."]) names
  | up {parts names : List String} {last : String} (h : Leaves parts (names ++ [last])) :
      Leaves (parts ++ [".."]) names
  | top {parts : List String} (h : Leaves parts []) : Leaves (parts ++ [".."]) []
  | name {parts names : List String} {part : String} (h : Leaves parts names)
      (some : part ≠ "") (noDot : part ≠ ".") (noDots : part ≠ "..") :
      Leaves (parts ++ [part]) (names ++ [part])

theorem collapse_snoc (parts : List String) (part : String) :
    collapse (parts ++ [part]) = push (collapse parts) part := by
  rw [collapse_append, List.foldl_cons, List.foldl_nil]

/-- One part more. -/
theorem Leaves.push {parts names : List String} (h : Leaves parts names) (part : String) :
    Leaves (parts ++ [part]) (push names part) := by
  by_cases skip : part = "" ∨ part = "."
  · rw [Path.push, if_pos skip]
    rcases skip with rfl | rfl
    · exact h.empty
    · exact h.dot
  · by_cases dots : part = ".."
    · rw [Path.push, if_neg skip, if_pos dots, dots]
      rcases List.eq_nil_or_concat names with rfl | ⟨front, last, rfl⟩
      · exact h.top
      · rw [List.concat_eq_append] at h ⊢
        rw [List.dropLast_concat]
        exact h.up
    · rw [Path.push, if_neg skip, if_neg dots]
      obtain ⟨some, noDot⟩ := not_or.mp skip
      exact h.name some noDot dots

theorem collapse_eq_iff {parts names : List String} :
    collapse parts = names ↔ Leaves parts names := by
  constructor
  · rintro rfl
    induction parts using List.reverseRecOn with
    | nil => exact .start
    | append_singleton parts part ih =>
        rw [collapse_snoc]
        exact ih.push part
  · intro h
    induction h with
    | start => rfl
    | empty _ ih => rw [collapse_snoc, ih, push, if_pos (Or.inl rfl)]
    | dot _ ih => rw [collapse_snoc, ih, push, if_pos (Or.inr rfl)]
    | up _ ih =>
        rw [collapse_snoc, ih, push, if_neg (by decide), if_pos rfl, List.dropLast_concat]
    | top _ ih => rw [collapse_snoc, ih, push, if_neg (by decide), if_pos rfl, List.dropLast_nil]
    | name _ some noDot noDots ih =>
        rw [collapse_snoc, ih, push, if_neg (not_or.mpr ⟨some, noDot⟩), if_neg noDots]

/-- A text denotes the names that its parts leave. -/
def Denotes (text : String) (names : List String) : Prop :=
  ∃ parts, Parted text parts ∧ Leaves parts names

theorem segments_eq_iff {text : String} {names : List String} :
    segments text = names ↔ Denotes text names := by
  constructor
  · intro h
    exact ⟨pieces text, pieces_eq_iff.mp rfl, collapse_eq_iff.mp h⟩
  · rintro ⟨parts, parted, leaves⟩
    rw [segments, pieces_eq_iff.mpr parted, collapse_eq_iff.mpr leaves]

/-! ## Texts in normal form -/

/-- The segments of a text that starts with a slash are its parts behind that slash.  The root has
no segments. -/
def HasSegments (text : String) (parts : List String) : Prop :=
  if text = "/" then parts = [] else Parted text ("" :: parts)

/-- What a path looks like that has nothing to skip. -/
structure InNormalForm (text : String) : Prop where
  /-- It starts with a slash. -/
  absolute : ∃ rest, text = "/" ++ rest
  /-- Only the root ends with a slash. -/
  noEnd : text ≠ "/" → ∀ front, text ≠ front ++ "/"
  /-- Every segment stands for itself. -/
  proper : ∀ parts, HasSegments text parts → ∀ part ∈ parts, part ≠ "" ∧ part ≠ "." ∧ part ≠ ".."

theorem isAbsolute_iff {text : String} : isAbsolute text = true ↔ ∃ rest, text = "/" ++ rest := by
  constructor
  · intro h
    obtain ⟨rest, chars⟩ := List.head?_eq_some_iff.mp (beq_iff_eq.mp h)
    exact ⟨String.ofList rest, String.toList_inj.mp (by simp [chars])⟩
  · rintro ⟨rest, rfl⟩
    rw [isAbsolute, String.toList_append]
    rfl

theorem pieces_absolute (rest : String) : pieces ("/" ++ rest) = "" :: pieces rest := by
  have split := pieces_slash "" rest
  rwa [String.empty_append] at split

theorem toList_slash_intercalate (name : String) (names : List String) :
    ("/" ++ "/".intercalate (name :: names)).toList = renderChars (name :: names) := by
  induction names generalizing name with
  | nil => simp [renderChars]
  | cons next rest ih =>
      have further := ih next
      rw [renderChars, ← further, String.intercalate_cons_cons]
      simp

/-- A list of names is written with slashes between them, behind one more. -/
theorem render_eq (names : List String) : render names = "/" ++ "/".intercalate names := by
  cases names with
  | nil => rfl
  | cons name names =>
      rw [← String.toList_inj, toList_render (by simp), toList_slash_intercalate]

/-- What is written has the names for segments, and no others. -/
theorem hasSegments_render {names parts : List String} (h : AllNames names) :
    HasSegments (render names) parts ↔ parts = names := by
  by_cases none : names = []
  · have isRoot : render names = "/" := (render_eq_root_iff h).mpr none
    rw [HasSegments, if_pos isRoot, none]
  · have below : render names ≠ "/" := fun same => none ((render_eq_root_iff h).mp same)
    obtain ⟨name, others, rfl⟩ := List.exists_cons_of_ne_nil none
    rw [HasSegments, if_neg below, ← pieces_eq_iff, pieces_render_cons h, List.cons.injEq]
    simp [eq_comm]

theorem InNormalForm.isNormal {text : String} (h : InNormalForm text) : IsNormal text := by
  by_cases isRoot : text = "/"
  · rw [isRoot]
    exact isNormal_root
  · obtain ⟨rest, rfl⟩ := h.absolute
    have parted : Parted rest (pieces rest) := pieces_eq_iff.mp rfl
    have has : HasSegments ("/" ++ rest) (pieces rest) := by
      rw [HasSegments, if_neg isRoot, ← pieces_eq_iff, pieces_absolute]
    refine ⟨pieces rest, fun part there => ?_, ?_⟩
    · obtain ⟨some, noDot, noDots⟩ := h.proper _ has part there
      exact ⟨some, noDot, noDots, parted.noSlash part there⟩
    · rw [render_eq, ← parted.joined]

theorem IsNormal.inNormalForm {path : String} (h : IsNormal path) : InNormalForm path := by
  obtain ⟨names, all, rfl⟩ := h
  refine ⟨⟨_, render_eq names⟩, fun below front ends => ?_, fun parts has part there => ?_⟩
  · -- A slash at the end has an empty part behind it, and no name is empty.
    have some : names ≠ [] := fun none => below ((render_eq_root_iff all).mpr none)
    obtain ⟨name, others, rfl⟩ := List.exists_cons_of_ne_nil some
    have split := pieces_slash front ""
    rw [String.append_empty, ← ends, pieces_render_cons all] at split
    obtain ⟨first, more, parts⟩ := List.exists_cons_of_ne_nil (pieces_ne_nil front)
    rw [parts, List.cons_append] at split
    have behind : name :: others = more ++ [""] := (List.cons.inj split).2
    have there : "" ∈ name :: others := by simp [behind]
    exact (all "" there).ne_empty rfl
  · rw [(hasSegments_render all).mp has] at there
    exact ⟨(all part there).ne_empty, (all part there).ne_dot, (all part there).ne_dots⟩

/-- The path in normal form with the given segments. -/
structure IsPath (path : String) (names : List String) : Prop where
  normal : InNormalForm path
  segments : HasSegments path names

theorem isPath_render {names : List String} (h : AllNames names) : IsPath (render names) names :=
  ⟨(isNormal_render h).inNormalForm, (hasSegments_render h).mpr rfl⟩

theorem IsPath.segments_eq {path : String} {names : List String} (h : IsPath path names) :
    Path.segments path = names := by
  obtain ⟨names', all, rfl⟩ := h.normal.isNormal
  rw [segments_render all, (hasSegments_render all).mp h.segments]

/-! ## Normalizing -/

theorem normalize_eq_error_iff {text : String} {e : FsError} :
    normalize text = .error e ↔ e = .invalidPath text ∧ ¬ ∃ rest, text = "/" ++ rest := by
  rw [← isAbsolute_iff]
  cases absolute : isAbsolute text with
  | true => simp [normalize_eq_ok absolute]
  | false => simp [normalize_eq_error absolute, eq_comm]

/-- To normalize leaves a text as it is exactly if it is in normal form. -/
theorem normalize_eq_self_iff {text : String} : normalize text = .ok text ↔ InNormalForm text := by
  constructor
  · intro same
    exact (isNormal_of_normalize same).inNormalForm
  · intro h
    obtain ⟨names, all, rfl⟩ := h.isNormal
    exact normalize_render all

/-- The text in normal form that denotes some names is those names written out. -/
theorem InNormalForm.eq_render {text : String} (h : InNormalForm text) {names : List String}
    (denotes : Denotes text names) : text = render names := by
  rw [← segments_eq_iff.mpr denotes, h.isNormal.render_segments]

/-- A text that does not start with a slash is refused.  For any other text there is a path in
normal form that denotes the same names, which are its segments, and there is only one.  It is what
the text is normalized to, and normalizing it again changes nothing.  The texts that are not changed
are those in normal form. -/
theorem normalize_gives_normal_form (text : String) :
    (∀ e, normalize text = .error e ↔ e = .invalidPath text ∧ ¬ ∃ rest, text = "/" ++ rest)
    ∧ (∀ rest, text = "/" ++ rest → ∃ path names, normalize text = .ok path
      ∧ IsPath path names ∧ Denotes text names ∧ normalize path = .ok path
      ∧ ∀ other, InNormalForm other → Denotes other names → other = path)
    ∧ (normalize text = .ok text ↔ InNormalForm text) := by
  refine ⟨fun e => normalize_eq_error_iff, fun rest starts => ?_, normalize_eq_self_iff⟩
  have all := allNames_segments text
  have gives := normalize_eq_ok (isAbsolute_iff.mpr ⟨rest, starts⟩)
  refine ⟨render (segments text), segments text, gives, isPath_render all, segments_eq_iff.mp rfl,
    normalize_render all, ?_⟩
  intro other normal denotes
  exact normal.eq_render denotes

/-- There and back, past the root, with runs of slashes and with names that are only dots. -/
theorem normalize_gives_normal_form_winding :
    normalize "//..//a/./.../b//..///é/" = .ok "/a/.../é"
      ∧ IsPath "/a/.../é" ["a", "...", "é"]
      ∧ Denotes "//..//a/./.../b//..///é/" ["a", "...", "é"]
      ∧ normalize "a/b" = .error (.invalidPath "a/b") := by
  obtain ⟨_, whole, _⟩ := normalize_gives_normal_form "//..//a/./.../b//..///é/"
  obtain ⟨path, names, gives, isPath, denotes, _⟩ := whole "/..//a/./.../b//..///é/" (by decide)
  have gave : normalize "//..//a/./.../b//..///é/" = .ok "/a/.../é" := rfl
  cases gives.symm.trans gave
  cases (segments_eq_iff.mpr denotes).symm.trans (rfl : _ = ["a", "...", "é"])
  exact ⟨gave, isPath, denotes, rfl⟩

/-! ## The functions on paths in normal form -/

/-- A path that is not the root is a child of its parent, under its last segment. -/
theorem exists_snoc_render {names : List String} (all : AllNames names) (below : names ≠ []) :
    ∃ front last, names = front ++ [last] ∧ AllNames front
      ∧ parent? (render names) = some (render front) ∧ fileName (render names) = last
      ∧ join (render front) last = render names := by
  rcases List.eq_nil_or_concat names with none | ⟨front, last, snoc⟩
  · exact absurd none below
  · rw [List.concat_eq_append] at snoc
    subst snoc
    obtain ⟨allFront, isName⟩ := allNames_append.mp all
    rw [allNames_singleton] at isName
    exact ⟨front, last, rfl, allFront, parent?_render_snoc allFront isName,
      fileName_render_snoc front isName, join_render allFront last⟩

theorem parent?_render_eq_none_iff {names : List String} (all : AllNames names) :
    parent? (render names) = none ↔ names = [] := by
  constructor
  · intro none
    by_contra below
    obtain ⟨front, _, _, _, up, _⟩ := exists_snoc_render all below
    cases none.symm.trans up
  · rintro rfl
    exact parent?_root

/-- On paths in normal form the functions on text are operations on segments.  `parent?` takes the
last segment away, `fileName` is the last segment and `join` adds one.  `isUnder` asks for a prefix,
and `stripMount` drops it. -/
theorem helpers_act_on_segments {path top name : String} (normal : InNormalForm path)
    (normalTop : InNormalForm top) (isName : IsName name) :
    ∃ names front, IsPath path names ∧ IsPath top front
      ∧ (parent? path = none ↔ path = "/")
      ∧ (path ≠ "/" → ∃ dir, parent? path = some dir ∧ IsPath dir names.dropLast
        ∧ names.getLast? = some (fileName path) ∧ join dir (fileName path) = path)
      ∧ (IsPath (join path name) (names ++ [name]) ∧ parent? (join path name) = some path
        ∧ fileName (join path name) = name)
      ∧ (isUnder path top = true ↔ front <+: names)
      ∧ (isUnder path top = true →
        ∃ rest, names = front ++ rest ∧ IsPath (stripMount path top) rest) := by
  obtain ⟨names, all, rfl⟩ := normal.isNormal
  obtain ⟨front, allFront, rfl⟩ := normalTop.isNormal
  refine ⟨names, front, isPath_render all, isPath_render allFront, ?_, fun below => ?_, ?_,
    isUnder_render_iff all allFront, fun under => ?_⟩
  · exact (parent?_render_eq_none_iff all).trans (render_eq_root_iff all).symm
  · have some : names ≠ [] := fun none => below ((render_eq_root_iff all).mpr none)
    obtain ⟨dir, last, rfl, allDir, up, file, back⟩ := exists_snoc_render all some
    rw [file, List.dropLast_concat, List.getLast?_concat]
    exact ⟨render dir, up, isPath_render allDir, rfl, back⟩
  · rw [join_render all]
    exact ⟨isPath_render (all.snoc isName), parent?_render_snoc all isName,
      fileName_render_snoc names isName⟩
  · obtain ⟨rest, rfl⟩ := (isUnder_render_iff all allFront).mp under
    rw [stripMount_render allFront]
    exact ⟨rest, rfl, isPath_render (allNames_append.mp all).2⟩

/-- A file below a directory whose name starts as another does, with names that are more than one
byte a character. -/
theorem helpers_act_on_segments_lookalike :
    (∃ dir, parent? "/dé/f.txt" = some dir ∧ IsPath dir ["dé"]
      ∧ join dir (fileName "/dé/f.txt") = "/dé/f.txt")
    ∧ IsPath (stripMount "/dé/f.txt" "/dé") ["f.txt"]
    ∧ fileName (join "/dé/f.txt" "..g") = "..g"
    ∧ isUnder "/dé/f.txt" "/d" = false := by
  have normal : InNormalForm "/dé/f.txt" := normalize_eq_self_iff.mp rfl
  have inside : InNormalForm "/dé" := normalize_eq_self_iff.mp rfl
  have beside : InNormalForm "/d" := normalize_eq_self_iff.mp rfl
  have isName : IsName "..g" := by decide
  obtain ⟨names, front, path, top, _, parent, ⟨_, _, child⟩, _, strip⟩ :=
    helpers_act_on_segments normal inside isName
  obtain ⟨names', front', path', top', _, _, _, under, _⟩ :=
    helpers_act_on_segments normal beside isName
  cases path.segments_eq.symm.trans (rfl : _ = ["dé", "f.txt"])
  cases path'.segments_eq.symm.trans (rfl : _ = ["dé", "f.txt"])
  cases top.segments_eq.symm.trans (rfl : _ = ["dé"])
  cases top'.segments_eq.symm.trans (rfl : _ = ["d"])
  obtain ⟨dir, up, isDir, _, back⟩ := parent (by decide)
  obtain ⟨rest, split, stripped⟩ := strip (by decide)
  cases split
  refine ⟨⟨dir, up, isDir, back⟩, stripped, child, ?_⟩
  exact Bool.eq_false_iff.mpr fun h => absurd (under.mp h) (by decide)

end MountFs.Path
