import MountFs.FsError

/-!
# Paths

A path is text in which `/` separates segments.  A *normal* path starts with `/`,
has no empty segment, no `.` and no `..`, and ends in `/` only if it is the root
`/` itself.  So a normal path is its list of segments (`segments`), written back
by `render`.

Reading a path splits it at the slashes (`pieces`) and collapses the pieces left
to right (`collapse`).  Empty pieces and `.` are skipped, `..` drops the last kept
segment and stays at the root when none is left.

The helpers `parent?`, `fileName`, `join`, `isUnder` and `stripMount` work on the
text and take any text.  On normal paths they are operations on the segment list.

Everything here is defined on `List Char` by structural recursion, so the tests at
the end are settled by evaluation.  The lemmas say what each recursion does to a
text cut at a slash.
-/

namespace MountFs.Path

/-- The root path. -/
def root : String := "/"

/-! ## Splitting and writing -/

/-- The parts of a text between its slashes.  A text with `n` slashes has `n + 1`
parts, some of them possibly empty. -/
def splitSlash : List Char → List (List Char)
  | [] => [[]]
  | c :: rest =>
      if c = '/' then [] :: splitSlash rest
      else
        match splitSlash rest with
        | [] => [[c]]
        | part :: parts => (c :: part) :: parts

/-- The parts of a path between its slashes, as strings. -/
def pieces (path : String) : List String := (splitSlash path.toList).map String.ofList

/-- Whether a path starts at the root. -/
def isAbsolute (path : String) : Bool := path.toList.head? == some '/'

/-- Take one piece into the segments kept so far. -/
def push (kept : List String) (piece : String) : List String :=
  if piece = "" ∨ piece = "." then kept
  else if piece = ".." then kept.dropLast
  else kept ++ [piece]

/-- The segments that pieces leave behind, read left to right. -/
def collapse (pieces : List String) : List String := pieces.foldl push []

/-- The characters of a list of segments, each led by a slash. -/
def renderChars : List String → List Char
  | [] => []
  | segment :: rest => '/' :: segment.toList ++ renderChars rest

/-- The normal path with the given segments. -/
def render (segments : List String) : String :=
  if segments.isEmpty then root else String.ofList (renderChars segments)

/-- The segments of a path. -/
def segments (path : String) : List String := collapse (pieces path)

/-! ## Normal form -/

/-- The normal form of an absolute path.  Any other text is refused. -/
def normalize (path : String) : Outcome String :=
  if isAbsolute path then .ok (render (segments path)) else .error (.invalidPath path)

/-- The normal path that `path` names when read from the directory `cwd`. -/
def resolve (cwd path : String) : String :=
  if isAbsolute path then render (segments path)
  else render (collapse (pieces cwd ++ pieces path))

/-! ## Parents, names and prefixes -/

/-- The parts before and after the last slash, if there is one. -/
def cutLast : List Char → Option (List Char × List Char)
  | [] => none
  | c :: rest =>
      match cutLast rest with
      | some (before, after) => some (c :: before, after)
      | none => if c = '/' then some ([], rest) else none

/-- The parent of a normal path, and `none` for the root. -/
def parent? (path : String) : Option String :=
  if path = root then none
  else
    match cutLast path.toList with
    | some ([], _) => some root
    | some (before, _) => some (String.ofList before)
    | none => none

/-- The last segment of a normal path, empty for the root. -/
def fileName (path : String) : String :=
  match cutLast path.toList with
  | some (_, after) => String.ofList after
  | none => path

/-- A child of a directory. -/
def join (dir name : String) : String :=
  if dir = root then "/" ++ name else dir ++ "/" ++ name

/-- The rest of a text after a leading part, if the text has that part. -/
def stripPrefix? : List Char → List Char → Option (List Char)
  | [], text => some text
  | _ :: _, [] => none
  | p :: lead, c :: text => if p = c then stripPrefix? lead text else none

/-- Whether a path equals `top` or lies beneath it, on whole segments. -/
def isUnder (path top : String) : Bool :=
  if top = root then true
  else
    match stripPrefix? top.toList path.toList with
    | some [] => true
    | some (c :: _) => c == '/'
    | none => false

/-- The path inside a mount: what is left after the mount point, and the root if
nothing is left. -/
def stripMount (path mount : String) : String :=
  if mount = root then path
  else
    match stripPrefix? mount.toList path.toList with
    | some [] => root
    | some rest => String.ofList rest
    | none => root

/-! ## Lemmas -/

theorem splitSlash_ne_nil (text : List Char) : splitSlash text ≠ [] := by
  cases text with
  | nil => simp [splitSlash]
  | cons c rest =>
      by_cases h : c = '/'
      · simp [splitSlash, h]
      · simp only [splitSlash, h, if_false]
        split <;> simp

/-- A text without slashes is one part. -/
theorem splitSlash_of_not_mem {text : List Char} (h : '/' ∉ text) : splitSlash text = [text] := by
  induction text with
  | nil => rfl
  | cons c rest ih =>
      have hc : c ≠ '/' := fun e => h (by simp [e])
      have hr : '/' ∉ rest := fun m => h (by simp [m])
      simp [splitSlash, hc, ih hr]

/-- Splitting before a slash: the parts on its two sides, one after the other. -/
theorem splitSlash_append_slash (left right : List Char) :
    splitSlash (left ++ '/' :: right) = splitSlash left ++ splitSlash right := by
  induction left with
  | nil => simp [splitSlash]
  | cons c rest ih =>
      by_cases hc : c = '/'
      · simp [splitSlash, hc, ih]
      · simp only [List.cons_append, splitSlash, hc, if_false, ih]
        cases h : splitSlash rest with
        | nil => exact absurd h (splitSlash_ne_nil rest)
        | cons part parts => simp

/-- A text without slashes has no last slash. -/
theorem cutLast_of_not_mem {text : List Char} (h : '/' ∉ text) : cutLast text = none := by
  induction text with
  | nil => rfl
  | cons c rest ih =>
      have hc : c ≠ '/' := fun e => h (by simp [e])
      have hr : '/' ∉ rest := fun m => h (by simp [m])
      simp [cutLast, hc, ih hr]

/-- The last slash is the one that no slash follows. -/
theorem cutLast_append_slash (before : List Char) {after : List Char} (h : '/' ∉ after) :
    cutLast (before ++ '/' :: after) = some (before, after) := by
  induction before with
  | nil => simp [cutLast, cutLast_of_not_mem h]
  | cons c rest ih => simp [cutLast, ih]

/-- Stripping succeeds exactly on the texts that start with the part stripped. -/
theorem stripPrefix?_eq_some_iff {lead text rest : List Char} :
    stripPrefix? lead text = some rest ↔ text = lead ++ rest := by
  induction lead generalizing text with
  | nil => simp [stripPrefix?]
  | cons p lead ih =>
      cases text with
      | nil => simp [stripPrefix?]
      | cons c text =>
          by_cases h : p = c
          · simp [stripPrefix?, h, ih]
          · simp [stripPrefix?, h, Ne.symm h]

theorem collapse_append (left right : List String) :
    collapse (left ++ right) = right.foldl push (collapse left) := by
  simp [collapse]

/-! ## Tests -/

section Tests

example : normalize "/a/./b/../c//" = .ok "/a/c" := rfl
example : normalize "/../.." = .ok "/" := rfl
example : normalize "a" = .error (.invalidPath "a") := rfl
example : resolve "/home/u" "../x" = "/home/x" := by decide
example : parent? "/a" = some "/" := by decide
example : parent? "/a/b" = some "/a" := by decide
example : fileName "/a/b" = "b" := by decide
example : isUnder "/database" "/data" = false := by decide
example : stripMount "/data/x" "/data" = "/x" := by decide

end Tests

end MountFs.Path
