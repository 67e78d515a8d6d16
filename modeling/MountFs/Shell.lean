import MountFs.Command
import MountFs.Namespace
import MountFs.Text.Utf8

/-!
# The shell

The shell runs commands on a namespace.  A command returns the text it prints.  A
command that fails names the line it was given on and the cause.
-/

namespace MountFs

namespace Shell

/-! ## Texts -/

/-- A text with blanks added behind it up to a width. -/
def padRight (width : Nat) (text : String) : String :=
  text ++ String.ofList (List.replicate (width - text.length) ' ')

/-- A text with blanks added in front of it up to a width. -/
def padLeft (width : Nat) (text : String) : String :=
  String.ofList (List.replicate (width - text.length) ' ') ++ text

/-- The line of an entry in a listing. -/
def entryLine (e : Entry) : String :=
  (if e.isDir then "d" else "-") ++ e.permissions ++ " " ++ padLeft 8 (toString e.size) ++ " "
    ++ e.name ++ (if e.isDir then "/" else "") ++ "\n"

/-- Everything known about an entry. -/
def entryDetails (e : Entry) : String :=
  "path:        " ++ e.path ++ "\n"
    ++ "kind:        " ++ e.kind.text ++ "\n"
    ++ "size:        " ++ toString e.size ++ "\n"
    ++ "permissions: " ++ e.permissions ++ "\n"
    ++ "modified:    " ++ toString e.times.modified ++ "\n"
    ++ "reads:       " ++ toString e.accessCount ++ "\n"
    ++ "commits:     " ++ toString e.modifyCount ++ "\n"
    ++ (match e.checksum with
        | some sum => "blake3:      " ++ sum ++ "\n"
        | none => "")

/-- The line of a mount. -/
def mountLine (m : MountInfo) : String :=
  padRight 16 m.path ++ " " ++ padRight 12 m.name ++ " " ++ m.kind.text
    ++ " " ++ (if m.readOnly then "ro" else "rw") ++ "\n"

/-- The line of the totals of a mount. -/
def usageLine (m : MountInfo) (u : Usage) : String :=
  padRight 16 m.path ++ " files=" ++ toString u.files ++ " dirs=" ++ toString u.directories
    ++ " bytes=" ++ toString u.totalBytes ++ " handles=" ++ toString u.openHandles ++ "\n"

/-- The list of commands. -/
def help : String :=
  "commands:\n"
    ++ "  pwd                     print the current directory\n"
    ++ "  cd [path]               change directory (default /)\n"
    ++ "  ls [path]               list a directory\n"
    ++ "  mkdir <path>            create a directory (parent must exist)\n"
    ++ "  touch <path>            create an empty file if missing\n"
    ++ "  cat <path>              print a file\n"
    ++ "  write <path> <text...>  replace a file's content\n"
    ++ "  append <path> <text...> append to a file\n"
    ++ "  rm <path>               remove a file or empty directory\n"
    ++ "  stat <path>             show metadata\n"
    ++ "  mounts                  list mount points\n"
    ++ "  df                      show per-mount usage\n"

/-! ## Running -/

/-- A query, which leaves the namespace as it is. -/
def query (ns : Namespace) (result : Outcome String) : Step Namespace String := ⟨ns, result⟩

/-- A change that prints nothing. -/
def silent {α : Type} (step : Step Namespace α) : Step Namespace String := step.map fun _ => ""

/-- Run a command, and return what it prints. -/
def execute (ns : Namespace) (now : Time) : Command → Step Namespace String
  | .pwd => query ns (.ok (ns.cwd ++ "\n"))
  | .cd path => .ofOutcome ns ((ns.changeDirectory now path).map fun ns => (ns, ""))
  | .ls path =>
      query ns ((ns.listDirectory now path).map fun entries => String.join (entries.map entryLine))
  | .mkdir path => silent (ns.createDirectory now path)
  | .touch path =>
      match ns.stat path with
      | .ok _ => query ns (.ok "")
      | .error _ => silent (ns.createFile now path [])
  | .cat path => (ns.readWhole now path).map Bytes.lossyText
  | .write path text => silent (ns.writeWhole now path (.ofText text))
  | .append path text => silent (ns.appendWhole now path (.ofText text))
  | .rm path => silent (ns.deleteFile now path)
  | .stat path => query ns ((ns.stat path).map entryDetails)
  | .mounts => query ns (.ok (String.join (ns.listMounts.map mountLine)))
  | .df =>
      query ns (ns.usage.map fun rows => String.join (rows.map fun (m, u) => usageLine m u))
  | .help => query ns (.ok help)

/-- Why a line failed. -/
inductive LineError where
  | command (error : CommandError)
  | failed (line : String) (cause : FsError)
deriving DecidableEq, Repr, Inhabited

/-- The message of a line that failed. -/
def LineError.message : LineError → String
  | .command error => error.message
  | .failed line cause => line ++ ": " ++ cause.chain

/-- What a line prints, and `none` if it is no command.  The line in an error has no
blanks at its ends. -/
def runLine (ns : Namespace) (now : Time) (line : String) :
    Namespace × Except LineError (Option String) :=
  match Command.parse line with
  | .error e => (ns, .error (.command e))
  | .ok none => (ns, .ok none)
  | .ok (some command) =>
      match execute ns now command with
      | ⟨ns, .ok text⟩ => (ns, .ok (some text))
      | ⟨ns, .error cause⟩ => (ns, .error (.failed (Text.trim line) cause))

end Shell

end MountFs
