import MountFs.Config.Decode
import MountFs.Invocation
import MountFs.Shell

/-!
# The program

The program makes a namespace from its configuration and runs the lines of a script,
or of its standard input, in the shell.  What a line prints goes to the standard
output and why it fails to the standard error.  The run goes on after a line that
fails.  It ends early only if the configuration or the script cannot be used, or if
the input is not text.

The exit status is `0` if every line succeeded, `1` if not, and `2` if the arguments
are wrong.
-/

namespace MountFs.Program

/-- The file access of the program: what reading a file gives. -/
abbrev Reader := String → Except HostError Bytes

/-- What a run leaves behind. -/
structure Report where
  exit : Nat
  /-- What went to the standard output. -/
  stdout : String := ""
  /-- What went to the standard error. -/
  stderr : String := ""
  fatal : Option String := none
deriving DecidableEq, Repr, Inhabited

/-! ## Files -/

/-- The text of a file. -/
def readText (read : Reader) (path : String) : Except HostError String := do
  let bytes ← read path
  match Bytes.text? bytes with
  | some text => .ok text
  | none => .error .notUtf8

/-- The configuration in a file. -/
def loadConfig (read : Reader) (path : String) : Outcome Config :=
  match readText read path with
  | .ok text => Config.ofText text
  | .error e => .error (.config (path ++ ": " ++ e.text))

/-- The configuration of a run, or why there is none. -/
def configOf (read : Reader) (inv : Invocation) : Except String Config :=
  match inv.config with
  | none => .ok {}
  | some path =>
      match loadConfig read path with
      | .ok config => .ok config
      | .error e => .error ("loading " ++ path ++ ": " ++ e.chain)

/-- The namespace of a run, or why there is none. -/
def namespaceOf (read : Reader) (world : World) (now : Time) (inv : Invocation) :
    Except String Namespace := do
  let config ← configOf read inv
  match Namespace.ofConfig world config now with
  | .ok ns => .ok ns
  | .error e => .error e.chain

/-- The text of the script, or why it cannot be read. -/
def scriptText (read : Reader) (path : String) : Except String String :=
  match readText read path with
  | .ok text => .ok text
  | .error e => .error ("reading " ++ path ++ ": " ++ e.text)

/-! ## Lines -/

/-- A run in the middle. -/
structure Session where
  ns : Namespace
  count : Nat := 0
  /-- What went to the standard output. -/
  stdout : String := ""
  /-- What went to the standard error. -/
  stderr : String := ""
  ok : Bool := true

/-- Run one line.  `clock` tells the time of each line. -/
def Session.line (clock : Nat → Time) (s : Session) (line : String) : Session :=
  match Shell.runLine s.ns (clock (s.count + 1)) line with
  | (ns, .ok text) =>
      { s with ns := ns, count := s.count + 1, stdout := s.stdout ++ text.getD "" }
  | (ns, .error e) =>
      { s with
        ns := ns
        count := s.count + 1
        stderr := s.stderr ++ "error: " ++ e.message ++ "\n"
        ok := false }

/-- Run the lines of the standard input.  A line that is not UTF-8 ends the run. -/
def Session.lines (clock : Nat → Time) (s : Session) : List Bytes → Session × Option String
  | [] => (s, none)
  | bytes :: rest =>
      match Bytes.text? bytes with
      | some line => (s.line clock (Text.chomp line)).lines clock rest
      | none => (s, (Utf8.fault? bytes).map (·.message))

/-- The report of a run that came to its end, or to a fatal error. -/
def Session.report (s : Session) (fatal : Option String) : Report where
  exit := if s.ok && fatal.isNone then 0 else 1
  stdout := s.stdout
  stderr := s.stderr
  fatal := fatal

/-! ## Runs -/

/-- Run what the arguments ask for. -/
def runInvocation (read : Reader) (world : World) (clock : Nat → Time) (inv : Invocation)
    (stdin : Bytes) : Report :=
  match namespaceOf read world (clock 0) inv with
  | .error fatal => { exit := 1, fatal := some fatal }
  | .ok ns =>
      let session : Session := { ns := ns }
      match inv.script with
      | none =>
          let (session, fatal) := session.lines clock (Bytes.lines stdin)
          session.report fatal
      | some path =>
          match scriptText read path with
          | .error fatal => { exit := 1, fatal := some fatal }
          | .ok text => ((Text.lines text).foldl (Session.line clock) session).report none

/-- Run the program. -/
def run (read : Reader) (world : World) (clock : Nat → Time) (args : List String) (stdin : Bytes) :
    Report :=
  match Invocation.parse args with
  | .error .help => { exit := 0, stdout := Invocation.help }
  | .error .fault => { exit := 2 }
  | .ok inv => runInvocation read world clock inv stdin

end MountFs.Program
