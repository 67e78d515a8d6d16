import MountFs.Text.Blank

/-!
# Commands

A command is one line for the shell.  Only the words of a line count: the first is
the name of the command, the others are its arguments.  A line without words, and a
line whose first word starts with `#`, is no command.

`Command.line` writes a command back as a line, with single spaces between words.
-/

namespace MountFs

/-- A command of the shell. -/
inductive Command where
  | pwd
  | cd (path : String)
  /-- List a directory, or the current one. -/
  | ls (path : Option String)
  | mkdir (path : String)
  /-- Make an empty file if nothing is there. -/
  | touch (path : String)
  | cat (path : String)
  /-- Replace the content of a file. -/
  | write (path text : String)
  /-- Add to the content of a file. -/
  | append (path text : String)
  /-- Remove a file or an empty directory. -/
  | rm (path : String)
  /-- Print what is known about a path. -/
  | stat (path : String)
  | mounts
  /-- Print the totals of the mounts. -/
  | df
  | help
deriving DecidableEq, Repr, Inhabited

/-- Why a line is no command. -/
inductive CommandError where
  | usage (name arguments : String)
  | unknown (name : String)
deriving DecidableEq, Repr, Inhabited

/-- The message of a refused line. -/
def CommandError.message : CommandError → String
  | .usage name arguments => "usage: " ++ name ++ " " ++ arguments
  | .unknown name => "unknown command: " ++ name

namespace Command

/-- The content that words stand for: the words with single spaces between them, and
a line feed. -/
def contentOf (words : List String) : String := " ".intercalate words ++ "\n"

/-- A command with one argument. -/
def withPath (name : String) (make : String → Command) : List String → Except CommandError Command
  | [path] => .ok (make path)
  | _ => .error (.usage name "<path>")

/-- A command with a path and content. -/
def withContent (name : String) (make : String → String → Command) :
    List String → Except CommandError Command
  | path :: words => .ok (make path (contentOf words))
  | [] => .error (.usage name "<path> <text...>")

/-- The command with a name and arguments. -/
def ofWords (name : String) (args : List String) : Except CommandError Command :=
  match name with
  | "pwd" => .ok .pwd
  | "cd" => .ok (.cd (args.headD "/"))
  | "ls" =>
      match args with
      | [] => .ok (.ls none)
      | [path] => .ok (.ls (some path))
      | _ => .error (.usage name "[path]")
  | "mkdir" => withPath name .mkdir args
  | "touch" => withPath name .touch args
  | "cat" => withPath name .cat args
  | "rm" => withPath name .rm args
  | "stat" => withPath name .stat args
  | "write" => withContent name .write args
  | "append" => withContent name .append args
  | "mounts" => .ok .mounts
  | "df" => .ok .df
  | "help" => .ok .help
  | _ => .error (.unknown name)

/-- Whether a word starts a comment. -/
def isComment (word : String) : Bool := word.toList.head? == some '#'

/-- The command of a line, and `none` if the line is blank or a comment. -/
def parse (line : String) : Except CommandError (Option Command) :=
  match Text.words line with
  | [] => .ok none
  | name :: args => if isComment name then .ok none else (ofWords name args).map some

/-- The name and the arguments of a command. -/
def toWords : Command → List String
  | .pwd => ["pwd"]
  | .cd path => ["cd", path]
  | .ls none => ["ls"]
  | .ls (some path) => ["ls", path]
  | .mkdir path => ["mkdir", path]
  | .touch path => ["touch", path]
  | .cat path => ["cat", path]
  | .write path text => "write" :: path :: Text.words text
  | .append path text => "append" :: path :: Text.words text
  | .rm path => ["rm", path]
  | .stat path => ["stat", path]
  | .mounts => ["mounts"]
  | .df => ["df"]
  | .help => ["help"]

/-- A command as a line. -/
def line (c : Command) : String := " ".intercalate c.toWords

end Command

end MountFs
