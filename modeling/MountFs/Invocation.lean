/-!
# The command line

An `Invocation` is what the arguments of the program ask for.  The program takes
two options, `-c FILE` or `--config FILE` and `-v` or `--verbose`, and at most one
further argument, a script.  `-h` or `--help` asks for help.  Behind `--` every
argument is taken as it stands.

Arguments are read left to right and the first fault decides, so a request for help
counts only if nothing before it is wrong.  The value of an option may be attached
(`--config=FILE`, `-cFILE`, `-c=FILE`) or be the next argument.  No option may be
given twice, and no value may be empty.  An argument is checked when the next one is
read, which is why a value is kept as `pending` at first.
-/

namespace MountFs

/-- What the arguments ask for. -/
structure Invocation where
  config : Option String := none
  verbose : Bool := false
  /-- The script to run in place of the standard input. -/
  script : Option String := none
deriving DecidableEq, Repr, Inhabited

namespace Invocation

/-- Why the arguments name no run. -/
inductive Refusal where
  | help
  | fault
deriving DecidableEq, Repr, Inhabited

/-- What has been read but not checked. -/
inductive Pending where
  | nothing
  /-- The option for the configuration, its value not read yet. -/
  | configName
  /-- The option for the configuration with its value. -/
  | config (value : String)
  | script (value : String)
deriving DecidableEq, Repr, Inhabited

/-- Arguments being read. -/
structure Progress where
  seen : Invocation := {}
  /-- What is read but not checked. -/
  pending : Pending := .nothing
  hasScript : Bool := false
deriving DecidableEq, Repr, Inhabited

/-- Take in a configuration file. -/
def setConfig (seen : Invocation) (value : String) : Except Refusal Invocation :=
  if seen.config.isSome ∨ value = "" then .error .fault
  else .ok { seen with config := some value }

/-- Check what is pending. -/
def settle (p : Progress) : Except Refusal Progress :=
  match p.pending with
  | .nothing => .ok p
  | .configName => .error .fault
  | .config value => do return { p with seen := ← setConfig p.seen value, pending := .nothing }
  | .script value =>
      if value = "" then .error .fault
      else .ok { p with seen := { p.seen with script := some value }, pending := .nothing }

/-- Take in the option to say more. -/
def setVerbose (p : Progress) : Except Refusal Progress := do
  let p ← settle p
  if p.seen.verbose then .error .fault
  else return { p with seen := { p.seen with verbose := true } }

/-- Take in a request for help. -/
def askHelp (p : Progress) : Except Refusal Progress := do
  let _ ← settle p
  .error .help

/-- Take in an option for the configuration whose value is attached. -/
def attachConfig (p : Progress) (value : String) : Except Refusal Progress := do
  let p ← settle p
  return { p with seen := ← setConfig p.seen value }

/-- Take in an option for the configuration whose value comes next. -/
def awaitConfig (p : Progress) : Except Refusal Progress := do
  let p ← settle p
  return { p with pending := .configName }

/-- The name and the attached value of an option with two dashes, behind them. -/
def splitValue (text : List Char) : String × Option String :=
  let name := text.takeWhile (· ≠ '=')
  match text.dropWhile (· ≠ '=') with
  | [] => (String.ofList name, none)
  | _ :: value => (String.ofList name, some (String.ofList value))

/-- Take in an option with two dashes. -/
def longOption (p : Progress) (text : List Char) : Except Refusal Progress :=
  match splitValue text with
  | ("config", some value) => attachConfig p value
  | ("config", none) => awaitConfig p
  | ("verbose", none) => setVerbose p
  | ("help", none) => askHelp p
  | _ => .error .fault

/-- Take in the letters of options with one dash.  What follows a `c` is its
value. -/
def shortOptions (p : Progress) : List Char → Except Refusal Progress
  | [] => .ok p
  | 'v' :: rest => do shortOptions (← setVerbose p) rest
  | 'h' :: _ => askHelp p
  | ['c'] => awaitConfig p
  | 'c' :: '=' :: value => attachConfig p (String.ofList value)
  | 'c' :: value => attachConfig p (String.ofList value)
  | _ => .error .fault

/-- Take in an argument that is no option. -/
def plainArgument (p : Progress) (arg : String) : Except Refusal Progress :=
  if p.hasScript then .error .fault
  else do
    let p ← settle p
    return { p with pending := .script arg, hasScript := true }

/-- Read all arguments.  `literal` tells that `--` was read. -/
def readArgs (p : Progress) (literal : Bool) : List String → Except Refusal Progress
  | [] => settle p
  | arg :: rest =>
      if literal then do readArgs (← plainArgument p arg) true rest
      else
        match arg.toList with
        | ['-', '-'] => readArgs p true rest
        | '-' :: '-' :: text => do readArgs (← longOption p text) false rest
        | '-' :: c :: text => do readArgs (← shortOptions p (c :: text)) false rest
        | _ =>
            match p.pending with
            | .configName => readArgs { p with pending := .config arg } false rest
            | _ => do readArgs (← plainArgument p arg) false rest

/-- What arguments ask for. -/
def parse (args : List String) : Except Refusal Invocation := do
  return (← readArgs {} false args).seen

/-- The answer to a request for help. -/
def help : String :=
  "Run filesystem commands against an in-memory VFS\n\n"
    ++ "Usage: stepfs [OPTIONS] [SCRIPT]\n\n"
    ++ "Arguments:\n"
    ++ "  [SCRIPT]  Script file to run instead of reading stdin\n\n"
    ++ "Options:\n"
    ++ "  -c, --config <CONFIG>  TOML config describing limits, policies and mounts\n"
    ++ "  -v, --verbose          Log at debug level (overridden by RUST_LOG)\n"
    ++ "  -h, --help             Print help\n"

end Invocation

end MountFs
