/-!
# TOML values

A `Value` is what a key of a TOML document holds.  Only what a configuration can
ask for is kept: a float and a point in time are told apart from other values, and
their digits are forgotten.

A table remembers how it came about (`Form`), because that decides whether it may
still grow.  A table under a header, `[a]`, takes keys below that header only.  A
table that a longer header implied, `a` in `[a.b]`, may still get its own header.
A table made by dotted keys, `a.b = 1`, grows by dotted keys only.  An inline table
is closed.
-/

namespace MountFs.Toml

/-- How a table came about. -/
inductive Form where
  /-- By a header of its own, or as the document itself. -/
  | header
  /-- By a header that goes through it. -/
  | implied
  | dotted
  | closed
deriving DecidableEq, Repr, Inhabited

/-- What a key holds. -/
inductive Value where
  | string (text : String)
  | integer (value : Int)
  | float
  | boolean (value : Bool)
  /-- A date, a time, or both. -/
  | datetime
  | array (items : List Value)
  | table (form : Form) (entries : List (String × Value))
  /-- Tables collected under a double header, `[[a]]`. -/
  | tables (items : List Value)
deriving Repr, Inhabited

/-- The entries of a table. -/
abbrev Entries := List (String × Value)

/-- The value of a key. -/
def Entries.get? (key : String) : Entries → Option Value
  | [] => none
  | (k, v) :: rest => if k = key then some v else Entries.get? key rest

/-- The entries with the value of a key replaced, or added at the end. -/
def Entries.set (key : String) (value : Value) : Entries → Entries
  | [] => [(key, value)]
  | (k, v) :: rest => if k = key then (key, value) :: rest else (k, v) :: Entries.set key value rest

namespace Value

/-- Whether keys of a dotted path, or headers, may go through a table of this
form. -/
def passable (byDottedKey : Bool) : Form → Bool
  | .header => !byDottedKey
  | .implied => true
  | .dotted => true
  | .closed => false

/-- Change the table that a path of keys leads to.  Missing tables on the way are
made.  A collection of tables stands for its last one. -/
def alter (byDottedKey : Bool) (change : Form → Entries → Option Value) :
    List String → Value → Option Value
  | [], .table form entries => change form entries
  | key :: rest, .table form entries =>
      match Entries.get? key entries with
      | none => do
          let fresh := if byDottedKey then Form.dotted else Form.implied
          let child ← alter byDottedKey change rest (.table fresh [])
          return .table form (Entries.set key child entries)
      | some (.table inner below) =>
          if passable byDottedKey inner then do
            let child ← alter byDottedKey change rest (.table inner below)
            return .table form (Entries.set key child entries)
          else none
      | some (.tables items) =>
          match items.getLast? with
          | some last => do
              let last ← alter byDottedKey change rest last
              return .table form (Entries.set key (.tables (items.dropLast ++ [last])) entries)
          | none => none
      | some _ => none
  | _, _ => none

/-- Add a value under a dotted key.  The key has to be new, and the table it ends in
has to be one that dotted keys make. -/
def insertDotted (value : Value) (path : List String) (table : Value) : Option Value :=
  match path.getLast? with
  | none => none
  | some key =>
      let lead := path.dropLast
      alter true (fun form entries =>
        if !lead.isEmpty && form ≠ .dotted then none
        else
          match Entries.get? key entries with
          | some _ => none
          | none => some (.table form (Entries.set key value entries))) lead table

/-- Open the table of a header. -/
def openTable (path : List String) (document : Value) : Option Value :=
  match path.getLast? with
  | none => none
  | some key =>
      alter false (fun form entries =>
        match Entries.get? key entries with
        | none => some (.table form (Entries.set key (.table .header []) entries))
        | some (.table .implied below) =>
            some (.table form (Entries.set key (.table .header below) entries))
        | some _ => none) path.dropLast document

/-- Open one more table of a double header. -/
def openNextTable (path : List String) (document : Value) : Option Value :=
  match path.getLast? with
  | none => none
  | some key =>
      alter false (fun form entries =>
        match Entries.get? key entries with
        | none => some (.table form (Entries.set key (.tables [.table .header []]) entries))
        | some (.tables items) =>
            some (.table form (Entries.set key (.tables (items ++ [.table .header []])) entries))
        | some _ => none) path.dropLast document

/-- Add a key below the header in force. -/
def insertBelow (header path : List String) (value document : Value) : Option Value :=
  alter false (fun form entries => insertDotted value path (.table form entries)) header document

/-- The inline table with the given pairs. -/
def inlineTable (pairs : List (List String × Value)) : Option Value := do
  let built ← pairs.foldlM (fun table pair => insertDotted pair.2 pair.1 table) (.table .header [])
  match built with
  | .table _ entries => some (.table .closed entries)
  | _ => none

end Value

end MountFs.Toml
