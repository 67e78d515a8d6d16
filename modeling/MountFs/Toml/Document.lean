import MountFs.Toml.Scan

/-!
# Reading a TOML document

A document is a sequence of lines.  A line is blank, a comment, a header, or a pair
of a key and a value.  Pairs go below the last header.  An array may span lines and
end in a comma, an inline table may do neither.

The readers of nested values take a bound that every nested call lowers.  Each such
call stands for at least one character, so the number of characters is bound
enough.  The depth of nesting is limited by the format's own `maxDepth`.
-/

namespace MountFs.Toml

/-! ## Values -/

mutual
/-- Read a value at a depth of nesting. -/
def value : Nat → Nat → List Char → Option (Value × List Char)
  | 0, _, _ => none
  | bound + 1, depth, text =>
      match text with
      | '[' :: rest =>
          if depth + 1 < maxDepth then do
            let (items, rest) ← arrayItems bound (depth + 1) rest
            return (.array items, rest)
          else none
      | '{' :: rest =>
          if depth + 1 < maxDepth then do
            let (pairs, rest) ← inlinePairs bound (depth + 1) rest
            let table ← Value.inlineTable pairs
            return (table, rest)
          else none
      | _ => scalar text

/-- Read the items of an array behind its opening bracket or a comma, up to its
closing bracket. -/
def arrayItems : Nat → Nat → List Char → Option (List Value × List Char)
  | 0, _, _ => none
  | bound + 1, depth, text =>
      match skipLines (text.length + 1) text with
      | ']' :: rest => some ([], rest)
      | text => do
          let (item, rest) ← value bound depth text
          match skipLines (rest.length + 1) rest with
          | ',' :: rest => do
              let (items, rest) ← arrayItems bound depth rest
              return (item :: items, rest)
          | ']' :: rest => return ([item], rest)
          | _ => none

/-- Read the pairs of an inline table behind its opening brace, up to its closing
brace. -/
def inlinePairs : Nat → Nat → List Char → Option (List (List String × Value) × List Char)
  | 0, _, _ => none
  | bound + 1, depth, text =>
      match skipBlanks text with
      | '}' :: rest => some ([], rest)
      | text => morePairs bound depth text

/-- Read one or more pairs of an inline table, up to its closing brace. -/
def morePairs : Nat → Nat → List Char → Option (List (List String × Value) × List Char)
  | 0, _, _ => none
  | bound + 1, depth, text => do
      let (path, rest) ← key text
      let rest ← exactly '=' rest
      let (item, rest) ← value bound depth (skipBlanks rest)
      match skipBlanks rest with
      | ',' :: rest => do
          let (pairs, rest) ← morePairs bound depth rest
          return ((path, item) :: pairs, rest)
      | '}' :: rest => return ([(path, item)], rest)
      | _ => none
end

/-! ## Lines -/

/-- A document being read: what it holds so far and the last header. -/
structure Progress where
  document : Value := .table .header []
  /-- The keys of the last header. -/
  header : List String := []

/-- Read a header behind its opening bracket. -/
def headerLine (p : Progress) : List Char → Option (Progress × List Char)
  | '[' :: rest => do
      let (path, rest) ← key rest
      let rest ← exactly ']' rest
      let rest ← exactly ']' rest
      let rest ← lineRest rest
      let document ← Value.openNextTable path p.document
      return (⟨document, path⟩, rest)
  | rest => do
      let (path, rest) ← key rest
      let rest ← exactly ']' rest
      let rest ← lineRest rest
      let document ← Value.openTable path p.document
      return (⟨document, path⟩, rest)

/-- Read a pair of a key and a value. -/
def pairLine (p : Progress) (text : List Char) : Option (Progress × List Char) := do
  let (path, rest) ← key text
  let rest ← exactly '=' rest
  let (item, rest) ← value (2 * rest.length + 2) 0 (skipBlanks rest)
  let rest ← lineRest rest
  let document ← Value.insertBelow p.header path item p.document
  return ({ p with document := document }, rest)

/-- Read all lines.  The first argument bounds their number. -/
def readLines : Nat → Progress → List Char → Option Value
  | 0, _, _ => none
  | bound + 1, p, text =>
      match skipBlanks text with
      | [] => some p.document
      | '#' :: rest => do readLines bound p (← lineRest ('#' :: rest))
      | '[' :: rest => do
          let (p, rest) ← headerLine p rest
          readLines bound p rest
      | '\n' :: rest => readLines bound p rest
      | '\r' :: '\n' :: rest => readLines bound p rest
      | text => do
          let (p, rest) ← pairLine p text
          readLines bound p rest

/-- The document of a text, without the byte order mark it may start with. -/
def parse (text : String) : Option Value :=
  let chars := text.toList
  let chars := if chars.head? = some (Char.ofNat 0xFEFF) then chars.drop 1 else chars
  readLines (chars.length + 1) {} chars

end MountFs.Toml
