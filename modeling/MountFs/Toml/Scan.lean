import MountFs.Toml.Value

/-!
# Reading the pieces of a TOML text

A reader takes the characters left and returns what it read with the characters
behind it, or `none` if the text does not have the form it reads.  Here are the
readers without nesting: blanks and line ends, the four forms of strings, keys,
numbers, dates and times.

A line ends with a line feed or with a carriage return and a line feed.  Of the
control characters only the tab may stand in comments and strings.
-/

namespace MountFs.Toml

/-! ## Blanks, line ends and comments -/

/-- A space or a tab. -/
def isBlank (c : Char) : Bool := c == ' ' || c == '\t'

/-- A character that may stand in a comment or a literal string. -/
def isPlain (c : Char) : Bool := c == '\t' || (' ' ≤ c && c ≤ '~') || 0x80 ≤ c.toNat

/-- Skip blanks. -/
def skipBlanks (text : List Char) : List Char := text.dropWhile isBlank

/-- Read a line end. -/
def newline : List Char → Option (List Char)
  | '\n' :: rest => some rest
  | '\r' :: '\n' :: rest => some rest
  | _ => none

/-- Skip a comment, if one starts here. -/
def skipComment : List Char → List Char
  | '#' :: rest => rest.dropWhile isPlain
  | text => text

/-- Read the rest of a line: blanks, a comment, and the end of the line or of the
text. -/
def lineRest (text : List Char) : Option (List Char) :=
  match skipComment (skipBlanks text) with
  | [] => some []
  | rest => newline rest

/-- Skip blanks, comments and line ends.  The first argument bounds the number of
lines. -/
def skipLines : Nat → List Char → List Char
  | 0, text => text
  | bound + 1, text =>
      let text := skipBlanks text
      match newline (skipComment text) with
      | some rest => skipLines bound rest
      | none => text

/-! ## Strings -/

/-- The value of a hexadecimal digit. -/
def hexValue? (c : Char) : Option Nat :=
  if '0' ≤ c && c ≤ '9' then some (c.toNat - 48)
  else if 'a' ≤ c && c ≤ 'f' then some (c.toNat - 87)
  else if 'A' ≤ c && c ≤ 'F' then some (c.toNat - 55)
  else none

/-- The number that hexadecimal digits write. -/
def hexNumber? (digits : List Char) : Option Nat :=
  digits.foldlM (fun n c => (hexValue? c).map (16 * n + ·)) 0

/-- The character with a code point written in hexadecimal.  Surrogates and numbers
past the last code point have none. -/
def codePoint? (digits : List Char) : Option Char := do
  let n ← hexNumber? digits
  if n < 0xD800 ∨ (0xDFFF < n ∧ n < 0x110000) then some (Char.ofNat n) else none

/-- The character a one-letter escape stands for. -/
def simpleEscape? : Char → Option Char
  | 'b' => some (Char.ofNat 8)
  | 't' => some '\t'
  | 'n' => some '\n'
  | 'f' => some (Char.ofNat 12)
  | 'r' => some '\r'
  | '"' => some '"'
  | '\\' => some '\\'
  | _ => none

/-- A character that may stand in a basic string as it is. -/
def isBasic (c : Char) : Bool := isPlain c && c != '"' && c != '\\'

/-- Put a character in front of what a reader read. -/
def consChar (c : Char) : Option (List Char × List Char) → Option (List Char × List Char)
  | some (chars, rest) => some (c :: chars, rest)
  | none => none

/-- Read a basic string behind its opening quote. -/
def basicString : List Char → Option (List Char × List Char)
  | [] => none
  | '"' :: rest => some ([], rest)
  | '\\' :: 'u' :: a :: b :: c :: d :: rest =>
      match codePoint? [a, b, c, d] with
      | some char => consChar char (basicString rest)
      | none => none
  | '\\' :: 'U' :: a :: b :: c :: d :: e :: f :: g :: h :: rest =>
      match codePoint? [a, b, c, d, e, f, g, h] with
      | some char => consChar char (basicString rest)
      | none => none
  | '\\' :: c :: rest =>
      match simpleEscape? c with
      | some char => consChar char (basicString rest)
      | none => none
  | c :: rest => if isBasic c then consChar c (basicString rest) else none

/-- Up to two quotes that end a multi-line string together with the three that
close it. -/
def closingQuotes (quote : Char) : List Char → List Char × List Char
  | a :: b :: rest =>
      if a = quote then if b = quote then ([a, b], rest) else ([a], b :: rest) else ([], a :: b :: rest)
  | [a] => if a = quote then ([a], []) else ([], [a])
  | [] => ([], [])

/-- Whether a line end follows, blanks in between allowed. -/
def blankLineEnd (text : List Char) : Bool := (newline (skipBlanks text)).isSome

/-- Read a multi-line basic string behind its opening quotes.  While `skipping`,
blanks and line ends are dropped, as they are behind a backslash that ends a
line. -/
def multiBasic (skipping : Bool) : List Char → Option (List Char × List Char)
  | [] => none
  | '"' :: '"' :: '"' :: rest => some (closingQuotes '"' rest)
  | '\r' :: '\n' :: rest =>
      if skipping then multiBasic true rest else consChar '\n' (multiBasic false rest)
  | '\n' :: rest =>
      if skipping then multiBasic true rest else consChar '\n' (multiBasic false rest)
  | '\\' :: 'u' :: a :: b :: c :: d :: rest =>
      match codePoint? [a, b, c, d] with
      | some char => consChar char (multiBasic false rest)
      | none => none
  | '\\' :: 'U' :: a :: b :: c :: d :: e :: f :: g :: h :: rest =>
      match codePoint? [a, b, c, d, e, f, g, h] with
      | some char => consChar char (multiBasic false rest)
      | none => none
  | '\\' :: c :: rest =>
      if blankLineEnd (c :: rest) then multiBasic true rest
      else
        match simpleEscape? c with
        | some char => consChar char (multiBasic false rest)
        | none => none
  | c :: rest =>
      if skipping && isBlank c then multiBasic true rest
      else if isBasic c || c == '"' then consChar c (multiBasic false rest)
      else none

/-- Read a literal string behind its opening quote. -/
def literalString : List Char → Option (List Char × List Char)
  | [] => none
  | c :: rest =>
      if c = '\'' then some ([], rest)
      else if isPlain c then consChar c (literalString rest)
      else none

/-- Read a multi-line literal string behind its opening quotes. -/
def multiLiteral : List Char → Option (List Char × List Char)
  | [] => none
  | '\'' :: '\'' :: '\'' :: rest => some (closingQuotes '\'' rest)
  | '\r' :: '\n' :: rest => consChar '\n' (multiLiteral rest)
  | '\n' :: rest => consChar '\n' (multiLiteral rest)
  | c :: rest => if isPlain c then consChar c (multiLiteral rest) else none

/-- A text without the line end it starts with. -/
def dropNewline (text : List Char) : List Char := (newline text).getD text

/-- Read a string of any form. -/
def stringValue : List Char → Option (List Char × List Char)
  | '"' :: '"' :: '"' :: rest => multiBasic false (dropNewline rest)
  | '"' :: rest => basicString rest
  | '\'' :: '\'' :: '\'' :: rest => multiLiteral (dropNewline rest)
  | '\'' :: rest => literalString rest
  | _ => none

/-! ## Keys -/

/-- A character of a bare key. -/
def isBare (c : Char) : Bool :=
  ('a' ≤ c && c ≤ 'z') || ('A' ≤ c && c ≤ 'Z') || ('0' ≤ c && c ≤ '9') || c == '-' || c == '_'

/-- Read one part of a dotted key. -/
def simpleKey : List Char → Option (String × List Char)
  | '"' :: rest => (basicString rest).map fun (chars, rest) => (String.ofList chars, rest)
  | '\'' :: rest => (literalString rest).map fun (chars, rest) => (String.ofList chars, rest)
  | text =>
      let word := text.takeWhile isBare
      if word.isEmpty then none else some (String.ofList word, text.dropWhile isBare)

/-- How deep keys and values may nest. -/
def maxDepth : Nat := 80

/-- Read the parts of a dotted key, with blanks around each.  The first argument
bounds their number. -/
def dottedKey : Nat → List Char → Option (List String × List Char)
  | 0, _ => none
  | bound + 1, text => do
      let (part, rest) ← simpleKey (skipBlanks text)
      match skipBlanks rest with
      | '.' :: rest => do
          let (parts, rest) ← dottedKey bound rest
          return (part :: parts, rest)
      | rest => return ([part], rest)

/-- Read a key. -/
def key (text : List Char) : Option (List String × List Char) := dottedKey (maxDepth - 1) text

/-! ## Numbers -/

/-- A decimal digit. -/
def isDigit (c : Char) : Bool := '0' ≤ c && c ≤ '9'

/-- Read digits of a class, single underscores between them allowed, after a first
one. -/
def moreDigits (isDigit : Char → Bool) : List Char → List Char × List Char
  | [] => ([], [])
  | '_' :: c :: rest =>
      if isDigit c then
        let (digits, rest) := moreDigits isDigit rest
        (c :: digits, rest)
      else ([], '_' :: c :: rest)
  | c :: rest =>
      if isDigit c then
        let (digits, rest) := moreDigits isDigit rest
        (c :: digits, rest)
      else ([], c :: rest)

/-- Read one or more digits of a class, single underscores between them allowed. -/
def digits (isDigit : Char → Bool) : List Char → Option (List Char × List Char)
  | c :: rest =>
      if isDigit c then
        let (more, rest) := moreDigits isDigit rest
        some (c :: more, rest)
      else none
  | [] => none

/-- Read a sign, and whether it is a minus. -/
def sign : List Char → Bool × List Char
  | '+' :: rest => (false, rest)
  | '-' :: rest => (true, rest)
  | text => (false, text)

/-- Read the digits of a decimal number.  A leading zero stands alone. -/
def decimalDigits : List Char → Option (List Char × List Char)
  | '0' :: rest => some (['0'], rest)
  | text => digits isDigit text

/-- The number that decimal digits write. -/
def decimalNumber (digits : List Char) : Nat :=
  digits.foldl (fun n c => 10 * n + (c.toNat - 48)) 0

/-- The least integer a document may hold. -/
def minInteger : Int := -0x8000000000000000

/-- The largest integer a document may hold. -/
def maxInteger : Int := 0x7fffffffffffffff

/-- An integer in range. -/
def integerValue (n : Int) : Option Value :=
  if minInteger ≤ n ∧ n ≤ maxInteger then some (.integer n) else none

/-- Read an integer behind the mark of its base. -/
def basedInteger (base : Nat) (text : List Char) : Option (Value × List Char) := do
  let isDigit := fun c => match hexValue? c with
    | some n => decide (n < base)
    | none => false
  let (ds, rest) ← digits isDigit text
  let n := ds.foldl (fun n c => base * n + (hexValue? c).getD 0) 0
  let value ← integerValue n
  return (value, rest)

/-- Read an integer. -/
def integer : List Char → Option (Value × List Char)
  | '0' :: 'x' :: rest => basedInteger 16 rest
  | '0' :: 'o' :: rest => basedInteger 8 rest
  | '0' :: 'b' :: rest => basedInteger 2 rest
  | text => do
      let (negative, rest) := sign text
      let (ds, rest) ← decimalDigits rest
      let n : Int := decimalNumber ds
      let value ← integerValue (if negative then -n else n)
      return (value, rest)

/-- The least value that rounds to infinity in double precision. -/
def overflowBound : Nat := Nat.pow 2 1024 - Nat.pow 2 970

/-- Whether `mantissa * 10 ^ exponent` rounds to infinity in double precision.  The
number of digits settles it unless the value is close to the bound. -/
def overflows (mantissa : Nat) (exponent : Int) : Bool :=
  let size : Int := (Nat.toDigits 10 mantissa).length + exponent
  if mantissa = 0 ∨ size ≤ 308 then false
  else if 310 ≤ size then true
  else if 0 ≤ exponent then overflowBound ≤ mantissa * Nat.pow 10 exponent.toNat
  else overflowBound * Nat.pow 10 (-exponent).toNat ≤ mantissa

/-- Read an exponent. -/
def exponent : List Char → Option (Int × List Char)
  | c :: rest =>
      if c = 'e' ∨ c = 'E' then do
        let (negative, rest) := sign rest
        let (ds, rest) ← digits isDigit rest
        let n : Int := decimalNumber ds
        return (if negative then -n else n, rest)
      else none
  | [] => none

/-- Read the digits behind a decimal point. -/
def fraction : List Char → Option (List Char × List Char)
  | '.' :: rest => digits isDigit rest
  | _ => none

/-- Read a float: a fraction, an exponent, or both.  A positive one has to be in
range. -/
def decimalFloat (text : List Char) : Option (Value × List Char) := do
  let (negative, rest) := sign text
  let (whole, rest) ← decimalDigits rest
  let (frac, exp, rest) ←
    match fraction rest with
    | some (frac, rest) =>
        match exponent rest with
        | some (exp, rest) => some (frac, exp, rest)
        | none => some (frac, 0, rest)
    | none =>
        match exponent rest with
        | some (exp, rest) => some ([], exp, rest)
        | none => none
  if !negative && overflows (decimalNumber (whole ++ frac)) (exp - frac.length) then none
  else return (.float, rest)

/-- Read an infinity or a number that is none, after its sign. -/
def specialFloat : List Char → Option (Value × List Char)
  | 'i' :: 'n' :: 'f' :: rest => some (.float, rest)
  | 'n' :: 'a' :: 'n' :: rest => some (.float, rest)
  | _ => none

/-! ## Dates and times -/

/-- Read exactly `n` decimal digits. -/
def fixedDigits (n : Nat) (text : List Char) : Option (Nat × List Char) :=
  let ds := text.take n
  if ds.length = n ∧ ds.all isDigit then some (decimalNumber ds, text.drop n) else none

/-- Read a two-digit number in a range. -/
def twoDigits (low high : Nat) (text : List Char) : Option (Nat × List Char) := do
  let (n, rest) ← fixedDigits 2 text
  if low ≤ n ∧ n ≤ high then some (n, rest) else none

/-- Read one given character. -/
def exactly (c : Char) : List Char → Option (List Char)
  | d :: rest => if d = c then some rest else none
  | [] => none

/-- The number of days of a month. -/
def daysIn (year month : Nat) : Nat :=
  if month = 2 then
    if year % 4 = 0 ∧ (year % 100 ≠ 0 ∨ year % 400 = 0) then 29 else 28
  else if month = 4 ∨ month = 6 ∨ month = 9 ∨ month = 11 then 30
  else 31

/-- Read a date. -/
def date (text : List Char) : Option (List Char) := do
  let (year, rest) ← fixedDigits 4 text
  let rest ← exactly '-' rest
  let (month, rest) ← twoDigits 1 12 rest
  let rest ← exactly '-' rest
  let (day, rest) ← twoDigits 1 31 rest
  if day ≤ daysIn year month then some rest else none

/-- Skip a fraction of a second. -/
def skipSecondFraction : List Char → List Char
  | '.' :: c :: rest => if isDigit c then rest.dropWhile isDigit else '.' :: c :: rest
  | text => text

/-- Read a time of day. -/
def time (text : List Char) : Option (List Char) := do
  let (_, rest) ← twoDigits 0 23 text
  let rest ← exactly ':' rest
  let (_, rest) ← twoDigits 0 59 rest
  let rest ← exactly ':' rest
  let (_, rest) ← twoDigits 0 60 rest
  return skipSecondFraction rest

/-- Read an offset from universal time: `Z`, or hours and minutes. -/
def offset : List Char → Option (List Char)
  | c :: rest =>
      if c = 'Z' ∨ c = 'z' then some rest
      else if c = '+' ∨ c = '-' then do
        let (_, rest) ← twoDigits 0 23 rest
        let rest ← exactly ':' rest
        let (_, rest) ← twoDigits 0 59 rest
        return rest
      else none
  | [] => none

/-- Read a time behind a date, with its offset. -/
def timeBehindDate : List Char → Option (List Char)
  | c :: rest =>
      if c = 'T' ∨ c = 't' ∨ c = ' ' then do
        let rest ← time rest
        return (offset rest).getD rest
      else none
  | [] => none

/-- Read a date, a time, or both. -/
def datetime (text : List Char) : Option (Value × List Char) :=
  match date text with
  | some rest => some (.datetime, (timeBehindDate rest).getD rest)
  | none => (time text).map fun rest => (.datetime, rest)

/-! ## Scalars -/

/-- Read a value that starts like a number.  Dates come before floats and floats
before integers, because a shorter reading leaves characters that no value may be
followed by. -/
def number (text : List Char) : Option (Value × List Char) :=
  datetime text <|> decimalFloat text <|> specialFloat (sign text).2 <|> integer text

/-- Read a value without nesting. -/
def scalar : List Char → Option (Value × List Char)
  | 't' :: 'r' :: 'u' :: 'e' :: rest => some (.boolean true, rest)
  | 'f' :: 'a' :: 'l' :: 's' :: 'e' :: rest => some (.boolean false, rest)
  | text =>
      match stringValue text with
      | some (chars, rest) => some (.string (String.ofList chars), rest)
      | none => number text

end MountFs.Toml
