import MountFs.Digest
import MountFs.Text.Hidden

/-!
# Quoted text

A quoted text stands between double quotes, in a form where every character shows.
Quotes and backslashes are led by a backslash.  Tab, line feed, carriage return and
NUL have a letter of their own.  Any other hidden character is written as its code
point in hexadecimal.
-/

namespace MountFs.Text

/-- The hexadecimal digits of a number, without leading zeros.  The first argument
bounds their number. -/
def hexDigits : Nat → Nat → List Char
  | 0, _ => []
  | bound + 1, n =>
      if n < 16 then [Digest.hexDigit n] else hexDigits bound (n / 16) ++ [Digest.hexDigit (n % 16)]

/-- A code point in braces. -/
def codePoint (c : Char) : List Char :=
  ['\\', 'u', Char.ofNat 0x7B] ++ hexDigits 6 c.toNat ++ [Char.ofNat 0x7D]

/-- A character as it stands in quotes. -/
def escape (c : Char) : List Char :=
  if c = '"' then ['\\', '"']
  else if c = '\\' then ['\\', '\\']
  else if c = '\t' then ['\\', 't']
  else if c = '\n' then ['\\', 'n']
  else if c = '\r' then ['\\', 'r']
  else if c = Char.ofNat 0 then ['\\', '0']
  else if isHidden c then codePoint c
  else [c]

/-- A text in quotes. -/
def quoted (text : String) : String :=
  String.ofList ('"' :: text.toList.flatMap escape ++ ['"'])

end MountFs.Text
