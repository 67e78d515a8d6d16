import MountFs.Config

/-!
# Text as bytes

Text is kept in files as UTF-8.  `Bytes.ofText` writes it and `Bytes.text?` reads it
back, and refuses bytes that are not UTF-8.  `Bytes.lossyText` reads any bytes: each
longest part that starts a character without finishing it, and each byte that
starts none, becomes one replacement character.

`Utf8.fault?` finds the first place where bytes stop being UTF-8.
-/

namespace MountFs

/-- The bytes of a text. -/
def Bytes.ofText (text : String) : Bytes := text.toByteArray.data.toList

/-- The text of bytes that are UTF-8. -/
def Bytes.text? (bytes : Bytes) : Option String := String.fromUTF8? ⟨bytes.toArray⟩

/-- Reading gives back what was written. -/
theorem Bytes.text?_ofText (text : String) : Bytes.text? (Bytes.ofText text) = some text := by
  have h : (⟨(Bytes.ofText text).toArray⟩ : ByteArray) = text.toByteArray := by
    simp [Bytes.ofText]
  rw [Bytes.text?, h, String.fromUTF8?, dif_pos text.isValidUTF8]
  rfl

namespace Utf8

/-- For a byte that starts a character: how many bytes follow, and between what
bounds the first of them lies. -/
def lead (byte : UInt8) : Option (Nat × UInt8 × UInt8) :=
  if byte < 0x80 then some (0, 0x80, 0xBF)
  else if byte < 0xC2 then none
  else if byte < 0xE0 then some (1, 0x80, 0xBF)
  else if byte = 0xE0 then some (2, 0xA0, 0xBF)
  else if byte = 0xED then some (2, 0x80, 0x9F)
  else if byte < 0xF0 then some (2, 0x80, 0xBF)
  else if byte = 0xF0 then some (3, 0x90, 0xBF)
  else if byte < 0xF4 then some (3, 0x80, 0xBF)
  else if byte = 0xF4 then some (3, 0x80, 0x8F)
  else none

/-- What bytes start with. -/
inductive Start where
  | whole (length : Nat)
  /-- Some bytes that start a character, or none, and one that does not go on. -/
  | broken (length : Nat)
  /-- The beginning of a character that the bytes end in. -/
  | cut
deriving DecidableEq, Repr, Inhabited

/-- Read the bytes that follow the first of a character.  `seen` bytes are read and
`missing` are not. -/
def follow (low high : UInt8) (seen : Nat) : Nat → Bytes → Start
  | 0, _ => .whole seen
  | _ + 1, [] => .cut
  | missing + 1, byte :: rest =>
      if low ≤ byte ∧ byte ≤ high then follow 0x80 0xBF (seen + 1) missing rest else .broken seen

/-- What bytes start with, the first byte apart. -/
def start (first : UInt8) (rest : Bytes) : Start :=
  match lead first with
  | none => .broken 1
  | some (missing, low, high) => follow low high 1 missing rest

/-- A place where bytes stop being UTF-8. -/
structure Fault where
  /-- How many bytes stand before it. -/
  index : Nat
  /-- How many bytes are at fault, unless the bytes end too early. -/
  length : Option Nat
deriving DecidableEq, Repr, Inhabited

/-- The message of a fault. -/
def Fault.message (f : Fault) : String :=
  match f.length with
  | some n =>
      "invalid utf-8 sequence of " ++ toString n ++ " bytes from index " ++ toString f.index
  | none => "incomplete utf-8 byte sequence from index " ++ toString f.index

/-- The first fault of some bytes that stand behind `index` others.  The first
argument bounds the number of characters. -/
def faultFrom : Nat → Nat → Bytes → Option Fault
  | 0, _, _ => none
  | _ + 1, _, [] => none
  | bound + 1, index, first :: rest =>
      match start first rest with
      | .whole n => faultFrom bound (index + n) (rest.drop (n - 1))
      | .broken n => some ⟨index, some n⟩
      | .cut => some ⟨index, none⟩

/-- The first fault of some bytes. -/
def fault? (bytes : Bytes) : Option Fault := faultFrom bytes.length 0 bytes

/-- The number that the low six bits of bytes add to a number. -/
def extend (n : Nat) (bytes : Bytes) : Nat := bytes.foldl (fun n b => 64 * n + b.toNat % 64) n

/-- The character of a whole sequence. -/
def decode (first : UInt8) (rest : Bytes) : Char :=
  match rest.length with
  | 0 => Char.ofNat first.toNat
  | 1 => Char.ofNat (extend (first.toNat % 32) rest)
  | 2 => Char.ofNat (extend (first.toNat % 16) rest)
  | _ => Char.ofNat (extend (first.toNat % 8) rest)

/-- The character that stands for bytes that are none. -/
def replacement : Char := Char.ofNat 0xFFFD

/-- The characters of bytes, with replacements.  The first argument bounds their
number. -/
def lossyChars : Nat → Bytes → List Char
  | 0, _ => []
  | _ + 1, [] => []
  | bound + 1, first :: rest =>
      match start first rest with
      | .whole n => decode first (rest.take (n - 1)) :: lossyChars bound (rest.drop (n - 1))
      | .broken n => replacement :: lossyChars bound (rest.drop (n - 1))
      | .cut => [replacement]

end Utf8

/-- The text of any bytes, with replacements where they are not UTF-8. -/
def Bytes.lossyText (bytes : Bytes) : String :=
  match Bytes.text? bytes with
  | some text => text
  | none => String.ofList (Utf8.lossyChars bytes.length bytes)

/-- Nothing is replaced in bytes that are a text. -/
theorem Bytes.lossyText_ofText (text : String) : Bytes.lossyText (Bytes.ofText text) = text := by
  rw [Bytes.lossyText, Bytes.text?_ofText]

/-! ## Lines -/

/-- Bytes in lines, each with the line feed that ends it. -/
def Bytes.lines : Bytes → List Bytes
  | [] => []
  | byte :: rest =>
      if byte = 0x0A then [byte] :: Bytes.lines rest
      else
        match Bytes.lines rest with
        | [] => [[byte]]
        | line :: lines => (byte :: line) :: lines

/-- A line without the characters that end it: a line feed, and a carriage return
before it. -/
def Text.chomp (line : String) : String :=
  match line.toList.reverse with
  | '\n' :: '\r' :: rest => String.ofList rest.reverse
  | '\n' :: rest => String.ofList rest.reverse
  | _ => line

/-- Characters in lines, each with the line feed that ends it. -/
def Text.splitLines : List Char → List (List Char)
  | [] => []
  | c :: rest =>
      if c = '\n' then [c] :: Text.splitLines rest
      else
        match Text.splitLines rest with
        | [] => [[c]]
        | line :: lines => (c :: line) :: lines

/-- The lines of a text, without what ends them. -/
def Text.lines (text : String) : List String :=
  (Text.splitLines text.toList).map fun line => Text.chomp (String.ofList line)

end MountFs
