import Mathlib.Data.String.Basic
import MountFs.Text.Utf8

/-!
# The order of bytes

Texts are ordered by their characters, from the first one at which they differ.  Written as UTF-8
they have the same order by their bytes (`Bytes.ofText_lt_iff`), so a list that is sorted by
either is sorted by both.

One character at a time this is a fact about numbers.  The first byte of a character tells how
many bytes it has, and more bytes start with a larger one.  With as many bytes, the bytes are the
digits of the character at base 64, the highest first.  Either way the two characters differ at a
byte, so what follows them does not matter (`utf8EncodeChar_append_lt`).
-/

namespace MountFs

/-- The bytes of a smaller character come first, whatever follows. -/
theorem utf8EncodeChar_append_lt {c d : Char} (h : c < d) (left right : Bytes) :
    String.utf8EncodeChar c ++ left < String.utf8EncodeChar d ++ right := by
  have less : c.val.toNat < d.val.toNat := h
  have bound : d.val.toNat < 0x110000 := by
    have valid := d.valid
    rcases valid with low | ⟨_, high⟩
    · exact Nat.lt_trans low (by decide)
    · exact high
  unfold String.utf8EncodeChar
  generalize c.val.toNat = n at less
  generalize d.val.toNat = m at less bound
  dsimp only
  split_ifs
  all_goals
    simp only [List.cons_append, List.nil_append, List.cons_lt_cons_iff, UInt8.lt_iff_toNat_lt,
      ← UInt8.toNat_inj, UInt8.toNat_ofNat']
    simp (disch := omega) only [Nat.mod_eq_of_lt]
    omega

namespace Bytes

theorem ofText_eq_flatMap (text : String) :
    ofText text = text.toList.flatMap String.utf8EncodeChar := by
  have bytes : text.toByteArray = text.toList.utf8Encode := by
    rw [← String.toByteArray_ofList, String.ofList_toList]
  rw [ofText, bytes, List.utf8Encode, List.toList_data_toByteArray]

theorem ofText_append (left right : String) :
    ofText (left ++ right) = ofText left ++ ofText right := by
  simp [ofText_eq_flatMap]

theorem flatMap_lt_flatMap {left right : List Char} (h : left < right) :
    left.flatMap String.utf8EncodeChar < right.flatMap String.utf8EncodeChar := by
  induction left generalizing right with
  | nil =>
      cases right with
      | nil => exact absurd h (List.lt_irrefl [])
      | cons d right =>
          rw [List.flatMap_nil, List.flatMap_cons]
          cases bytes : String.utf8EncodeChar d with
          | nil => exact absurd bytes String.utf8EncodeChar_ne_nil
          | cons first rest => exact List.nil_lt_cons _ _
  | cons c left ih =>
      cases right with
      | nil => cases h
      | cons d right =>
          rw [List.flatMap_cons, List.flatMap_cons]
          rcases List.cons_lt_cons_iff.mp h with less | ⟨rfl, less⟩
          · exact utf8EncodeChar_append_lt less _ _
          · exact List.append_left_lt (ih less)

/-- Texts and their bytes have the same order. -/
theorem ofText_lt_iff {left right : String} : ofText left < ofText right ↔ left < right := by
  have mono : ∀ {left right : String}, left < right → ofText left < ofText right := by
    intro left right less
    rw [ofText_eq_flatMap, ofText_eq_flatMap]
    exact flatMap_lt_flatMap (String.lt_iff_toList_lt.mp less)
  refine ⟨fun less => ?_, mono⟩
  rcases lt_trichotomy left right with before | rfl | after
  · exact before
  · exact absurd less (List.lt_irrefl _)
  · exact absurd less (List.lt_asymm (mono after))

end Bytes

end MountFs
