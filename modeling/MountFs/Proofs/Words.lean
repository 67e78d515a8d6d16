import MountFs.Command

/-!
# Words and lines

`Spells words text` says that a text consists of words, in their order, with blanks around them.
There may be blanks of any kind and number before the first word and behind the last, and there is
at least one between two words.  Reading the words of a text is the inverse of spelling them
(`words_eq_iff`): a text spells the words that are read from it and no others.

So what a line means to the shell is told by the words that it spells.  Words are spelled again
with single spaces between them (`spells_intercalate`), and the blanks at the ends of a text spell
nothing (`words_trim`).
-/

namespace MountFs

namespace Text

/-- A text that is one word. -/
structure IsWord (word : String) : Prop where
  ne_empty : word ≠ ""
  noBlank : ∀ c ∈ word.toList, isBlank c = false

/-- The characters are the words in their order, with blanks around them.  Behind a word comes a
blank or the end. -/
inductive Spells : List String → List Char → Prop
  | blanks {gap : List Char} (blank : ∀ c ∈ gap, isBlank c = true) : Spells [] gap
  | word {gap rest : List Char} {word : String} {words : List String}
      (blank : ∀ c ∈ gap, isBlank c = true) (isWord : IsWord word) (spells : Spells words rest)
      (ends : ∀ c ∈ rest.head?, isBlank c = true) :
      Spells (word :: words) (gap ++ word.toList ++ rest)

/-! ## Reading what is spelled -/

/-- Blanks before a word are skipped. -/
theorem wordsFrom_blanks {gap : List Char} (blank : ∀ c ∈ gap, isBlank c = true)
    (rest : List Char) : wordsFrom [] (gap ++ rest) = wordsFrom [] rest := by
  induction gap with
  | nil => rfl
  | cons c gap ih =>
      rw [List.cons_append, wordsFrom, if_pos (blank c List.mem_cons_self)]
      exact ih fun c m => blank c (List.mem_cons_of_mem _ m)

/-- Characters that are not blank are added to the word being read. -/
theorem wordsFrom_append {part : List Char} (solid : ∀ c ∈ part, isBlank c = false)
    (word rest : List Char) : wordsFrom word (part ++ rest) = wordsFrom (word ++ part) rest := by
  induction part generalizing word with
  | nil => rw [List.nil_append, List.append_nil]
  | cons c part ih =>
      rw [List.cons_append, wordsFrom, solid c List.mem_cons_self, if_neg Bool.false_ne_true,
        ih (fun c m => solid c (List.mem_cons_of_mem _ m)), List.append_assoc,
        List.singleton_append]

/-- A word ends at a blank and at the end of the text. -/
theorem wordsFrom_of_ends {word rest : List Char} (some : word ≠ [])
    (ends : ∀ c ∈ rest.head?, isBlank c = true) :
    wordsFrom word rest = word :: wordsFrom [] rest := by
  have solid : word.isEmpty = false := by simpa using some
  cases rest with
  | nil => simp [wordsFrom, solid]
  | cons c rest => simp [wordsFrom, solid, ends c rfl]

theorem IsWord.toList_ne_nil {word : String} (h : IsWord word) : word.toList ≠ [] :=
  fun none => h.ne_empty (String.toList_eq_nil_iff.mp none)

theorem Spells.wordsFrom_eq {words : List String} {text : List Char} (h : Spells words text) :
    (wordsFrom [] text).map String.ofList = words := by
  induction h with
  | blanks blank =>
      have skipped := wordsFrom_blanks blank []
      rw [List.append_nil] at skipped
      rw [skipped]
      rfl
  | word blank isWord spells ends ih =>
      rw [List.append_assoc, wordsFrom_blanks blank, wordsFrom_append isWord.noBlank,
        List.nil_append, wordsFrom_of_ends isWord.toList_ne_nil ends, List.map_cons, ih,
        String.ofList_toList]

/-! ## Every text spells its words -/

theorem isWord_ofList {word : List Char} (some : word ≠ [])
    (solid : ∀ c ∈ word, isBlank c = false) : IsWord (String.ofList word) where
  ne_empty := fun none => some (by rw [← String.toList_ofList (l := word), none]; rfl)
  noBlank := by rwa [String.toList_ofList]

theorem Spells.cons_blank {words : List String} {text : List Char} (h : Spells words text)
    {c : Char} (blank : isBlank c = true) : Spells words (c :: text) := by
  cases h with
  | blanks gap => exact .blanks (List.forall_mem_cons.mpr ⟨blank, gap⟩)
  | word gap isWord spells ends =>
      exact .word (List.forall_mem_cons.mpr ⟨blank, gap⟩) isWord spells ends

/-- A word that is read to its end, and then what the rest spells. -/
theorem Spells.cons_word {words : List String} {word rest : List Char} (some : word ≠ [])
    (solid : ∀ c ∈ word, isBlank c = false) (spells : Spells words rest)
    (ends : ∀ c ∈ rest.head?, isBlank c = true) :
    Spells (String.ofList word :: words) (word ++ rest) := by
  have none : ∀ c ∈ ([] : List Char), isBlank c = true := fun _ m => nomatch m
  have all := Spells.word none (isWord_ofList some solid) spells ends
  rwa [List.nil_append, String.toList_ofList] at all

/-- The induction follows the reading, which is between two words or inside of one. -/
theorem spells_wordsFrom (text : List Char) :
    Spells ((wordsFrom [] text).map String.ofList) text
      ∧ ∀ word ≠ [], (∀ c ∈ word, isBlank c = false) →
        Spells ((wordsFrom word text).map String.ofList) (word ++ text) := by
  induction text with
  | nil =>
      have none : Spells [] [] := .blanks fun _ m => nomatch m
      refine ⟨none, fun word some solid => ?_⟩
      rw [wordsFrom_of_ends some (by simp)]
      exact none.cons_word some solid (by simp)
  | cons c rest ih =>
      obtain ⟨between, inside⟩ := ih
      cases blank : isBlank c with
      | true =>
          have skips : Spells ((wordsFrom [] (c :: rest)).map String.ofList) (c :: rest) := by
            rw [wordsFrom, blank]
            exact between.cons_blank blank
          have ends : ∀ d ∈ (c :: rest).head?, isBlank d = true := by
            rintro d ⟨⟩
            exact blank
          refine ⟨skips, fun word some solid => ?_⟩
          rw [wordsFrom_of_ends some ends]
          exact skips.cons_word some solid ends
      | false =>
          have further : ∀ word, (∀ d ∈ word, isBlank d = false) →
              Spells ((wordsFrom word (c :: rest)).map String.ofList) (word ++ c :: rest) := by
            intro word solid
            have solid' : ∀ d ∈ word ++ [c], isBlank d = false := by
              intro d m
              rcases List.mem_append.mp m with old | new
              · exact solid d old
              · rw [List.mem_singleton.mp new]
                exact blank
            have spells := inside (word ++ [c]) (by simp) solid'
            rw [wordsFrom, blank, if_neg Bool.false_ne_true]
            rwa [List.append_assoc, List.singleton_append] at spells
          exact ⟨further [] (by simp), fun word _ solid => further word solid⟩

/-- The words of a text are the words that it spells. -/
theorem words_eq_iff {text : String} {words : List String} :
    Text.words text = words ↔ Spells words text.toList := by
  constructor
  · rintro rfl
    exact (spells_wordsFrom text.toList).1
  · exact Spells.wordsFrom_eq

instance (words : List String) (text : String) : Decidable (Spells words text.toList) :=
  decidable_of_iff _ words_eq_iff

/-! ## Spelling words -/

theorem Spells.isWord {words : List String} {text : List Char} (h : Spells words text) :
    ∀ word ∈ words, IsWord word := by
  induction h with
  | blanks => exact fun _ m => nomatch m
  | word _ isWord _ _ ih => exact List.forall_mem_cons.mpr ⟨isWord, ih⟩

/-- Words with single spaces between them are spelled. -/
theorem spells_intercalate {words : List String} (all : ∀ word ∈ words, IsWord word) :
    Spells words (" ".intercalate words).toList := by
  have none : ∀ c ∈ ([] : List Char), isBlank c = true := fun _ m => nomatch m
  induction words with
  | nil => exact .blanks none
  | cons word words ih =>
      obtain ⟨first, others⟩ := List.forall_mem_cons.mp all
      cases words with
      | nil => simpa using Spells.word none first (.blanks none) (by simp)
      | cons next rest =>
          have spells := (ih others).cons_blank (c := ' ') rfl
          have ends : ∀ c ∈ (' ' :: (" ".intercalate (next :: rest)).toList).head?,
              isBlank c = true := by
            rintro c ⟨⟩
            rfl
          have all := Spells.word none first spells ends
          rw [String.intercalate_cons_cons]
          simpa using all

/-! ## Blanks at the ends -/

/-- Blanks before a text spell nothing. -/
theorem Spells.blanks_append {words : List String} {text gap : List Char}
    (h : Spells words text) (blank : ∀ c ∈ gap, isBlank c = true) : Spells words (gap ++ text) := by
  induction gap with
  | nil => exact h
  | cons c gap ih =>
      obtain ⟨first, others⟩ := List.forall_mem_cons.mp blank
      exact (ih others).cons_blank first

/-- Blanks behind a text spell nothing. -/
theorem Spells.append_blanks {words : List String} {text gap : List Char}
    (h : Spells words text) (blank : ∀ c ∈ gap, isBlank c = true) : Spells words (text ++ gap) := by
  induction h with
  | blanks before => exact .blanks (List.forall_mem_append.mpr ⟨before, blank⟩)
  | @word _ rest _ _ before isWord _ ends ih =>
      rw [List.append_assoc]
      refine .word before isWord ih fun c first => ?_
      cases rest with
      | nil => exact blank c (List.mem_of_mem_head? first)
      | cons d rest => exact ends c first

/-- The first of the characters that are left is not blank. -/
theorem isBlank_of_mem_head?_dropWhile (text : List Char) :
    ∀ c ∈ (text.dropWhile isBlank).head?, isBlank c = false := by
  intro c first
  have solid := List.head?_dropWhile_not isBlank text
  rw [first] at solid
  exact solid

/-- A text is what `trim` leaves, with blanks before it and behind it. -/
theorem exists_trim (text : String) :
    ∃ front back, (∀ c ∈ front, isBlank c = true) ∧ (∀ c ∈ back, isBlank c = true)
      ∧ text.toList = front ++ ((trim text).toList ++ back)
      ∧ ∀ c ∈ (trim text).toList.head?, isBlank c = false := by
  have left := List.takeWhile_append_dropWhile (p := isBlank) (l := text.toList)
  have right : text.toList.dropWhile isBlank = (trim text).toList
      ++ ((text.toList.dropWhile isBlank).reverse.takeWhile isBlank).reverse := by
    rw [trim, String.toList_ofList, ← List.reverse_append, List.takeWhile_append_dropWhile,
      List.reverse_reverse]
  refine ⟨_, _, List.all_eq_true.mp List.all_takeWhile, ?_,
    left.symm.trans (congrArg (_ ++ ·) right), fun c first => ?_⟩
  · intro c m
    exact List.all_eq_true.mp List.all_takeWhile c (List.mem_reverse.mp m)
  · refine isBlank_of_mem_head?_dropWhile text.toList c ?_
    rw [right, List.head?_append, first]
    rfl

/-- The blanks at the ends of a text make no difference to its words. -/
theorem words_trim (text : String) : words (trim text) = words text := by
  obtain ⟨front, back, before, behind, split, _⟩ := exists_trim text
  have spells : Spells (words (trim text)) (trim text).toList := words_eq_iff.mp rfl
  refine (words_eq_iff.mpr ?_).symm
  rw [split]
  exact (spells.append_blanks behind).blanks_append before

/-- A text that does not start with a blank starts with the first word. -/
theorem Spells.exists_word {words : List String} {text : List Char} (h : Spells words text)
    (some : text ≠ []) (solid : ∀ c ∈ text.head?, isBlank c = false) :
    ∃ word rest, words = word :: rest ∧ text.head? = word.toList.head? := by
  cases h with
  | blanks blank =>
      obtain ⟨c, _, rfl⟩ := List.exists_cons_of_ne_nil some
      cases (solid c rfl).symm.trans (blank c List.mem_cons_self)
  | @word gap rest word _ blank isWord =>
      cases gap with
      | nil =>
          obtain ⟨c, _, chars⟩ := List.exists_cons_of_ne_nil isWord.toList_ne_nil
          exact ⟨word, _, rfl, by rw [chars]; rfl⟩
      | cons c gap => cases (solid c rfl).symm.trans (blank c List.mem_cons_self)

theorem exists_word_of_trim {text : String} (some : trim text ≠ "") :
    ∃ word rest, words text = word :: rest ∧ (trim text).toList.head? = word.toList.head? := by
  obtain ⟨_, _, _, _, _, solid⟩ := exists_trim text
  have spells : Spells (words text) (trim text).toList := words_eq_iff.mp (words_trim text)
  exact spells.exists_word (fun none => some (String.toList_eq_nil_iff.mp none)) solid

end Text

end MountFs
