import MountFs.Proofs.Words

/-!
# Lines and commands

A line is read word by word.  Lines that spell the same words are the same command, or are refused
for the same reason.  That a line is blank or a comment shows before its words are read, on the line
without the blanks at its ends (`parse_eq_trim`).

A command is written back as a line by `Command.line`, and read again from that line
(`parse_line`).  The line need not be the one that was typed.  `cd` without a path is written with
the path it stands for, and words that a command does not look at are gone.  So what comes back are
not the words of the first line but words that are read as the same command (`exists_toWords`).
-/

namespace MountFs

namespace Command

open Text

/-! ## Reading -/

theorem exists_of_map_some {result : Except CommandError Command} {made : Option Command}
    (h : result.map some = .ok made) : ∃ c, made = some c ∧ result = .ok c := by
  cases result with
  | error => cases h
  | ok c =>
      cases h
      exact ⟨c, rfl, rfl⟩

/-- Whether a line is blank or a comment can be told from the line without the blanks at its ends,
before its words are read. -/
theorem parse_eq_trim (line : String) :
    parse line =
      if trim line = "" ∨ (trim line).toList.head? = some '#' then .ok none
      else match words (trim line) with
        | [] => .ok none
        | name :: args => (ofWords name args).map some := by
  by_cases blank : trim line = ""
  · rw [if_pos (Or.inl blank), parse, ← words_trim, blank]
    rfl
  · obtain ⟨name, args, spelled, start⟩ := exists_word_of_trim blank
    simp only [parse, words_trim, spelled, start, blank, false_or, isComment, beq_iff_eq]

/-- The lines that are no commands are the blank ones and the comments. -/
theorem parse_eq_none_iff {line : String} :
    parse line = .ok none ↔ trim line = "" ∨ (trim line).toList.head? = some '#' := by
  rw [parse_eq_trim]
  split
  case isTrue skipped => exact iff_of_true rfl skipped
  case isFalse read =>
    obtain ⟨name, args, spelled, _⟩ := exists_word_of_trim (not_or.mp read).1
    refine iff_of_false (fun none => ?_) read
    rw [words_trim, spelled] at none
    obtain ⟨_, made, _⟩ := exists_of_map_some none
    cases made

/-- A line is read as a command if it spells its name and arguments. -/
theorem parse_eq_some_iff {line : String} {c : Command} :
    parse line = .ok (some c) ↔ ∃ name args, Spells (name :: args) line.toList
      ∧ isComment name = false ∧ ofWords name args = .ok c := by
  constructor
  · intro h
    rw [parse] at h
    split at h
    case h_1 => cases h
    case h_2 name args spelled =>
      split at h
      case isTrue => cases h
      case isFalse command =>
        obtain ⟨_, ⟨⟩, made⟩ := exists_of_map_some h
        exact ⟨name, args, words_eq_iff.mp spelled, Bool.eq_false_iff.mpr command, made⟩
  · rintro ⟨name, args, spells, command, reads⟩
    rw [parse, words_eq_iff.mpr spells]
    simp only [command, reads]
    rfl

/-! ## Writing -/

/-- The words of content are those it was put together from. -/
theorem words_contentOf {words : List String} (all : ∀ word ∈ words, IsWord word) :
    Text.words (contentOf words) = words := by
  have lineFeed : ∀ c ∈ "\n".toList, isBlank c = true := List.forall_mem_singleton.mpr rfl
  rw [words_eq_iff, contentOf, String.toList_append]
  exact (spells_intercalate all).append_blanks lineFeed

theorem withPath_eq_ok {name : String} {make : String → Command} {args : List String}
    {c : Command} (h : withPath name make args = .ok c) :
    ∃ path, args = [path] ∧ c = make path := by
  unfold withPath at h
  split at h
  · cases h
    exact ⟨_, rfl, rfl⟩
  · cases h

theorem withContent_eq_ok {name : String} {make : String → String → Command} {args : List String}
    {c : Command} (h : withContent name make args = .ok c) :
    ∃ path words, args = path :: words ∧ c = make path (contentOf words) := by
  unfold withContent at h
  split at h
  · cases h
    exact ⟨_, _, rfl, rfl⟩
  · cases h

/-- A command printed has the name that it was read from, and arguments that are read as the same
command.  They are the old ones, unless the command does without some of them or has one added. -/
theorem exists_toWords {name : String} {args : List String} {c : Command}
    (all : ∀ word ∈ args, IsWord word) (h : ofWords name args = .ok c) :
    ∃ args', c.toWords = name :: args' ∧ (∀ word ∈ args', IsWord word)
      ∧ ofWords name args' = .ok c := by
  unfold ofWords at h
  split at h
  case h_1 | h_11 | h_12 | h_13 =>
    cases h
    exact ⟨[], rfl, nofun, rfl⟩
  case h_2 =>
    cases h
    refine ⟨[args.headD "/"], rfl, List.forall_mem_singleton.mpr ?_, rfl⟩
    cases args with
    | nil => exact ⟨by decide, List.forall_mem_singleton.mpr rfl⟩
    | cons path _ => exact all path List.mem_cons_self
  case h_3 =>
    split at h
    · cases h
      exact ⟨[], rfl, nofun, rfl⟩
    · cases h
      exact ⟨_, rfl, all, rfl⟩
    · cases h
  case h_4 | h_5 | h_6 | h_7 | h_8 =>
    obtain ⟨path, rfl, rfl⟩ := withPath_eq_ok h
    exact ⟨_, rfl, all, rfl⟩
  case h_9 | h_10 =>
    obtain ⟨path, words, rfl, rfl⟩ := withContent_eq_ok h
    have content := words_contentOf (List.forall_mem_cons.mp all).2
    refine ⟨path :: words, ?_, all, rfl⟩
    rw [toWords, content]
  case h_14 => cases h

/-- A command is read again from the line that it prints as. -/
theorem parse_line {line : String} {c : Command} (h : parse line = .ok (some c)) :
    parse c.line = .ok (some c) := by
  obtain ⟨name, args, spells, command, reads⟩ := parse_eq_some_iff.mp h
  obtain ⟨isWord, all⟩ := List.forall_mem_cons.mp spells.isWord
  obtain ⟨args', prints, all', reads'⟩ := exists_toWords all reads
  refine parse_eq_some_iff.mpr ⟨name, args', ?_, command, reads'⟩
  rw [Command.line, prints]
  exact spells_intercalate (List.forall_mem_cons.mpr ⟨isWord, all'⟩)

/-- Lines that spell the same words, in whatever spacing, are read alike: as the same command, as
none, or with the same error and so the same message.  A line is read as none exactly if it is empty
or starts with `#`, apart from the blanks at its ends.  And a command that is read from some line is
read again from the line that has its words with single spaces between them. -/
theorem reads_words_and_prints_back :
    (∀ (words : List String) (left right : String), Spells words left.toList →
      Spells words right.toList → parse left = parse right)
    ∧ (∀ line, parse line = .ok none ↔ trim line = "" ∨ (trim line).toList.head? = some '#')
    ∧ ∀ line c, parse line = .ok (some c) → parse c.line = .ok (some c) := by
  refine ⟨fun words left right spelled same => ?_, fun line => parse_eq_none_iff,
    fun line c read => parse_line read⟩
  rw [parse, parse, words_eq_iff.mpr spelled, words_eq_iff.mpr same]

/-- A write with blanks of several kinds, a line that is refused, and a `cd` that is written back
with a path. -/
theorem reads_words_and_prints_back_spaced :
    parse "\u00a0write\t#f  a\u2003b " = parse "write #f a b"
      ∧ parse "mkdir\u3000a b" = .error (.usage "mkdir" "<path>")
      ∧ parse "  #f" = .ok none
      ∧ parse (Command.line (.write "#f" "a b\n")) = .ok (some (.write "#f" "a b\n"))
      ∧ parse (Command.line (.cd "/")) = .ok (some (.cd "/")) := by
  obtain ⟨alike, skips, again⟩ := reads_words_and_prints_back
  refine ⟨alike ["write", "#f", "a", "b"] _ _ (by decide +kernel) (by decide +kernel), ?_,
    (skips _).mpr (by decide +kernel), again "write #f a\tb" _ rfl,
    again "cd" _ rfl⟩
  exact alike ["mkdir", "a", "b"] _ "mkdir a b" (by decide +kernel) (by decide +kernel)

end Command

end MountFs
