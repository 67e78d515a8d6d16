import MountFs.Proofs.ByteOrder
import MountFs.Proofs.WholeFiles
import MountFs.Proofs.Words
import MountFs.Shell

/-!
# Sessions of the shell

A file is written and appended to by lines of the shell, and then it is printed.  What comes out is
what the lines say, from the last one that wrote (`Shell.since`).

Each line is one step through everything.  The words that it spells give the command, the words of
the content are put together with single spaces, the path is read from the current directory, and
the content is written as bytes in a session of its own.  `Edit.reads` says what the step does to
the text of the file: a write replaces it and an append goes on from it.  A session of lines is
the induction over these steps (`reads_runLines`).

A namespace from the default configuration has no store on the host, and no history in which none
is made gives it one (`HostFree`).
-/

namespace MountFs

/-! ## Without stores on the host -/

/-- The event makes no store on the host. -/
def NamespaceEvent.MakesNoHost : NamespaceEvent → Prop
  | .make _ _ spec => spec.kind = .virtual
  | _ => True

instance : DecidablePred NamespaceEvent.MakesNoHost
  | .make _ _ spec => inferInstanceAs (Decidable (spec.kind = .virtual))
  | .ask _ _ => inferInstanceAs (Decidable True)
  | .change _ => inferInstanceAs (Decidable True)

namespace Namespace

variable {ns after : Namespace} {now : Time} {p : String}

/-- No store of the namespace is on the host. -/
def HostFree (ns : Namespace) : Prop := ∀ store ∈ ns.stores, ∀ t, store ≠ .host t

theorem HostFree.storeAt_ne (free : ns.HostFree) (index : Nat) (t : HostStore) :
    ns.storeAt index ≠ .host t :=
  fun host => free _ (mem_stores_of_storeAt host nofun) t rfl

/-- No calls put a store on the host. -/
theorem ne_host_of_leads {start last : Store × World} (leads : Store.Leads start last)
    (free : ∀ t, start.1 ≠ .host t) (t : HostStore) : last.1 ≠ .host t := by
  obtain ⟨calls, rfl⟩ := leads
  obtain ⟨store, w⟩ := start
  cases store with
  | memory s =>
      rw [Store.run_memory]
      nofun
  | host s => exact absurd rfl (free s)
  | failing =>
      rw [Store.run_failing]
      nofun

theorem ne_host_of_makeStore {w : World} {config : Config} {spec : MountSpec} {s : Store}
    (virtual : spec.kind = .virtual) (made : makeStore w config now spec = .ok s)
    (t : HostStore) : s ≠ .host t := by
  rw [makeStore, virtual] at made
  cases made
  nofun

theorem HostFree.effect {e : NamespaceEvent} (free : ns.HostFree) (virtual : e.MakesNoHost)
    (h : Effect ns e after) : after.HostFree := by
  refine h.forall_stores (fun store => ∀ t, store ≠ .host t) free ?_ ne_host_of_leads
  rintro now config spec s rfl made
  exact ne_host_of_makeStore virtual made

theorem HostFree.run (free : ns.HostFree) {events : List NamespaceEvent}
    (virtual : ∀ e ∈ events, e.MakesNoHost) : (ns.run events).HostFree :=
  History.final_induction_of_mem free events fun ns e there free =>
    free.effect (virtual e there) (step_effect ns e)

theorem hostFree_of_default {world : World} (default : ofConfig world {} now = .ok ns) :
    ns.HostFree := by
  cases default
  intro store there t
  rw [List.mem_singleton.mp there]
  nofun

theorem HostFree.writeWith (free : ns.HostFree) (now : Time) (path : String) (mode : OpenMode)
    (content : Bytes) : (ns.writeWith now path mode content).state.HostFree := by
  have virtual : NamespaceEvent.MakesNoHost (.ask now (.writeWhole path content)) := trivial
  exact free.effect virtual (ns.writeWith_effect now path mode content)

/-- A write that succeeds goes to a store in memory, because the failing store writes nothing. -/
theorem HostFree.exists_content (free : ns.HostFree) (tidy : ns.Tidy) {path : String}
    {mode : OpenMode} {content : Bytes}
    (h : ns.writeWith now path mode content = ⟨after, .ok ()⟩) :
    ∃ node : MemoryNode, ns.Content path node.data
      ∧ ∀ later, (after.readWhole later path).outcome = .ok (node.kept mode ++ content) := by
  obtain ⟨r, found⟩ := exists_route_of_writeWith h
  cases store : ns.storeAt r.mount.store with
  | memory s => exact tidy.exists_content_of_route found store h
  | host t => exact absurd store (free.storeAt_ne _ t)
  | failing =>
      rw [writeWith_of_route found, store] at h
      cases h

/-- The file at a path has a text. -/
def Reads (ns : Namespace) (path text : String) : Prop :=
  ∀ later, (ns.readWhole later path).outcome = .ok (.ofText text)

end Namespace

namespace Shell

open Namespace

variable {ns : Namespace} {p : String}

/-! ## Lines that change a file -/

/-- Run lines one after the other, each at its time. -/
def runLines (ns : Namespace) :
    List (Time × String) → Namespace × List (Except LineError (Option String))
  | [] => (ns, [])
  | (now, line) :: rest =>
      let first := runLine ns now line
      let others := runLines first.1 rest
      (others.1, first.2 :: others.2)

/-- A line `write` or `append` with words for content. -/
structure Edit where
  /-- Whether the words go behind the old content, and do not replace it. -/
  appends : Bool
  words : List String
  /-- The line as it is typed. -/
  line : String
  /-- When it is run. -/
  now : Time

namespace Edit

/-- The first word of the line. -/
def name (e : Edit) : String := if e.appends then "append" else "write"

/-- The mode that the file is opened in. -/
def mode (e : Edit) : OpenMode := if e.appends then .append else .write

/-- What the line says: its words with single spaces between them, and a line feed. -/
def text (e : Edit) : String := " ".intercalate e.words ++ "\n"

/-- The line spells the name, a path and the words, in any spacing. -/
def Spelled (e : Edit) (p : String) : Prop := Text.Spells (e.name :: p :: e.words) e.line.toList

instance (e : Edit) (p : String) : Decidable (e.Spelled p) :=
  inferInstanceAs (Decidable (Text.Spells _ e.line.toList))

theorem parse_eq {e : Edit} (spelled : e.Spelled p) :
    Command.parse e.line
      = .ok (some (if e.appends then .append p e.text else .write p e.text)) := by
  rw [Command.parse, Text.words_eq_iff.mpr spelled, name]
  cases e.appends <;> rfl

theorem execute_eq (e : Edit) (ns : Namespace) (p : String) :
    execute ns e.now (if e.appends then .append p e.text else .write p e.text)
      = silent (ns.writeWith e.now p e.mode (.ofText e.text)) := by
  rw [mode]
  cases e.appends <;> rfl

/-- A line that succeeds has written. -/
theorem writeWith_eq {e : Edit} (spelled : e.Spelled p)
    (succeeds : (runLine ns e.now e.line).2.isOk = true) :
    ns.writeWith e.now p e.mode (.ofText e.text) = ⟨(runLine ns e.now e.line).1, .ok ()⟩ := by
  rw [runLine, parse_eq spelled] at succeeds ⊢
  dsimp only at succeeds ⊢
  rw [execute_eq] at succeeds ⊢
  cases wrote : ns.writeWith e.now p e.mode (.ofText e.text) with
  | mk state outcome =>
      cases outcome with
      | ok => rfl
      | error cause =>
          rw [wrote] at succeeds
          cases succeeds

/-- A line that succeeds leaves its text in the file, behind the old one if it appends. -/
theorem reads {e : Edit} (spelled : e.Spelled p) (tidy : ns.Tidy) (free : ns.HostFree)
    (succeeds : (runLine ns e.now e.line).2.isOk = true) {old : String}
    (before : e.appends = true → ns.Reads p old) :
    (runLine ns e.now e.line).1.Reads p (if e.appends then old ++ e.text else e.text) := by
  obtain ⟨node, held, after⟩ := free.exists_content tidy (writeWith_eq spelled succeeds)
  intro later
  rw [after later, mode, MemoryNode.kept]
  cases appends : e.appends with
  | false => rfl
  | true =>
      have data : node.data = .ofText old := by
        cases held with
        | there reads => exact Except.ok.inj ((reads 0).symm.trans (before appends 0))
        | missing inner lost => cases (lost 0).symm.trans (before appends 0)
      simp [data, Bytes.ofText_append]

end Edit

/-! ## From the last write on -/

/-- The lines whose text is in the file, behind some that put theirs there: a write starts over. -/
def keep (kept : List Edit) (e : Edit) : List Edit := if e.appends then kept ++ [e] else [e]

/-- The lines from the last write on. -/
def since (edits : List Edit) : List Edit := edits.foldl keep []

/-- What lines say one after the other. -/
def textOf (edits : List Edit) : String := String.join (edits.map Edit.text)

theorem textOf_keep (kept : List Edit) (e : Edit) :
    textOf (keep kept e) = if e.appends then textOf kept ++ e.text else e.text := by
  rw [keep, textOf, textOf]
  cases e.appends with
  | false => simp
  | true => simp [String.join_append]

/-! ## A session -/

/-- The lines of edits, with their times. -/
def lines (edits : List Edit) : List (Time × String) := edits.map fun e => (e.now, e.line)

/-- Lines that all succeed leave their text in the file, from the last write on.  The induction
carries the lines whose text is there already. -/
theorem reads_runLines {edits : List Edit} (tidy : ns.Tidy) (free : ns.HostFree)
    (spelled : ∀ e ∈ edits, e.Spelled p)
    (succeed : ∀ result ∈ (runLines ns (lines edits)).2, result.isOk = true)
    {kept : List Edit}
    (before : (∀ e ∈ edits.head?, e.appends = true) → ns.Reads p (textOf kept)) :
    (runLines ns (lines edits)).1.Reads p (textOf (edits.foldl keep kept)) := by
  induction edits generalizing ns kept with
  | nil => exact before (by simp)
  | cons e rest ih =>
      obtain ⟨spelledFirst, spelledRest⟩ := List.forall_mem_cons.mp spelled
      obtain ⟨first, others⟩ := List.forall_mem_cons.mp succeed
      have wrote := e.writeWith_eq spelledFirst first
      have tidy' := tidy.writeWith e.now p e.mode (.ofText e.text)
      have free' := free.writeWith e.now p e.mode (.ofText e.text)
      rw [wrote] at tidy' free'
      refine ih tidy' free' spelledRest others fun _ => ?_
      rw [textOf_keep]
      exact e.reads spelledFirst tidy free first fun appends => before (by simpa using appends)

/-- To print a file gives its text. -/
theorem runLine_cat {text line : String} (reads : ns.Reads p text)
    (spells : Text.Spells ["cat", p] line.toList) (now : Time) :
    (runLine ns now line).2 = .ok (some text) := by
  have parses : Command.parse line = .ok (some (.cat p)) := by
    rw [Command.parse, Text.words_eq_iff.mpr spells]
    rfl
  rw [runLine, parses]
  dsimp only
  rw [execute]
  have outcome := reads now
  cases read : ns.readWhole now p with
  | mk state result =>
      rw [read] at outcome
      cases outcome
      exact congrArg (fun text => Except.ok (some text)) (Bytes.lossyText_ofText text)

/-- On a namespace from the default configuration, after any history in which no store on the host
is made: if lines that write and append to a path all succeed, and the first of them is a write,
then what is printed of the path is what the lines say, from the last write on. -/
theorem cat_prints_what_was_written {world : World} {start : Time} {first : Namespace}
    (default : ofConfig world {} start = .ok first) {events : List NamespaceEvent}
    (virtual : ∀ e ∈ events, e.MakesNoHost) {p : String} {edits : List Edit}
    (starts : ∃ write rest, edits = write :: rest ∧ write.appends = false)
    (spelled : ∀ e ∈ edits, e.Spelled p)
    (succeed : ∀ result ∈ (runLines (first.run events) (lines edits)).2, result.isOk = true)
    {line : String} (cats : Text.Spells ["cat", p] line.toList) (now : Time) :
    (runLine (runLines (first.run events) (lines edits)).1 now line).2
      = .ok (some (textOf (since edits))) := by
  obtain ⟨write, rest, rfl, writes⟩ := starts
  have tidy := ((reachable_ofConfig default).run events).tidy
  have free := (hostFree_of_default default).run virtual
  refine runLine_cat (reads_runLines tidy free spelled succeed fun appends => ?_) cats now
  rw [appends write rfl] at writes
  cases writes

/-- Lines about `notes`, with blanks of several kinds, a word that starts as comments do, and
twice no words at all. -/
def notes : List Edit :=
  [⟨false, ["draft"], "write notes draft", 3⟩, ⟨true, [], "  append notes", 4⟩,
    ⟨false, ["#1", "two"], "\twrite  notes #1\u00a0two ", 5⟩, ⟨true, [], "append notes  ", 6⟩,
    ⟨true, ["drei", "élan"], "append notes drei\u2003élan", 7⟩]

/-- In a directory that is not the root, while another file is open for writing. -/
theorem cat_prints_what_was_written_notes :
    ∃ first, ofConfig (World.bare []) {} 0 = .ok first
      ∧ (runLine (runLines (first.run [.ask 1 (.createDirectory "/d"),
          .ask 1 (.createFile "/d/other" [1]), .ask 2 (.store 0 (.openFile "/d/other" .write)),
          .ask 2 (.changeDirectory "d")]) (lines notes)).1 8 " cat  notes").2
        = .ok (some "#1 two\n\ndrei élan\n") := by
  refine ⟨_, rfl, ?_⟩
  refine (cat_prints_what_was_written (p := "notes") rfl ?_ ⟨_, _, rfl, rfl⟩ ?_ ?_ ?_ 8).trans ?_
  · decide
  · decide +kernel
  · decide +kernel
  · decide +kernel
  · decide +kernel

end Shell

end MountFs
