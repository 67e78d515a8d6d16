import Mathlib.Data.List.Induction
import MountFs.Proofs.NormalPath

/-!
# Prefixes of paths

A mount point covers the paths that start with its segments.  The functions that decide
this work on the text, character by character.  On normal paths they are operations on
segment lists.

* `resolve` answers with a normal path, whatever it is given (`isNormal_resolve`).
* `isUnder` asks whether one segment list is a prefix of another
  (`IsNormal.isUnder_iff`).  `/data` is a prefix of the text `/database` and not of its
  segments.
* `stripMount` drops a prefix of the segments (`stripMount_render`).
* A path with more segments behind it has a longer text (`utf8ByteSize_render_lt`).  So of
  the prefixes of one path, the one with the longest text has the most segments.

The text of a normal path cut behind one of its prefixes goes on with a slash or is at its
end.  That, and the fact that no name has a slash, is all that is used.
-/

namespace MountFs.Path

/-! ## Resolving -/

theorem isNormal_resolve (cwd path : String) : IsNormal (resolve cwd path) := by
  unfold resolve
  split
  · exact isNormal_render (allNames_segments path)
  · refine isNormal_render (allNames_foldl_push allNames_nil fun piece m => ?_)
    rcases List.mem_append.mp m with left | right
    · exact not_mem_of_mem_pieces left
    · exact not_mem_of_mem_pieces right

theorem IsNormal.eq_of_segments_eq {path other : String} (hp : IsNormal path)
    (ho : IsNormal other) (h : segments path = segments other) : path = other := by
  rw [← hp.render_segments, h, ho.render_segments]

/-! ## Texts in two parts -/

theorem toList_render {names : List String} (h : names ≠ []) :
    (render names).toList = renderChars names := by
  cases names with
  | nil => exact absurd rfl h
  | cons name rest => simp [render]

/-- The text of a path is the text of a prefix and then the rest, each led by a slash. -/
theorem toList_render_append {front : List String} (h : front ≠ []) (rest : List String) :
    (render (front ++ rest)).toList = (render front).toList ++ renderChars rest := by
  rw [toList_render h, toList_render (List.append_ne_nil_of_left_ne_nil h rest),
    renderChars_append]

theorem render_append {front rest : List String} (hf : front ≠ []) (hr : rest ≠ []) :
    render (front ++ rest) = render front ++ render rest := by
  apply String.toList_injective
  rw [toList_render_append hf, String.toList_append, toList_render hr]

theorem stripPrefix?_render {front : List String} (h : front ≠ []) (rest : List String) :
    stripPrefix? (render front).toList (render (front ++ rest)).toList
      = some (renderChars rest) :=
  stripPrefix?_eq_some_iff.mpr (toList_render_append h rest)

/-! ## Under a mount point -/

/-- Below a top other than the root, the text of the top is followed by a slash. -/
theorem isUnder_iff_toList {path top : String} (h : top ≠ root) :
    isUnder path top = true ↔
      path.toList = top.toList ∨ ∃ rest, path.toList = top.toList ++ '/' :: rest := by
  rw [isUnder, if_neg h]
  cases cut : stripPrefix? top.toList path.toList with
  | none =>
      have away : ∀ rest, path.toList ≠ top.toList ++ rest := by
        intro rest split
        rw [stripPrefix?_eq_some_iff.mpr split] at cut
        cases cut
      have same : path.toList ≠ top.toList := by simpa using away []
      simp [away, same]
  | some rest =>
      have split := stripPrefix?_eq_some_iff.mp cut
      cases rest with
      | nil => simp [split]
      | cons c rest => simp [split]

theorem pieces_append_slash {path top : String} {rest : List Char}
    (h : path.toList = top.toList ++ '/' :: rest) :
    pieces path = pieces top ++ pieces (String.ofList rest) := by
  simp [pieces, h, splitSlash_append_slash]

theorem pieces_slash (left right : String) :
    pieces (left ++ "/" ++ right) = pieces left ++ pieces right := by
  have split : (left ++ "/" ++ right).toList = left.toList ++ '/' :: right.toList := by simp
  rw [pieces_append_slash split, String.ofList_toList]

theorem isUnder_render_iff {names top : List String} (hn : AllNames names) (ht : AllNames top) :
    isUnder (render names) (render top) = true ↔ top <+: names := by
  cases top with
  | nil => simp [isUnder, render]
  | cons first more =>
      have below : render (first :: more) ≠ root := by
        rw [ne_eq, render_eq_root_iff ht]
        simp
      rw [isUnder_iff_toList below]
      constructor
      · rintro (same | ⟨rest, split⟩)
        · have same := render_injective hn ht (String.toList_injective same)
          exact same ▸ List.prefix_rfl
        · have cut := pieces_append_slash split
          rw [pieces_render_cons ht] at cut
          cases names with
          | nil =>
              -- The pieces of the root are two empty ones, and a name is not empty.
              have top : pieces (render []) = ["", ""] := rfl
              rw [top] at cut
              have empty : "" = first := (List.cons.inj (List.cons.inj cut).2).1
              exact absurd empty.symm (allNames_cons.mp ht).1.ne_empty
          | cons name others =>
              rw [pieces_render_cons hn] at cut
              exact ⟨_, (List.cons.inj cut).2.symm⟩
      · rintro ⟨rest, rfl⟩
        rw [toList_render_append (by simp)]
        cases rest with
        | nil => simp [renderChars]
        | cons name others => exact Or.inr ⟨_, rfl⟩

/-- A normal path is under another exactly if it starts with its segments. -/
theorem IsNormal.isUnder_iff {path top : String} (hp : IsNormal path) (ht : IsNormal top) :
    isUnder path top = true ↔ segments top <+: segments path := by
  obtain ⟨names, hn, rfl⟩ := hp
  obtain ⟨front, hf, rfl⟩ := ht
  rw [isUnder_render_iff hn hf, segments_render hn, segments_render hf]

/-- What is left of a path behind a mount point is the path of the other segments. -/
theorem stripMount_render {front : List String} (hf : AllNames front) (rest : List String) :
    stripMount (render (front ++ rest)) (render front) = render rest := by
  cases front with
  | nil => simp [stripMount, render]
  | cons first more =>
      have below : render (first :: more) ≠ root := by
        rw [ne_eq, render_eq_root_iff hf]
        simp
      rw [stripMount, if_neg below, stripPrefix?_render (by simp)]
      cases rest with
      | nil => rfl
      | cons name others => simp [render, renderChars]

/-! ## Lengths -/

theorem utf8ByteSize_render_cons (name : String) (names : List String) :
    (render (name :: names)).utf8ByteSize
      = 1 + (name.utf8ByteSize + (String.ofList (renderChars names)).utf8ByteSize) := by
  have text : render (name :: names) = "/" ++ (name ++ String.ofList (renderChars names)) := by
    apply String.toList_injective
    simp [toList_render_cons]
  rw [text, String.utf8ByteSize_append, String.utf8ByteSize_append]
  rfl

theorem IsName.utf8ByteSize_pos {name : String} (h : IsName name) : 0 < name.utf8ByteSize := by
  rw [Nat.pos_iff_ne_zero, ne_eq, String.utf8ByteSize_eq_zero_iff]
  exact h.ne_empty

/-- More segments make a longer text. -/
theorem utf8ByteSize_render_lt (front : List String) {rest : List String} (h : AllNames rest)
    (more : rest ≠ []) : (render front).utf8ByteSize < (render (front ++ rest)).utf8ByteSize := by
  cases rest with
  | nil => exact absurd rfl more
  | cons name others =>
      have long := (allNames_cons.mp h).1.utf8ByteSize_pos
      cases front with
      | nil =>
          have short : (render []).utf8ByteSize = 1 := rfl
          rw [List.nil_append, utf8ByteSize_render_cons]
          omega
      | cons first middle =>
          rw [render_append (by simp) more, String.utf8ByteSize_append,
            utf8ByteSize_render_cons name others]
          omega

end MountFs.Path
