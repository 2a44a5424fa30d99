import Mathlib.Data.List.TakeWhile
import ScriptHints.Proofs.Analysis.Walk

/-!
# The outline as the history of the lines

The outline keeps a stack of open sections. This file reads the stack off the lines before: nothing
in it but their widths, their first blanks and whether they are headers. Lines are counted from one,
and line zero stands for the beginning of the script: it has no indentation and is no header.

* `lineAt`, `columnsAt`, `styleAt`, `headerAt` — what is known of a line by its place.
* `OnLevel` — a width that lines are on, with none indented less in between.
* `Outline.Tracks` — the stack says the same as the lines: what a width is compared with, which
  blank is expected, and which widths are still open.
* `Reached.tracks` — it does so between any two lines of a walk.
-/

namespace ScriptHints

/-! ### Lines by their place -/

section

variable (lines : List Line)

/-- The line with the given place, counting from one. -/
def lineAt : Nat → Option Line
  | 0 => none
  | i + 1 => lines[i]?

/-- The width of a line. -/
def columnsAt (i : Nat) : Nat := ((lineAt lines i).map Line.columns).getD 0

/-- The first blank of a line. -/
def styleAt (i : Nat) : Option Char := (lineAt lines i).bind Line.style

/-- Whether a line is a header. -/
def headerAt (i : Nat) : Bool := (lineAt lines i).any Line.isHeader

/-- Before line `i` there is a line of the given width, and no line between the two is indented
less. -/
def OnLevel (i width : Nat) : Prop :=
  ∃ j < i, columnsAt lines j = width ∧ ∀ m < i, j < m → width ≤ columnsAt lines m

instance (i width : Nat) : Decidable (OnLevel lines i width) :=
  inferInstanceAs (Decidable (∃ j, j < i ∧ _))

end

section

variable {lines : List Line} {line : Line} {i : Nat}

/-- Later lines do not change what a place holds. -/
theorem lineAt_append (h : i ≤ lines.length) (others : List Line) :
    lineAt (lines ++ others) i = lineAt lines i := by
  cases i with
  | zero => rfl
  | succ i =>
    unfold lineAt
    exact List.getElem?_append_left h

/-- The line behind the given ones. -/
theorem lineAt_append_cons (lines : List Line) (line : Line) (others : List Line) :
    lineAt (lines ++ line :: others) (lines.length + 1) = some line := by
  show (lines ++ line :: others)[lines.length]? = some line
  rw [List.getElem?_append_right (Nat.le_refl _), Nat.sub_self]
  rfl

/-- Lines that follow do not change a width. -/
theorem columnsAt_append (h : i ≤ lines.length) (others : List Line) :
    columnsAt (lines ++ others) i = columnsAt lines i := by
  rw [columnsAt, lineAt_append h, columnsAt]

/-- The width behind the lines so far is that of the line that follows. -/
theorem columnsAt_append_cons (lines : List Line) (line : Line) (others : List Line) :
    columnsAt (lines ++ line :: others) (lines.length + 1) = line.columns := by
  rw [columnsAt, lineAt_append_cons]
  rfl

/-- A place that holds a line splits the lines. -/
theorem lines_eq_of_lineAt (h : lineAt lines i = some line) :
    ∃ done rest, lines = done ++ line :: rest ∧ i = done.length + 1 := by
  cases i with
  | zero => cases h
  | succ i =>
    obtain ⟨hi, rfl⟩ := List.getElem?_eq_some_iff.1 h
    refine ⟨lines.take i, lines.drop (i + 1), ?_, ?_⟩
    · rw [List.getElem_cons_drop, List.take_append_drop]
    · rw [List.length_take, Nat.min_eq_left (Nat.le_of_lt hi)]

/-- Whether lines before a place are on a level does not depend on the lines from there on. -/
theorem onLevel_append {width : Nat} (others : List Line) :
    OnLevel (lines ++ others) (lines.length + 1) width ↔
      OnLevel lines (lines.length + 1) width := by
  have hcolumns : ∀ m < lines.length + 1, columnsAt (lines ++ others) m = columnsAt lines m := by
    intro m hm
    exact columnsAt_append (Nat.le_of_lt_succ hm) others
  constructor
  · rintro ⟨j, hj, hwidth, hbetween⟩
    refine ⟨j, hj, (hcolumns j hj).symm.trans hwidth, ?_⟩
    intro m hm hjm
    rw [← hcolumns m hm]
    exact hbetween m hm hjm
  · rintro ⟨j, hj, hwidth, hbetween⟩
    refine ⟨j, hj, (hcolumns j hj).trans hwidth, ?_⟩
    intro m hm hjm
    rw [hcolumns m hm]
    exact hbetween m hm hjm

/-- One more line is on its own level and leaves those open that are not deeper. -/
theorem onLevel_concat {width : Nat} :
    OnLevel (lines ++ [line]) (lines.length + 1 + 1) width ↔
      width = line.columns ∨ width ≤ line.columns ∧ OnLevel lines (lines.length + 1) width := by
  have hlast := columnsAt_append_cons lines line []
  rw [← onLevel_append [line]]
  constructor
  · rintro ⟨j, hj, hwidth, hbetween⟩
    rcases Nat.lt_succ_iff_lt_or_eq.1 hj with hj | rfl
    · refine .inr ⟨?_, j, hj, hwidth, ?_⟩
      · rw [← hlast]
        exact hbetween _ (Nat.lt_succ_self _) hj
      · intro m hm
        exact hbetween m (Nat.lt_succ_of_lt hm)
    · exact .inl (hwidth.symm.trans hlast)
  · rintro (rfl | ⟨hle, j, hj, hwidth, hbetween⟩)
    · refine ⟨lines.length + 1, Nat.lt_succ_self _, hlast, ?_⟩
      intro m hm hjm
      omega
    · refine ⟨j, Nat.lt_succ_of_lt hj, hwidth, ?_⟩
      intro m hm hjm
      rcases Nat.lt_succ_iff_lt_or_eq.1 hm with hm | rfl
      · exact hbetween m hm hjm
      · rw [hlast]
        exact hle

end

/-! ### Closing sections -/

/-- Dropping in two goes is dropping in one where the second go drops more. -/
theorem dropWhile_dropWhile {α : Type} {f g : α → Bool} (h : ∀ a, g a = true → f a = true)
    (as : List α) : (as.dropWhile g).dropWhile f = as.dropWhile f := by
  induction as with
  | nil => rfl
  | cons a as ih =>
    by_cases hg : g a = true
    · rw [List.dropWhile_cons_of_pos hg, List.dropWhile_cons_of_pos (h a hg), ih]
    · rw [List.dropWhile_cons_of_neg hg]

/-- A line not less indented than the innermost section closes none. -/
theorem dropWhile_of_widthOf_le {sections : List Section} {width : Nat}
    (h : widthOf sections ≤ width) : sections.dropWhile (width < ·.width) = sections := by
  cases sections with
  | nil => rfl
  | cons s sections =>
    apply List.dropWhile_cons_of_neg
    simpa [widthOf] using h

/-- A line at top level closes all sections. -/
theorem dropWhile_zero {sections : List Section} (h : ∀ s ∈ sections, 0 < s.width) :
    sections.dropWhile (0 < ·.width) = [] := by
  rw [List.dropWhile_eq_nil_iff]
  intro s hs
  exact decide_eq_true (h s hs)

/-- The innermost width is positive exactly where a section is open. -/
theorem widthOf_pos_iff {sections : List Section} (h : ∀ s ∈ sections, 0 < s.width) :
    0 < widthOf sections ↔ sections ≠ [] := by
  cases sections with
  | nil => simp [widthOf]
  | cons s sections => simpa [widthOf] using h s List.mem_cons_self

/-! ### The invariant -/

/-- The outline after the given lines says what they say. -/
structure Outline.Tracks (o : Outline) (lines : List Line) : Prop where
  /-- The innermost section has the width of the last line. -/
  width : widthOf o.sections = columnsAt lines lines.length
  /-- A header waits if the last line is one. -/
  header : o.pending.isSome = headerAt lines lines.length
  /-- Sections are indented. -/
  positive : ∀ s ∈ o.sections, 0 < s.width
  /-- All sections are indented like the last line. -/
  style : ∀ s ∈ o.sections, s.style = styleAt lines lines.length
  /-- The sections that are open are the levels that lines are on. -/
  level : ∀ width, 0 < width →
    (widthOf (o.sections.dropWhile (width < ·.width)) = width ↔
      OnLevel lines (lines.length + 1) width)

/-- The empty outline keeps track of no lines. -/
theorem Outline.tracks_nil : Outline.Tracks {} [] where
  width := rfl
  header := rfl
  positive := nofun
  style := nofun
  level width hpos := by
    constructor
    · rintro h
      exact absurd h (Nat.ne_of_lt hpos)
    · rintro ⟨j, -, h, -⟩
      have hzero : columnsAt [] j = 0 := by cases j <;> rfl
      omega

/-- A line leaves a header waiting exactly if it is one. -/
theorem isSome_pendingHeader (line : Line) : line.pendingHeader.isSome = line.isHeader := by
  unfold Line.pendingHeader
  cases line.isHeader <;> rfl

section

variable {o o' : Outline} {lines : List Line} {line : Line}

/-- What is less indented than a line is on a level after it if it was so before it. -/
theorem level_iff_of_lt {width columns : Nat} {level : Prop} (h : width < columns) :
    level ↔ width = columns ∨ width ≤ columns ∧ level := by
  constructor
  · intro hlevel
    exact .inr ⟨Nat.le_of_lt h, hlevel⟩
  · rintro (rfl | ⟨-, hlevel⟩)
    · exact absurd h (Nat.lt_irrefl _)
    · exact hlevel

/-- The levels after a line that opens a section. -/
theorem level_of_opens (h : o.Tracks lines) {width : Nat} (hpos : 0 < width) :
    widthOf ((⟨line.columns, line.style⟩ :: o.sections).dropWhile (width < ·.width)) = width ↔
      width = line.columns ∨ width ≤ line.columns ∧ OnLevel lines (lines.length + 1) width := by
  by_cases hlt : width < line.columns
  · rw [List.dropWhile_cons_of_pos (by simpa using hlt), h.level width hpos]
    exact level_iff_of_lt hlt
  · rw [List.dropWhile_cons_of_neg (by simpa using hlt)]
    simp only [widthOf, List.head?_cons, Option.map_some, Option.getD_some]
    omega

/-- The levels after a line that goes on with a section. -/
theorem level_of_continues (h : o.Tracks lines)
    (haligned : line.columns = widthOf (o.sections.dropWhile (line.columns < ·.width)))
    {width : Nat} (hpos : 0 < width) :
    widthOf ((o.sections.dropWhile (line.columns < ·.width)).dropWhile (width < ·.width)) = width ↔
      width = line.columns ∨ width ≤ line.columns ∧ OnLevel lines (lines.length + 1) width := by
  by_cases hlt : width < line.columns
  · rw [dropWhile_dropWhile, h.level width hpos]
    · exact level_iff_of_lt hlt
    · intro s hs
      simp only [decide_eq_true_eq] at hs ⊢
      omega
  · rw [dropWhile_of_widthOf_le (by omega), ← haligned]
    omega

/-- An accepted line keeps the outline true to the lines. -/
theorem Outline.Tracks.step (h : o.Tracks lines) (hv : (o.place line).verdict = .ok o') :
    o'.Tracks (lines ++ [line]) := by
  have hlast : (lines ++ [line]).length = lines.length + 1 := by simp
  have hcolumns := columnsAt_append_cons lines line []
  have hstyleAt : styleAt (lines ++ [line]) (lines.length + 1) = line.style := by
    rw [styleAt, lineAt_append_cons]
    rfl
  have hheaderAt : headerAt (lines ++ [line]) (lines.length + 1) = line.isHeader := by
    rw [headerAt, lineAt_append_cons]
    rfl
  have haccepted := accepted_of_ok hv
  generalize o.place line = placement at haccepted
  cases haccepted with
  | opens hmix hwidth hpending hstyle =>
    refine ⟨?_, ?_, ?_, ?_, ?_⟩
    · rw [hlast, hcolumns]
      rfl
    · rw [hlast, hheaderAt, isSome_pendingHeader]
    · intro s hs
      rcases List.mem_cons.1 hs with rfl | hs
      · exact Nat.zero_lt_of_lt hwidth
      · exact h.positive s hs
    · intro s hs
      rw [hlast, hstyleAt]
      rcases List.mem_cons.1 hs with rfl | hs
      · rfl
      · exact hstyle s hs
    · intro width hpos
      rw [hlast, onLevel_concat]
      exact level_of_opens h hpos
  | continues hmix hwidth haligned hstyle =>
    refine ⟨?_, ?_, ?_, ?_, ?_⟩
    · rw [hlast, hcolumns, ← haligned]
    · rw [hlast, hheaderAt, isSome_pendingHeader]
    · intro s hs
      exact h.positive s ((List.dropWhile_sublist _).subset hs)
    · intro s hs
      rw [hlast, hstyleAt]
      exact hstyle s hs
    · intro width hpos
      rw [hlast, onLevel_concat]
      exact level_of_continues h haligned hpos

end

/-- The outline is true to the lines between any two lines of a walk. -/
theorem Reached.tracks {lines : List Line} {entries : List Entry} {p : Progress}
    (h : Reached lines entries p) : p.outline.Tracks lines := by
  induction h with
  | start => exact Outline.tracks_nil
  | step h hv ih => exact ih.step hv

end ScriptHints
