import Mathlib
import ScriptHints.Proofs.Analysis.Outcome

/-!
# Scopes mirror sections

The hint table has its own stack, of scopes, and the outline has its own, of sections. Nothing but
the walk keeps the two in step. This file shows that it does, between any two lines and also where a
line is refused halfway, and says how many scopes a run leaves open, by the widths of the lines
alone.

* `Nested` — sections that lie inside each other, the inner ones indented deeper.
* `Progress.Mirrors` — what holds of scopes and sections between two lines.
* `openWidths` — the widths open before a line, by the lines before; `openWidths_append` finds them
  on the stack.
* `DepthLeft`, `DepthAfter` — the number of scopes that a refused line, and a run, leaves behind.
* `run_mirrors_sections` — scopes mirror sections in every run.
-/

namespace ScriptHints

/-! ### Nested sections -/

/-- Sections, innermost first, each indented deeper than those around it. -/
def Nested (sections : List Section) : Prop :=
  sections.Pairwise fun inner outer => outer.width < inner.width

namespace Nested

variable {sections : List Section}

/-- The innermost section is indented deepest. -/
theorem width_le (h : Nested sections) {s : Section} (hs : s ∈ sections) :
    s.width ≤ widthOf sections := by
  cases sections with
  | nil => cases hs
  | cons inner outer =>
    show s.width ≤ inner.width
    rcases List.mem_cons.1 hs with rfl | hs
    · exact Nat.le_refl _
    · exact Nat.le_of_lt ((List.pairwise_cons.1 h).1 s hs)

/-- A section that is indented deeper than all others lies inside them. -/
theorem cons (h : Nested sections) {s : Section} (hs : widthOf sections < s.width) :
    Nested (s :: sections) := by
  refine List.pairwise_cons.2 ⟨?_, h⟩
  intro outer houter
  exact Nat.lt_of_le_of_lt (h.width_le houter) hs

/-- Closing the innermost sections leaves the others nested. -/
theorem dropWhile (h : Nested sections) (width : Nat) :
    Nested (sections.dropWhile (width < ·.width)) :=
  h.sublist (List.dropWhile_sublist _)

/-- What is left once the deeper sections are closed are all sections that are not deeper. -/
theorem dropWhile_eq_filter (h : Nested sections) (width : Nat) :
    sections.dropWhile (width < ·.width) = sections.filter (·.width ≤ width) := by
  induction sections with
  | nil => rfl
  | cons inner outer ih =>
    obtain ⟨hinner, houter⟩ := List.pairwise_cons.1 h
    by_cases hlt : width < inner.width
    · rw [List.dropWhile_cons_of_pos (by simpa using hlt), ih houter,
        List.filter_cons_of_neg (by simpa using hlt)]
    · have hall : ∀ s ∈ inner :: outer, decide (s.width ≤ width) = true := by
        intro s hs
        rw [decide_eq_true_eq]
        exact Nat.le_trans (h.width_le hs) (Nat.le_of_not_lt hlt)
      rw [List.dropWhile_cons_of_neg (by simpa using hlt), List.filter_eq_self.2 hall]

/-- The sections open where a line is judged are nested. -/
theorem sectionsFor {o : Outline} (h : Nested o.sections) (line : Line) :
    Nested (o.sectionsFor line) := by
  unfold Outline.sectionsFor
  split
  · exact h
  · split
    · rename_i hwidth
      exact h.cons hwidth
    · exact h.dropWhile line.columns

end Nested

/-- Accepted lines keep the sections nested. -/
theorem Reached.nested {lines : List Line} {entries : List Entry} {p : Progress}
    (h : Reached lines entries p) : Nested p.outline.sections := by
  induction h with
  | start => exact List.Pairwise.nil
  | @step lines entries p line outline h hv ih =>
    show Nested outline.sections
    rw [← sectionsFor_of_ok hv]
    exact ih.sectionsFor line

/-! ### Between two lines -/

/-- What holds of the state after the given lines. Line zero stands for the beginning of the script,
without any indentation. -/
structure Progress.Mirrors (p : Progress) (lines : List Line) : Prop where
  /-- There is a scope for every open section, inside the root. -/
  depth : p.hints.depth = 1 + p.outline.sections.length
  /-- Sections are indented. -/
  positive : ∀ s ∈ p.outline.sections, 0 < s.width
  /-- From the outermost to the innermost section, indentation increases. -/
  increasing : (p.outline.sections.reverse.map Section.width).Pairwise (· < ·)
  /-- The innermost section is indented like the last line. -/
  innermost : widthOf p.outline.sections = columnsAt lines lines.length
  /-- All sections begin with the blank that the last line begins with. -/
  style : ∀ s ∈ p.outline.sections, s.style = styleAt lines lines.length

/-- The states a walk reaches have one scope for every section. -/
theorem Reached.mirrors {lines : List Line} {entries : List Entry} {p : Progress}
    (h : Reached lines entries p) : p.Mirrors lines where
  depth := by
    rw [h.aligned.depth_eq, Nat.add_comm]
  positive := h.tracks.positive
  increasing := by
    rw [List.pairwise_map, List.pairwise_reverse]
    exact h.nested
  innermost := h.tracks.width
  style := h.tracks.style

/-! ### Open widths -/

/-- The widths that are open before the `k`-th line: a line before it has that width, and no line
between the two is indented less. -/
def openWidths (lines : List Line) (k : Nat) : Finset Nat :=
  ((Finset.range k).image (columnsAt lines)).filter fun width => 0 < width ∧ OnLevel lines k width

/-- A width is open exactly if it is not zero and a line could go back to it. -/
theorem mem_openWidths {lines : List Line} {k width : Nat} :
    width ∈ openWidths lines k ↔ 0 < width ∧ OnLevel lines k width := by
  rw [openWidths, Finset.mem_filter, Finset.mem_image]
  constructor
  · rintro ⟨-, h⟩
    exact h
  · rintro ⟨hpos, j, hj, hwidth, hbetween⟩
    exact ⟨⟨j, Finset.mem_range.2 hj, hwidth⟩, hpos, j, hj, hwidth, hbetween⟩

/-- The widths of sections. -/
def widths (sections : List Section) : Finset Nat := (sections.map Section.width).toFinset

/-- A width is among those of the sections exactly if a section has it. -/
theorem mem_widths {sections : List Section} {width : Nat} :
    width ∈ widths sections ↔ ∃ s ∈ sections, s.width = width := by
  rw [widths, List.mem_toFinset, List.mem_map]

section

variable {sections : List Section} {width : Nat}

/-- Nested sections have different widths. -/
theorem Nested.card_widths (h : Nested sections) : (widths sections).card = sections.length := by
  have hnodup : (sections.map Section.width).Nodup := by
    rw [List.Nodup, List.pairwise_map]
    exact h.imp fun hlt => Nat.ne_of_gt hlt
  rw [widths, List.toFinset_card_of_nodup hnodup, List.length_map]

/-- Closing the deeper sections leaves the widths that are not greater. -/
theorem Nested.widths_dropWhile (h : Nested sections) (width : Nat) :
    widths (sections.dropWhile (width < ·.width)) = (widths sections).filter (· ≤ width) := by
  ext other
  rw [h.dropWhile_eq_filter, mem_widths, Finset.mem_filter, mem_widths]
  constructor
  · rintro ⟨s, hs, rfl⟩
    obtain ⟨hs, hle⟩ := List.mem_filter.1 hs
    exact ⟨⟨s, hs, rfl⟩, of_decide_eq_true hle⟩
  · rintro ⟨⟨s, hs, rfl⟩, hle⟩
    exact ⟨s, List.mem_filter.2 ⟨hs, decide_eq_true hle⟩, rfl⟩

/-- A width is that of the innermost section left, once the deeper ones are closed, exactly where
there is a section of that width. -/
theorem Nested.widthOf_dropWhile_eq_iff (h : Nested sections) (hpos : 0 < width) :
    widthOf (sections.dropWhile (width < ·.width)) = width ↔ width ∈ widths sections := by
  have hmem : width ∈ widths sections ↔ width ∈ widths (sections.dropWhile (width < ·.width)) := by
    rw [h.widths_dropWhile, Finset.mem_filter]
    exact (and_iff_left (Nat.le_refl _)).symm
  have hle : ∀ s ∈ sections.dropWhile (width < ·.width), s.width ≤ width := by
    rw [h.dropWhile_eq_filter]
    intro s hs
    exact of_decide_eq_true (List.mem_filter.1 hs).2
  have hnested := h.dropWhile width
  rw [hmem, mem_widths]
  generalize sections.dropWhile (width < ·.width) = left at hle hnested
  constructor
  · intro hwidth
    cases left with
    | nil => exact absurd hwidth (Nat.ne_of_lt hpos)
    | cons inner outer => exact ⟨inner, List.mem_cons_self, hwidth⟩
  · rintro ⟨s, hs, rfl⟩
    apply Nat.le_antisymm
    · cases left with
      | nil => exact Nat.zero_le _
      | cons inner outer => exact hle inner List.mem_cons_self
    · exact hnested.width_le hs

/-- The widths that are open before a line are those of the sections on the stack. -/
theorem openWidths_append {o : Outline} {done : List Line} (h : o.Tracks done)
    (hnested : Nested o.sections) (rest : List Line) :
    openWidths (done ++ rest) (done.length + 1) = widths o.sections := by
  ext width
  rw [mem_openWidths, onLevel_append]
  constructor
  · rintro ⟨hpos, hlevel⟩
    rw [← hnested.widthOf_dropWhile_eq_iff hpos, h.level width hpos]
    exact hlevel
  · intro hmem
    obtain ⟨s, hs, rfl⟩ := mem_widths.1 hmem
    have hpos := h.positive s hs
    refine ⟨hpos, ?_⟩
    rw [← h.level s.width hpos, hnested.widthOf_dropWhile_eq_iff hpos]
    exact hmem

end

/-! ### What a refused line leaves open -/

/-- The number of scopes that stay behind when the `k`-th line is refused for the given cause. -/
structure DepthLeft (lines : List Line) (k : Nat) (line : Line) (cause : LayoutCause)
    (depth : Nat) : Prop where
  /-- A line that mixes tabs and spaces is refused before it opens or closes anything. -/
  mixes : line.Mixes → depth = 1 + (openWidths lines k).card
  /-- So is a line that is indented deeper without a header. -/
  tooDeep : cause = .tooDeep → depth = 1 + (openWidths lines k).card
  /-- A line that matches no section has closed those deeper than it. -/
  misaligned : cause = .misaligned →
    depth = 1 + ((openWidths lines k).filter (· < line.columns)).card
  /-- A line indented with another blank than its sections has opened or reached its own section. -/
  unlike : cause = .mixedBlanks → ¬line.Mixes →
    depth = 1 + ((insert line.columns (openWidths lines k)).filter (· ≤ line.columns)).card

section

variable {o : Outline} {line : Line}

/-- A line that opens a section adds its width to those that are open. -/
theorem widths_sectionsFor_of_opens {header : Span} (hnested : Nested o.sections)
    (hmix : ¬line.Mixes) (hwidth : widthOf o.sections < line.columns)
    (hpending : o.pending = some header) :
    widths (o.sectionsFor line) =
      (insert line.columns (widths o.sections)).filter (· ≤ line.columns) := by
  have hle : ∀ width ∈ insert line.columns (widths o.sections), width ≤ line.columns := by
    intro width hmem
    rcases Finset.mem_insert.1 hmem with rfl | hmem
    · exact Nat.le_refl _
    · obtain ⟨s, hs, rfl⟩ := mem_widths.1 hmem
      exact Nat.le_of_lt (Nat.lt_of_le_of_lt (hnested.width_le hs) hwidth)
  rw [Finset.filter_true_of_mem hle, sectionsFor_of_opens hmix hwidth hpending, widths, widths,
    List.map_cons, List.toFinset_cons]

/-- A line that reaches an open section leaves that section and those around it. -/
theorem widths_sectionsFor_of_reaches (hnested : Nested o.sections) (hmix : ¬line.Mixes)
    (hwidth : line.columns ≤ widthOf o.sections) (hmem : line.columns ∈ widths o.sections) :
    widths (o.sectionsFor line) =
      (insert line.columns (widths o.sections)).filter (· ≤ line.columns) := by
  rw [Finset.insert_eq_self.2 hmem, sectionsFor_of_closes hmix hwidth, hnested.widths_dropWhile]

/-- A line between two sections leaves those that are indented less. -/
theorem widths_sectionsFor_of_between (hnested : Nested o.sections) (hmix : ¬line.Mixes)
    (hwidth : line.columns ≤ widthOf o.sections) (hmem : line.columns ∉ widths o.sections) :
    widths (o.sectionsFor line) = (widths o.sections).filter (· < line.columns) := by
  rw [sectionsFor_of_closes hmix hwidth, hnested.widths_dropWhile]
  apply Finset.filter_congr
  intro width hother
  constructor
  · intro hle
    apply Nat.lt_of_le_of_ne hle
    rintro rfl
    exact hmem hother
  · exact Nat.le_of_lt

/-- The scopes left behind, by the way in which a line is refused. -/
theorem depthLeft_of_refused {done : List Line} {cause : LayoutCause} (h : o.Tracks done)
    (hnested : Nested o.sections) (hrefused : Refused o line cause) (rest : List Line) :
    DepthLeft (done ++ line :: rest) (done.length + 1) line cause
      (1 + (o.sectionsFor line).length) := by
  rw [← (hnested.sectionsFor line).card_widths]
  have hopen := openWidths_append h hnested (line :: rest)
  cases hrefused with
  | mixes hmix =>
    refine ⟨fun _ => ?_, nofun, nofun, fun _ hnot => absurd hmix hnot⟩
    rw [hopen, sectionsFor_of_mixes hmix]
  | tooDeep hmix hwidth hpending =>
    refine ⟨fun hmixes => absurd hmixes hmix, fun _ => ?_, nofun, nofun⟩
    rw [hopen, sectionsFor_of_bare hwidth hpending]
  | opensUnlike hmix hwidth hpending hstyle =>
    refine ⟨fun hmixes => absurd hmixes hmix, nofun, nofun, fun _ _ => ?_⟩
    rw [hopen, widths_sectionsFor_of_opens hnested hmix hwidth hpending]
  | misaligned hmix hwidth haligned =>
    refine ⟨fun hmixes => absurd hmixes hmix, nofun, fun _ => ?_, nofun⟩
    obtain ⟨hpos, -, -⟩ := (misaligned_iff h hwidth).1 haligned
    have hmem : line.columns ∉ widths o.sections := by
      rw [← hnested.widthOf_dropWhile_eq_iff hpos]
      exact haligned.symm
    rw [hopen, widths_sectionsFor_of_between hnested hmix hwidth hmem]
  | continuesUnlike hmix hwidth haligned hstyle =>
    refine ⟨fun hmixes => absurd hmixes hmix, nofun, nofun, fun _ _ => ?_⟩
    obtain ⟨hpos, -⟩ := (unlike_iff h (List.dropWhile_sublist _)).1 hstyle
    rw [← haligned] at hpos
    have hmem : line.columns ∈ widths o.sections := by
      rw [← hnested.widthOf_dropWhile_eq_iff hpos]
      exact haligned.symm
    rw [hopen, widths_sectionsFor_of_reaches hnested hmix hwidth hmem]

end

/-! ### Whole runs -/

/-- The number of scopes after a run, by how it ended. A run has no other results than these. -/
def DepthAfter (source : String) (result : Except Failure Report) (depth : Nat) : Prop :=
  match result with
  | .ok _ => depth = 1
  | .error (.lexical _) => depth = 1
  | .error (.layout e) => ∃ tokens k line, tokenize source = .ok tokens ∧
      RefusedAt (Token.toLines tokens) k line e ∧
      DepthLeft (Token.toLines tokens) k line e.cause depth
  | .error _ => False

/-- What it means that scopes mirror sections in a run. -/
structure ScopesMirrorSections (a : Analyzer) (name source : String) : Prop where
  /-- In every state between two lines there is a scope for every open section. -/
  between : ∀ tokens done entries p, tokenize source = .ok tokens →
    done <+: Token.toLines tokens →
    (visitAll done).run { hints := a.hints.reset } = .ok entries p → p.Mirrors done
  /-- After the run only the root is left, or what was open when a line was refused. -/
  after : DepthAfter source (a.run name source).1 (a.run name source).2.hints.depth

/-- Scopes mirror sections in every run of every analyzer. -/
theorem run_mirrors_sections (a : Analyzer) (name source : String) :
    ScopesMirrorSections a name source := by
  constructor
  · intro tokens done entries p _ _ hrun
    exact (visitAll_run_eq_ok_iff.1 hrun).mirrors
  · have hended := ended_run a name source
    generalize (a.run name source).1 = result, (a.run name source).2 = left at hended
    cases hended with
    | unread htokens => exact rfl
    | @complete tokens entries p htokens hreached =>
      have hdepth := hreached.aligned.depth_eq
      show (p.hints.leave p.outline.sections.length).depth = 1
      rw [HintTable.depth_leave (by omega)]
      omega
    | @refused tokens done rest line entries p e htokens hlines hreached hverdict =>
      refine ⟨tokens, done.length + 1, line, htokens, ?_, ?_⟩
      · rw [hlines]
        exact hreached.refusedAt hverdict rest
      · obtain ⟨hrefused, -⟩ := refused_of_error hverdict
        rw [hlines, hreached.aligned.depth_placed line]
        exact depthLeft_of_refused hreached.tracks hreached.nested hrefused rest

/-- The last line is between two sections: the deeper one is closed before the line is refused. -/
example : (({} : Analyzer).run "between" "a:\n  b:\n      c\n    d").2.hints.depth = 2 := by
  cbv

end ScriptHints
