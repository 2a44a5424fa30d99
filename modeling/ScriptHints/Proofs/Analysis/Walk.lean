import Mathlib.Data.List.Induction
import ScriptHints.Proofs.Analysis.Study

/-!
# The walk, one line after the other

A walk over a script may fail in three ways: a line is refused by the outline, a scope is exited
that was never entered, or a warning is made of a malformed region. This file shows that only the
first of them happens, says what one line does to the state, and collects the states a walk can come
to.

* `Progress.Aligned` — what holds of the state between any two lines: there is one scope for every
  open section and the root, and a waiting header is a proper region.
* `follow_run`, `visit_run`, `finish_run` — one step of the walk on an aligned state: it goes on
  exactly where the outline accepts the line.
* `Accepted`, `Refused` — the ways the outline takes a line.
* `Outline.sectionsFor`, `Progress.Aligned.depth_placed` — the sections open where a line is judged,
  and that there is a scope for each of them.
* `Reached` — the states of the walk that follow the lines read so far, with the entries so far.
* `Reached.aligned` — the step lemma carried over a whole run.
* `reached_or_refused` — a walk either reaches its end or a line that is refused.
* `walk_run_eq_of_reached`, `run_eq_of_reached`, `run_eq_of_refused` — what a run gives in the two
  cases.
* `reached_of_run` — a run that succeeds has read all lines.
-/

namespace ScriptHints

/-! ### Leaving scopes -/

/-- Leaves the innermost scopes, as many as told; the root stays. -/
def HintTable.leave {τ : Type} : Nat → HintTable τ → HintTable τ
  | 0, t => t
  | n + 1, t =>
    match t.enclosing with
    | [] => t
    | scope :: enclosing => leave n ⟨scope, enclosing⟩

namespace HintTable

variable {τ : Type}

/-- Leaving no scope changes nothing. -/
@[simp] theorem leave_zero (t : HintTable τ) : t.leave 0 = t := rfl

/-- The scope entered last is the first to be left. -/
@[simp] theorem leave_enter (n : Nat) (t : HintTable τ) : t.enter.leave (n + 1) = t.leave n := rfl

/-- What is recorded in a scope is gone once the scope is left. -/
theorem leave_insert {t : HintTable τ} (h : 1 < t.depth) (n : Nat) (name : String) (type : τ) :
    (t.insert name type).leave (n + 1) = t.leave (n + 1) := by
  obtain ⟨current, enclosing⟩ := t
  cases enclosing with
  | nil => simp [depth] at h
  | cons scope enclosing => rfl

/-- Scopes may be left in two goes. -/
theorem leave_add (m n : Nat) (t : HintTable τ) : t.leave (m + n) = (t.leave m).leave n := by
  induction m generalizing t with
  | zero => rw [Nat.zero_add, leave_zero]
  | succ m ih =>
    obtain ⟨current, enclosing⟩ := t
    cases enclosing with
    | nil =>
      rw [Nat.add_right_comm]
      cases n <;> rfl
    | cons scope enclosing =>
      rw [Nat.add_right_comm]
      exact ih ⟨scope, enclosing⟩

/-- As long as there are scopes to leave, each one left counts. -/
theorem depth_leave {n : Nat} {t : HintTable τ} (h : n < t.depth) :
    (t.leave n).depth = t.depth - n := by
  induction n generalizing t with
  | zero => rfl
  | succ n ih =>
    obtain ⟨current, enclosing⟩ := t
    cases enclosing with
    | nil => simp [depth] at h
    | cons scope enclosing =>
      have hlt : n < depth ⟨scope, enclosing⟩ := by
        simp only [depth, List.length_cons] at h ⊢
        omega
      show (leave n ⟨scope, enclosing⟩).depth = _
      rw [ih hlt]
      simp only [depth, List.length_cons]
      omega

end HintTable

/-- As long as there are scopes to exit, exiting them succeeds. -/
theorem exitScopes_run {n : Nat} {p : Progress} (h : n < p.hints.depth) :
    (exitScopes n).run p = .ok () { p with hints := p.hints.leave n } := by
  induction n generalizing p with
  | zero => rfl
  | succ n ih =>
    obtain ⟨outline, ⟨current, enclosing⟩, warnings⟩ := p
    cases enclosing with
    | nil => simp [HintTable.depth] at h
    | cons scope enclosing =>
      have hlt : n < HintTable.depth ⟨scope, enclosing⟩ := by
        simp only [HintTable.depth, List.length_cons] at h ⊢
        omega
      exact ih (p := ⟨outline, ⟨scope, enclosing⟩, warnings⟩) hlt

/-! ### Warnings -/

/-- The warning about a header with an empty section. -/
def emptyWarning (header : Span) : Diagnostic where
  severity := .warning
  message := "Empty section"
  code := some "sklang::structure"
  help := some "Indent the section body or remove the trailing `:`."
  labels := [⟨"Nothing is indented below this header", header.start, header.stop - header.start⟩]

/-- The warning can be made for a header that is a proper region. -/
theorem emptySection_eq {header : Span} (h : header.start ≤ header.stop) :
    emptySection header = .ok (emptyWarning header) := by
  rw [emptySection, Diagnostic.withLabel_eq_ok h]
  rfl

/-- Warning about a proper region adds the warning at the end and does nothing else. -/
theorem warn_run {header : Span} (h : header.start ≤ header.stop) (p : Progress) :
    (warn header).run p = .ok () { p with warnings := p.warnings ++ [emptyWarning header] } := by
  rw [warn, emptySection_eq h]
  rfl

/-- The warnings a header gives rise to: one, if there is a header. -/
def warningsFor (header : Option Span) : List Diagnostic := (header.map emptyWarning).toList

/-- The region of a line is never reversed. -/
theorem Line.start_le_stop_span (l : Line) : l.span.start ≤ l.span.stop := by
  have h := l.first.start_le_stop
  simp only [Line.span, Span.merge, Token.span]
  omega

/-- The number of characters a line is indented with. -/
def Line.columns (l : Line) : Nat := l.indent.length

/-- Whether the indentation of a line holds both a space and a tab. -/
def Line.Mixes (l : Line) : Prop := ' ' ∈ l.indent ∧ '\t' ∈ l.indent

instance (l : Line) : Decidable l.Mixes := inferInstanceAs (Decidable (_ ∧ _))

/-- A line that mixes tabs and spaces has no width. -/
theorem Line.width_of_mixes {l : Line} (h : l.Mixes) :
    l.width = .error ⟨.mixedBlanks, l.indentSpan⟩ := by
  unfold Line.width
  exact if_pos h

/-- Any other line is as wide as it has columns. -/
theorem Line.width_of_not_mixes {l : Line} (h : ¬l.Mixes) : l.width = .ok l.columns := by
  unfold Line.width
  exact if_neg h

/-! ### One line -/

/-- What holds of the state between two lines. -/
structure Progress.Aligned (p : Progress) : Prop where
  /-- Every open section has a scope of its own, inside the root. -/
  depth_eq : p.hints.depth = p.outline.sections.length + 1
  /-- A header that waits for its first line is a proper region. -/
  pending_le : ∀ header, p.outline.pending = some header → header.start ≤ header.stop

/-- A walk starts with the root alone and without sections. -/
theorem aligned_start : Progress.Aligned {} := ⟨rfl, nofun⟩

/-- The hints once the scopes follow the placement of a line. -/
def Placement.hintsOn (placement : Placement) (hints : HintTable ValueType) :
    HintTable ValueType :=
  (if placement.opened then hints.enter else hints).leave placement.closed

/-- The state in which the reading of a line begins. Where the line is refused the walk stops in
it. -/
def Progress.placed (p : Progress) (line : Line) : Progress where
  outline := p.outline
  hints := (p.outline.place line).hintsOn p.hints
  warnings := p.warnings ++ warningsFor (p.outline.place line).emptied

/-- The state after a line that the outline accepts. -/
def Progress.after (p : Progress) (line : Line) (outline : Outline) : Progress :=
  { p.placed line with outline, hints := (p.placed line).hints.afterLine line }

/-- The outline after a line is the one the line was accepted with. -/
@[simp] theorem Progress.outline_after (p : Progress) (line : Line) (outline : Outline) :
    (p.after line outline).outline = outline := rfl

/-- The ways a line is placed. -/
inductive Placed (o : Outline) (line : Line) : Placement → Prop
  | mixed (hmix : line.Mixes) : Placed o line { verdict := .error ⟨.mixedBlanks, line.indentSpan⟩ }
  | tooDeep (hmix : ¬line.Mixes) (hwidth : widthOf o.sections < line.columns)
      (hpending : o.pending = none) :
      Placed o line { verdict := .error ⟨.tooDeep, line.indentSpan⟩ }
  | opens {header : Span} (hmix : ¬line.Mixes) (hwidth : widthOf o.sections < line.columns)
      (hpending : o.pending = some header) :
      Placed o line
        { opened := true
          verdict := Outline.settle (⟨line.columns, line.style⟩ :: o.sections) line.columns line }
  | closes (hmix : ¬line.Mixes) (hwidth : line.columns ≤ widthOf o.sections) :
      Placed o line
        { emptied := o.pending
          closed := (o.sections.takeWhile (line.columns < ·.width)).length
          verdict := Outline.settle (o.sections.dropWhile (line.columns < ·.width)) line.columns
            line }

/-- Every line is placed in one of these ways. -/
theorem placed_place (o : Outline) (line : Line) : Placed o line (o.place line) := by
  unfold Outline.place
  by_cases hmix : line.Mixes
  · rw [Line.width_of_mixes hmix]
    exact .mixed hmix
  rw [Line.width_of_not_mixes hmix]
  by_cases hwidth : widthOf o.sections < line.columns
  · simp only [if_pos hwidth]
    cases hpending : o.pending with
    | none => exact .tooDeep hmix hwidth hpending
    | some header => exact .opens hmix hwidth hpending
  · simp only [if_neg hwidth]
    exact .closes hmix (Nat.le_of_not_lt hwidth)

/-- The checks on a line once the deeper sections are closed. -/
theorem settle_eq_ok_iff {sections : List Section} {width : Nat} {line : Line} {o : Outline} :
    Outline.settle sections width line = .ok o ↔
      width = widthOf sections ∧ (∀ s ∈ sections, s.style = line.style) ∧
        o = ⟨sections, if line.isHeader then some line.span else none⟩ := by
  unfold Outline.settle
  by_cases hwidth : width = widthOf sections
  · rw [if_neg (not_not_intro hwidth)]
    by_cases hstyle : ∀ s ∈ sections, s.style = line.style
    · rw [if_neg (by simpa using hstyle), Except.ok.injEq]
      constructor
      · rintro rfl
        exact ⟨hwidth, hstyle, rfl⟩
      · rintro ⟨-, -, rfl⟩
        rfl
    · rw [if_pos (by simpa using hstyle)]
      constructor
      · rintro ⟨⟩
      · rintro ⟨-, h, -⟩
        exact absurd h hstyle
  · rw [if_pos hwidth]
    constructor
    · rintro ⟨⟩
    · rintro ⟨h, -⟩
      exact absurd h hwidth

/-- A line never closes more sections than there are. -/
theorem closed_le (o : Outline) (line : Line) : (o.place line).closed ≤ o.sections.length := by
  have hplaced := placed_place o line
  generalize o.place line = placement at hplaced ⊢
  cases hplaced with
  | closes => exact (List.takeWhile_sublist _).length_le
  | _ => exact Nat.zero_le _

/-- There is a scope for every section that a line closes. -/
theorem Progress.Aligned.closed_lt_depth {p : Progress} (h : p.Aligned) (line : Line) :
    (p.outline.place line).closed < p.hints.depth := by
  rw [h.depth_eq]
  exact Nat.lt_succ_of_le (closed_le p.outline line)

/-- There is a scope for every section that is closed at the end of the script. -/
theorem Progress.Aligned.length_lt_depth {p : Progress} (h : p.Aligned) :
    p.outline.sections.length < p.hints.depth := by
  rw [h.depth_eq]
  exact Nat.lt_succ_self _

/-- Only a header that waited is found to have an empty section. -/
theorem pending_of_emptied {o : Outline} {line : Line} {header : Span}
    (h : (o.place line).emptied = some header) : o.pending = some header := by
  have hplaced := placed_place o line
  generalize o.place line = placement at hplaced h
  cases hplaced with
  | closes => exact h
  | _ => cases h

/-- Without an emptied header, the scopes follow a placement that closes no scope too many. -/
theorem follow_run_of_none {p : Progress} {opened : Bool} {closed : Nat}
    (h : closed < p.hints.depth) (verdict : Except LayoutError Outline) :
    (follow ⟨none, opened, closed, verdict⟩).run p =
      match verdict with
      | .ok outline =>
        .ok () ⟨outline, (if opened then p.hints.enter else p.hints).leave closed, p.warnings⟩
      | .error e =>
        .error (.layout e)
          { p with hints := (if opened then p.hints.enter else p.hints).leave closed } := by
  cases opened with
  | true =>
    have hlt : closed < p.hints.enter.depth := by
      rw [HintTable.depth_enter]
      omega
    simp only [follow, EStateM.run_bind, if_true, EStateM.run_modify]
    rw [exitScopes_run hlt]
    cases verdict <;> rfl
  | false =>
    simp only [follow, EStateM.run_bind, Bool.false_eq_true, if_false]
    rw [exitScopes_run h]
    cases verdict <;> rfl

/-- An emptied header is warned about first. -/
theorem follow_run_of_some {p : Progress} {header : Span} (h : header.start ≤ header.stop)
    (opened : Bool) (closed : Nat) (verdict : Except LayoutError Outline) :
    (follow ⟨some header, opened, closed, verdict⟩).run p =
      (follow ⟨none, opened, closed, verdict⟩).run
        { p with warnings := p.warnings ++ [emptyWarning header] } := by
  unfold follow
  rw [EStateM.run_bind, warn_run h]

/-- The scopes and the warnings follow the placement of a line; the walk stops where the outline
refuses it. -/
theorem follow_run {p : Progress} (h : p.Aligned) (line : Line) :
    (follow (p.outline.place line)).run p =
      match (p.outline.place line).verdict with
      | .ok outline => .ok () { p.placed line with outline }
      | .error e => .error (.layout e) (p.placed line) := by
  have hclosed := h.closed_lt_depth line
  have hheader : ∀ header, (p.outline.place line).emptied = some header →
      header.start ≤ header.stop := fun header he => h.pending_le header (pending_of_emptied he)
  unfold Progress.placed Placement.hintsOn
  generalize p.outline.place line = placement at hclosed hheader ⊢
  obtain ⟨emptied, opened, closed, verdict⟩ := placement
  cases emptied with
  | none =>
    rw [follow_run_of_none hclosed]
    cases verdict <;> simp [warningsFor]
  | some header =>
    rw [follow_run_of_some (hheader header rfl), follow_run_of_none (by exact hclosed)]
    cases verdict <;> rfl

/-- A line is read where the outline accepts it, and reading it succeeds. -/
theorem visit_run {p : Progress} (h : p.Aligned) (line : Line) :
    (visit line).run p =
      match (p.outline.place line).verdict with
      | .ok outline =>
        .ok (lineEntries (p.placed line).hints.find? line) (p.after line outline)
      | .error e => .error (.layout e) (p.placed line) := by
  unfold visit
  simp only [EStateM.run_bind, EStateM.run_get, follow_run h line]
  cases (p.outline.place line).verdict with
  | error e => rfl
  | ok outline =>
    simp only [studyLine_eq]
    rfl

/-! ### Accepted and refused lines -/

/-- The header a line leaves waiting. -/
def Line.pendingHeader (l : Line) : Option Span := if l.isHeader then some l.span else none

/-- The ways a line is accepted: it is the first of a new section, or it goes on with one that is
open. -/
inductive Accepted (o : Outline) (line : Line) : Placement → Outline → Prop
  | opens {header : Span} (hmix : ¬line.Mixes) (hwidth : widthOf o.sections < line.columns)
      (hpending : o.pending = some header) (hstyle : ∀ s ∈ o.sections, s.style = line.style) :
      Accepted o line
        { opened := true
          verdict := .ok ⟨⟨line.columns, line.style⟩ :: o.sections, line.pendingHeader⟩ }
        ⟨⟨line.columns, line.style⟩ :: o.sections, line.pendingHeader⟩
  | continues (hmix : ¬line.Mixes) (hwidth : line.columns ≤ widthOf o.sections)
      (haligned : line.columns = widthOf (o.sections.dropWhile (line.columns < ·.width)))
      (hstyle : ∀ s ∈ o.sections.dropWhile (line.columns < ·.width), s.style = line.style) :
      Accepted o line
        { emptied := o.pending
          closed := (o.sections.takeWhile (line.columns < ·.width)).length
          verdict := .ok ⟨o.sections.dropWhile (line.columns < ·.width), line.pendingHeader⟩ }
        ⟨o.sections.dropWhile (line.columns < ·.width), line.pendingHeader⟩

/-- A line that gets a new outline was accepted in one of the two ways. -/
theorem accepted_of_ok {o o' : Outline} {line : Line} (h : (o.place line).verdict = .ok o') :
    Accepted o line (o.place line) o' := by
  have hplaced := placed_place o line
  generalize o.place line = placement at h hplaced ⊢
  cases hplaced with
  | mixed | tooDeep => cases h
  | opens hmix hwidth hpending =>
    obtain ⟨-, hstyle, ho⟩ := settle_eq_ok_iff.1 h
    simp only at h
    rw [h, ho]
    exact .opens hmix hwidth hpending fun s hs => hstyle s (List.mem_cons_of_mem _ hs)
  | closes hmix hwidth =>
    obtain ⟨haligned, hstyle, ho⟩ := settle_eq_ok_iff.1 h
    simp only at h
    rw [h, ho]
    exact .continues hmix hwidth haligned hstyle

/-- The ways a line is refused, with the cause that is reported. -/
inductive Refused (o : Outline) (line : Line) : LayoutCause → Prop
  | mixes (hmix : line.Mixes) : Refused o line .mixedBlanks
  | tooDeep (hmix : ¬line.Mixes) (hwidth : widthOf o.sections < line.columns)
      (hpending : o.pending = none) : Refused o line .tooDeep
  | opensUnlike {header : Span} (hmix : ¬line.Mixes) (hwidth : widthOf o.sections < line.columns)
      (hpending : o.pending = some header) (hstyle : ∃ s ∈ o.sections, s.style ≠ line.style) :
      Refused o line .mixedBlanks
  | misaligned (hmix : ¬line.Mixes) (hwidth : line.columns ≤ widthOf o.sections)
      (haligned : line.columns ≠ widthOf (o.sections.dropWhile (line.columns < ·.width))) :
      Refused o line .misaligned
  | continuesUnlike (hmix : ¬line.Mixes) (hwidth : line.columns ≤ widthOf o.sections)
      (haligned : line.columns = widthOf (o.sections.dropWhile (line.columns < ·.width)))
      (hstyle : ∃ s ∈ o.sections.dropWhile (line.columns < ·.width), s.style ≠ line.style) :
      Refused o line .mixedBlanks

/-- The last checks on a line refuse it for its width before they look at its style, and point at
its indentation. -/
theorem settle_eq_error {sections : List Section} {width : Nat} {line : Line} {e : LayoutError}
    (h : Outline.settle sections width line = .error e) :
    e.span = line.indentSpan ∧
      (e.cause = .misaligned ∧ width ≠ widthOf sections ∨
        e.cause = .mixedBlanks ∧ width = widthOf sections ∧
          ∃ s ∈ sections, s.style ≠ line.style) := by
  unfold Outline.settle at h
  by_cases hwidth : width = widthOf sections
  · rw [if_neg (not_not_intro hwidth)] at h
    by_cases hstyle : sections.any (·.style != line.style) = true
    · rw [if_pos hstyle] at h
      obtain rfl := Except.error.inj h
      exact ⟨rfl, .inr ⟨rfl, hwidth, by simpa using hstyle⟩⟩
    · rw [if_neg hstyle] at h
      cases h
  · rw [if_pos hwidth] at h
    obtain rfl := Except.error.inj h
    exact ⟨rfl, .inl ⟨rfl, hwidth⟩⟩

/-- A line is refused in one of these ways, and its indentation is what is pointed at. -/
theorem refused_of_error {o : Outline} {line : Line} {e : LayoutError}
    (h : (o.place line).verdict = .error e) :
    Refused o line e.cause ∧ e.span = line.indentSpan := by
  have hplaced := placed_place o line
  generalize o.place line = placement at h hplaced
  cases hplaced with
  | mixed hmix =>
    obtain rfl := Except.error.inj h
    exact ⟨.mixes hmix, rfl⟩
  | tooDeep hmix hwidth hpending =>
    obtain rfl := Except.error.inj h
    exact ⟨.tooDeep hmix hwidth hpending, rfl⟩
  | opens hmix hwidth hpending =>
    obtain ⟨hspan, ⟨-, hne⟩ | ⟨hcause, -, s, hs, hne⟩⟩ := settle_eq_error h
    · exact absurd rfl hne
    · rw [hcause]
      rcases List.mem_cons.1 hs with rfl | hs
      · exact absurd rfl hne
      · exact ⟨.opensUnlike hmix hwidth hpending ⟨s, hs, hne⟩, hspan⟩
  | closes hmix hwidth =>
    obtain ⟨hspan, ⟨hcause, hne⟩ | ⟨hcause, heq, hstyle⟩⟩ := settle_eq_error h
    · rw [hcause]
      exact ⟨.misaligned hmix hwidth hne, hspan⟩
    · rw [hcause]
      exact ⟨.continuesUnlike hmix hwidth heq hstyle, hspan⟩

/-! ### Scopes and sections -/

/-- The sections that are open when a line is accepted or refused: a line that is refused at once
changes nothing, and any other has opened its section or closed those deeper than it. -/
def Outline.sectionsFor (o : Outline) (line : Line) : List Section :=
  if line.Mixes ∨ widthOf o.sections < line.columns ∧ o.pending = none then o.sections
  else if widthOf o.sections < line.columns then ⟨line.columns, line.style⟩ :: o.sections
  else o.sections.dropWhile (line.columns < ·.width)

section

variable {o : Outline} {line : Line}

/-- A line that mixes tabs and spaces neither opens nor closes a section. -/
theorem sectionsFor_of_mixes (h : line.Mixes) : o.sectionsFor line = o.sections :=
  if_pos (.inl h)

/-- Neither does a line that is indented deeper without a header before it. -/
theorem sectionsFor_of_bare (hwidth : widthOf o.sections < line.columns)
    (hpending : o.pending = none) : o.sectionsFor line = o.sections :=
  if_pos (.inr ⟨hwidth, hpending⟩)

/-- A line that is indented deeper behind a header opens a section of its own. -/
theorem sectionsFor_of_opens {header : Span} (hmix : ¬line.Mixes)
    (hwidth : widthOf o.sections < line.columns) (hpending : o.pending = some header) :
    o.sectionsFor line = ⟨line.columns, line.style⟩ :: o.sections := by
  rw [Outline.sectionsFor, if_neg (by simp [hmix, hpending]), if_pos hwidth]

/-- Any other line closes the sections that are indented deeper. -/
theorem sectionsFor_of_closes (hmix : ¬line.Mixes) (hwidth : line.columns ≤ widthOf o.sections) :
    o.sectionsFor line = o.sections.dropWhile (line.columns < ·.width) := by
  have hlt : ¬widthOf o.sections < line.columns := Nat.not_lt.2 hwidth
  rw [Outline.sectionsFor, if_neg (by simp [hmix, hlt]), if_neg hlt]

/-- Where a line is judged there is one scope for every open section. -/
theorem Progress.Aligned.depth_placed {p : Progress} (h : p.Aligned) (line : Line) :
    (p.placed line).hints.depth = 1 + (p.outline.sectionsFor line).length := by
  have hdepth := h.depth_eq
  have hplaced := placed_place p.outline line
  unfold Progress.placed Placement.hintsOn
  generalize p.outline.place line = placement at hplaced ⊢
  cases hplaced with
  | mixed hmix =>
    rw [sectionsFor_of_mixes hmix, Nat.add_comm, ← hdepth]
    rfl
  | tooDeep hmix hwidth hpending =>
    rw [sectionsFor_of_bare hwidth hpending, Nat.add_comm, ← hdepth]
    rfl
  | opens hmix hwidth hpending =>
    rw [sectionsFor_of_opens hmix hwidth hpending, List.length_cons, Nat.add_comm, ← hdepth]
    rfl
  | closes hmix hwidth =>
    have hlen := congrArg List.length (List.takeWhile_append_dropWhile
      (p := fun s : Section => decide (line.columns < s.width)) (l := p.outline.sections))
    rw [List.length_append] at hlen
    rw [sectionsFor_of_closes hmix hwidth]
    simp only [Bool.false_eq_true, if_false]
    rw [HintTable.depth_leave (by omega)]
    omega

/-- After an accepted line those sections are open. -/
theorem sectionsFor_of_ok {o' : Outline} (h : (o.place line).verdict = .ok o') :
    o.sectionsFor line = o'.sections := by
  have haccepted := accepted_of_ok h
  generalize o.place line = placement at haccepted
  rcases haccepted with ⟨hmix, hwidth, hpending, -⟩ | ⟨hmix, hwidth, -, -⟩
  · exact sectionsFor_of_opens hmix hwidth hpending
  · exact sectionsFor_of_closes hmix hwidth

/-- After an accepted line a header waits if the line is one. -/
theorem pending_of_ok {o' : Outline} (h : (o.place line).verdict = .ok o') :
    o'.pending = line.pendingHeader := by
  have haccepted := accepted_of_ok h
  generalize o.place line = placement at haccepted
  cases haccepted <;> rfl

end

/-- Reading a line leaves the scopes around the current one alone. -/
theorem enclosing_afterLine (hints : HintTable ValueType) (line : Line) :
    (hints.afterLine line).enclosing = hints.enclosing := by
  unfold HintTable.afterLine
  rcases line.statement with ⟨target, value⟩ | tokens
  · dsimp only
    split <;> rfl
  · rfl

/-- Reading a line neither opens nor closes a scope. -/
theorem depth_afterLine (hints : HintTable ValueType) (line : Line) :
    (hints.afterLine line).depth = hints.depth := by
  unfold HintTable.depth
  rw [enclosing_afterLine]

/-- After an accepted line there is again one scope for every open section. -/
theorem Progress.Aligned.after {p : Progress} (h : p.Aligned) {line : Line} {outline : Outline}
    (hv : (p.outline.place line).verdict = .ok outline) : (p.after line outline).Aligned := by
  refine ⟨?_, ?_⟩
  · show ((p.placed line).hints.afterLine line).depth = outline.sections.length + 1
    rw [depth_afterLine, h.depth_placed, sectionsFor_of_ok hv, Nat.add_comm]
  · intro header hheader
    have hsome : line.pendingHeader = some header := by
      rw [← pending_of_ok hv]
      exact hheader
    unfold Line.pendingHeader at hsome
    split at hsome
    · rw [← Option.some.inj hsome]
      exact line.start_le_stop_span
    · cases hsome

/-! ### Whole runs -/

/-- `Reached lines entries p`: the walk has read `lines`, all of them accepted, has reported
`entries` and has come to the state `p`. -/
inductive Reached : List Line → List Entry → Progress → Prop
  | start : Reached [] [] {}
  | step {lines : List Line} {entries : List Entry} {p : Progress} {line : Line}
      {outline : Outline} (h : Reached lines entries p)
      (hv : (p.outline.place line).verdict = .ok outline) :
      Reached (lines ++ [line]) (entries ++ lineEntries (p.placed line).hints.find? line)
        (p.after line outline)

/-- Every state a walk reaches is aligned. -/
theorem Reached.aligned {lines : List Line} {entries : List Entry} {p : Progress}
    (h : Reached lines entries p) : p.Aligned := by
  induction h with
  | start => exact aligned_start
  | step h hv ih => exact ih.after hv

/-- What is left to read decides about the rest of the walk. -/
theorem Reached.visitAll_run {lines : List Line} {entries : List Entry} {p : Progress}
    (h : Reached lines entries p) (rest : List Line) :
    (visitAll (lines ++ rest)).run {} =
      match (visitAll rest).run p with
      | .ok entries' p' => .ok (entries ++ entries') p'
      | .error failure p' => .error failure p' := by
  induction h generalizing rest with
  | start =>
    rw [List.nil_append]
    cases (visitAll rest).run {} <;> rfl
  | @step lines entries p line outline h hv ih =>
    rw [List.append_assoc, ih, List.singleton_append, visitAll, EStateM.run_bind,
      visit_run h.aligned, hv]
    simp only [EStateM.run_bind]
    cases (visitAll rest).run (p.after line outline) with
    | ok entries' p' => simp
    | error failure p' => rfl

/-- A walk over accepted lines comes to the state that follows them. -/
theorem Reached.visitAll_run_eq_ok {lines : List Line} {entries : List Entry} {p : Progress}
    (h : Reached lines entries p) : (visitAll lines).run {} = .ok entries p := by
  have hall := h.visitAll_run []
  rw [List.append_nil] at hall
  rw [hall]
  simp [visitAll]

/-- A walk reaches its end, or it comes to a line that is refused. -/
theorem reached_or_refused (lines : List Line) :
    (∃ entries p, Reached lines entries p) ∨
      ∃ done line rest entries p e, lines = done ++ line :: rest ∧ Reached done entries p ∧
        (p.outline.place line).verdict = .error e := by
  induction lines using List.reverseRecOn with
  | nil => exact .inl ⟨[], {}, .start⟩
  | append_singleton lines line ih =>
    rcases ih with ⟨entries, p, h⟩ | ⟨done, line', rest, entries, p, e, rfl, h, he⟩
    · cases hv : (p.outline.place line).verdict with
      | ok outline => exact .inl ⟨_, _, h.step hv⟩
      | error e => exact .inr ⟨lines, line, [], entries, p, e, rfl, h, hv⟩
    · exact .inr ⟨done, line', rest ++ [line], entries, p, e, by simp, h, he⟩

/-- The end of a script is always accepted. -/
theorem finish_run {p : Progress} (h : p.Aligned) :
    finish.run p =
      .ok () { p with
        hints := p.hints.leave p.outline.sections.length
        warnings := p.warnings ++ warningsFor p.outline.pending } := by
  unfold finish
  simp only [EStateM.run_bind, EStateM.run_get]
  cases hpending : p.outline.pending with
  | none =>
    simp only [warningsFor, Option.map_none, Option.toList_none, List.append_nil]
    exact exitScopes_run h.length_lt_depth
  | some header =>
    simp only [EStateM.run_bind, warn_run (h.pending_le header hpending)]
    exact exitScopes_run h.length_lt_depth

/-! ### Runs of an analyzer -/

section

variable {source : String} {tokens : List Token} (a : Analyzer) (name : String)

/-- A run over a script that cannot be read leaves nothing behind. -/
theorem run_eq_of_tokenize_error {e : LexicalError} (h : tokenize source = .error e) :
    a.run name source = (.error (.lexical e), {}) := by
  unfold Analyzer.run walk
  rw [h]
  rfl

/-- A walk over a script whose lines are accepted ends with what is open closed. -/
theorem walk_run_eq_of_reached {entries : List Entry} {p : Progress}
    (h : tokenize source = .ok tokens) (hreached : Reached (Token.toLines tokens) entries p) :
    (walk source).run {} =
      .ok entries { p with
        hints := p.hints.leave p.outline.sections.length
        warnings := p.warnings ++ warningsFor p.outline.pending } := by
  unfold walk
  rw [h]
  simp only [EStateM.run_bind, hreached.visitAll_run_eq_ok, finish_run hreached.aligned]
  rfl

/-- A run over accepted lines reports the entries of the walk. -/
theorem run_eq_of_reached {entries : List Entry} {p : Progress}
    (h : tokenize source = .ok tokens) (hreached : Reached (Token.toLines tokens) entries p) :
    a.run name source =
      (.ok ⟨name, entries⟩,
        ⟨p.hints.leave p.outline.sections.length,
          p.warnings ++ warningsFor p.outline.pending⟩) := by
  have hwalk : (walk source).run { hints := a.hints.reset } = _ := walk_run_eq_of_reached h hreached
  unfold Analyzer.run
  rw [hwalk]

/-- A run stops at the first line that is refused. -/
theorem run_eq_of_refused {done rest : List Line} {line : Line} {entries : List Entry}
    {p : Progress} {e : LayoutError} (h : tokenize source = .ok tokens)
    (hlines : Token.toLines tokens = done ++ line :: rest) (hreached : Reached done entries p)
    (he : (p.outline.place line).verdict = .error e) :
    a.run name source =
      (.error (.layout e), ⟨(p.placed line).hints, (p.placed line).warnings⟩) := by
  have hall : (visitAll (Token.toLines tokens)).run {} = .error (.layout e) (p.placed line) := by
    rw [hlines, hreached.visitAll_run, visitAll, EStateM.run_bind, visit_run hreached.aligned, he]
  unfold Analyzer.run walk
  rw [h]
  simp only [EStateM.run_bind]
  have hall' : EStateM.run (visitAll (Token.toLines tokens)) { hints := a.hints.reset } =
      .error (.layout e) (p.placed line) := hall
  rw [hall']

end

/-- A run that succeeds has read all lines of its script. -/
theorem reached_of_run {a : Analyzer} {name source : String} {report : Report}
    (h : (a.run name source).1 = .ok report) :
    ∃ tokens p, tokenize source = .ok tokens ∧ Reached (Token.toLines tokens) report.entries p := by
  cases htokens : tokenize source with
  | error e =>
    rw [run_eq_of_tokenize_error a name htokens] at h
    cases h
  | ok tokens =>
    rcases reached_or_refused (Token.toLines tokens) with
      ⟨entries, p, hr⟩ | ⟨done, line, rest, entries, p, e, hlines, hr, he⟩
    · rw [run_eq_of_reached a name htokens hr] at h
      obtain rfl := Except.ok.inj h
      exact ⟨tokens, p, rfl, hr⟩
    · rw [run_eq_of_refused a name htokens hlines hr he] at h
      cases h

end ScriptHints
