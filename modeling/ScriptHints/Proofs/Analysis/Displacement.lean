import Mathlib
import ScriptHints.Proofs.Analysis.Coverage
import ScriptHints.Proofs.Analysis.EmptySections
import ScriptHints.Proofs.Line.Shift

/-!
# Scripts whose lines are moved

Where text is put into a script, what stands behind it moves. If it moves line by line, a run over
the longer script does the same as one over the shorter, with every place it tells of moved in the
same way. This file says so for the lines a script has, whatever the reason that they have moved.

* `Displacement` — how far things are moved, by the place they begin at.
* `Displacement.outcome` — what a run gives, with every place in it moved.
* `Displacement.Keeps` — a line that is moved as a whole.
* `Displacement.Keeps.place_line` — the outline takes a moved line as it takes the line.
* `Reached.displaced` — the states of a walk over moved lines are those of the walk over the lines.
* `Displacement.Moves` — a script whose lines are those of another, moved.
  `Displacement.Moves.run_eq` says that a run over it has the moved outcome.
-/

namespace ScriptHints

open Text

/-- How far things are moved: by how many bytes and by how many lines what begins at an offset. -/
structure Displacement where
  bytes : Nat → Nat
  lines : Nat → Nat

namespace Displacement

/-- Everything is moved by the same number of bytes and lines. -/
def uniform (bytes lines : Nat) : Displacement := ⟨fun _ => bytes, fun _ => lines⟩

variable (D : Displacement)

/-! ### Moving what a run tells -/

/-- A region is moved as a whole, by where it begins. -/
def span (s : Span) : Span := s.shift (D.bytes s.start)

/-- An entry is moved by where its region begins. -/
def entry (e : Entry) : Entry := e.shift (D.bytes e.span.start) (D.lines e.span.start)

/-- A line is moved by where its first token begins. -/
def line (l : Line) : Line := l.shift (D.bytes l.first.offset) (D.lines l.first.offset)

/-- A label is moved by where it begins. -/
def label (l : Label) : Label := { l with offset := D.bytes l.offset + l.offset }

/-- A diagnostic is moved by moving its labels. -/
def diagnostic (d : Diagnostic) : Diagnostic := { d with labels := d.labels.map D.label }

/-- A complaint about the layout is moved with its region. -/
def layoutError (e : LayoutError) : LayoutError := { e with span := D.span e.span }

/-- A failure is moved if it points at the script. -/
def failure : Failure → Failure
  | .lexical e => .lexical { e with span := D.span e.span }
  | .layout e => .layout (D.layoutError e)
  | f => f

/-- What a run answers, with every place moved. -/
def result : Except Failure Report → Except Failure Report
  | .ok report => .ok { report with entries := report.entries.map D.entry }
  | .error failure => .error (D.failure failure)

/-- What a run answers and leaves behind, with every place moved. Hints have no place. -/
def outcome (o : Except Failure Report × Analyzer) : Except Failure Report × Analyzer :=
  (D.result o.1, { o.2 with warnings := o.2.warnings.map D.diagnostic })

/-- One displacement after another. The second goes by where the first has moved things. -/
def followedBy (E : Displacement) : Displacement where
  bytes o := E.bytes (D.bytes o + o) + D.bytes o
  lines o := E.lines (D.bytes o + o) + D.lines o

/-! ### Moving the state of a walk -/

/-- An outline knows of one place only, the header that waits. -/
def outline (o : Outline) : Outline := { o with pending := o.pending.map D.span }

/-- The verdict on a line is moved, however it comes out. -/
def verdict : Except LayoutError Outline → Except LayoutError Outline
  | .ok o => .ok (D.outline o)
  | .error e => .error (D.layoutError e)

/-- A placement is moved with its header and its verdict; scopes have no place. -/
def placement (placement : Placement) : Placement :=
  { placement with
    emptied := placement.emptied.map D.span
    verdict := D.verdict placement.verdict }

/-- The state of a walk over moved lines, which began with the warnings `base`. -/
def progress (base : List Diagnostic) (p : Progress) : Progress :=
  ⟨D.outline p.outline, p.hints, base ++ p.warnings.map D.diagnostic⟩

/-- A line is moved as a whole: so are its region and the entries on it. -/
structure Keeps (l : Line) : Prop where
  span_eq : D.span l.span = l.span.shift (D.bytes l.first.offset)
  entry_eq : ∀ env, ∀ e ∈ lineEntries env l,
    D.entry e = e.shift (D.bytes l.first.offset) (D.lines l.first.offset)

/-- Where everything is moved by the same distance, every line is moved as a whole. -/
theorem keeps_uniform (bytes lines : Nat) (l : Line) : (uniform bytes lines).Keeps l :=
  ⟨rfl, fun _ _ _ => rfl⟩

section

variable {D} {l : Line}

/-- The indentation of a line moves with the line. -/
theorem indentSpan_line (l : Line) : (D.line l).indentSpan = D.span l.indentSpan :=
  Line.indentSpan_shift _ _ l

/-- The region of a line moves with the line. -/
theorem Keeps.span_line (h : D.Keeps l) : (D.line l).span = D.span l.span := by
  rw [h.span_eq]
  exact Line.span_shift _ _ l

/-- The entries of a moved line are those of the line, moved. -/
theorem Keeps.lineEntries_line (h : D.Keeps l) (env : String → Option ValueType) :
    lineEntries env (D.line l) = (lineEntries env l).map D.entry := by
  rw [line, lineEntries_shift]
  exact List.map_congr_left fun e he => (h.entry_eq env e he).symm

/-- A line that is moved as a whole, and then moved as a whole again, is moved as a whole. -/
theorem Keeps.followedBy {E : Displacement} (h : D.Keeps l) (h' : E.Keeps (D.line l)) :
    (D.followedBy E).Keeps l := by
  refine ⟨?_, ?_⟩
  · have hspan : (D.followedBy E).span l.span = E.span (D.span l.span) := by
      simp only [span, Displacement.followedBy, Span.shift, Nat.add_assoc]
    rw [hspan, ← h.span_line, h'.span_eq, h.span_line, h.span_eq]
    simp only [Span.shift, Displacement.followedBy, Nat.add_assoc]
    rfl
  · intro env e he
    have hentry : (D.followedBy E).entry e = E.entry (D.entry e) := by
      simp only [entry, Displacement.followedBy, Entry.shift, Span.shift, Nat.add_assoc]
    have hmem : D.entry e ∈ lineEntries env (D.line l) := by
      rw [h.lineEntries_line]
      exact List.mem_map_of_mem he
    rw [hentry, h'.entry_eq env _ hmem, h.entry_eq env e he, Entry.shift_shift]
    rfl

/-- A line that is moved twice is moved by both distances. -/
theorem line_followedBy (D E : Displacement) (l : Line) :
    (D.followedBy E).line l = E.line (D.line l) := by
  rw [line, line, line, Line.shift_shift]
  rfl

/-- The last checks on a moved line come out as those on the line, moved. -/
theorem Keeps.settle_line (h : D.Keeps l) (sections : List Section) (width : Nat) :
    Outline.settle sections width (D.line l) = D.verdict (Outline.settle sections width l) := by
  have hstyle : (D.line l).style = l.style := rfl
  unfold Outline.settle
  rw [indentSpan_line, h.span_line, hstyle, line, Line.isHeader_shift]
  by_cases hwidth : width = widthOf sections
  · rw [if_neg (not_not_intro hwidth), if_neg (not_not_intro hwidth)]
    by_cases hstyle : sections.any (·.style != l.style) = true
    · rw [if_pos hstyle, if_pos hstyle]
      rfl
    · rw [if_neg hstyle, if_neg hstyle]
      by_cases hheader : l.isHeader = true
      · rw [if_pos hheader, if_pos hheader]
        rfl
      · rw [if_neg hheader, if_neg hheader]
        rfl
  · rw [if_pos hwidth, if_pos hwidth]
    rfl

/-- The outline takes a moved line as it takes the line, and tells of moved places. -/
theorem Keeps.place_line (h : D.Keeps l) (o : Outline) :
    (D.outline o).place (D.line l) = D.placement (o.place l) := by
  have hsections : (D.outline o).sections = o.sections := rfl
  have hpending : (D.outline o).pending = o.pending.map D.span := rfl
  have hstyle : (D.line l).style = l.style := rfl
  have hcolumns : (D.line l).columns = l.columns := rfl
  unfold Outline.place
  by_cases hmix : l.Mixes
  · have hmix' : (D.line l).Mixes := hmix
    rw [Line.width_of_mixes hmix, Line.width_of_mixes hmix', indentSpan_line]
    rfl
  have hmix' : ¬(D.line l).Mixes := hmix
  rw [Line.width_of_not_mixes hmix, Line.width_of_not_mixes hmix', hcolumns, hsections, hstyle,
    hpending, indentSpan_line]
  simp only [h.settle_line]
  by_cases hwidth : widthOf o.sections < l.columns
  · rw [if_pos hwidth, if_pos hwidth]
    rcases o.pending with _ | header <;> rfl
  · rw [if_neg hwidth, if_neg hwidth]
    rfl

/-! ### The walk -/

/-- The warning about a header moves with the header. -/
theorem diagnostic_emptyWarning (header : Span) :
    D.diagnostic (emptyWarning header) = emptyWarning (D.span header) := by
  simp only [diagnostic, emptyWarning, label, span, Span.shift, List.map_cons, List.map_nil,
    Nat.add_sub_add_left]

/-- So does the warning about a header that need not be there. -/
theorem warningsFor_span (header : Option Span) :
    warningsFor (header.map D.span) = (warningsFor header).map D.diagnostic := by
  rcases header with _ | header
  · rfl
  · simp only [warningsFor, Option.map_some, Option.toList_some, List.map_cons, List.map_nil,
      diagnostic_emptyWarning]

variable (base : List Diagnostic) (p : Progress)

/-- Placing a moved line leads to the moved state. -/
theorem Keeps.placed_line (h : D.Keeps l) :
    (D.progress base p).placed (D.line l) = D.progress base (p.placed l) := by
  have hplace : (D.progress base p).outline.place (D.line l) = D.placement (p.outline.place l) :=
    h.place_line p.outline
  unfold Progress.placed
  rw [hplace]
  simp only [progress, placement, warningsFor_span, List.map_append, List.append_assoc]
  rfl

/-- Reading a moved line leads to the moved state. -/
theorem Keeps.after_line (h : D.Keeps l) (o : Outline) :
    (D.progress base p).after (D.line l) (D.outline o) = D.progress base (p.after l o) := by
  unfold Progress.after
  rw [h.placed_line]
  simp only [progress, line, HintTable.afterLine_shift]

/-- A moved line is accepted where the line is. -/
theorem Keeps.verdict_line (h : D.Keeps l) :
    ((D.progress base p).outline.place (D.line l)).verdict =
      D.verdict (p.outline.place l).verdict := by
  exact congrArg Placement.verdict (h.place_line p.outline)

end

end Displacement

section

variable {D : Displacement} {lines before : List Line} {entries earlier : List Entry}
  {base : List Diagnostic} {p : Progress} {l : Line}

/-- One moved line behind any others: the walk goes on as it does behind the lines themselves. -/
theorem Reached.step_displaced (h : Reached before earlier (D.progress base p)) (hk : D.Keeps l)
    {o : Outline} (hv : (p.outline.place l).verdict = .ok o) :
    Reached (before ++ [D.line l])
      (earlier ++ (lineEntries (p.placed l).hints.find? l).map D.entry)
      (D.progress base (p.after l o)) := by
  have hv' : ((D.progress base p).outline.place (D.line l)).verdict = .ok (D.outline o) := by
    rw [hk.verdict_line, hv]
    rfl
  have hstep := h.step hv'
  rwa [hk.after_line, hk.placed_line, hk.lineEntries_line] at hstep

/-- The states of a walk over moved lines are those of the walk over the lines. -/
theorem Reached.displaced (h : Reached lines entries p) (hk : ∀ l ∈ lines, D.Keeps l) :
    Reached (lines.map D.line) (entries.map D.entry) (D.progress [] p) := by
  induction h with
  | start => exact .start
  | @step lines entries p line outline h hv ih =>
    rw [List.map_append, List.map_append]
    apply Reached.step_displaced _ (hk line (by simp)) hv
    exact ih fun l hl => hk l (List.mem_append_left _ hl)

end

/-! ### Lines of a script -/

section

variable {source : String} {tokens : List Token} {l : Line}

/-- The first token of a line is not empty. -/
theorem start_lt_last_stop (h : tokenize source = .ok tokens) (hl : l ∈ Token.toLines tokens) :
    l.first.start < l.last.stop := by
  have hmem : l.first ∈ l.tokens := List.mem_cons_self
  have hsize := size_pos_of_ne_nil (chars_ne_nil_of_tokenize h _ (mem_of_mem_line hl hmem))
  have hbounds := ((tiling_of_tokenize h).line_bounds hl hmem).2
  rw [Token.stop] at hbounds
  omega

/-- A line is moved as a whole if everything from its beginning to the end of its last token is
moved alike. -/
theorem Displacement.keeps_of_steady {D : Displacement} (h : tokenize source = .ok tokens)
    (hl : l ∈ Token.toLines tokens)
    (hsteady : ∀ o, l.first.offset ≤ o → o < l.last.stop →
      D.bytes o = D.bytes l.first.offset ∧ D.lines o = D.lines l.first.offset) : D.Keeps l := by
  have htiling := tiling_of_tokenize h
  refine ⟨?_, ?_⟩
  · have hle : l.first.offset ≤ l.first.start := Nat.le_add_right _ _
    rw [Displacement.span, htiling.span_line hl,
      (hsteady l.first.start hle (start_lt_last_stop h hl)).1]
  · intro env e he
    obtain ⟨-, u, hu, -, -, hspan⟩ := use_of_mem_lineEntries (htiling.wellFormed_line hl) he
    obtain ⟨t, ht, hu⟩ := List.mem_flatMap.1 hu
    have hwf := htiling.wellFormed_line hl t ht
    have hstart := Token.start_le_of_mem_uses hwf hu
    have hstop := Token.stop_le_of_mem_uses hwf hu
    have hlt := u.offset_lt_stop
    have hfirst : l.first.offset ≤ l.first.start := Nat.le_add_right _ _
    have hbounds := htiling.line_bounds hl ht
    obtain ⟨hbytes, hlines⟩ := hsteady u.offset (by omega) (by omega)
    have hoffset : e.span.start = u.offset := by
      rw [hspan]
      rfl
    rw [Displacement.entry, hoffset, hbytes, hlines]

end

/-! ### Moved scripts -/

/-- `D.Moves source source'`: the lines of the second script are those of the first, each of them
moved as a whole. -/
def Displacement.Moves (D : Displacement) (source source' : String) : Prop :=
  ∃ tokens tokens', tokenize source = .ok tokens ∧ tokenize source' = .ok tokens' ∧
    Token.toLines tokens' = (Token.toLines tokens).map D.line ∧
    ∀ l ∈ Token.toLines tokens, D.Keeps l

namespace Displacement.Moves

variable {D E : Displacement} {source middle source' : String}

/-- Moving a script twice is moving it by both displacements. -/
theorem trans (h : D.Moves source middle) (h' : E.Moves middle source') :
    (D.followedBy E).Moves source source' := by
  obtain ⟨tokens, tokens₁, htokens, htokens₁, hlines, hkeeps⟩ := h
  obtain ⟨tokens₂, tokens', htokens₂, htokens', hlines', hkeeps'⟩ := h'
  obtain rfl := Except.ok.inj (htokens₁.symm.trans htokens₂)
  rw [hlines] at hkeeps' hlines'
  refine ⟨tokens, tokens', htokens, htokens', ?_, ?_⟩
  · rw [hlines', List.map_map]
    exact List.map_congr_left fun l _ => (line_followedBy D E l).symm
  · intro l hl
    exact (hkeeps l hl).followedBy (hkeeps' _ (List.mem_map_of_mem hl))

/-- A run over a moved script has the moved outcome. -/
theorem run_eq (h : D.Moves source source') (a : Analyzer) (name : String) :
    a.run name source' = D.outcome (a.run name source) := by
  obtain ⟨tokens, tokens', h, h', hlines, hk⟩ := h
  rcases reached_or_refused (Token.toLines tokens) with
    ⟨entries, p, hr⟩ | ⟨done, line, rest, entries, p, e, hsplit, hr, he⟩
  · have hr' := hr.displaced hk
    rw [← hlines] at hr'
    have hpending : (D.progress [] p).outline.pending = p.outline.pending.map D.span := rfl
    rw [run_eq_of_reached a name h' hr', run_eq_of_reached a name h hr, hpending, warningsFor_span]
    simp only [outcome, result, List.map_append]
    rfl
  · rw [hsplit] at hk hlines
    have hr' := hr.displaced fun l hl => hk l (List.mem_append_left _ hl)
    have hkeep : D.Keeps line := hk line (by simp)
    have he' : ((D.progress [] p).outline.place (D.line line)).verdict =
        .error (D.layoutError e) := by
      rw [hkeep.verdict_line, he]
      rfl
    rw [List.map_append, List.map_cons] at hlines
    rw [run_eq_of_refused a name h' hlines hr' he', run_eq_of_refused a name h hsplit hr he,
      hkeep.placed_line]
    rfl

end Displacement.Moves

end ScriptHints
