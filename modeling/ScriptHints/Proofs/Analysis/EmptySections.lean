import Mathlib
import ScriptHints.Proofs.Analysis.Outcome
import ScriptHints.Proofs.Analysis.Scopes

/-!
# Headers with empty sections

A header waits for the line behind it: that line opens the section of the header, or it shows that
the section is empty, and the header is warned about. This file says which headers are warned about,
by the widths of the lines alone, whichever way a run ends, and counts the others by the scopes that
the walk of the run enters.

* `headersBelow` — the headers that stand before a line and pass a test, in order.
* `headerWarning` — the warning about a header, from its first token to its last.
* `Reached.warnings_placed`, `Reached.warnings_eq` — the warnings given so far are those for the
  headers before.
* `exists_header_of_warning` — every warning of a run is about a header.
* `WarningsAfter` — the warnings that stay after a run, and the scopes its walk has entered.
* `run_warns_of_empty_sections` — the warnings of a run are those for the headers with empty
  sections.
-/

namespace ScriptHints

/-! ### Headers by their place -/

/-- The headers at places below `bound` that pass a test, in order. -/
def headersBelow (lines : List Line) (bound : Nat) (test : Nat → Prop) [DecidablePred test] :
    List Line :=
  (List.range bound).filterMap fun i =>
    (lineAt lines i).filter fun line => line.isHeader && decide (test i)

/-- The warning about a header: its label reaches from the first token to the last. -/
def headerWarning (l : Line) : Diagnostic := emptyWarning ⟨l.first.start, l.last.stop⟩

section

variable {lines lines' : List Line} {bound : Nat} {test test' : Nat → Prop} [DecidablePred test]
  [DecidablePred test']

/-- One more place adds the line at that place, if it is a header that passes. -/
theorem headersBelow_succ :
    headersBelow lines (bound + 1) test = headersBelow lines bound test ++
      ((lineAt lines bound).filter fun line => line.isHeader && decide (test bound)).toList := by
  unfold headersBelow
  rw [List.range_succ, List.filterMap_append]
  rfl

/-- Only the lines below the bound matter. -/
theorem headersBelow_congr (hline : ∀ i < bound, lineAt lines i = lineAt lines' i)
    (htest : ∀ i < bound, test i ↔ test' i) :
    headersBelow lines bound test = headersBelow lines' bound test' := by
  apply List.filterMap_congr
  intro i hi
  have hlt := List.mem_range.1 hi
  rw [hline i hlt, decide_eq_decide.2 (htest i hlt)]

/-- The headers found are lines of the script. -/
theorem mem_of_mem_headersBelow {line : Line} (h : line ∈ headersBelow lines bound test) :
    line ∈ lines := by
  obtain ⟨i, -, hi⟩ := List.mem_filterMap.1 h
  obtain ⟨hline, -⟩ := Option.filter_eq_some_iff.1 hi
  obtain ⟨done, rest, rfl, -⟩ := lines_eq_of_lineAt hline
  simp

/-- The headers found are headers. -/
theorem isHeader_of_mem_headersBelow {line : Line} (h : line ∈ headersBelow lines bound test) :
    line.isHeader = true := by
  obtain ⟨i, -, hi⟩ := List.mem_filterMap.1 h
  obtain ⟨-, htest⟩ := Option.filter_eq_some_iff.1 hi
  exact (Bool.and_eq_true_iff.1 htest).1

end

/-- The warnings about headers of a script point from the first token to the last. -/
theorem Tiling.map_headerWarning {text : List Char} {tokens : List Token} (h : Tiling 0 text tokens)
    (bound : Nat) (test : Nat → Prop) [DecidablePred test] :
    (headersBelow (Token.toLines tokens) bound test).map headerWarning =
      (headersBelow (Token.toLines tokens) bound test).map fun l => emptyWarning l.span := by
  apply List.map_congr_left
  intro l hl
  rw [headerWarning, h.span_line (mem_of_mem_headersBelow hl)]

/-! ### Warnings of a walk -/

/-- A line finds the waiting header empty if it is not indented deeper than the line before, unless
it is refused at once. -/
theorem emptied_place (o : Outline) (line : Line) :
    (o.place line).emptied =
      if line.columns ≤ widthOf o.sections ∧ ¬line.Mixes then o.pending else none := by
  have hplaced := placed_place o line
  generalize o.place line = placement at hplaced ⊢
  cases hplaced with
  | mixed hmix => rw [if_neg fun h => h.2 hmix]
  | tooDeep hmix hwidth | opens hmix hwidth => rw [if_neg fun h => Nat.not_lt.2 h.1 hwidth]
  | closes hmix hwidth => rw [if_pos ⟨hwidth, hmix⟩]

/-- The header that waits is the last line, if that is a header. -/
theorem Reached.pending_eq {lines : List Line} {entries : List Entry} {p : Progress}
    (h : Reached lines entries p) :
    p.outline.pending = (lineAt lines lines.length).bind Line.pendingHeader := by
  cases h with
  | start => rfl
  | @step lines entries p line outline h hv =>
    rw [List.length_append, Progress.outline_after, pending_of_ok hv]
    show _ = (lineAt (lines ++ [line]) (lines.length + 1)).bind _
    rw [lineAt_append_cons]
    rfl

/-- The warnings for a line that is tested. -/
theorem warningsFor_ite (line? : Option Line) (test : Prop) [Decidable test] :
    warningsFor (if test then line?.bind Line.pendingHeader else none) =
      (line?.filter fun line => line.isHeader && decide test).toList.map
        fun l => emptyWarning l.span := by
  cases line? with
  | none => simp [warningsFor]
  | some line =>
    by_cases htest : test <;> cases hheader : line.isHeader <;>
      simp [warningsFor, Line.pendingHeader, Option.filter, htest, hheader]

section

variable {done : List Line} {entries : List Entry} {p : Progress}

/-- One line adds at most the warning for the line before it. -/
theorem warnings_placed_of_warnings (h : Reached done entries p)
    (hwarnings : p.warnings =
      (headersBelow done done.length fun i => columnsAt done (i + 1) ≤ columnsAt done i).map
        fun l => emptyWarning l.span) (line : Line) (rest : List Line) :
    (p.placed line).warnings =
      (headersBelow (done ++ line :: rest) (done.length + 1) fun i =>
        columnsAt (done ++ line :: rest) (i + 1) ≤ columnsAt (done ++ line :: rest) i ∧
          ¬(i + 1 = done.length + 1 ∧ line.Mixes)).map fun l => emptyWarning l.span := by
  have hlast := lineAt_append (Nat.le_refl done.length) (line :: rest)
  have hcolumns := columnsAt_append (Nat.le_refl done.length) (line :: rest)
  -- the headers before the last line have been judged before
  have hbefore : headersBelow (done ++ line :: rest) done.length (fun i =>
      columnsAt (done ++ line :: rest) (i + 1) ≤ columnsAt (done ++ line :: rest) i ∧
        ¬(i + 1 = done.length + 1 ∧ line.Mixes)) =
      headersBelow done done.length fun i => columnsAt done (i + 1) ≤ columnsAt done i := by
    apply headersBelow_congr
    · intro i hi
      exact lineAt_append (Nat.le_of_lt hi) _
    · intro i hi
      rw [columnsAt_append (Nat.le_of_lt hi), columnsAt_append (Nat.succ_le_of_lt hi)]
      apply and_iff_left
      rintro ⟨heq, -⟩
      omega
  rw [headersBelow_succ, hbefore, List.map_append, ← hwarnings, ← warningsFor_ite, hlast,
    columnsAt_append_cons, hcolumns, ← h.pending_eq, ← h.tracks.width]
  show p.warnings ++ warningsFor (p.outline.place line).emptied = _
  rw [emptied_place]
  simp only [true_and]

/-- The warnings given so far are those for the headers before the last line that have no lines of
their own. -/
theorem Reached.warnings_eq (h : Reached done entries p) :
    p.warnings =
      (headersBelow done done.length fun i => columnsAt done (i + 1) ≤ columnsAt done i).map
        fun l => emptyWarning l.span := by
  induction h with
  | start => rfl
  | @step done entries p line outline h hv ih =>
    have hmix : ¬line.Mixes := by
      have haccepted := accepted_of_ok hv
      generalize p.outline.place line = placement at haccepted
      cases haccepted <;> assumption
    have hplaced := warnings_placed_of_warnings h ih line []
    rw [List.length_append]
    show (p.placed line).warnings = _
    rw [hplaced]
    congr 1
    apply headersBelow_congr
    · intro i _
      rfl
    · intro i _
      apply and_iff_left
      rintro ⟨-, hmixes⟩
      exact hmix hmixes

/-- Where a line is refused, the line before it is judged as well, unless the line mixes tabs and
spaces. -/
theorem Reached.warnings_placed (h : Reached done entries p) (line : Line) (rest : List Line) :
    (p.placed line).warnings =
      (headersBelow (done ++ line :: rest) (done.length + 1) fun i =>
        columnsAt (done ++ line :: rest) (i + 1) ≤ columnsAt (done ++ line :: rest) i ∧
          ¬(i + 1 = done.length + 1 ∧ line.Mixes)).map fun l => emptyWarning l.span :=
  warnings_placed_of_warnings h h.warnings_eq line rest

/-- At the end of the script a header that still waits is warned about. -/
theorem Reached.warnings_finish (h : Reached done entries p) :
    p.warnings ++ warningsFor p.outline.pending =
      (headersBelow done (done.length + 1) fun i =>
        i = done.length ∨ columnsAt done (i + 1) ≤ columnsAt done i).map
          fun l => emptyWarning l.span := by
  have hbefore : headersBelow done done.length (fun i =>
      i = done.length ∨ columnsAt done (i + 1) ≤ columnsAt done i) =
      headersBelow done done.length fun i => columnsAt done (i + 1) ≤ columnsAt done i := by
    apply headersBelow_congr
    · intro i _
      rfl
    · intro i hi
      exact or_iff_right (Nat.ne_of_lt hi)
  rw [headersBelow_succ, hbefore, List.map_append, ← h.warnings_eq, ← warningsFor_ite,
    ← h.pending_eq, if_pos (.inl rfl)]

end

/-- Every warning of a run is about a header of the script. -/
theorem exists_header_of_warning (a : Analyzer) (name : String) {source : String} {w : Diagnostic}
    (hw : w ∈ (a.run name source).2.warnings) :
    ∃ tokens, tokenize source = .ok tokens ∧
      ∃ l ∈ Token.toLines tokens, l.isHeader = true ∧ w = emptyWarning l.span := by
  have hended := ended_run a name source
  generalize (a.run name source).1 = result, (a.run name source).2 = left at hended hw
  cases hended with
  | unread htokens => cases hw
  | @complete tokens entries p htokens hreached =>
    rw [hreached.warnings_finish] at hw
    obtain ⟨l, hl, rfl⟩ := List.mem_map.1 hw
    exact ⟨tokens, htokens, l, mem_of_mem_headersBelow hl, isHeader_of_mem_headersBelow hl, rfl⟩
  | @refused tokens done rest line entries p e htokens hlines hreached hverdict =>
    rw [hreached.warnings_placed line rest] at hw
    obtain ⟨l, hl, rfl⟩ := List.mem_map.1 hw
    refine ⟨tokens, htokens, l, ?_, isHeader_of_mem_headersBelow hl, rfl⟩
    rw [hlines]
    exact mem_of_mem_headersBelow hl

/-! ### Whole runs -/

/-- The warnings after a run, by how it ended. For a run that comes to the end of its script, `n` is
the number of scopes its walk enters, and `q` the state the walk ends in. A run has no other results
than these. -/
def WarningsAfter (source : String) (result : Except Failure Report) (left : Analyzer)
    (messages : List Message) : Prop :=
  match result with
  | .ok report => ∃ tokens lines, tokenize source = .ok tokens ∧ lines = Token.toLines tokens ∧
      left.warnings =
        (headersBelow lines (lines.length + 1) fun i =>
          i = lines.length ∨ columnsAt lines (i + 1) ≤ columnsAt lines i).map headerWarning ∧
      ∃ n q, (walk source).run {} = .ok report.entries q ∧ left = ⟨q.hints, q.warnings⟩ ∧
        EntersScopes {} lines n q ∧ (∀ m q', EntersScopes {} lines m q' → m = n) ∧
        lines.countP Line.isHeader = left.warnings.length + n ∧
        messages.countP Message.tellsEntry = n
  | .error (.lexical _) => left.warnings = []
  | .error (.layout e) => ∃ tokens lines k line, tokenize source = .ok tokens ∧
      lines = Token.toLines tokens ∧ RefusedAt lines k line e ∧
      left.warnings =
        (headersBelow lines k fun i =>
          columnsAt lines (i + 1) ≤ columnsAt lines i ∧ ¬(i + 1 = k ∧ line.Mixes)).map headerWarning
  | .error _ => False

/-- A run warns about the headers whose sections are empty and about no others. After the last line
every header has been warned about or had a scope entered for it, by the table of the walk itself,
and the log tells of as many entries. -/
theorem run_warns_of_empty_sections (a : Analyzer) (name source : String) :
    WarningsAfter source (a.run name source).1 (a.run name source).2 (runMessages name source) := by
  have hended := ended_run a name source
  generalize (a.run name source).1 = result, (a.run name source).2 = left at hended
  cases hended with
  | unread htokens => exact rfl
  | @complete tokens entries p htokens hreached =>
    obtain ⟨n, hscopes⟩ := hreached.entersScopes
    have hheaders := hscopes.countP_isHeader aligned_start
    have htells := hscopes.countP_transcriptFrom aligned_start
    refine ⟨tokens, _, htokens, rfl, ?_, n, _, walk_run_eq_of_reached htokens hreached, rfl,
      hscopes, ?_, ?_, ?_⟩
    · rw [(tiling_of_tokenize htokens).map_headerWarning]
      exact hreached.warnings_finish
    · intro m q' hother
      exact hother.unique hscopes
    · rw [← hheaders]
      exact (Nat.zero_add _).symm
    · rw [countP_runMessages name htokens, htells]
  | @refused tokens done rest line entries p e htokens hlines hreached hverdict =>
    refine ⟨tokens, _, done.length + 1, line, htokens, rfl, ?_, ?_⟩
    · rw [hlines]
      exact hreached.refusedAt hverdict rest
    · rw [(tiling_of_tokenize htokens).map_headerWarning, hlines]
      exact hreached.warnings_placed line rest

/-- The first header has a section, the second has none. -/
example : (({} : Analyzer).run "inner" "a:\n  b:\nc").2.warnings = [emptyWarning ⟨5, 7⟩] := by
  cbv

end ScriptHints
