import Mathlib
import ScriptHints.Proofs.Line.Grouping
import ScriptHints.Proofs.Outline.History

/-!
# Which scripts have an outline

Whether the outline of a script is accepted is decided with a stack of open sections. The law says
the same without a stack: a line is judged by the line before it and, where it is indented less, by
the widths of the lines before.

* `causeAt` — what is wrong with a line, if anything, in the order in which it is checked.
* `causeAt_of_refused`, `causeAt_of_accepted` — the stack comes to the same judgement.
* `Reached.causeAt_eq_none` — nothing is wrong with the lines a walk has read.
* `run_reports_first_bad_line` — a run succeeds if nothing is wrong with any line, and otherwise it
  reports what is wrong with the first bad line.
-/

namespace ScriptHints

open Text

/-! ### The law -/

/-- What is wrong with a line. -/
def causeAt (lines : List Line) (i : Nat) : Option LayoutCause :=
  match lineAt lines i with
  | none => none
  | some line =>
    if line.Mixes then some .mixedBlanks
    else if columnsAt lines (i - 1) < line.columns ∧ headerAt lines (i - 1) = false then
      some .tooDeep
    else if 0 < line.columns ∧ line.columns < columnsAt lines (i - 1) ∧
        ¬OnLevel lines i line.columns then
      some .misaligned
    else if 0 < line.columns ∧ 0 < columnsAt lines (i - 1) ∧
        line.style ≠ styleAt lines (i - 1) then
      some .mixedBlanks
    else none

/-! ### The stack and the law -/

section

variable {o o' : Outline} {done : List Line} {line : Line}

/-- The law in terms of the stack, for a line below lines that the stack is true to. -/
theorem causeAt_append_cons (h : o.Tracks done) (line : Line) (rest : List Line) :
    causeAt (done ++ line :: rest) (done.length + 1) =
      if line.Mixes then some .mixedBlanks
      else if widthOf o.sections < line.columns ∧ o.pending = none then some .tooDeep
      else if 0 < line.columns ∧ line.columns < widthOf o.sections ∧
          ¬OnLevel done (done.length + 1) line.columns then
        some .misaligned
      else if 0 < line.columns ∧ 0 < widthOf o.sections ∧
          line.style ≠ styleAt done done.length then
        some .mixedBlanks
      else none := by
  have hlast := lineAt_append (Nat.le_refl done.length) (line :: rest)
  have hstyle : styleAt (done ++ line :: rest) done.length = styleAt done done.length := by
    rw [styleAt, hlast, styleAt]
  have hheader : headerAt (done ++ line :: rest) done.length = o.pending.isSome := by
    rw [headerAt, hlast, h.header, headerAt]
  unfold causeAt
  rw [lineAt_append_cons]
  simp only [Nat.add_sub_cancel, columnsAt_append (Nat.le_refl done.length), ← h.width, hstyle,
    hheader, onLevel_append, Option.isSome_eq_false_iff, Option.isNone_iff_eq_none]

/-- A line that is not indented deeper matches no section exactly where it is indented less than the
line before and is on no level of the lines before. -/
theorem misaligned_iff (h : o.Tracks done) (hwidth : line.columns ≤ widthOf o.sections) :
    line.columns ≠ widthOf (o.sections.dropWhile (line.columns < ·.width)) ↔
      0 < line.columns ∧ line.columns < widthOf o.sections ∧
        ¬OnLevel done (done.length + 1) line.columns := by
  rcases Nat.eq_zero_or_pos line.columns with hzero | hpos
  · -- at top level there is always something to match
    rw [hzero, dropWhile_zero h.positive]
    simp [widthOf]
  rw [← h.level line.columns hpos, ne_comm]
  constructor
  · intro hne
    refine ⟨hpos, ?_, hne⟩
    rcases Nat.lt_or_eq_of_le hwidth with hlt | heq
    · exact hlt
    · rw [dropWhile_of_widthOf_le (Nat.le_of_eq heq.symm)] at hne
      exact absurd heq.symm hne
  · rintro ⟨-, -, hlevel⟩
    exact hlevel

/-- Among sections that are all indented like the line before, one is indented unlike a given line
exactly where there is one and the two lines differ. -/
theorem unlike_iff (h : o.Tracks done) {sections : List Section}
    (hsub : sections.Sublist o.sections) :
    (∃ s ∈ sections, s.style ≠ line.style) ↔
      0 < widthOf sections ∧ line.style ≠ styleAt done done.length := by
  rw [widthOf_pos_iff fun s hs => h.positive s (hsub.subset hs)]
  constructor
  · rintro ⟨s, hs, hne⟩
    refine ⟨List.ne_nil_of_mem hs, ?_⟩
    rw [← h.style s (hsub.subset hs)]
    exact hne.symm
  · rintro ⟨hne, hstyle⟩
    obtain ⟨s, hs⟩ := List.exists_mem_of_ne_nil sections hne
    refine ⟨s, hs, ?_⟩
    rw [h.style s (hsub.subset hs)]
    exact hstyle.symm

/-- The law finds the cause for which a line is refused. -/
theorem causeAt_of_refused (h : o.Tracks done) {cause : LayoutCause}
    (hrefused : Refused o line cause) (rest : List Line) :
    causeAt (done ++ line :: rest) (done.length + 1) = some cause := by
  rw [causeAt_append_cons h]
  cases hrefused with
  | mixes hmix => rw [if_pos hmix]
  | tooDeep hmix hwidth hpending => rw [if_neg hmix, if_pos ⟨hwidth, hpending⟩]
  | opensUnlike hmix hwidth hpending hstyle =>
    obtain ⟨hpos, hne⟩ := (unlike_iff h (List.Sublist.refl _)).1 hstyle
    rw [if_neg hmix, if_neg (by simp [hpending]), if_neg (by omega),
      if_pos ⟨Nat.zero_lt_of_lt hwidth, hpos, hne⟩]
  | misaligned hmix hwidth haligned =>
    rw [if_neg hmix, if_neg (by omega), if_pos ((misaligned_iff h hwidth).1 haligned)]
  | continuesUnlike hmix hwidth haligned hstyle =>
    obtain ⟨hpos, hne⟩ := (unlike_iff h (List.dropWhile_sublist _)).1 hstyle
    rw [← haligned] at hpos
    rw [if_neg hmix, if_neg (by omega),
      if_neg fun hbad => (misaligned_iff h hwidth).2 hbad haligned,
      if_pos ⟨hpos, Nat.lt_of_lt_of_le hpos hwidth, hne⟩]

/-- The law finds nothing wrong with a line that is accepted. -/
theorem causeAt_of_accepted (h : o.Tracks done) (hv : (o.place line).verdict = .ok o')
    (rest : List Line) : causeAt (done ++ line :: rest) (done.length + 1) = none := by
  rw [causeAt_append_cons h]
  have haccepted := accepted_of_ok hv
  generalize o.place line = placement at haccepted
  cases haccepted with
  | opens hmix hwidth hpending hstyle =>
    rw [if_neg hmix, if_neg (by simp [hpending]), if_neg (by omega), if_neg]
    rintro ⟨-, hpos, hne⟩
    obtain ⟨s, hs, hunlike⟩ := (unlike_iff h (List.Sublist.refl _)).2 ⟨hpos, hne⟩
    exact hunlike (hstyle s hs)
  | continues hmix hwidth haligned hstyle =>
    rw [if_neg hmix, if_neg (by omega),
      if_neg fun hbad => (misaligned_iff h hwidth).2 hbad haligned, if_neg]
    rintro ⟨hpos, -, hne⟩
    rw [haligned] at hpos
    obtain ⟨s, hs, hunlike⟩ := (unlike_iff h (List.dropWhile_sublist _)).2 ⟨hpos, hne⟩
    exact hunlike (hstyle s hs)

end

/-! ### Whole runs -/

/-- Nothing is wrong with the lines a walk has read. -/
theorem Reached.causeAt_eq_none {done : List Line} {entries : List Entry} {p : Progress}
    (h : Reached done entries p) (others : List Line) {i : Nat} (hi : i ≤ done.length) :
    causeAt (done ++ others) i = none := by
  induction h generalizing others with
  | start =>
    obtain rfl := Nat.le_zero.1 hi
    rfl
  | @step done entries p line outline h hv ih =>
    rw [List.append_assoc]
    rcases Nat.lt_or_eq_of_le hi with hlt | rfl
    · exact ih _ (by simpa [Nat.lt_succ_iff] using hlt)
    · rw [List.length_append]
      exact causeAt_of_accepted h.tracks hv others

/-- There is something wrong with a line only if there is such a line. -/
theorem lineAt_of_causeAt {lines : List Line} {i : Nat} {cause : LayoutCause}
    (h : causeAt lines i = some cause) : ∃ line, lineAt lines i = some line := by
  unfold causeAt at h
  cases hline : lineAt lines i with
  | none =>
    rw [hline] at h
    cases h
  | some line => exact ⟨line, rfl⟩

/-- A line can only be at a place that there is. -/
theorem le_length_of_lineAt {lines : List Line} {i : Nat} {line : Line}
    (h : lineAt lines i = some line) : i ≤ lines.length := by
  obtain ⟨done, rest, rfl, rfl⟩ := lines_eq_of_lineAt h
  simp

/-- Where a walk has reached its end, nothing is wrong with any line. -/
theorem Reached.causeAt_all {lines : List Line} {entries : List Entry} {p : Progress}
    (h : Reached lines entries p) (i : Nat) : causeAt lines i = none := by
  rw [Option.eq_none_iff_forall_ne_some]
  intro cause hcause
  obtain ⟨line, hline⟩ := lineAt_of_causeAt hcause
  have hnone := h.causeAt_eq_none [] (le_length_of_lineAt hline)
  rw [List.append_nil, hcause] at hnone
  cases hnone

/-- A run succeeds exactly where nothing is wrong with any line. Otherwise it reports what is wrong
with the first bad line, and points at the text from the beginning of that line to its first
token. -/
theorem run_reports_first_bad_line (a : Analyzer) (name : String) {source : String}
    {tokens : List Token} (h : tokenize source = .ok tokens) :
    ((∃ report, (a.run name source).1 = .ok report) ↔
        ∀ i, causeAt (Token.toLines tokens) i = none) ∧
      ∀ i cause, causeAt (Token.toLines tokens) i = some cause →
        (∀ j < i, causeAt (Token.toLines tokens) j = none) →
          ∃ line before after, lineAt (Token.toLines tokens) i = some line ∧
            (a.run name source).1 = .error (.layout ⟨cause, line.indentSpan⟩) ∧
            source.toList = before ++ line.indent ++ line.first.chars ++ after ∧
            (before = [] ∨ ∃ front, before = front ++ ['\n']) ∧
            line.indentSpan = ⟨size before, size before + size line.indent⟩ := by
  rcases reached_or_refused (Token.toLines tokens) with
    ⟨entries, p, hr⟩ | ⟨done, line, rest, entries, p, e, hlines, hr, he⟩
  · have hrun := run_eq_of_reached a name h hr
    refine ⟨⟨?_, ?_⟩, ?_⟩
    · intro _
      exact hr.causeAt_all
    · intro _
      exact ⟨⟨name, entries⟩, by rw [hrun]⟩
    · intro i cause hcause
      rw [hr.causeAt_all i] at hcause
      cases hcause
  · have hrun := run_eq_of_refused a name h hlines hr he
    obtain ⟨hrefused, hspan⟩ := refused_of_error he
    have hbad : causeAt (Token.toLines tokens) (done.length + 1) = some e.cause := by
      rw [hlines]
      exact causeAt_of_refused hr.tracks hrefused rest
    have hgood : ∀ j ≤ done.length, causeAt (Token.toLines tokens) j = none := by
      intro j hj
      rw [hlines]
      exact hr.causeAt_eq_none _ hj
    refine ⟨⟨?_, ?_⟩, ?_⟩
    · rintro ⟨report, hok⟩
      rw [hrun] at hok
      cases hok
    · intro hall
      rw [hall] at hbad
      cases hbad
    · intro i cause hcause hfirst
      -- the first bad line is the one the walk stopped at
      have hi : i = done.length + 1 := by
        rcases Nat.lt_trichotomy i (done.length + 1) with hlt | heq | hgt
        · rw [hgood i (Nat.le_of_lt_succ hlt)] at hcause
          cases hcause
        · exact heq
        · rw [hfirst _ hgt] at hbad
          cases hbad
      subst hi
      obtain rfl := Option.some.inj (hbad.symm.trans hcause)
      have hmem : line ∈ Token.toLines tokens := by
        rw [hlines]
        simp
      obtain ⟨before, after, htext, hbefore, hindent⟩ :=
        (tiling_of_tokenize h).indent_in_line hmem
      refine ⟨line, before, after, ?_, ?_, htext, hbefore, hindent⟩
      · rw [hlines, lineAt_append_cons]
      · rw [hrun, ← hspan]

/-- The third line is wrong in two ways: it is on no level, and it is indented with a tab below
spaces. The first of the two is reported. -/
theorem run_reports_first_bad_line_dedent :
    ∃ tokens, tokenize "a:\n  b\n\tc" = .ok tokens ∧
      causeAt (Token.toLines tokens) 3 = some .misaligned ∧
      (({} : Analyzer).run "dedent" "a:\n  b\n\tc").1 =
        .error (.layout ⟨.misaligned, ⟨7, 8⟩⟩) := by
  have htokens : tokenize "a:\n  b\n\tc" = .ok
      [⟨.word, 0, [], ['a']⟩, ⟨.colon, 1, [], [':']⟩, ⟨.newline, 2, [], ['\n']⟩,
        ⟨.word, 3, [' ', ' '], ['b']⟩, ⟨.newline, 6, [], ['\n']⟩,
        ⟨.word, 7, ['\t'], ['c']⟩] := by cbv
  refine ⟨_, htokens, by cbv, ?_⟩
  obtain ⟨line, -, -, hline, hrun, -⟩ :=
    (run_reports_first_bad_line {} "dedent" htokens).2 3 .misaligned (by cbv) (by
      intro j hj
      obtain rfl | rfl | rfl : j = 0 ∨ j = 1 ∨ j = 2 := by omega
      all_goals cbv)
  have hthird : some line = some ⟨3, ⟨.word, 7, ['\t'], ['c']⟩, []⟩ := by
    rw [← hline]
    cbv
  obtain rfl := Option.some.inj hthird
  exact hrun

end ScriptHints
