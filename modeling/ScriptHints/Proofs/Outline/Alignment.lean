import Mathlib
import ScriptHints.Proofs.Analysis.Scoping
import ScriptHints.Proofs.Outline.Acceptance

/-!
# How the lines of a section are indented

The lines of a section have at least the width of its first line and begin with the same blank. That
is all an outline asks of them, and it pins their indentation down as long as they are indented with
spaces or tabs: then every line of a section begins with the whole indentation of its first line. A
carriage return or a form feed behind the first blank goes unnoticed, and two lines side by side in
a section may differ in it.

* `InSection` — a line is in the section that another line is the first line of.
* `styleAt_of_unclosed` — as long as no line is indented less, all lines begin with the same blank.
* `Line.IndentedPlainly` — the indentation is made of spaces and tabs alone;
  `Line.indent_of_plainly` says that it is then one blank, repeated.
* `Line.AlignedWith` — what the first line of a section determines about the others.
* `run_aligns_sections` — in every script that is accepted the lines of a section are aligned.
* `run_misses_form_feed` — with a form feed they need not begin with the same text.
-/

namespace ScriptHints

/-! ### Lines of a section -/

/-- Line `i` is the first line of a section, and line `k` is in that section. -/
structure InSection (lines : List Line) (i k : Nat) : Prop where
  /-- The line before the first one is the header of the section. -/
  header : headerAt lines (i - 1) = true
  /-- The first line is indented deeper than the header. -/
  deeper : columnsAt lines (i - 1) < columnsAt lines i
  le : i ≤ k
  /-- No line up to line `k` has closed the section. -/
  unclosed : Unclosed lines i k

/-- The indentation is made of spaces and tabs alone. -/
def Line.IndentedPlainly (l : Line) : Prop := ∀ c ∈ l.indent, c = ' ' ∨ c = '\t'

/-- What the first line of a section determines about another line of it. -/
structure Line.AlignedWith (line first : Line) : Prop where
  columns : first.columns ≤ line.columns
  style : line.style = first.style
  /-- With nothing but spaces and tabs the line begins with the indentation of the first line. -/
  text : first.IndentedPlainly → line.IndentedPlainly → first.indent <+: line.indent
  /-- A line directly in the section then has that indentation and no other. -/
  same : first.IndentedPlainly → line.IndentedPlainly → line.columns = first.columns →
    line.indent = first.indent

section

variable {lines : List Line} {line : Line} {i k : Nat}

/-- Nothing is wrong with a line: it does not mix tabs and spaces, and if it is indented and the
line before is, both begin with the same blank. -/
theorem causeAt_none (h : causeAt lines k = none) (hline : lineAt lines k = some line) :
    ¬line.Mixes ∧ (0 < line.columns → 0 < columnsAt lines (k - 1) →
      line.style = styleAt lines (k - 1)) := by
  unfold causeAt at h
  rw [hline] at h
  by_cases hmix : line.Mixes
  · simp [hmix] at h
  refine ⟨hmix, ?_⟩
  intro hpos hbefore
  by_contra hstyle
  simp only [if_neg hmix] at h
  split_ifs at h with hdeep hlevel hunlike
  exact hunlike ⟨hpos, hbefore, hstyle⟩

/-- Where there is some indentation there is a line. -/
theorem lineAt_of_columnsAt_pos (h : 0 < columnsAt lines k) :
    ∃ line, lineAt lines k = some line ∧ line.columns = columnsAt lines k := by
  unfold columnsAt at h ⊢
  rcases hline : lineAt lines k with _ | line
  · rw [hline] at h
    exact absurd h (Nat.lt_irrefl 0)
  · exact ⟨line, rfl, rfl⟩

/-- As long as no line is indented less than an indented line, all begin with the same blank. -/
theorem styleAt_of_unclosed (h : ∀ j, causeAt lines j = none) (hpos : 0 < columnsAt lines i)
    (hle : i ≤ k) (hunclosed : Unclosed lines i k) : styleAt lines k = styleAt lines i := by
  induction k, hle using Nat.le_induction with
  | base => rfl
  | succ k hik ih =>
    have hbefore : Unclosed lines i k := fun m hm him => hunclosed m (Nat.le_succ_of_le hm) him
    -- both the line and the one before it are indented, so they were compared
    have hdeep : 0 < columnsAt lines (k + 1) :=
      hpos.trans_le (hunclosed (k + 1) (Nat.le_refl _) (Nat.lt_succ_of_le hik))
    have hdeep' : 0 < columnsAt lines k := by
      rcases Nat.eq_or_lt_of_le hik with rfl | hlt
      · exact hpos
      · exact hpos.trans_le (hbefore k (Nat.le_refl _) hlt)
    obtain ⟨line, hline, hcolumns⟩ := lineAt_of_columnsAt_pos hdeep
    have hstyle := (causeAt_none (h (k + 1)) hline).2 (by omega) hdeep'
    rw [← ih hbefore, styleAt, hline]
    exact hstyle

/-- An indentation of spaces or tabs, but not of both, is one blank, repeated. -/
theorem Line.indent_of_plainly (hplain : line.IndentedPlainly) (hmix : ¬line.Mixes) {b : Char}
    (hstyle : line.style = some b) : line.indent = List.replicate line.columns b := by
  rw [List.eq_replicate_iff]
  refine ⟨rfl, ?_⟩
  intro c hc
  have hb : b ∈ line.indent := List.mem_of_mem_head? hstyle
  rcases hplain c hc with rfl | rfl
  · rcases hplain b hb with rfl | rfl
    · rfl
    · exact absurd ⟨hc, hb⟩ hmix
  · rcases hplain b hb with rfl | rfl
    · exact absurd ⟨hb, hc⟩ hmix
    · rfl

/-- Of two lines that begin with the same blank, and mix nothing, the narrower one is indented like
the beginning of the other. -/
theorem indent_prefix_of_plainly {first : Line} (hfirst : ¬first.Mixes) (hline : ¬line.Mixes)
    (hcolumns : first.columns ≤ line.columns) (hstyle : line.style = first.style)
    (hpos : 0 < first.columns) (hplain : first.IndentedPlainly) (hplain' : line.IndentedPlainly) :
    first.indent <+: line.indent := by
  obtain ⟨b, blanks, hindent⟩ := List.exists_cons_of_length_pos hpos
  have hb : first.style = some b := by rw [Line.style, hindent, List.head?_cons]
  rw [Line.indent_of_plainly hplain hfirst hb,
    Line.indent_of_plainly hplain' hline (hstyle.trans hb)]
  refine ⟨List.replicate (line.columns - first.columns) b, ?_⟩
  rw [List.replicate_append_replicate, Nat.add_sub_cancel' hcolumns]

/-- Where nothing is wrong with any line, the lines of a section are aligned with its first line. -/
theorem InSection.alignedWith (h : ∀ j, causeAt lines j = none) (hsection : InSection lines i k)
    {first : Line} (hfirst : lineAt lines i = some first) (hline : lineAt lines k = some line) :
    line.AlignedWith first := by
  have hwidth : columnsAt lines i = first.columns := by
    rw [columnsAt, hfirst]
    rfl
  have hwidth' : columnsAt lines k = line.columns := by
    rw [columnsAt, hline]
    rfl
  have hpos : 0 < columnsAt lines i := Nat.zero_lt_of_lt hsection.deeper
  have hcolumns : first.columns ≤ line.columns := by
    rw [← hwidth, ← hwidth']
    rcases Nat.eq_or_lt_of_le hsection.le with rfl | hlt
    · exact Nat.le_refl _
    · exact hsection.unclosed k (Nat.le_refl _) hlt
  have hstyle : line.style = first.style := by
    have hsame := styleAt_of_unclosed h hpos hsection.le hsection.unclosed
    rwa [styleAt, styleAt, hline, hfirst] at hsame
  have hbegins := indent_prefix_of_plainly (causeAt_none (h i) hfirst).1
    (causeAt_none (h k) hline).1 hcolumns hstyle (hwidth ▸ hpos)
  refine ⟨hcolumns, hstyle, hbegins, ?_⟩
  intro hplain hplain' hsame
  exact ((hbegins hplain hplain').eq_of_length hsame.symm).symm

end

/-! ### Whole runs -/

/-- In every script that is accepted, the lines of a section are aligned with its first line. -/
theorem run_aligns_sections {a : Analyzer} {name source : String} {report : Report}
    (h : (a.run name source).1 = .ok report) :
    ∃ tokens, tokenize source = .ok tokens ∧
      ∀ i k first line, lineAt (Token.toLines tokens) i = some first →
        lineAt (Token.toLines tokens) k = some line → InSection (Token.toLines tokens) i k →
          line.AlignedWith first := by
  obtain ⟨tokens, p, htokens, hreached⟩ := reached_of_run h
  refine ⟨tokens, htokens, ?_⟩
  intro i k first line hfirst hline hsection
  exact hsection.alignedWith hreached.causeAt_all hfirst hline

/-- A section with a section inside it: its first line is the header of the inner section, its last
line stands below that. -/
def nestedScript : String := "a:\n\tb:\n\t\tc\n\td\n"

/-- The tokens of that script. -/
def nestedTokens : List Token :=
  [⟨.word, 0, [], ['a']⟩, ⟨.colon, 1, [], [':']⟩, ⟨.newline, 2, [], ['\n']⟩,
    ⟨.word, 3, ['\t'], ['b']⟩, ⟨.colon, 5, [], [':']⟩, ⟨.newline, 6, [], ['\n']⟩,
    ⟨.word, 7, ['\t', '\t'], ['c']⟩, ⟨.newline, 10, [], ['\n']⟩,
    ⟨.word, 11, ['\t'], ['d']⟩, ⟨.newline, 13, [], ['\n']⟩]

/-- The last line of the outer section is indented like its first line, across the inner section. -/
theorem run_aligns_sections_nested :
    ∃ first line, lineAt (Token.toLines nestedTokens) 2 = some first ∧
      lineAt (Token.toLines nestedTokens) 4 = some line ∧
        InSection (Token.toLines nestedTokens) 2 4 ∧ line.AlignedWith first ∧
        first.IndentedPlainly ∧ line.IndentedPlainly ∧ 0 < first.columns := by
  have hrun : (({} : Analyzer).run "nested" nestedScript).1 = .ok ⟨"nested", []⟩ := by cbv
  obtain ⟨tokens, htokens, haligned⟩ := run_aligns_sections hrun
  obtain rfl : tokens = nestedTokens := Except.ok.inj (htokens.symm.trans (by cbv))
  have hsection : InSection (Token.toLines nestedTokens) 2 4 := by
    refine ⟨by cbv, by cbv, by omega, ?_⟩
    intro m hm him
    obtain rfl | rfl : m = 3 ∨ m = 4 := by omega
    · cbv
    · cbv
  have hfirst : lineAt (Token.toLines nestedTokens) 2 =
      some ⟨2, ⟨.word, 3, ['\t'], ['b']⟩, [⟨.colon, 5, [], [':']⟩]⟩ := by cbv
  have hline : lineAt (Token.toLines nestedTokens) 4 =
      some ⟨4, ⟨.word, 11, ['\t'], ['d']⟩, []⟩ := by cbv
  exact ⟨_, _, hfirst, hline, hsection, haligned 2 4 _ _ hfirst hline hsection,
    by simp [Line.IndentedPlainly, Line.indent], by simp [Line.IndentedPlainly, Line.indent],
    Nat.one_pos⟩

/-- A script with a section of two lines. The first is indented with two spaces, the second with a
space and a form feed. -/
def feedScript : String := "a:\n  b\n \x0cc\n"

/-- The script with the form feed is accepted, although the second line of its section does not
begin with the indentation of the first. -/
theorem run_misses_form_feed :
    (∃ report, (({} : Analyzer).run "feed" feedScript).1 = .ok report) ∧
      ∃ tokens first line, tokenize feedScript = .ok tokens ∧
        InSection (Token.toLines tokens) 2 3 ∧
        lineAt (Token.toLines tokens) 2 = some first ∧
        lineAt (Token.toLines tokens) 3 = some line ∧
        line.columns = first.columns ∧ ¬first.indent <+: line.indent := by
  have htokens : tokenize feedScript = .ok
      [⟨.word, 0, [], ['a']⟩, ⟨.colon, 1, [], [':']⟩, ⟨.newline, 2, [], ['\n']⟩,
        ⟨.word, 3, [' ', ' '], ['b']⟩, ⟨.newline, 6, [], ['\n']⟩,
        ⟨.word, 7, [' ', '\x0c'], ['c']⟩, ⟨.newline, 10, [], ['\n']⟩] := by cbv
  have hrun : (({} : Analyzer).run "feed" feedScript).1 = .ok ⟨"feed", []⟩ := by cbv
  refine ⟨⟨_, hrun⟩, _, ⟨2, ⟨.word, 3, [' ', ' '], ['b']⟩, []⟩,
    ⟨3, ⟨.word, 7, [' ', '\x0c'], ['c']⟩, []⟩, htokens, ⟨by cbv, by cbv, by omega, ?_⟩, by cbv,
    by cbv, rfl, by decide⟩
  intro m hm him
  obtain rfl : m = 3 := by omega
  cbv

end ScriptHints
