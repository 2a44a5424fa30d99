import Mathlib
import ScriptHints.Proofs.Analysis.Displacement
import ScriptHints.Proofs.Analysis.Scoping

/-!
# Scripts that go on

A script may be followed by further lines. What is found on its own lines stays as it is, whatever
follows; and where nothing is remembered at top level, what follows is analyzed as if it stood
alone.

* `Reached.split_append` — the state between two parts of a script, and the entries of either part.
* `EarlierLinesStay`, `run_ignores_later_lines` — further lines change nothing about those before.
* `Progress.closed` — the state once everything that is open is closed.
* `Reached.step_unindented` — a line that is not indented goes on from there.
* `Reached.find?_closed` — what is found for a name then is the hint of the last assignment to it at
  top level; `Reached.hints_closed` says that nothing is found if no such assignment has a hint.
* `run_append_sections` — two scripts, one behind the other, are analyzed one after the other.
-/

namespace ScriptHints

open Text

/-! ### Further lines -/

/-- The last of the lines that were read was read in the state after the others. -/
theorem Reached.of_concat {lines : List Line} {line : Line} {entries : List Entry} {p : Progress}
    (h : Reached (lines ++ [line]) entries p) :
    ∃ earlier q outline, Reached lines earlier q ∧ (q.outline.place line).verdict = .ok outline ∧
      entries = earlier ++ lineEntries (q.placed line).hints.find? line ∧
      p = q.after line outline := by
  generalize hall : lines ++ [line] = all at h
  rcases h with _ | ⟨h, hv⟩
  · simp at hall
  · obtain ⟨rfl, hline⟩ := List.append_inj' hall rfl
    obtain rfl := List.singleton_inj.1 hline
    exact ⟨_, _, _, h, hv, rfl, rfl⟩

/-- A walk over two parts of a script passes between them, and reports on either part. -/
theorem Reached.split_append {xs ys : List Line} {entries : List Entry} {p : Progress}
    (h : Reached (xs ++ ys) entries p) :
    ∃ earlier later q, Reached xs earlier q ∧ entries = earlier ++ later ∧
      ∀ e ∈ later, ∃ l ∈ ys, l.number = e.line := by
  induction ys using List.reverseRecOn generalizing entries p with
  | nil =>
    rw [List.append_nil] at h
    exact ⟨entries, [], p, h, (List.append_nil _).symm, nofun⟩
  | append_singleton ys y ih =>
    rw [← List.append_assoc] at h
    obtain ⟨others, q', outline, h', -, rfl, -⟩ := h.of_concat
    obtain ⟨earlier, later, q, hq, rfl, hlater⟩ := ih h'
    refine ⟨earlier, _, q, hq, List.append_assoc .., ?_⟩
    intro e he
    rcases List.mem_append.1 he with he | he
    · obtain ⟨l, hl, hnumber⟩ := hlater e he
      exact ⟨l, List.mem_append_left _ hl, hnumber⟩
    · exact ⟨y, by simp, (cases_of_mem_lineEntries he).1.symm⟩

/-- The lines of a script have numbers up to one more than it has line feeds. -/
theorem Tiling.number_le {text : List Char} {tokens : List Token} (h : Tiling 0 text tokens)
    {l : Line} (hl : l ∈ Token.toLines tokens) : l.number ≤ 1 + text.count '\n' := by
  obtain ⟨before, after, rfl, -, hnumber⟩ := h.place_in_line hl (t := l.first) List.mem_cons_self
  rw [hnumber, List.append_assoc, List.count_append]
  omega

/-- What stays of a run over a script if further lines follow. -/
structure EarlierLinesStay (a : Analyzer) (name source more : String) : Prop where
  /-- If the longer script is analyzed so is the shorter, and its entries come first: they are those
  on its lines. -/
  entries : ∀ longer, (a.run name (source ++ "\n" ++ more)).1 = .ok longer →
    ∃ shorter, (a.run name source).1 = .ok shorter ∧ shorter.entries <+: longer.entries ∧
      shorter.entries = longer.entries.filter (·.line ≤ 1 + source.toList.count '\n')
  /-- A script that cannot be read cannot be read, at the same place. -/
  lexical : ∀ e, (a.run name source).1 = .error (.lexical e) →
    (a.run name (source ++ "\n" ++ more)).1 = .error (.lexical e)
  /-- A script that is refused is refused at the same place, with the same warnings and the same
  scopes left, if what follows can be read. -/
  layout : ∀ e tokens, (a.run name source).1 = .error (.layout e) → tokenize more = .ok tokens →
    a.run name (source ++ "\n" ++ more) = a.run name source

/-- Later lines never change what is found on earlier ones. -/
theorem run_ignores_later_lines (a : Analyzer) (name source more : String) :
    EarlierLinesStay a name source more where
  entries longer h := by
    obtain ⟨tokens, p, htokens, hreached⟩ := reached_of_run h
    obtain ⟨⟨ta, ha⟩, tb, hb⟩ := tokenize_of_append_newline htokens
    obtain ⟨tokens', htokens', hlines⟩ := toLines_append_newline ha hb
    obtain rfl := Except.ok.inj (htokens.symm.trans htokens')
    rw [hlines] at hreached
    obtain ⟨earlier, later, q, hq, hentries, hlater⟩ := hreached.split_append
    refine ⟨⟨name, earlier⟩, by rw [run_eq_of_reached a name ha hq], ?_, ?_⟩
    · rw [hentries]
      exact List.prefix_append _ _
    · have hkeep : ∀ e ∈ earlier, decide (e.line ≤ 1 + source.toList.count '\n') = true := by
        intro e he
        obtain ⟨l, hl, hnumber⟩ := hq.line_mem e he
        rw [← hnumber]
        exact decide_eq_true ((tiling_of_tokenize ha).number_le hl)
      have hdrop : ∀ e ∈ later, ¬decide (e.line ≤ 1 + source.toList.count '\n') = true := by
        intro e he
        obtain ⟨l', hl', hnumber⟩ := hlater e he
        obtain ⟨l, hl, rfl⟩ := List.mem_map.1 hl'
        have hpos : 1 ≤ l.number := le_number_of_mem_linesFrom hl
        have hshift : (l.shift (source.utf8ByteSize + 1) (1 + source.toList.count '\n')).number =
            1 + source.toList.count '\n' + l.number := rfl
        rw [decide_eq_true_iff]
        omega
      rw [hentries, List.filter_append, List.filter_eq_self.2 hkeep, List.filter_eq_nil_iff.2 hdrop,
        List.append_nil]
  lexical e h := by
    have hended := ended_run a name source
    rw [h] at hended
    generalize (a.run name source).2 = left at hended
    rcases hended with ⟨htokens⟩ | _ | _
    rw [run_eq_of_tokenize_error a name (tokenize_append_newline_error htokens more)]
  layout e tb h hb := by
    have hended := ended_run a name source
    rw [h] at hended
    generalize (a.run name source).2 = left at hended
    rcases hended with _ | _ | ⟨ha, hlines, hreached, hverdict⟩
    -- the line that is refused is followed by more lines, which are never read
    obtain ⟨tokens, htokens, hlonger⟩ := toLines_append_newline ha hb
    rw [hlines, List.append_assoc, List.cons_append] at hlonger
    rw [run_eq_of_refused a name htokens hlonger hreached hverdict,
      run_eq_of_refused a name ha hlines hreached hverdict]

/-! ### Closing what is open -/

/-- The state once everything that is open is closed. -/
def Progress.closed (p : Progress) : Progress where
  outline := {}
  hints := p.hints.leave p.outline.sections.length
  warnings := p.warnings ++ warningsFor p.outline.pending

/-- A line without indentation is behind every section. -/
theorem takeWhile_zero {sections : List Section} (h : ∀ s ∈ sections, 0 < s.width) :
    sections.takeWhile (0 < ·.width) = sections := by
  rw [List.takeWhile_eq_self_iff]
  intro s hs
  exact decide_eq_true (h s hs)

/-- A line that is not indented closes what is open, and nothing else. -/
theorem place_unindented {o : Outline} {line : Line} (hpositive : ∀ s ∈ o.sections, 0 < s.width)
    (hcolumns : line.columns = 0) :
    o.place line =
      { emptied := o.pending
        closed := o.sections.length
        verdict := .ok ⟨[], line.pendingHeader⟩ } := by
  have hindent : line.indent = [] := List.length_eq_zero_iff.1 hcolumns
  have hmix : ¬line.Mixes := by
    rw [Line.Mixes, hindent]
    simp
  unfold Outline.place
  rw [Line.width_of_not_mixes hmix, hcolumns]
  simp only [Nat.not_lt_zero, if_false, dropWhile_zero hpositive,
    takeWhile_zero hpositive]
  rfl

section

variable {lines : List Line} {entries : List Entry} {p : Progress} {line : Line}

/-- A line that is not indented is read as if everything before it were closed. -/
theorem Reached.step_unindented (h : Reached lines entries p) (hcolumns : line.columns = 0)
    {o : Outline} (hv : (p.closed.outline.place line).verdict = .ok o) :
    Reached (lines ++ [line]) (entries ++ lineEntries (p.closed.placed line).hints.find? line)
      (p.closed.after line o) := by
  have hplace := place_unindented h.tracks.positive hcolumns
  have hplace' : p.closed.outline.place line = _ := place_unindented nofun hcolumns
  have hplaced : p.placed line = { p.closed.placed line with outline := p.outline } := by
    unfold Progress.placed
    rw [hplace, hplace']
    simp only [Progress.closed, Placement.hintsOn, warningsFor]
    simp
  have ho : (p.outline.place line).verdict = .ok o := by
    rw [hplace, ← hv, hplace']
  have hstep := h.step ho
  have hafter : p.after line o = p.closed.after line o := by
    rw [Progress.after, hplaced]
    rfl
  rw [hafter, hplaced] at hstep
  exact hstep

/-! ### What is remembered at top level -/

/-- The entry is on a line of the script that is not indented. -/
def Entry.Unindented (e : Entry) (source : String) : Prop :=
  ∃ tokens, tokenize source = .ok tokens ∧
    ∃ l ∈ Token.toLines tokens, l.number = e.line ∧ l.columns = 0

instance (e : Entry) (source : String) : Decidable (e.Unindented source) :=
  match h : tokenize source with
  | .error _ => .isFalse fun ⟨_, htokens, _⟩ => by
      rw [h] at htokens
      cases htokens
  | .ok tokens =>
    decidable_of_iff (∃ l ∈ Token.toLines tokens, l.number = e.line ∧ l.columns = 0)
      ⟨fun hl => ⟨tokens, h, hl⟩, fun ⟨_, htokens, hl⟩ => by
        obtain rfl := Except.ok.inj (h.symm.trans htokens)
        exact hl⟩

/-- A table with nothing but a root in which nothing is found is a new one. -/
theorem HintTable.eq_empty_of_find? {τ : Type} {t : HintTable τ} (hdepth : t.depth = 1)
    (hfind : ∀ name, t.find? name = none) : t = {} := by
  rcases t with ⟨current, _ | ⟨scope, enclosing⟩⟩
  · rcases current with _ | ⟨⟨name, type⟩, current⟩
    · rfl
    · have hsome := find?_insert ⟨current, []⟩ name name type
      rw [if_pos rfl] at hsome
      exact absurd ((hfind name).symm.trans hsome) nofun
  · simp [depth] at hdepth

section

variable {source : String} {tokens : List Token} (htokens : tokenize source = .ok tokens)

include htokens

/-- An entry is open to a line at top level exactly where it is on such a line itself. -/
theorem openAt_zero_iff {e : Entry} :
    e.OpenAt (Token.toLines tokens) 0 ↔ e.Unindented source := by
  constructor
  · rintro ⟨i, -, hon, hcolumns, -⟩
    obtain ⟨l, hl, hnumber⟩ := Option.map_eq_some_iff.1 hon
    obtain ⟨done, rest, hlines, -⟩ := lines_eq_of_lineAt hl
    rw [columnsAt, hl] at hcolumns
    exact ⟨tokens, htokens, l, by simp [hlines], hnumber, Nat.le_zero.1 hcolumns⟩
  · rintro ⟨tokens', htokens', l, hl, hnumber, hcolumns⟩
    obtain rfl := Except.ok.inj (htokens.symm.trans htokens')
    obtain ⟨done, rest, hlines⟩ := List.append_of_mem hl
    have hat : lineAt (Token.toLines tokens) (done.length + 1) = some l := by
      rw [hlines, lineAt_append_cons]
    have hzero : columnsAt (Token.toLines tokens) (done.length + 1) = 0 := by
      rw [columnsAt, hat]
      exact hcolumns
    refine ⟨done.length + 1, by simp [hlines], ?_, Nat.le_of_eq hzero, ?_⟩
    · rw [Entry.On, hat, ← hnumber]
      rfl
    · intro m _ _
      rw [hzero]
      exact Nat.zero_le _

/-- Once everything is closed, what is found for a name is the hint of the last assignment to it at
top level. -/
theorem Reached.find?_closed (h : Reached (Token.toLines tokens) entries p) (name : String) :
    p.closed.hints.find? name = lastHint entries name (·.Unindented source) := by
  have hfind := h.find?_leave (number_pairwise 1 tokens) 0 name
  rw [takeWhile_zero h.tracks.positive] at hfind
  rw [Progress.closed, hfind]
  apply lastHint_congr
  intro e _
  exact openAt_zero_iff htokens

/-- Nothing is remembered at the end of a script if no assignment at top level has a hint. -/
theorem Reached.hints_closed (h : Reached (Token.toLines tokens) entries p)
    (hroot : ∀ e ∈ entries, e.role = .assignment → e.Unindented source → e.hint = none) :
    p.closed.hints = {} := by
  have hdepth := h.aligned.depth_eq
  apply HintTable.eq_empty_of_find?
  · rw [Progress.closed, HintTable.depth_leave (by omega)]
    omega
  · intro name
    rw [h.find?_closed htokens, lastHint, Option.bind_eq_none_iff]
    intro e he
    obtain ⟨hmem, hseen⟩ := List.mem_filter.1 (List.mem_of_getLast? he)
    obtain ⟨hrole, -, htop⟩ := of_decide_eq_true hseen
    exact hroot e hmem hrole htop

end

end

/-! ### One script behind another -/

/-- How far everything is moved that stands on lines behind a script. -/
def Displacement.behind (source : String) : Displacement :=
  .uniform (source.utf8ByteSize + 1) (1 + source.toList.count '\n')

/-- Before the first line a walk has reported nothing and is where it started. -/
theorem Reached.of_nil {entries : List Entry} {p : Progress} (h : Reached [] entries p) :
    entries = [] ∧ p = {} := by
  generalize hnil : ([] : List Line) = lines at h
  rcases h with _ | ⟨h, hv⟩
  · exact ⟨rfl, rfl⟩
  · simp at hnil

/-- The first line of a script that is accepted is not indented. -/
theorem columns_of_first {line : Line} {o : Outline}
    (hv : (({} : Outline).place line).verdict = .ok o) : line.columns = 0 := by
  have haccepted := accepted_of_ok hv
  generalize ({} : Outline).place line = placement at haccepted
  rcases haccepted with ⟨-, -, hpending, -⟩ | ⟨-, hwidth, -, -⟩
  · cases hpending
  · exact Nat.le_zero.1 hwidth

section

variable {first second : List Line} {entries later : List Entry} {p q : Progress}
  {D : Displacement}

/-- Where nothing is remembered a walk goes on over moved lines as it would begin with them. -/
theorem Reached.append_displaced (h : Reached first entries p) (hclosed : p.closed.hints = {})
    (h' : Reached second later q) (hk : ∀ l ∈ second, D.Keeps l) (hne : second ≠ []) :
    Reached (first ++ second.map D.line) (entries ++ later.map D.entry)
      (D.progress p.closed.warnings q) := by
  induction h' with
  | start => exact absurd rfl hne
  | @step lines others q line o h' hv ih =>
    have hline : D.Keeps line := hk line (by simp)
    rw [List.map_append, List.map_append, ← List.append_assoc, ← List.append_assoc]
    by_cases hempty : lines = []
    · -- the first line closes what is open, which leaves the state a walk begins with
      subst hempty
      obtain ⟨rfl, rfl⟩ := h'.of_nil
      have hstart : p.closed = D.progress p.closed.warnings {} := by
        rw [Displacement.progress, List.map_nil, List.append_nil, ← hclosed]
        rfl
      have hv' : (p.closed.outline.place (D.line line)).verdict = .ok (D.outline o) := by
        rw [hstart, hline.verdict_line, hv]
        rfl
      have hcolumns : line.columns = 0 := columns_of_first hv
      have hmoved : (D.line line).columns = 0 := hcolumns
      have hstep := h.step_unindented hmoved hv'
      rw [hstart, hline.after_line, hline.placed_line, hline.lineEntries_line] at hstep
      rw [List.map_nil, List.append_nil, List.map_nil, List.append_nil]
      exact hstep
    · apply Reached.step_displaced _ hline hv
      exact ih (fun l hl => hk l (List.mem_append_left _ hl)) hempty

end

/-- Sections at top level do not influence each other: if no assignment at the top level of a script
has a hint, a script behind it is analyzed as if it stood alone. -/
theorem run_append_sections {a : Analyzer} {name source more : String} {report report' : Report}
    (h : (a.run name source).1 = .ok report) (h' : (a.run name more).1 = .ok report')
    (hroot : ∀ e ∈ report.entries, e.role = .assignment → e.Unindented source → e.hint = none) :
    (a.run name (source ++ "\n" ++ more)).1 =
        .ok ⟨name, report.entries ++ report'.entries.map (Displacement.behind source).entry⟩ ∧
      (a.run name (source ++ "\n" ++ more)).2.warnings =
        (a.run name source).2.warnings ++
          (a.run name more).2.warnings.map (Displacement.behind source).diagnostic := by
  obtain ⟨ta, p, ha, hp⟩ := reached_of_run h
  obtain ⟨tb, q, hb, hq⟩ := reached_of_run h'
  obtain ⟨tokens, htokens, hlines⟩ := toLines_append_newline ha hb
  have hmoved : (Token.toLines tb).map
      (Line.shift (source.utf8ByteSize + 1) (1 + source.toList.count '\n')) =
      (Token.toLines tb).map (Displacement.behind source).line := rfl
  rw [hmoved] at hlines
  rw [run_eq_of_reached a name ha hp, run_eq_of_reached a name hb hq]
  by_cases hempty : Token.toLines tb = []
  · -- nothing is added, and what is open is closed at the end as before
    rw [hempty] at hq hlines
    obtain ⟨hentries, rfl⟩ := hq.of_nil
    rw [List.map_nil, List.append_nil] at hlines
    rw [← hlines] at hp
    rw [run_eq_of_reached a name htokens hp, hentries]
    simp [warningsFor]
  · have hk : ∀ l ∈ Token.toLines tb, (Displacement.behind source).Keeps l :=
      fun l _ => Displacement.keeps_uniform _ _ l
    have hreached := hp.append_displaced (hp.hints_closed ha hroot) hq hk hempty
    rw [← hlines] at hreached
    have hpending : ((Displacement.behind source).progress p.closed.warnings q).outline.pending =
        q.outline.pending.map (Displacement.behind source).span := rfl
    rw [run_eq_of_reached a name htokens hreached, hpending, Displacement.warningsFor_span]
    refine ⟨rfl, ?_⟩
    rw [List.map_append, ← List.append_assoc]
    rfl

/-- A script that remembers a number in its first section and ends with a header. -/
def openScript : String := "a:\n set \x7b_x\x7d to 1\nb:"

/-- A script that asks for the number. -/
def askingScript : String := "c:\n d \x7b_x\x7d\ne:"

/-- The number is not found, and the header is warned about before the second script is read. -/
theorem run_append_sections_header :
    (({} : Analyzer).run "both" openScript).1 =
        .ok ⟨"both", [⟨"_x", .assignment, some .number, 2, ⟨8, 12⟩⟩]⟩ ∧
      (({} : Analyzer).run "both" askingScript).1 =
        .ok ⟨"both", [⟨"_x", .reference, none, 2, ⟨6, 10⟩⟩]⟩ ∧
      (({} : Analyzer).run "both" (openScript ++ "\n" ++ askingScript)).1 =
        .ok ⟨"both", [⟨"_x", .assignment, some .number, 2, ⟨8, 12⟩⟩,
          ⟨"_x", .reference, none, 5, ⟨27, 31⟩⟩]⟩ ∧
      (({} : Analyzer).run "both" (openScript ++ "\n" ++ askingScript)).2.warnings =
        [emptyWarning ⟨18, 20⟩, emptyWarning ⟨32, 34⟩] := by
  have h : (({} : Analyzer).run "both" openScript).1 =
      .ok ⟨"both", [⟨"_x", .assignment, some .number, 2, ⟨8, 12⟩⟩]⟩ := by cbv
  have h' : (({} : Analyzer).run "both" askingScript).1 =
      .ok ⟨"both", [⟨"_x", .reference, none, 2, ⟨6, 10⟩⟩]⟩ := by cbv
  have hwarnings : (({} : Analyzer).run "both" openScript).2.warnings =
      [emptyWarning ⟨18, 20⟩] := by cbv
  have hwarnings' : (({} : Analyzer).run "both" askingScript).2.warnings =
      [emptyWarning ⟨11, 13⟩] := by cbv
  have hcolumns : (tokenize openScript).map
      (fun tokens => (Token.toLines tokens).map fun l => (l.number, l.columns)) =
        .ok [(1, 0), (2, 1), (3, 0)] := by cbv
  have hboth := run_append_sections h h' ?_
  · rw [hwarnings, hwarnings'] at hboth
    exact ⟨h, h', hboth⟩
  · -- the one entry is on the second line, which is indented
    rintro e he - ⟨tokens, htokens, l, hl, hnumber, hzero⟩
    obtain rfl := List.mem_singleton.1 he
    rw [htokens] at hcolumns
    have hmem : (l.number, l.columns) ∈ [(1, 0), (2, 1), (3, 0)] := by
      rw [← Except.ok.inj hcolumns]
      exact List.mem_map_of_mem hl
    rw [hnumber, hzero] at hmem
    exact absurd hmem (by decide)

end ScriptHints
