import Mathlib
import ScriptHints.Proofs.Analysis.Padding
import ScriptHints.Proofs.Line.Reindentation

/-!
# The unit of indentation does not matter

A script is indented with one blank throughout. How many of them make a step, and whether they are
spaces or tabs, is a matter of taste: whoever widens the steps, so that deeper lines stay deeper,
and perhaps takes another blank, has a script with the same outcome. Widths are only ever compared,
with each other and with zero, and all of these comparisons come out as before.

* `Uniform`, `settle_of_uniform` — sections that are all indented with one blank. A line indented
  with it can only be refused there for its width.
* `Outline.Reindented`, `Outline.Reindented.place` — the outline of a script and of the script that
  is indented otherwise; both take their lines in the same way.
* `Reached.reindented` — the walk over the one goes along with the walk over the other.
* `numbers_headersBelow` — both warn about the same lines.
* `SameOutcome` — the same answer, warnings for the same lines, and the same number of open scopes.
* `run_ignores_indentation_unit` — the outcome for a script that is indented otherwise.
-/

namespace ScriptHints

open Text

/-! ### Sections of one blank -/

/-- The sections are indented, and all of them with the blank `b`. -/
def Uniform (b : Char) (sections : List Section) : Prop :=
  ∀ s ∈ sections, 0 < s.width ∧ s.style = some b

section

variable {b : Char} {l : Line}

/-- A line indented with one blank only does not mix tabs and spaces. -/
theorem Line.not_mixes_of_indent (h : l.indent = List.replicate l.columns b) : ¬l.Mixes := by
  rintro ⟨hspace, htab⟩
  rw [h] at hspace htab
  have hdiff := (List.eq_of_mem_replicate hspace).trans (List.eq_of_mem_replicate htab).symm
  revert hdiff
  decide

/-- The style of a line indented with one blank is that blank. -/
theorem Line.style_of_indent (h : l.indent = List.replicate l.columns b) (hpos : 0 < l.columns) :
    l.style = some b := by
  obtain ⟨n, hn⟩ := Nat.exists_eq_succ_of_ne_zero (Nat.pos_iff_ne_zero.1 hpos)
  rw [Line.style, h, hn, List.replicate_succ, List.head?_cons]

/-- Where all sections have the blank that a line is indented with, the line is accepted as soon as
its width fits. -/
theorem settle_of_uniform {sections : List Section} (hsections : Uniform b sections)
    (h : l.indent = List.replicate l.columns b) :
    Outline.settle sections l.columns l =
      if l.columns = widthOf sections then .ok ⟨sections, l.pendingHeader⟩
      else .error ⟨.misaligned, l.indentSpan⟩ := by
  unfold Outline.settle
  by_cases hwidth : l.columns = widthOf sections
  · have hstyle : ¬sections.any (·.style != l.style) = true := by
      simp only [List.any_eq_true, bne_iff_ne, not_exists, not_and, not_not]
      intro s hs
      -- there is a section, so the line is indented
      have hpos : 0 < l.columns := by
        rw [hwidth, widthOf_pos_iff fun s hs => (hsections s hs).1]
        exact List.ne_nil_of_mem hs
      rw [(hsections s hs).2, Line.style_of_indent h hpos]
    rw [if_neg (not_not_intro hwidth), if_pos hwidth, if_neg hstyle]
    rfl
  · rw [if_pos hwidth, if_neg hwidth]

end

/-! ### Sections that are indented otherwise -/

/-- The section with its lines indented otherwise. -/
def Section.reindent (f : Nat → Nat) (c : Char) (s : Section) : Section := ⟨f s.width, some c⟩

/-- The outline of a script, and of the script that is indented otherwise. -/
structure Outline.Reindented (f : Nat → Nat) (b c : Char) (o o' : Outline) : Prop where
  uniform : Uniform b o.sections
  sections_eq : o'.sections = o.sections.map (Section.reindent f c)
  pending_eq : o'.pending.isSome = o.pending.isSome

/-- Both lines are accepted, which leaves related outlines, or both are refused for the same cause.
Their indentation is what is pointed at. -/
inductive SameVerdict (R : Outline → Outline → Prop) (l l' : Line) :
    Except LayoutError Outline → Except LayoutError Outline → Prop
  | accepted {o o' : Outline} (h : R o o') : SameVerdict R l l' (.ok o) (.ok o')
  | refused (cause : LayoutCause) :
    SameVerdict R l l' (.error ⟨cause, l.indentSpan⟩) (.error ⟨cause, l'.indentSpan⟩)

section

variable {f : Nat → Nat} {b c : Char} (hf : StrictMono f) (h0 : f 0 = 0)

/-- The width of a line is changed by `f`. -/
theorem Line.Reindented.columns_eq {l l' : Line} (hl : l.Reindented f b c l') :
    l'.columns = f l.columns := by
  rw [Line.columns, hl.indent', List.length_replicate]

/-- A line that is indented anew is indented with the new blank only. -/
theorem Line.Reindented.indent_replicate {l l' : Line} (hl : l.Reindented f b c l') :
    l'.indent = List.replicate l'.columns c := by
  rw [hl.columns_eq]
  exact hl.indent'

/-- A header stays a header. -/
theorem Line.Reindented.isSome_pendingHeader {l l' : Line} (hl : l.Reindented f b c l') :
    l'.pendingHeader.isSome = l.pendingHeader.isSome := by
  rw [ScriptHints.isSome_pendingHeader, ScriptHints.isSome_pendingHeader, hl.words.isHeader_eq]

include h0

/-- The width of the innermost section is changed by `f` as well. -/
theorem widthOf_map_reindent (sections : List Section) :
    widthOf (sections.map (Section.reindent f c)) = f (widthOf sections) := by
  rcases sections with _ | ⟨s, sections⟩
  · exact h0.symm
  · rfl

include hf

/-- Sections that are indented anew all have the new blank. -/
theorem Uniform.map_reindent {sections : List Section} (h : Uniform b sections) :
    Uniform c (sections.map (Section.reindent f c)) := by
  intro s' hs'
  obtain ⟨s, hs, rfl⟩ := List.mem_map.1 hs'
  have hpos : f 0 < f s.width := hf (h s hs).1
  rw [h0] at hpos
  exact ⟨hpos, rfl⟩

/-- A line is settled among sections that are indented otherwise where it is settled among the
sections themselves. -/
theorem settle_reindent {sections : List Section} {l l' : Line} (hsections : Uniform b sections)
    (hl : l.Reindented f b c l') :
    SameVerdict (Outline.Reindented f b c) l l' (Outline.settle sections l.columns l)
      (Outline.settle (sections.map (Section.reindent f c)) (f l.columns) l') := by
  have hsettle' := settle_of_uniform (hsections.map_reindent hf h0 (c := c)) hl.indent_replicate
  rw [hl.columns_eq, widthOf_map_reindent h0] at hsettle'
  rw [hsettle', settle_of_uniform hsections hl.indent]
  by_cases hwidth : l.columns = widthOf sections
  · rw [if_pos hwidth, if_pos (congrArg f hwidth)]
    exact .accepted ⟨hsections, rfl, hl.isSome_pendingHeader⟩
  · rw [if_neg hwidth, if_neg (hf.injective.ne hwidth)]
    exact .refused .misaligned

/-- Both outlines take their lines in the same way: as many sections are opened and closed, and the
verdict is the same. -/
theorem Outline.Reindented.place {o o' : Outline} {l l' : Line} (h : o.Reindented f b c o')
    (hl : l.Reindented f b c l') :
    (o'.place l').opened = (o.place l).opened ∧ (o'.place l').closed = (o.place l).closed ∧
      SameVerdict (Outline.Reindented f b c) l l' (o.place l).verdict (o'.place l').verdict := by
  have hdeeper : ∀ n m, f n < f m ↔ n < m := fun n m => hf.lt_iff_lt
  unfold Outline.place
  rw [Line.width_of_not_mixes (Line.not_mixes_of_indent hl.indent),
    Line.width_of_not_mixes (Line.not_mixes_of_indent hl.indent_replicate)]
  simp only [h.sections_eq, widthOf_map_reindent h0, hl.columns_eq, hdeeper]
  by_cases hdeep : widthOf o.sections < l.columns
  · simp only [if_pos hdeep]
    have hpending := h.pending_eq
    rcases ho : o.pending with _ | header <;> rcases ho' : o'.pending with _ | header' <;>
      rw [ho, ho'] at hpending
    · exact ⟨rfl, rfl, .refused .tooDeep⟩
    · cases hpending
    · cases hpending
    · -- the section that the line opens is indented like the line, and so like all others
      have hpos : 0 < l.columns := Nat.zero_lt_of_lt hdeep
      have hstyle := Line.style_of_indent hl.indent hpos
      have hpos' : f 0 < f l.columns := hf hpos
      rw [h0, ← hl.columns_eq] at hpos'
      have hstyle' := Line.style_of_indent hl.indent_replicate hpos'
      have hsections : Uniform b (⟨l.columns, l.style⟩ :: o.sections) :=
        List.forall_mem_cons.2 ⟨⟨hpos, hstyle⟩, h.uniform⟩
      have hsettle := settle_reindent hf h0 hsections hl
      rw [List.map_cons] at hsettle
      refine ⟨rfl, rfl, ?_⟩
      rw [hstyle']
      exact hsettle
  · simp only [if_neg hdeep]
    have hwider : (fun s : Section => decide (f l.columns < s.width)) ∘ Section.reindent f c =
        fun s => decide (l.columns < s.width) := by
      funext s
      exact decide_eq_decide.2 (hdeeper l.columns s.width)
    have hsections : Uniform b (o.sections.dropWhile (l.columns < ·.width)) := fun s hs =>
      h.uniform s ((List.dropWhile_sublist _).mem hs)
    refine ⟨trivial, ?_, ?_⟩
    · rw [List.takeWhile_map, List.length_map, hwider]
    · rw [List.dropWhile_map, hwider]
      exact settle_reindent hf h0 hsections hl

end

/-! ### The walk -/

/-- The state of a walk over a script, and over the script that is indented otherwise. -/
structure Progress.Reindented (f : Nat → Nat) (b c : Char) (p p' : Progress) : Prop where
  outline : p.outline.Reindented f b c p'.outline
  hints_eq : p'.hints = p.hints

/-- Lists related to two lists in a row fall into two parts as well. -/
theorem forall₂_append_left {α β : Type} {R : α → β → Prop} {xs ys : List α} {zs : List β}
    (h : List.Forall₂ R (xs ++ ys) zs) :
    ∃ us vs, zs = us ++ vs ∧ List.Forall₂ R xs us ∧ List.Forall₂ R ys vs := by
  refine ⟨zs.take xs.length, zs.drop xs.length, (List.take_append_drop _ _).symm, ?_, ?_⟩
  · exact (List.forall₂_take_append _ _ _ h.flip).flip
  · exact (List.forall₂_drop_append _ _ _ h.flip).flip

section

variable {f : Nat → Nat} {b c : Char} (hf : StrictMono f) (h0 : f 0 = 0)

include hf h0

/-- The scopes follow a line in the same way however it is indented. -/
theorem Progress.Reindented.hints_placed {p p' : Progress} {l l' : Line}
    (h : p.Reindented f b c p') (hl : l.Reindented f b c l') :
    (p'.placed l').hints = (p.placed l).hints := by
  obtain ⟨hopened, hclosed, -⟩ := h.outline.place hf h0 hl
  simp only [Progress.placed, Placement.hintsOn, hopened, hclosed, h.hints_eq]

/-- The walk over the lines of a script goes along with the walk over those of the script that is
indented otherwise. -/
theorem Reached.reindented {lines lines' : List Line} {entries : List Entry} {p : Progress}
    (h : Reached lines entries p) (hlines : List.Forall₂ (Line.Reindented f b c) lines lines') :
    ∃ entries' p', Reached lines' entries' p' ∧ p.Reindented f b c p' ∧
      entries'.map Entry.told = entries.map Entry.told := by
  induction h generalizing lines' with
  | start =>
    obtain rfl := List.forall₂_nil_left_iff.1 hlines
    exact ⟨[], {}, .start, ⟨⟨nofun, rfl, rfl⟩, rfl⟩, rfl⟩
  | @step lines entries p line outline h hv ih =>
    obtain ⟨done', last', rfl, hdone, hlast⟩ := forall₂_append_left hlines
    obtain ⟨line', rest', hline, hnil, rfl⟩ := List.forall₂_cons_left_iff.1 hlast
    obtain rfl := List.forall₂_nil_left_iff.1 hnil
    obtain ⟨entries', p', hreached, hrelated, htold⟩ := ih hdone
    obtain ⟨-, -, hverdict⟩ := hrelated.outline.place hf h0 hline
    have hhints := hrelated.hints_placed hf h0 hline
    rw [hv] at hverdict
    generalize hv' : (p'.outline.place line').verdict = verdict' at hverdict
    obtain ⟨houtline⟩ := hverdict
    refine ⟨_, _, hreached.step hv', ⟨houtline, ?_⟩, ?_⟩
    · show (p'.placed line').hints.afterLine line' = (p.placed line).hints.afterLine line
      rw [hhints, hline.words.afterLine_eq]
    · rw [List.map_append, List.map_append, htold, hhints, hline.words.told_lineEntries]

end

/-! ### Warnings -/

section

variable {f : Nat → Nat} {b c : Char} {lines lines' : List Line}

/-- At every place there is a line in both scripts, or in none. -/
theorem lineAt_of_forall₂ {R : Line → Line → Prop} (h : List.Forall₂ R lines lines') (i : Nat) :
    lineAt lines i = none ∧ lineAt lines' i = none ∨
      ∃ l l', lineAt lines i = some l ∧ lineAt lines' i = some l' ∧ R l l' := by
  rcases i with _ | i
  · exact .inl ⟨rfl, rfl⟩
  · unfold lineAt
    rcases Nat.lt_or_ge i lines.length with hlt | hge
    · have hlt' : i < lines'.length := h.length_eq ▸ hlt
      exact .inr ⟨_, _, List.getElem?_eq_getElem hlt, List.getElem?_eq_getElem hlt',
        h.get hlt hlt'⟩
    · exact .inl ⟨List.getElem?_eq_none hge, List.getElem?_eq_none (h.length_eq ▸ hge)⟩

/-- The width at a place is changed by `f`, also before the first line. -/
theorem columnsAt_reindented (h0 : f 0 = 0)
    (h : List.Forall₂ (Line.Reindented f b c) lines lines') (i : Nat) :
    columnsAt lines' i = f (columnsAt lines i) := by
  unfold columnsAt
  rcases lineAt_of_forall₂ h i with ⟨hnone, hnone'⟩ | ⟨l, l', hl, hl', hline⟩
  · rw [hnone, hnone']
    exact h0.symm
  · rw [hl, hl']
    exact hline.columns_eq

/-- Headers that pass the same test stand on the same lines. -/
theorem numbers_headersBelow (h : List.Forall₂ (Line.Reindented f b c) lines lines') {bound : Nat}
    {test test' : Nat → Prop} [DecidablePred test] [DecidablePred test']
    (htest : ∀ i, test' i ↔ test i) :
    (headersBelow lines' bound test').map Line.number =
      (headersBelow lines bound test).map Line.number := by
  unfold headersBelow
  rw [List.map_filterMap, List.map_filterMap]
  apply List.filterMap_congr
  intro i _
  have hsame : decide (test' i) = decide (test i) := decide_eq_decide.2 (htest i)
  rcases lineAt_of_forall₂ h i with ⟨hnone, hnone'⟩ | ⟨l, l', hl, hl', hline⟩
  · rw [hnone, hnone']
    rfl
  · rw [hl, hl', Option.filter_some, Option.filter_some, hline.words.isHeader_eq, hsame]
    split
    · exact congrArg some hline.words.number
    · rfl

/-- Warnings about headers of a script are about the lines these stand on. -/
theorem map_linesIn {source : String} {tokens : List Token} (h : tokenize source = .ok tokens)
    {headers : List Line} (hheaders : ∀ l ∈ headers, l ∈ Token.toLines tokens) :
    (headers.map fun l => emptyWarning l.span).map (·.linesIn source) =
      (headers.map Line.number).map fun n => [some n] := by
  rw [List.map_map, List.map_map]
  apply List.map_congr_left
  intro l hl
  exact linesIn_emptyWarning h (hheaders l hl)

end

/-! ### Whole runs -/

/-- Both runs report the same, but for the bytes, or both fail for the same cause on the same
line. -/
inductive SameAnswer (source source' : String) :
    Except Failure Report → Except Failure Report → Prop
  | reported {name : String} {entries entries' : List Entry}
      (htold : entries'.map Entry.told = entries.map Entry.told) :
      SameAnswer source source' (.ok ⟨name, entries⟩) (.ok ⟨name, entries'⟩)
  | lexical {e e' : LexicalError} {n : Nat} (hcause : e'.cause = e.cause)
      (hline : lineOfOffset source e.span.start = some n)
      (hline' : lineOfOffset source' e'.span.start = some n) :
      SameAnswer source source' (.error (.lexical e)) (.error (.lexical e'))
  | layout {e e' : LayoutError} {n : Nat} (hcause : e'.cause = e.cause)
      (hline : lineOfOffset source e.span.start = some n)
      (hline' : lineOfOffset source' e'.span.start = some n) :
      SameAnswer source source' (.error (.layout e)) (.error (.layout e'))

/-- Both scripts have the same outcome. -/
structure SameOutcome (a : Analyzer) (name source source' : String) : Prop where
  answer : SameAnswer source source' (a.run name source).1 (a.run name source').1
  /-- The lines that are warned about are the same. -/
  warned : ∃ numbers : List Nat,
    (a.run name source).2.warnings.map (·.linesIn source) = numbers.map (fun n => [some n]) ∧
      (a.run name source').2.warnings.map (·.linesIn source') = numbers.map fun n => [some n]
  depth : (a.run name source').2.hints.depth = (a.run name source).2.hints.depth

section

variable {f : Nat → Nat} {b c : Char} {source source' : String} {tokens tokens' : List Token}
  (hf : StrictMono f) (h0 : f 0 = 0) (a : Analyzer) (name : String)

include hf h0

/-- The outcome of runs that come to the end of their scripts. -/
theorem sameOutcome_of_reached (h : tokenize source = .ok tokens)
    (h' : tokenize source' = .ok tokens')
    (hlines : List.Forall₂ (Line.Reindented f b c) (Token.toLines tokens) (Token.toLines tokens'))
    {entries : List Entry} {p : Progress} (hr : Reached (Token.toLines tokens) entries p) :
    SameOutcome a name source source' := by
  obtain ⟨entries', p', hr', hrelated, htold⟩ := hr.reindented hf h0 hlines
  have hcolumns := columnsAt_reindented h0 hlines
  have hrun := run_eq_of_reached a name h hr
  have hrun' := run_eq_of_reached a name h' hr'
  rw [hr.warnings_finish] at hrun
  rw [hr'.warnings_finish] at hrun'
  refine ⟨?_, ?_, ?_⟩
  · rw [hrun, hrun']
    exact .reported htold
  · rw [hrun, hrun', map_linesIn h fun l hl => mem_of_mem_headersBelow hl,
      map_linesIn h' fun l hl => mem_of_mem_headersBelow hl, ← hlines.length_eq]
    refine ⟨_, rfl, congrArg _ (numbers_headersBelow hlines fun i => ?_)⟩
    rw [hcolumns, hcolumns, hf.le_iff_le]
  · rw [hrun, hrun']
    simp only [hrelated.hints_eq, hrelated.outline.sections_eq, List.length_map]

/-- The outcome of runs that come to a line that is refused. -/
theorem sameOutcome_of_refused (h : tokenize source = .ok tokens)
    (h' : tokenize source' = .ok tokens')
    (hlines : List.Forall₂ (Line.Reindented f b c) (Token.toLines tokens) (Token.toLines tokens'))
    {done rest : List Line} {line : Line} {entries : List Entry} {p : Progress} {e : LayoutError}
    (hsplit : Token.toLines tokens = done ++ line :: rest) (hr : Reached done entries p)
    (he : (p.outline.place line).verdict = .error e) : SameOutcome a name source source' := by
  have hall := hlines
  rw [hsplit] at hlines
  obtain ⟨done', rest', hsplit', hdone, hrest⟩ := forall₂_append_left hlines
  obtain ⟨line', rest', hline, -, rfl⟩ := List.forall₂_cons_left_iff.1 hrest
  obtain ⟨entries', p', hr', hrelated, -⟩ := hr.reindented hf h0 hdone
  obtain ⟨-, -, hverdict⟩ := hrelated.outline.place hf h0 hline
  rw [he] at hverdict
  generalize he' : (p'.outline.place line').verdict = verdict' at hverdict
  obtain ⟨cause⟩ := hverdict
  have hrun := run_eq_of_refused a name h hsplit hr he
  have hrun' := run_eq_of_refused a name h' hsplit' hr' he'
  rw [hr.warnings_placed line rest, ← hsplit] at hrun
  rw [hr'.warnings_placed line' rest', ← hsplit'] at hrun'
  have hmem : line ∈ Token.toLines tokens := by
    rw [hsplit]
    simp
  have hmem' : line' ∈ Token.toLines tokens' := by
    rw [hsplit']
    simp
  have hplace := (tiling_of_tokenize h).lineOfOffset_indent hmem
  have hplace' := (tiling_of_tokenize h').lineOfOffset_indent hmem'
  rw [hline.words.number] at hplace'
  refine ⟨?_, ?_, ?_⟩
  · rw [hrun, hrun']
    exact .layout rfl hplace hplace'
  · rw [hrun, hrun', map_linesIn h fun l hl => mem_of_mem_headersBelow hl,
      map_linesIn h' fun l hl => mem_of_mem_headersBelow hl, ← hdone.length_eq]
    refine ⟨_, rfl, congrArg _ (numbers_headersBelow hall fun i => ?_)⟩
    have hcolumns := columnsAt_reindented h0 hall
    rw [hcolumns, hcolumns, hf.le_iff_le]
    simp only [Line.not_mixes_of_indent hline.indent,
      Line.not_mixes_of_indent hline.indent_replicate]
  · rw [hrun, hrun', hrelated.hints_placed hf h0 hline]

/-- A script whose lines are all indented with one blank has the outcome it has with other widths,
as long as they grow with the widths it has and nothing at top level is indented, and with any other
blank. -/
theorem run_ignores_indentation_unit (hc : isBlank c = true) (hsource : IndentedWith b source) :
    SameOutcome a name source (reindent f c source) := by
  rcases readsAlike_reindent (f := f) hsource hc with
    ⟨h, h', hcause, hline, hline'⟩ | ⟨h, h', hlines⟩
  · have hrun := run_eq_of_tokenize_error a name h
    have hrun' := run_eq_of_tokenize_error a name h'
    refine ⟨?_, ⟨[], ?_, ?_⟩, ?_⟩
    · rw [hrun, hrun']
      exact .lexical hcause hline hline'
    · rw [hrun]
      rfl
    · rw [hrun']
      rfl
    · rw [hrun, hrun']
  · rcases reached_or_refused (Token.toLines _) with
      ⟨entries, p, hr⟩ | ⟨done, line, rest, entries, p, e, hsplit, hr, he⟩
    · exact sameOutcome_of_reached hf h0 a name h h' hlines hr
    · exact sameOutcome_of_refused hf h0 a name h h' hlines hsplit hr he

end

/-- A script with a section inside a section, indented with tabs. -/
def tabbedScript : String := "a:\n\tset \x7b_x\x7d to 1\n\tb:\n\t\tc \x7b_x\x7d\n\td:\n"

/-- The script with three spaces for the first tab and two more for the second. -/
def spacedScript : String := "a:\n   set \x7b_x\x7d to 1\n   b:\n     c \x7b_x\x7d\n   d:\n"

/-- Both scripts find a number in the inner section, and both warn about the last line. -/
theorem run_ignores_indentation_unit_spaces :
    reindent (fun n => 2 * n + min n 1) ' ' tabbedScript = spacedScript ∧
      ({} : Analyzer).run "script" tabbedScript =
        (.ok ⟨"script", [⟨"_x", .assignment, some .number, 2, ⟨8, 12⟩⟩,
          ⟨"_x", .reference, some .number, 4, ⟨26, 30⟩⟩]⟩, ⟨{}, [emptyWarning ⟨32, 34⟩]⟩) ∧
      SameOutcome {} "script" tabbedScript spacedScript := by
  have hwider : StrictMono fun n => 2 * n + min n 1 := by
    intro m n hmn
    show 2 * m + min m 1 < 2 * n + min n 1
    omega
  have hlines : physicalLines tabbedScript =
      [['a', ':'], ['\t', 's', 'e', 't', ' ', '\x7b', '_', 'x', '\x7d', ' ', 't', 'o', ' ', '1'],
        ['\t', 'b', ':'], ['\t', '\t', 'c', ' ', '\x7b', '_', 'x', '\x7d'], ['\t', 'd', ':'],
        []] := by cbv
  have htabs : IndentedWith '\t' tabbedScript := by
    simp [IndentedWith, hlines, isBlank]
  have hspaces : reindent (fun n => 2 * n + min n 1) ' ' tabbedScript = spacedScript := by cbv
  have hsame := run_ignores_indentation_unit hwider rfl {} "script" (c := ' ') rfl htabs
  rw [hspaces] at hsame
  exact ⟨hspaces, by cbv, hsame⟩

end ScriptHints
