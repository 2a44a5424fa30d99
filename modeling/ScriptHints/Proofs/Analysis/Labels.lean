import Mathlib
import ScriptHints.Proofs.Analysis.EmptySections
import ScriptHints.Proofs.Line.Physical
import ScriptHints.Proofs.Line.Wording
import ScriptHints.Proofs.Token.Resumption

/-!
# What labels are on

A label is shown below the text it is on, so there has to be such text: some, between characters,
and on one line. Where a label comes from a token or from a line this is known of the token or the
line; where it comes from a place at which no token starts it depends on what is wrong there; and
the label of a refused line is on its indentation, which is never empty because a line that is not
indented is never refused.

* `Label.OnText` — the label is on text of the script, within a line.
* `Label.MarksIndentation`, `Label.MarksHeader`, `Label.ReachesLineEnd` — what labels of the
  different kinds cover.
* `Refusal.shown_spec` — what is shown of a place where no token starts.
* `columns_pos_of_causeAt` — only indented lines are refused.
* `Tiling.slice?_line` — the text of a line.
* `run_labels_text` — the labels of a failure and of every warning are on text of the script.
-/

namespace ScriptHints

open Text

/-! ### Labels and regions -/

/-- The region a label is on. -/
def Label.span (l : Label) : Span := ⟨l.offset, l.offset + l.length⟩

/-- The label on a region. -/
def Span.label (s : Span) (text : String) : Label := ⟨text, s.start, s.stop - s.start⟩

/-- The label is on some text of the script, none of which is a line feed. That the text can be cut
out says that both ends of the region are between characters. -/
def Label.OnText (source : String) (l : Label) : Prop :=
  ∃ region, slice? source.toList l.span = some region ∧ region ≠ [] ∧ '\n' ∉ region

/-- The label is on the blanks that a physical line begins with, up to its first token. -/
def Label.MarksIndentation (source : String) (l : Label) : Prop :=
  ∃ tokens, tokenize source = .ok tokens ∧ ∃ line ∈ placedLines source, ∃ first,
    (tokens.filter (Token.LiesIn line)).head? = some first ∧
      l.span = ⟨line.offset, line.offset + size (line.text.takeWhile isBlank)⟩ ∧
      l.span.stop = first.start

/-- The label reaches from the first token of a physical line to its last, which is a colon. -/
def Label.MarksHeader (source : String) (l : Label) : Prop :=
  ∃ tokens, tokenize source = .ok tokens ∧ ∃ line ∈ placedLines source, ∃ first last,
    (tokens.filter (Token.LiesIn line)).head? = some first ∧
      (tokens.filter (Token.LiesIn line)).getLast? = some last ∧
      l.span = ⟨first.start, last.stop⟩ ∧ last.category = .colon ∧ last.chars = [':']

/-- The label reaches exactly to the end of the physical line it begins on. -/
def Label.ReachesLineEnd (source : String) (l : Label) : Prop :=
  ∃ line ∈ placedLines source, line.offset ≤ l.span.start ∧ l.span.stop = line.stop

/-- Something is opened and not closed on its line. -/
def LexicalCause.IsUnclosed (cause : LexicalCause) : Prop :=
  cause = .unclosedText ∨ cause = .unclosedVariable

/-- What the label of a failure covers, by the kind of failure. Only failures of the script have
one. -/
def Failure.MarkedBy (source : String) : Failure → Label → Prop
  | .lexical e, l => e.cause.IsUnclosed → l.ReachesLineEnd source
  | .layout _, l => l.MarksIndentation source
  | _, _ => False

section

variable {source : String} {tokens : List Token} {s : Span}

/-- A label lies where the region it was made for lies. -/
theorem Span.span_label (h : s.start ≤ s.stop) (text : String) : (s.label text).span = s := by
  rw [Span.label, Label.span, Nat.add_sub_cancel' h]

/-- A label on a region is on the text there. -/
theorem Span.label_onText {region : List Char} (h : slice? source.toList s = some region)
    (hne : region ≠ []) (hline : '\n' ∉ region) (text : String) :
    (s.label text).OnText source := by
  refine ⟨region, ?_, hne, hline⟩
  rwa [s.span_label (start_le_stop_of_slice? h)]

/-- A failure that points at a proper region is shown with one label, on that region. -/
theorem Failure.exists_label {f : Failure} {text : String} (hf : f.label? = some (s, text))
    (hs : s.start ≤ s.stop) : ∃ d, f.diagnostic = .ok d ∧ d.labels = [s.label text] := by
  have hshown : f.diagnostic = f.unlabelled.withLabel s text := by
    cases f with
    | lexical e =>
      obtain ⟨rfl, rfl⟩ := Prod.mk.inj (Option.some.inj hf)
      rfl
    | layout e =>
      obtain ⟨rfl, rfl⟩ := Prod.mk.inj (Option.some.inj hf)
      rfl
    | _ => cases hf
  rw [hshown, Diagnostic.withLabel_eq_ok hs]
  exact ⟨_, rfl, rfl⟩

/-! ### Places where no token starts -/

/-- What is shown of a place where no lexeme starts is text on one line. It is all that is left of
the line where something is not closed. -/
theorem Refusal.shown_spec {text shown skipped : List Char} {cause : LexicalCause}
    (h : Refusal text cause shown skipped) (hstuck : Stuck text) :
    shown ≠ [] ∧ '\n' ∉ shown ∧ ∃ after, text = shown ++ after ∧
      (cause.IsUnclosed → after = [] ∨ ∃ rest, after = '\n' :: rest) := by
  have hrun : ∀ (c : Char) (cs : List Char), c ≠ '\n' → '\n' ∉ c :: cs.takeWhile inLine ∧
      c :: cs = (c :: cs.takeWhile inLine) ++ cs.dropWhile inLine := by
    intro c cs hc
    constructor
    · rw [List.mem_cons, not_or]
      exact ⟨hc.symm, notMem_takeWhile (by decide) cs⟩
    · rw [List.cons_append, List.takeWhile_append_dropWhile]
  cases h with
  | @text cs hopen =>
    obtain ⟨hline, happ⟩ := hrun '"' cs (by decide)
    exact ⟨List.cons_ne_nil _ _, hline, _, happ, fun _ => dropWhile_inLine cs⟩
  | @group cs hopen =>
    obtain ⟨hline, happ⟩ := hrun '{' cs (by decide)
    exact ⟨List.cons_ne_nil _ _, hline, _, happ, fun _ => dropWhile_inLine cs⟩
  | nameless cs => exact ⟨List.cons_ne_nil _ _, by decide, cs, rfl, by rintro (h | h) <;> cases h⟩
  | @stray c cs hmark hbrace =>
    refine ⟨List.cons_ne_nil _ _, ?_, cs, rfl, by rintro (h | h) <;> cases h⟩
    rw [List.mem_singleton]
    -- a line feed is a lexeme of its own
    rintro rfl
    exact hstuck.no_lexeme _ _ _ rfl (.newline cs)

/-- The label of a script that cannot be read. -/
theorem label_of_unread {e : LexicalError} (h : tokenize source = .error e) (text : String) :
    e.span.start ≤ e.span.stop ∧ (e.span.label text).OnText source ∧
      (Failure.lexical e).MarkedBy source (e.span.label text) := by
  obtain ⟨before, stop, hstops⟩ := Cursor.stopsAt_of_error h
  obtain ⟨shown, skipped, rest, -, hrefusal, hspan, -⟩ := hstops.reported
  obtain ⟨hne, hline, after, rfl, hend⟩ := hrefusal.shown_spec hstops.stuck
  have hsource : source.toList = before ++ shown ++ after := by
    rw [List.append_assoc]
    exact hstops.text
  have hregion : e.span = ⟨size before, size before + size shown⟩ := by
    rw [hspan, Cursor.atStart, Nat.zero_add]
  have hslice : slice? source.toList e.span = some shown := by
    refine slice?_eq_some_iff.2 ⟨before, after, hsource, ?_, ?_⟩ <;> rw [hregion]
  have hproper := start_le_stop_of_slice? hslice
  refine ⟨hproper, Span.label_onText hslice hne hline text, ?_⟩
  intro hunclosed
  obtain ⟨l, hl, front, back, htext, hplace, hback⟩ := exists_placedLine hsource hline
  obtain rfl := hback (hend hunclosed)
  refine ⟨l, hl, ?_⟩
  rw [Span.span_label hproper, hregion, PhysicalLine.stop, htext, List.append_nil]
  show l.offset ≤ size before ∧ size before + size shown = l.offset + size (front ++ shown)
  rw [hplace, size_append]
  exact ⟨Nat.le_add_right _ _, Nat.add_assoc _ _ _⟩

/-! ### Refused lines -/

/-- A line that is not indented is never refused. -/
theorem columns_pos_of_causeAt {lines : List Line} {i : Nat} {cause : LayoutCause} {line : Line}
    (h : causeAt lines i = some cause) (hline : lineAt lines i = some line) : 0 < line.columns := by
  unfold causeAt at h
  rw [hline] at h
  dsimp only at h
  split_ifs at h with hmix hdeep haligned hstyle
  · exact List.length_pos_of_mem hmix.1
  · exact Nat.zero_lt_of_lt hdeep.1
  · exact haligned.1
  · exact hstyle.1

/-- The label of a line that is refused. -/
theorem label_of_refused {k : Nat} {line : Line} {e : LayoutError}
    (h : tokenize source = .ok tokens) (hrefused : RefusedAt (Token.toLines tokens) k line e)
    (text : String) :
    e.span.start ≤ e.span.stop ∧ (e.span.label text).OnText source ∧
      (Failure.layout e).MarkedBy source (e.span.label text) := by
  have htiling := tiling_of_tokenize h
  have hl : line ∈ Token.toLines tokens := by
    obtain ⟨done, rest, hlines, -⟩ := lines_eq_of_lineAt hrefused.line_eq
    rw [hlines]
    simp
  have hslice := htiling.slice?_lead (mem_of_mem_line hl List.mem_cons_self)
  have hproper : e.span.start ≤ e.span.stop := by
    rw [hrefused.span_eq]
    exact start_le_stop_of_slice? hslice
  refine ⟨hproper, ?_, tokens, h, ?_⟩
  · rw [hrefused.span_eq]
    refine Span.label_onText hslice ?_ ?_ text
    · exact List.ne_nil_of_length_pos (columns_pos_of_causeAt hrefused.cause hrefused.line_eq)
    · exact (htiling.wellFormed_line hl line.first List.mem_cons_self).lead_inLine
  · obtain ⟨l, hplaced, hoccupies⟩ := exists_occupied h hl
    refine ⟨l, hplaced, line.first, ?_, ?_, ?_⟩
    · rw [← hoccupies.tokens]
      rfl
    · rw [Span.span_label hproper, hrefused.span_eq, hoccupies.indentSpan]
    · rw [Span.span_label hproper, hrefused.span_eq]
      rfl

/-! ### Headers -/

/-- The text of a line is the text of its tokens with what was skipped in between, and there is no
line feed in it. -/
theorem Tiling.slice?_line {text : List Char} (h : Tiling 0 text tokens) {l : Line}
    (hl : l ∈ Token.toLines tokens) :
    slice? text l.span = some (l.first.chars ++ writtenOut l.others) ∧
      '\n' ∉ l.first.chars ++ writtenOut l.others := by
  have hspan := h.span_line hl
  have hwellFormed := h.wellFormed_line hl
  obtain ⟨xs, ys, rfl, -, -⟩ := split_of_mem_linesFrom hl
  obtain ⟨front, htokens⟩ := l.exists_tokens_eq
  have hwritten : writtenOut l.tokens = l.first.lead ++ (l.first.chars ++ writtenOut l.others) := by
    rw [Line.tokens, writtenOut_cons, List.append_assoc]
  have hchained := h.chained
  rw [List.append_assoc, chained_append, Nat.zero_add] at hchained
  constructor
  · obtain ⟨tail, -, htext⟩ := h.covers
    refine slice?_eq_some_iff.2 ⟨writtenOut xs ++ l.first.lead, writtenOut ys ++ tail, ?_, ?_, ?_⟩
    · rw [htext, writtenOut_append, writtenOut_append, hwritten]
      simp only [List.append_assoc]
    · rw [hspan, size_append]
      show l.first.offset + size l.first.lead = _
      rw [hchained.2.1]
    · -- the last token ends where all of the line has been written
      have hlast := hchained.2
      rw [htokens, List.append_assoc, chained_append] at hlast
      have hstop : l.last.stop = size (writtenOut xs) + size (writtenOut l.tokens) := by
        rw [Token.stop, Token.start, hlast.2.1, htokens]
        simp only [writtenOut_append, writtenOut_cons, writtenOut_nil, size_append, size_nil]
        omega
      rw [hspan, hstop, hwritten]
      simp only [size_append, Nat.add_assoc]
  · have hnone : l.tokens.countP Token.isNewline = 0 :=
      List.countP_eq_zero.2 fun t ht => by simp [isNewline_of_mem_line hl ht]
    rw [← count_newline_writtenOut hwellFormed, List.count_eq_zero, hwritten] at hnone
    exact fun hmem => hnone (List.mem_append_right _ hmem)

/-- A colon is written as one. -/
theorem IsLexeme.chars_colon {chars rest : List Char} (h : IsLexeme .colon chars rest) :
    chars = [':'] := by
  generalize hcategory : Category.colon = category at h
  cases h with
  | colon => rfl
  | word hc hcs hstop =>
    rw [← wordCategory_eq] at hcategory
    exact absurd hcategory.symm (wordCategory_ne .colon nofun nofun nofun _)
  | _ => cases hcategory

/-- The label of the warning about a header. -/
theorem label_of_header {l : Line} (h : tokenize source = .ok tokens)
    (hl : l ∈ Token.toLines tokens) (hheader : l.isHeader = true) (text : String) :
    (l.span.label text).OnText source ∧ (l.span.label text).MarksHeader source := by
  obtain ⟨hslice, hline⟩ := (tiling_of_tokenize h).slice?_line hl
  have hlast : l.last.category = .colon := by simpa [Line.isHeader] using hheader
  constructor
  · refine Span.label_onText hslice ?_ hline text
    have hne := chars_ne_nil_of_tokenize h l.first (mem_of_mem_line hl List.mem_cons_self)
    exact List.append_ne_nil_of_left_ne_nil hne _
  · obtain ⟨p, hplaced, hoccupies⟩ := exists_occupied h hl
    refine ⟨tokens, h, p, hplaced, l.first, l.last, ?_, ?_, ?_, hlast, ?_⟩
    · rw [← hoccupies.tokens]
      rfl
    · rw [← hoccupies.tokens, l.getLast?_tokens]
    · rw [Span.span_label l.start_le_stop_span, (tiling_of_tokenize h).span_line hl]
    · obtain ⟨after, -, hlexeme⟩ := isLexeme_of_tokenize h (mem_of_mem_line hl l.last_mem)
      rw [hlast] at hlexeme
      exact hlexeme.chars_colon

end

/-! ### Runs -/

/-- What a run has to say about a script is said with one label each, on text of the script. -/
theorem run_labels_text (a : Analyzer) (name source : String) :
    (∀ f, (a.run name source).1 = .error f →
      ∃ d l, f.diagnostic = .ok d ∧ d.labels = [l] ∧ l.OnText source ∧ f.MarkedBy source l) ∧
      ∀ w ∈ (a.run name source).2.warnings,
        ∃ l, w.labels = [l] ∧ l.OnText source ∧ l.MarksHeader source := by
  constructor
  · intro f hf
    have hended := ended_run a name source
    rw [hf] at hended
    generalize (a.run name source).2 = left at hended
    cases hended with
    | @unread e htokens =>
      obtain ⟨hproper, hon, hmarked⟩ := label_of_unread htokens e.cause.wording.2.1
      obtain ⟨d, hd, hlabels⟩ := Failure.exists_label (f := .lexical e) rfl hproper
      exact ⟨d, _, hd, hlabels, hon, hmarked⟩
    | @refused tokens done rest line entries p e htokens hlines hreached hverdict =>
      have hrefused := hreached.refusedAt hverdict rest
      rw [← hlines] at hrefused
      obtain ⟨hproper, hon, hmarked⟩ := label_of_refused htokens hrefused e.cause.wording.2.1
      obtain ⟨d, hd, hlabels⟩ := Failure.exists_label (f := .layout e) rfl hproper
      exact ⟨d, _, hd, hlabels, hon, hmarked⟩
  · intro w hw
    obtain ⟨tokens, htokens, l, hl, hheader, rfl⟩ := exists_header_of_warning a name hw
    exact ⟨_, rfl, label_of_header htokens hl hheader _⟩

/-- A script with an empty section and, further on, a line that is aligned with nothing. -/
theorem run_labels_text_misaligned :
    (∃ d l, (Failure.layout ⟨.misaligned, 10, 11⟩).diagnostic = .ok d ∧ d.labels = [l] ∧
        l.OnText "a:\nb:\n  c\n d" ∧ l.MarksIndentation "a:\nb:\n  c\n d") ∧
      ∃ l, (emptyWarning ⟨0, 2⟩).labels = [l] ∧
        l.OnText "a:\nb:\n  c\n d" ∧ l.MarksHeader "a:\nb:\n  c\n d" := by
  have hrun : ({} : Analyzer).run "steps" "a:\nb:\n  c\n d" =
      (.error (.layout ⟨.misaligned, 10, 11⟩), { warnings := [emptyWarning ⟨0, 2⟩] }) := by cbv
  obtain ⟨hfailure, hwarnings⟩ := run_labels_text {} "steps" "a:\nb:\n  c\n d"
  rw [hrun] at hfailure hwarnings
  exact ⟨hfailure _ rfl, hwarnings _ List.mem_cons_self⟩

end ScriptHints
