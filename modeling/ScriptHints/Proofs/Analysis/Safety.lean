import Mathlib
import ScriptHints.Proofs.Analysis.Walk
import ScriptHints.Proofs.Line.Grouping
import ScriptHints.Proofs.Variable.Counter

/-!
# No run breaks an expectation

The library is written so that no script can provoke a fault, and nothing in the types says so.
This file collects every place at which a run relies on something it does not check, and shows that
it may:

* `ReadsWell` — all texts that are cut out of a script, and all scans for braces, with what they
  give. A text cut out at a span has to lie inside the script, with both ends between two
  characters.
* `SafeRun` — how a run ends, and that everything a failure points at can be shown.
* `run_never_faults` — every run of every analyzer is safe, as long as the script fits the memory.
-/

namespace ScriptHints

open Text

/-! ### The texts and scans of a script -/

/-- The operations on the tokens of a script that could go wrong, each with what it gives. -/
structure ReadsWell (text : List Char) (tokens : List Token) : Prop where
  /-- The text of a token. -/
  token : ∀ t ∈ tokens, slice? text t.span = some t.chars
  /-- The name of a variable, cut out of the text of its token. -/
  tokenName : ∀ t ∈ tokens, t.category = .var →
    slice? t.chars ⟨1, size t.chars - 1⟩ = some t.inner ∧ t.inner ≠ []
  /-- A variable with its braces, wherever it is mentioned. -/
  use : ∀ t ∈ tokens, ∀ u ∈ t.uses, slice? text u.span = some u.written
  /-- The name of a variable, cut out of the script. -/
  useName : ∀ t ∈ tokens, ∀ u ∈ t.uses,
    slice? text ⟨u.span.start + 1, u.span.stop - 1⟩ = some u.inner
  /-- The indentation of a line. -/
  indent : ∀ l ∈ Token.toLines tokens, slice? text l.indentSpan = some l.indent
  /-- The length of a line, as it is needed to point at a header. -/
  lineLength : ∀ l ∈ Token.toLines tokens, l.span.length = .ok (l.span.stop - l.span.start)
  /-- The scan of a literal for variables finds those that are in no other, and all uses with
  them. -/
  scanText : ∀ t ∈ tokens, t.category = .text → ∃ groups : List Use,
    scanGroups t.start t.chars = .ok (groups.map Use.span) ∧
      t.uses = groups.flatMap Use.withNested
  /-- The scan of a name for variables does the same. -/
  scanName : ∀ t ∈ tokens, ∀ u ∈ t.uses, ∃ groups : List Use,
    scanGroups (u.offset + 1) u.inner = .ok (groups.map Use.span) ∧
      u.withNested = u :: groups.flatMap Use.withNested

/-- The name of a variable is what stands between the first and the last byte of its token. -/
theorem Token.WellFormed.slice?_name {t : Token} (h : t.WellFormed) (hv : t.category = .var) :
    slice? t.chars ⟨1, size t.chars - 1⟩ = some t.inner := by
  have hsize : size t.chars = 1 + size t.inner + 1 := by
    rw [← h.written_head hv, Use.size_written]
  refine slice?_eq_some_iff.2 ⟨['{'], ['}'], h.chars_var hv, rfl, ?_⟩
  show size t.chars - 1 = 1 + size t.inner
  omega

/-- A token ends inside the text it was cut from. -/
theorem Tiling.stop_le_size {text : List Char} {tokens : List Token} (h : Tiling 0 text tokens)
    {t : Token} (ht : t ∈ tokens) : t.stop ≤ size text :=
  stop_le_size_of_slice? (h.slice?_span ht)

/-- No token with a use in it ends a line, so its text keeps to one line. -/
theorem Token.WellFormed.inLine_of_mem_uses {t : Token} (h : t.WellFormed) {u : Use}
    (hu : u ∈ t.uses) : '\n' ∉ t.chars := by
  apply h.chars_inLine
  intro hn
  rw [Token.uses_of_ne (by simp [hn]) (by simp [hn])] at hu
  cases hu

/-- The name of a use keeps to its line. -/
theorem Token.WellFormed.inLine_inner {t : Token} (h : t.WellFormed) {u : Use} (hu : u ∈ t.uses) :
    '\n' ∉ u.inner := by
  obtain ⟨before, after, hchars, -⟩ := t.writtenIn_of_mem_uses h hu
  have hline := h.inLine_of_mem_uses hu
  intro hmem
  apply hline
  rw [hchars, Use.written]
  simp [hmem]

/-- The tokens of a script that fits a machine word read well. -/
theorem Tiling.readsWell {text : List Char} {tokens : List Token} (h : Tiling 0 text tokens)
    (hbound : size text < Span.bound) : ReadsWell text tokens where
  token _ ht := h.slice?_span ht
  tokenName t ht hv := ⟨(h.wellFormed t ht).slice?_name hv, (h.wellFormed t ht).inner_ne_nil hv⟩
  use _ ht _ hu := (h.writtenIn_of_mem_uses ht hu).slice?_span
  useName _ ht _ hu := (h.writtenIn_of_mem_uses ht hu).slice?_name
  indent _ hl := h.slice?_lead (mem_of_mem_line hl List.mem_cons_self)
  lineLength l _ := Span.length_eq_ok l.start_le_stop_span
  scanText t ht hx := by
    have hstop := h.stop_le_size ht
    refine ⟨outermost false t.start t.chars, scanGroups_eq ?_ ?_, ?_⟩
    · exact (h.wellFormed t ht).chars_inLine (by simp [hx])
    · rw [← Token.stop]
      omega
    · rw [Token.uses_of_text hx, usesIn_eq_flatMap_outermost]
  scanName t ht u hu := by
    have hstop := (h.writtenIn_of_mem_uses ht hu).stop_le
    refine ⟨outermost false (u.offset + 1) u.inner, scanGroups_eq ?_ ?_, ?_⟩
    · exact (h.wellFormed t ht).inLine_inner hu
    · rw [Use.stop] at hstop
      omega
    · rw [Use.withNested, usesIn_eq_flatMap_outermost]

/-! ### What a failure points at -/

/-- A failure that points at a proper region can be shown. -/
theorem diagnostic_lexical {e : LexicalError} (h : e.span.start ≤ e.span.stop) :
    ∃ d, (Failure.lexical e).diagnostic = .ok d :=
  ⟨_, Diagnostic.withLabel_eq_ok h _⟩

/-- A complaint about the layout can be shown where its region is not reversed. -/
theorem diagnostic_layout {e : LayoutError} (h : e.span.start ≤ e.span.stop) :
    ∃ d, (Failure.layout e).diagnostic = .ok d :=
  ⟨_, Diagnostic.withLabel_eq_ok h _⟩

/-! ### Runs -/

/-- What makes a run safe. -/
structure SafeRun (a : Analyzer) (name source : String) : Prop where
  /-- A run gives a report, or it fails because of the script. -/
  outcome : (∃ report, (a.run name source).1 = .ok report) ∨
    (∃ e, (a.run name source).1 = .error (.lexical e)) ∨
    ∃ e, (a.run name source).1 = .error (.layout e)
  /-- Whatever a failure points at can be shown. -/
  shown : ∀ f, (a.run name source).1 = .error f → ∃ d, f.diagnostic = .ok d
  /-- A lexical error is at a text of the script, found from where it starts and how long it is. -/
  lexicalSpan : ∀ e, tokenize source = .error e →
    Span.ofLength e.span.start (e.span.stop - e.span.start) = .ok e.span ∧
      ∃ shown, slice? source.toList e.span = some shown
  /-- Behind every opening brace, counting braces finds the end of the group. -/
  closing : ∀ before after, source.toList = before ++ '{' :: after →
    closingOffset 1 0 after = .ok ((closeGroup? after).map fun p => size p.1)
  /-- All texts of the tokens are where they are looked for. -/
  reads : ∀ tokens, tokenize source = .ok tokens → ReadsWell source.toList tokens

/-- A run ends with a report or with a failure of the script, and what a failure points at is a
proper region. -/
theorem run_outcome (a : Analyzer) (name source : String) :
    (∃ report, (a.run name source).1 = .ok report) ∨
      (∃ e, (a.run name source).1 = .error (.lexical e) ∧ e.span.start ≤ e.span.stop) ∨
      ∃ e, (a.run name source).1 = .error (.layout e) ∧ e.span.start ≤ e.span.stop := by
  cases h : tokenize source with
  | error e =>
    obtain ⟨shown, -, hslice⟩ := slice?_of_tokenize_error h
    refine .inr (.inl ⟨e, ?_, start_le_stop_of_slice? hslice⟩)
    rw [run_eq_of_tokenize_error a name h]
  | ok tokens =>
    rcases reached_or_refused (Token.toLines tokens) with
      ⟨entries, p, hr⟩ | ⟨done, line, rest, entries, p, e, hlines, hr, he⟩
    · refine .inl ⟨⟨name, entries⟩, ?_⟩
      rw [run_eq_of_reached a name h hr]
    · refine .inr (.inr ⟨e, ?_, ?_⟩)
      · rw [run_eq_of_refused a name h hlines hr he]
      · rw [(refused_of_error he).2]
        exact Nat.le_add_right _ _

/-- No run of an analyzer, whatever it did before, breaks an expectation of the library. -/
theorem run_never_faults (a : Analyzer) (name source : String)
    (h : source.utf8ByteSize ≤ 2 ^ 63 - 1) : SafeRun a name source := by
  have hbound : size source.toList < Span.bound := by
    rw [size_toList, Span.bound]
    omega
  refine ⟨?_, ?_, ?_, ?_, ?_⟩
  · rcases run_outcome a name source with hok | ⟨e, he, -⟩ | ⟨e, he, -⟩
    · exact .inl hok
    · exact .inr (.inl ⟨e, he⟩)
    · exact .inr (.inr ⟨e, he⟩)
  · intro f hf
    rcases run_outcome a name source with ⟨report, hok⟩ | ⟨e, he, hle⟩ | ⟨e, he, hle⟩
    · rw [hok] at hf
      cases hf
    · obtain rfl := Except.error.inj (he.symm.trans hf)
      exact diagnostic_lexical hle
    · obtain rfl := Except.error.inj (he.symm.trans hf)
      exact diagnostic_layout hle
  · intro e he
    obtain ⟨shown, -, hslice⟩ := slice?_of_tokenize_error he
    have hle := start_le_stop_of_slice? hslice
    have hstop := stop_le_size_of_slice? hslice
    refine ⟨?_, shown, hslice⟩
    rw [Span.ofLength_eq_ok (by omega), Nat.add_sub_cancel' hle]
  · intro before after hsource
    have hlen := length_le_size after
    have hsize : size source.toList = size before + (1 + size after) := by
      rw [hsource, size_append, size_cons]
      rfl
    rw [closingOffset_eq (by omega), closeGroup?]
    simp
  · intro tokens htokens
    exact (tiling_of_tokenize htokens).readsWell hbound

/-- A run over nested and empty groups between characters of several bytes. -/
theorem run_never_faults_nested :
    "on é:\n\tset \x7b_ü::%\x7b_i\x7b\x7d\x7d%\x7d to \"%\x7bß\x7d%\"".utf8ByteSize ≤ 2 ^ 63 - 1 ∧
      SafeRun {} "nested" "on é:\n\tset \x7b_ü::%\x7b_i\x7b\x7d\x7d%\x7d to \"%\x7bß\x7d%\"" :=
  ⟨by decide, run_never_faults {} "nested" _ (by decide)⟩

end ScriptHints
