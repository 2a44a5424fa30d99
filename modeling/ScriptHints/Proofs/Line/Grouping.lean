import ScriptHints.Line
import ScriptHints.Proofs.Token.Tiling

/-!
# Lines hold the tokens between line feeds

Grouping tokens into lines neither loses nor repeats a token: put together again, the lines hold all
tokens but the line feeds, in order. The number of a line counts the line feeds before it, as tokens
and therefore also as characters of the script.

* `flatMap_tokens_toLines` — the lines hold every token that is no line feed, once and in order.
* `number_pairwise` — line numbers increase.
* `split_of_mem_linesFrom` — where the tokens of a line stand among all tokens.
* `Tiling.place_in_line` — where a token stands in the script, and the number of line feeds before
  it.
* `Tiling.indent_in_line` — the indentation of a line reaches from the line feed before it to its
  first token.
* `Tiling.line_bounds`, `Tiling.span_line` — a line reaches from its first token to its last.
* `lineOfOffset` — the line that a byte of the script is on; `lineOfOffset_start` and
  `lineOfOffset_indent` say that the numbers of lines are true to it.
-/

namespace ScriptHints

open Text

/-! ### Equations -/

/-- Without tokens there are no lines. -/
theorem linesFrom_nil (number : Nat) : linesFrom number [] = [] := by
  rw [linesFrom]

/-- A line feed at the front makes no line, but is counted. -/
theorem linesFrom_newline {t : Token} (h : t.isNewline = true) (number : Nat) (ts : List Token) :
    linesFrom number (t :: ts) = linesFrom (number + 1) ts := by
  rw [linesFrom, if_pos h]

/-- Any other token begins a line, which reaches up to the next line feed. -/
theorem linesFrom_cons {t : Token} (h : t.isNewline = false) (number : Nat) (ts : List Token) :
    linesFrom number (t :: ts) =
      ⟨number, t, ts.takeWhile (!·.isNewline)⟩ ::
        linesFrom number (ts.dropWhile (!·.isNewline)) := by
  rw [linesFrom, if_neg (by simp [h])]

/-- Induction over the grouping of tokens: a line feed, or a whole line. -/
@[elab_as_elim]
theorem linesFrom_induction {motive : Nat → List Token → Prop}
    (nil : ∀ number, motive number [])
    (newline : ∀ number t ts, t.isNewline = true → motive (number + 1) ts →
      motive number (t :: ts))
    (line : ∀ number t ts, t.isNewline = false →
      motive number (ts.dropWhile (!·.isNewline)) → motive number (t :: ts))
    (number : Nat) (ts : List Token) : motive number ts :=
  linesFrom.induct motive nil newline
    (fun number t ts h ih => line number t ts (by simpa using h) ih) number ts

/-! ### Tokens -/

/-- Before the first line feed there is none. -/
theorem isNewline_of_mem_takeWhile {t : Token} {ts : List Token}
    (h : t ∈ ts.takeWhile (!·.isNewline)) : t.isNewline = false := by
  simpa using List.mem_takeWhile_imp h

/-- The lines hold every token that is no line feed, once and in order. -/
theorem flatMap_tokens_linesFrom (number : Nat) (ts : List Token) :
    (linesFrom number ts).flatMap Line.tokens = ts.filter (!·.isNewline) := by
  induction number, ts using linesFrom_induction with
  | nil number => rw [linesFrom_nil]; rfl
  | newline number t ts h ih =>
    rw [linesFrom_newline h, ih, List.filter_cons_of_neg (by simp [h])]
  | line number t ts h ih =>
    have hall : (ts.takeWhile (!·.isNewline)).filter (!·.isNewline) =
        ts.takeWhile (!·.isNewline) := by
      rw [List.filter_eq_self]
      intro a ha
      simp [isNewline_of_mem_takeWhile ha]
    have hsplit : ts.filter (!·.isNewline) = ts.takeWhile (!·.isNewline) ++
        (ts.dropWhile (!·.isNewline)).filter (!·.isNewline) := by
      rw [← hall, ← List.filter_append, List.takeWhile_append_dropWhile]
    rw [linesFrom_cons h, List.flatMap_cons, ih, List.filter_cons_of_pos (by simp [h]), hsplit]
    rfl

/-- Grouping into lines loses no token but the line feeds and keeps the order. -/
theorem flatMap_tokens_toLines (tokens : List Token) :
    (Token.toLines tokens).flatMap Line.tokens = tokens.filter (!·.isNewline) :=
  flatMap_tokens_linesFrom 1 tokens

/-- No token of a line is a line feed. -/
theorem isNewline_of_mem_line {tokens : List Token} {l : Line} (hl : l ∈ Token.toLines tokens)
    {t : Token} (ht : t ∈ l.tokens) : t.isNewline = false := by
  have hmem : t ∈ (Token.toLines tokens).flatMap Line.tokens := List.mem_flatMap.2 ⟨l, hl, ht⟩
  rw [flatMap_tokens_toLines] at hmem
  simpa using (List.mem_filter.1 hmem).2

/-- The tokens of a line are tokens of the script. -/
theorem mem_of_mem_line {tokens : List Token} {l : Line} (hl : l ∈ Token.toLines tokens)
    {t : Token} (ht : t ∈ l.tokens) : t ∈ tokens := by
  have hmem : t ∈ (Token.toLines tokens).flatMap Line.tokens := List.mem_flatMap.2 ⟨l, hl, ht⟩
  rw [flatMap_tokens_toLines] at hmem
  exact (List.mem_filter.1 hmem).1

/-! ### Numbers -/

/-- Lines are counted upwards. -/
theorem le_number_of_mem_linesFrom {number : Nat} {ts : List Token} {l : Line}
    (hl : l ∈ linesFrom number ts) : number ≤ l.number := by
  induction number, ts using linesFrom_induction with
  | nil number => simp [linesFrom_nil] at hl
  | newline number t ts h ih =>
    rw [linesFrom_newline h] at hl
    exact Nat.le_of_succ_le (ih hl)
  | line number t ts h ih =>
    rw [linesFrom_cons h] at hl
    rcases List.mem_cons.1 hl with rfl | hl
    · exact Nat.le_refl _
    · exact ih hl

/-- What stands behind a line has a greater number: a line feed comes first. -/
theorem lt_number_of_mem_linesFrom {number : Nat} {ts : List Token} {l : Line}
    (hl : l ∈ linesFrom number (ts.dropWhile (!·.isNewline))) : number < l.number := by
  cases hd : ts.dropWhile (!·.isNewline) with
  | nil => simp [hd, linesFrom_nil] at hl
  | cons t rest =>
    have ht : t.isNewline = true := by
      have := List.head?_dropWhile_not (fun a : Token => !a.isNewline) ts
      simpa [hd] using this
    rw [hd, linesFrom_newline ht] at hl
    exact le_number_of_mem_linesFrom hl

/-- Line numbers increase. -/
theorem number_pairwise (number : Nat) (ts : List Token) :
    (linesFrom number ts).Pairwise fun a b => a.number < b.number := by
  induction number, ts using linesFrom_induction with
  | nil number => rw [linesFrom_nil]; exact List.Pairwise.nil
  | newline number t ts h ih => rwa [linesFrom_newline h]
  | line number t ts h ih =>
    rw [linesFrom_cons h]
    exact List.pairwise_cons.2 ⟨fun l hl => lt_number_of_mem_linesFrom hl, ih⟩

/-- The tokens of a line stand together, right behind a line feed or at the beginning, and its
number counts the line feeds before them. -/
theorem split_of_mem_linesFrom {number : Nat} {ts : List Token} {l : Line}
    (hl : l ∈ linesFrom number ts) :
    ∃ xs ys, ts = xs ++ l.tokens ++ ys ∧ l.number = number + xs.countP Token.isNewline ∧
      (xs = [] ∨ ∃ front feed, xs = front ++ [feed] ∧ feed.isNewline = true) := by
  induction number, ts using linesFrom_induction with
  | nil number => simp [linesFrom_nil] at hl
  | newline number t ts h ih =>
    rw [linesFrom_newline h] at hl
    obtain ⟨xs, ys, rfl, hnumber, hfeed⟩ := ih hl
    refine ⟨t :: xs, ys, rfl, ?_, .inr ?_⟩
    · rw [List.countP_cons_of_pos h, hnumber]
      omega
    · rcases hfeed with rfl | ⟨front, feed, rfl, hfeed⟩
      · exact ⟨[], t, rfl, h⟩
      · exact ⟨t :: front, feed, rfl, hfeed⟩
  | line number t ts h ih =>
    rw [linesFrom_cons h] at hl
    rcases List.mem_cons.1 hl with rfl | hl
    · exact ⟨[], ts.dropWhile (!·.isNewline), by simp [Line.tokens], rfl, .inl rfl⟩
    · have hlt := lt_number_of_mem_linesFrom hl
      obtain ⟨xs, ys, hsplit, hnumber, hfeed⟩ := ih hl
      refine ⟨t :: (ts.takeWhile (!·.isNewline) ++ xs), ys, ?_, ?_, .inr ?_⟩
      · rw [List.cons_append, List.cons_append, List.append_assoc, List.append_assoc,
          ← List.append_assoc xs, ← hsplit, List.takeWhile_append_dropWhile]
      · -- the tokens of the line before are no line feeds
        have hzero : (ts.takeWhile (!·.isNewline)).countP Token.isNewline = 0 := by
          rw [List.countP_eq_zero]
          intro a ha
          simp [isNewline_of_mem_takeWhile ha]
        rw [List.countP_cons_of_neg (by simp [h]), List.countP_append, hzero, hnumber]
        omega
      · rcases hfeed with rfl | ⟨front, feed, rfl, hfeed⟩
        · -- the number has grown, so there is a line feed in between
          rw [hnumber] at hlt
          exact absurd hlt (Nat.lt_irrefl _)
        · exact ⟨t :: (ts.takeWhile (!·.isNewline) ++ front), feed, by simp, hfeed⟩

/-! ### Line feeds of the script -/

/-- Line feeds are written by the tokens for them and by no others. -/
theorem count_newline_written {t : Token} (h : t.WellFormed) :
    t.written.count '\n' = if t.isNewline then 1 else 0 := by
  have hlead : t.lead.count '\n' = 0 := List.count_eq_zero.2 h.lead_inLine
  rw [Token.written, List.count_append, hlead]
  split
  · rename_i hn
    rw [h.chars_newline (by simpa [Token.isNewline] using hn)]
    rfl
  · rename_i hn
    rw [List.count_eq_zero.2 (h.chars_inLine (by simpa [Token.isNewline] using hn))]

/-- Line feeds in the text of tokens are line feed tokens. -/
theorem count_newline_writtenOut {ts : List Token} (h : ∀ t ∈ ts, t.WellFormed) :
    (writtenOut ts).count '\n' = ts.countP Token.isNewline := by
  induction ts with
  | nil => rfl
  | cons t ts ih =>
    have ht := count_newline_written (h t List.mem_cons_self)
    rw [Token.written] at ht
    rw [writtenOut_cons, List.count_append, ht, ih fun a ha => h a (List.mem_cons_of_mem t ha),
      List.countP_cons, Nat.add_comm]

/-- The tokens of a line are well formed. -/
theorem Tiling.wellFormed_line {text : List Char} {tokens : List Token} (h : Tiling 0 text tokens)
    {l : Line} (hl : l ∈ Token.toLines tokens) : ∀ t ∈ l.tokens, t.WellFormed := by
  intro t ht
  exact h.wellFormed t (mem_of_mem_line hl ht)

/-- Where a token of a line stands in the script: the number of its line is one more than the
number of line feeds before it. -/
theorem Tiling.place_in_line {text : List Char} {tokens : List Token} (h : Tiling 0 text tokens)
    {l : Line} (hl : l ∈ Token.toLines tokens) {t : Token} (ht : t ∈ l.tokens) :
    ∃ before after, text = before ++ t.chars ++ after ∧ t.start = size before ∧
      l.number = 1 + before.count '\n' := by
  obtain ⟨xs, ys, htokens, hnumber, -⟩ := split_of_mem_linesFrom hl
  obtain ⟨us, vs, hline⟩ := List.append_of_mem ht
  have hall : tokens = (xs ++ us) ++ t :: (vs ++ ys) := by
    rw [htokens, hline]
    simp
  have hmem : ∀ a ∈ xs ++ us, a.WellFormed := by
    intro a ha
    apply h.wellFormed
    rw [hall]
    exact List.mem_append_left _ ha
  have hwt : t.WellFormed := h.wellFormed_line hl t ht
  subst hall
  obtain ⟨hoffset, after, rfl⟩ := h.split
  refine ⟨writtenOut (xs ++ us) ++ t.lead, after, rfl, ?_, ?_⟩
  · rw [Token.start, hoffset, size_append, Nat.zero_add]
  · -- the tokens of the line before `t` are no line feeds either
    have hzero : us.countP Token.isNewline = 0 := by
      rw [List.countP_eq_zero]
      intro a ha
      have : a ∈ l.tokens := by
        rw [hline]
        exact List.mem_append_left _ ha
      simp [isNewline_of_mem_line hl this]
    rw [List.count_append, count_newline_writtenOut hmem, List.count_eq_zero.2 hwt.lead_inLine,
      List.countP_append, hzero, hnumber]
    rfl

/-- Where the indentation of a line stands in the script: from the line feed before the line, or the
beginning of the script, to the first token. -/
theorem Tiling.indent_in_line {text : List Char} {tokens : List Token} (h : Tiling 0 text tokens)
    {l : Line} (hl : l ∈ Token.toLines tokens) :
    ∃ before after, text = before ++ l.indent ++ l.first.chars ++ after ∧
      (before = [] ∨ ∃ front, before = front ++ ['\n']) ∧
      l.indentSpan = ⟨size before, size before + size l.indent⟩ := by
  obtain ⟨xs, ys, htokens, -, hfeed⟩ := split_of_mem_linesFrom hl
  have hall : tokens = xs ++ l.first :: (l.others ++ ys) := by
    rw [htokens, Line.tokens]
    simp
  subst hall
  obtain ⟨hoffset, after, htext⟩ := h.split
  rw [Nat.zero_add] at hoffset
  refine ⟨writtenOut xs, after, htext, ?_, ?_⟩
  · rcases hfeed with rfl | ⟨front, feed, rfl, hfeed⟩
    · exact .inl rfl
    · have hw : feed.WellFormed := h.wellFormed feed (by simp)
      refine .inr ⟨writtenOut front ++ feed.lead, ?_⟩
      have hchars := hw.chars_newline (by simpa [Token.isNewline] using hfeed)
      rw [writtenOut_append, writtenOut_cons, hchars]
      simp
  · rw [Line.indentSpan, Token.start, hoffset, Line.indent]

/-! ### The extent of a line -/

/-- The last token of a line is at its end. -/
theorem Line.exists_tokens_eq (l : Line) : ∃ front, l.tokens = front ++ [l.last] := by
  rcases l with ⟨number, first, others⟩
  rcases List.eq_nil_or_concat others with rfl | ⟨front, last, rfl⟩
  · exact ⟨[], rfl⟩
  · exact ⟨first :: front, by simp [Line.tokens, Line.last]⟩

/-- The last token of a line is one of its tokens. -/
theorem Line.last_mem (l : Line) : l.last ∈ l.tokens := by
  obtain ⟨front, htokens⟩ := l.exists_tokens_eq
  rw [htokens]
  exact List.mem_append_right front List.mem_cons_self

/-- The tokens of a line are between the beginning of its first token and the end of its last. -/
theorem Tiling.line_bounds {text : List Char} {tokens : List Token} (h : Tiling 0 text tokens)
    {l : Line} (hl : l ∈ Token.toLines tokens) {t : Token} (ht : t ∈ l.tokens) :
    l.first.start ≤ t.start ∧ t.stop ≤ l.last.stop := by
  obtain ⟨xs, ys, rfl, -, -⟩ := split_of_mem_linesFrom hl
  have hpairwise : l.tokens.Pairwise fun a b => a.stop ≤ b.start :=
    h.chained.pairwise.sublist
      ((List.sublist_append_right xs l.tokens).trans (List.sublist_append_left _ ys))
  obtain ⟨front, htokens⟩ := l.exists_tokens_eq
  constructor
  · rcases List.mem_cons.1 ht with rfl | ht
    · exact Nat.le_refl _
    · have hlater := (List.pairwise_cons.1 hpairwise).1 t ht
      exact l.first.start_le_stop.trans hlater
  · rw [htokens] at hpairwise ht
    rcases List.mem_append.1 ht with ht | ht
    · have hearlier := (List.pairwise_append.1 hpairwise).2.2 t ht l.last List.mem_cons_self
      exact hearlier.trans l.last.start_le_stop
    · rw [List.mem_singleton.1 ht]

/-- In a script a line reaches from its first token to its last. -/
theorem Tiling.span_line {text : List Char} {tokens : List Token} (h : Tiling 0 text tokens)
    {l : Line} (hl : l ∈ Token.toLines tokens) : l.span = ⟨l.first.start, l.last.stop⟩ := by
  have hstart := (h.line_bounds hl l.last_mem).1
  have hstop := (h.line_bounds hl (t := l.first) List.mem_cons_self).2
  rw [Line.span, Span.merge]
  simp only [Token.span, Nat.min_eq_left hstart, Nat.max_eq_right hstop]

/-! ### The line of a byte -/

/-- The number of the line that the given byte of a script is on. -/
def lineOfOffset (source : String) (offset : Nat) : Option Nat :=
  (splitBytes? offset source.toList).map fun cut => 1 + cut.1.count '\n'

/-- The line of a byte counts the line feeds before it. -/
theorem lineOfOffset_eq_some_iff {source : String} {offset n : Nat} :
    lineOfOffset source offset = some n ↔
      ∃ before after, source.toList = before ++ after ∧ size before = offset ∧
        1 + before.count '\n' = n := by
  simp [lineOfOffset, splitBytes?_eq_some_iff, and_assoc]

/-- The first token of a line is on that line. -/
theorem Tiling.lineOfOffset_start {source : String} {tokens : List Token}
    (h : Tiling 0 source.toList tokens) {l : Line} (hl : l ∈ Token.toLines tokens) :
    lineOfOffset source l.first.start = some l.number := by
  obtain ⟨before, after, htext, hstart, hnumber⟩ :=
    h.place_in_line hl (t := l.first) List.mem_cons_self
  rw [List.append_assoc] at htext
  exact lineOfOffset_eq_some_iff.2 ⟨before, _, htext, hstart.symm, hnumber.symm⟩

/-- The indentation of a line is on that line. -/
theorem Tiling.lineOfOffset_indent {source : String} {tokens : List Token}
    (h : Tiling 0 source.toList tokens) {l : Line} (hl : l ∈ Token.toLines tokens) :
    lineOfOffset source l.indentSpan.start = some l.number := by
  obtain ⟨before, after, htext, -, hspan⟩ := h.indent_in_line hl
  have hinLine : '\n' ∉ l.indent := (h.wellFormed_line hl l.first List.mem_cons_self).lead_inLine
  -- between the indentation and the first token there is no line feed
  have hstart : l.first.start = size (before ++ l.indent) := by
    rw [size_append]
    exact congrArg Span.stop hspan
  obtain ⟨before', after', htext', hsize, hnumber⟩ :=
    lineOfOffset_eq_some_iff.1 (h.lineOfOffset_start hl)
  obtain ⟨rfl, -⟩ : before' = before ++ l.indent ∧ _ := by
    have hcut := splitBytes?_eq_some_iff.2 ⟨htext', hsize⟩
    rw [htext, List.append_assoc (before ++ l.indent), hstart, splitBytes?_append] at hcut
    exact Prod.mk.inj (Option.some.inj hcut).symm
  rw [List.count_append, List.count_eq_zero.2 hinLine, Nat.add_zero] at hnumber
  rw [List.append_assoc, List.append_assoc] at htext
  rw [hspan]
  exact lineOfOffset_eq_some_iff.2 ⟨before, _, htext, rfl, hnumber⟩

/-- What follows on further text does not change the line of a byte. -/
theorem lineOfOffset_append {a : String} {offset n : Nat} (h : lineOfOffset a offset = some n)
    (b : String) : lineOfOffset (a ++ b) offset = some n := by
  obtain ⟨before, after, htext, hsize, hnumber⟩ := lineOfOffset_eq_some_iff.1 h
  refine lineOfOffset_eq_some_iff.2 ⟨before, after ++ b.toList, ?_, hsize, hnumber⟩
  rw [String.toList_append, htext, List.append_assoc]

/-- Behind a line feed, bytes and lines are counted on. -/
theorem lineOfOffset_append_newline {b : String} {offset n : Nat}
    (h : lineOfOffset b offset = some n) (a : String) :
    lineOfOffset (a ++ "\n" ++ b) (a.utf8ByteSize + 1 + offset) =
      some (1 + a.toList.count '\n' + n) := by
  obtain ⟨before, after, htext, hsize, hnumber⟩ := lineOfOffset_eq_some_iff.1 h
  refine lineOfOffset_eq_some_iff.2 ⟨a.toList ++ '\n' :: before, after, ?_, ?_, ?_⟩
  · simp [String.toList_append, htext]
  · rw [size_append, size_toList, size_cons, hsize, ← Nat.add_assoc]
    rfl
  · rw [List.count_append, List.count_cons_self, ← hnumber]
    omega

end ScriptHints
