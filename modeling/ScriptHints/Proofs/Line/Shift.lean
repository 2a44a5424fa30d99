import Mathlib.Data.List.Basic
import ScriptHints.Proofs.Analysis.Study
import ScriptHints.Proofs.Line.Grouping
import ScriptHints.Proofs.Token.LineBreak
import ScriptHints.Proofs.Variable.Uses

/-!
# Lines further on

A line that stands further on in a script says the same there, only elsewhere: its tokens are moved
by a number of bytes and its number by a number of lines. This file moves lines and what is read off
them, and finds such lines where a script goes on behind a line feed.

* `Line.shift`, `Entry.shift` — a line and an entry as they would be so many bytes and lines further
  on.
* `lineEntries_shift`, `HintTable.afterLine_shift` — the entries of a moved line are moved with it,
  and the hints after it are the same.
* `linesFrom_map_shift` — moved tokens make moved lines.
* `toLines_append_newline` — the lines of a script of two parts are those of the first part and,
  moved, those of the second.
-/

namespace ScriptHints

open Text

/-! ### Moving what a line holds -/

/-- The region `d` bytes further on. -/
def Span.shift (d : Nat) (s : Span) : Span := ⟨d + s.start, d + s.stop⟩

/-- The use `d` bytes further on. -/
def Use.shift (d : Nat) (u : Use) : Use := { u with offset := d + u.offset }

/-- The entry `d` bytes and `n` lines further on. -/
def Entry.shift (d n : Nat) (e : Entry) : Entry :=
  { e with line := n + e.line, span := e.span.shift d }

/-- The line `d` bytes and `n` lines further on. -/
def Line.shift (d n : Nat) (l : Line) : Line :=
  ⟨n + l.number, l.first.shift d, l.others.map (Token.shift d)⟩

/-- The statement `d` bytes further on. -/
def Statement.shift (d : Nat) : Statement → Statement
  | .assignment target value => .assignment (target.shift d) (value.map (Token.shift d))
  | .other tokens => .other (tokens.map (Token.shift d))

section

variable (d n : Nat)

/-- A token begins later by as many bytes as it is shifted. -/
theorem Token.start_shift (t : Token) : (t.shift d).start = d + t.start := by
  simp [Token.start, Token.shift, Nat.add_assoc]

/-- The region of a token is shifted with the token. -/
theorem Token.span_shift (t : Token) : (t.shift d).span = t.span.shift d := by
  rw [Token.span, Token.start_shift, Token.stop_shift]
  rfl

/-- A use ends later by as many bytes as it is shifted. -/
theorem Use.stop_shift (u : Use) : (u.shift d).stop = d + u.stop := by
  simp [Use.stop, Use.shift, Nat.add_assoc]

/-- The region of a use is shifted with the use. -/
theorem Use.span_shift (u : Use) : (u.shift d).span = u.span.shift d := by
  rw [Use.span, Use.stop_shift]
  rfl

/-- The smallest region covering two shifted ones is shifted as they are. -/
theorem Span.merge_shift (s s' : Span) : (s.shift d).merge (s'.shift d) = (s.merge s').shift d := by
  simp only [Span.merge, Span.shift, Nat.add_min_add_left, Nat.add_max_add_left]

/-- Shifting an entry twice shifts it by the sums. -/
theorem Entry.shift_shift (d' n' : Nat) (e : Entry) :
    (e.shift d n).shift d' n' = e.shift (d' + d) (n' + n) := by
  simp only [Entry.shift, Span.shift, Nat.add_assoc]

/-! ### Lines -/

variable (l : Line)

/-- A line that is shifted by nothing stays where it is. -/
theorem Line.shift_zero : l.shift 0 0 = l := by
  have htoken : Token.shift 0 = id := by
    funext t
    simp [Token.shift]
  simp [Line.shift, htoken]

/-- Shifting a line twice shifts it by the sums. -/
theorem Line.shift_shift (d' n' : Nat) :
    (l.shift d n).shift d' n' = l.shift (d' + d) (n' + n) := by
  have htoken : ∀ t : Token, (t.shift d).shift d' = t.shift (d' + d) := by
    intro t
    simp only [Token.shift, Nat.add_assoc]
  simp only [Line.shift, htoken, List.map_map, Nat.add_assoc]
  congr 1
  exact List.map_congr_left fun t _ => htoken t

/-- All tokens of a line are shifted with it. -/
theorem Line.tokens_shift : (l.shift d n).tokens = l.tokens.map (Token.shift d) := rfl

/-- The last token of a line is shifted with it. -/
theorem Line.last_shift : (l.shift d n).last = l.last.shift d := by
  rcases l with ⟨number, first, others⟩
  simp only [Line.last, Line.shift, List.getLastD_eq_getLast?, List.getLast?_map]
  rcases others.getLast? with _ | last <;> rfl

/-- The region of a line is shifted with it. -/
theorem Line.span_shift : (l.shift d n).span = l.span.shift d := by
  rw [Line.span, Line.last_shift, Token.span_shift, Line.span, ← Span.merge_shift]
  show (l.first.shift d).span.merge _ = _
  rw [Token.span_shift]

/-- The indentation of a line is shifted with it. -/
theorem Line.indentSpan_shift : (l.shift d n).indentSpan = l.indentSpan.shift d := by
  rw [Line.indentSpan, Line.indentSpan, Span.shift, ← Token.start_shift]
  rfl

/-- A header is a header wherever it stands. -/
theorem Line.isHeader_shift : (l.shift d n).isHeader = l.isHeader := by
  rw [Line.isHeader, Line.last_shift]
  rfl

/-- Shifting tokens keeps their words. -/
theorem keepsWords_shift : KeepsWords (Token.shift d) := ⟨fun _ => rfl, fun _ => rfl⟩

/-- The statement of a shifted line is that of the line, with its tokens shifted. -/
theorem Line.statement_shift : (l.shift d n).statement = l.statement.shift d := by
  rw [(keepsWords_shift d).statement_eq (l.tokens_shift d n)]
  rcases l.statement with _ | _ <;> rfl

/-! ### Uses -/

/-- The uses of a text further on are further on. -/
theorem usesIn_shift (active : Bool) (offset : Nat) (cs : List Char) :
    usesIn active (d + offset) cs = (usesIn active offset cs).map (Use.shift d) := by
  induction active, offset, cs using usesIn_induction with
  | nil active offset => rw [usesIn_nil, usesIn_nil, List.map_nil]
  | percent active offset cs ih => rw [usesIn_percent, usesIn_percent, Nat.add_assoc, ih]
  | openGroup offset cs h => rw [usesIn_openGroup h, usesIn_openGroup h, List.map_nil]
  | group offset cs inside rest h hinside hrest =>
    have hstop : Use.stop ⟨d + offset, inside⟩ = d + Use.stop ⟨offset, inside⟩ :=
      Use.stop_shift d ⟨offset, inside⟩
    rw [usesIn_group h, usesIn_group h, List.map_append, hstop, hrest, Use.withNested,
      Use.withNested, List.map_cons, ← hinside, ← Nat.add_assoc]
    rfl
  | plain active offset c cs hp hb ih =>
    rw [usesIn_plain hp hb, usesIn_plain hp hb, Nat.add_assoc, ih]

/-- The uses inside a token are shifted with the token. -/
theorem Token.uses_shift (t : Token) : (t.shift d).uses = t.uses.map (Use.shift d) := by
  have hcategory : (t.shift d).category = t.category := rfl
  have hchars : (t.shift d).chars = t.chars := rfl
  have hinner : (t.shift d).inner = t.inner := rfl
  by_cases hvar : t.category = .var
  · rw [Token.uses_of_var hvar, Token.uses_of_var (hcategory.trans hvar), Token.start_shift, hinner,
      Use.withNested, Use.withNested, List.map_cons, ← usesIn_shift, ← Nat.add_assoc]
    rfl
  by_cases htext : t.category = .text
  · rw [Token.uses_of_text htext, Token.uses_of_text (hcategory.trans htext), Token.start_shift,
      hchars, usesIn_shift]
  · rw [Token.uses_of_ne hvar htext, Token.uses_of_ne (t := t.shift d) hvar htext, List.map_nil]

/-- So are the uses inside several tokens. -/
theorem flatMap_uses_shift (ts : List Token) :
    (ts.map (Token.shift d)).flatMap Token.uses = (ts.flatMap Token.uses).map (Use.shift d) := by
  rw [List.flatMap_map, List.map_flatMap]
  exact List.flatMap_congr fun t _ => Token.uses_shift d t

/-! ### Types and entries -/

section

variable (env : String → Option ValueType)

/-- The references for shifted uses are those for the uses, shifted. -/
theorem references_shift (line : Nat) (uses : List Use) :
    references env (n + line) (uses.map (Use.shift d)) =
      (references env line uses).map (Entry.shift d n) := by
  have hlocal : Use.isLocal ∘ Use.shift d = Use.isLocal := rfl
  unfold references
  rw [List.filter_map, hlocal, List.map_map, List.map_map]
  apply List.map_congr_left
  intro u _
  simp only [Function.comp_apply, Entry.shift, Use.span_shift]
  rfl

/-- The entries of a line further on are further on, and otherwise the same. -/
theorem lineEntries_shift :
    lineEntries env (l.shift d n) = (lineEntries env l).map (Entry.shift d n) := by
  have hnumber : (l.shift d n).number = n + l.number := rfl
  unfold lineEntries
  rw [Line.statement_shift, hnumber]
  rcases l.statement with ⟨target, value⟩ | tokens
  · have huses : (target.shift d).uses.drop 1 ++ (value.map (Token.shift d)).flatMap Token.uses =
        (target.uses.drop 1 ++ value.flatMap Token.uses).map (Use.shift d) := by
      rw [Token.uses_shift, flatMap_uses_shift, List.map_append, List.map_drop]
    have hhint : ∀ name, assignedHint env name (value.map (Token.shift d)) =
        assignedHint env name value := by
      intro name
      rw [assignedHint, (keepsWords_shift d).typeOfValue_eq, assignedHint]
    have hinner : (target.shift d).inner = target.inner := rfl
    simp only [Statement.shift, huses, references_shift, hhint, hinner, Token.span_shift]
    rw [List.map_append]
    split <;> rfl
  · simp only [Statement.shift, flatMap_uses_shift, references_shift]

end

/-- The hints after a line do not depend on where it stands. -/
theorem HintTable.afterLine_shift (hints : HintTable ValueType) :
    hints.afterLine (l.shift d n) = hints.afterLine l :=
  (keepsWords_shift d).afterLine_eq (l.tokens_shift d n) hints

/-! ### Lines of tokens -/

/-- Moved tokens make moved lines. -/
theorem linesFrom_map_shift (number : Nat) (ts : List Token) :
    linesFrom (n + number) (ts.map (Token.shift d)) =
      (linesFrom number ts).map (Line.shift d n) := by
  have hnewline : (fun t : Token => !t.isNewline) ∘ Token.shift d = fun t => !t.isNewline := rfl
  induction number, ts using linesFrom_induction with
  | nil number => rw [List.map_nil, linesFrom_nil, linesFrom_nil, List.map_nil]
  | newline number t ts h ih =>
    rw [List.map_cons, linesFrom_newline h, linesFrom_newline (t := t.shift d) h, Nat.add_assoc, ih]
  | line number t ts h ih =>
    rw [List.map_cons, linesFrom_cons h, linesFrom_cons (t := t.shift d) h, List.takeWhile_map,
      List.dropWhile_map, hnewline, ih]
    rfl

end

section

variable {feed : Token}

/-- What follows a line feed does not belong to the line before it. -/
theorem takeWhile_append_newline (hfeed : feed.isNewline = true) (ts us : List Token) :
    (ts ++ feed :: us).takeWhile (!·.isNewline) = ts.takeWhile (!·.isNewline) := by
  induction ts with
  | nil => exact List.takeWhile_cons_of_neg (by simp [hfeed])
  | cons t ts ih => rw [List.cons_append, List.takeWhile_cons, List.takeWhile_cons, ih]

/-- What follows a line feed comes after the rest of the line before it. -/
theorem dropWhile_append_newline (hfeed : feed.isNewline = true) (ts us : List Token) :
    (ts ++ feed :: us).dropWhile (!·.isNewline) =
      ts.dropWhile (!·.isNewline) ++ feed :: us := by
  induction ts with
  | nil => exact List.dropWhile_cons_of_neg (by simp [hfeed])
  | cons t ts ih =>
    rw [List.cons_append, List.dropWhile_cons, List.dropWhile_cons, ih]
    split <;> rfl

/-- No line feed is among the tokens of a line. -/
theorem countP_dropWhile_newline (ts : List Token) :
    (ts.dropWhile (!·.isNewline)).countP Token.isNewline = ts.countP Token.isNewline := by
  induction ts with
  | nil => rfl
  | cons t ts ih =>
    by_cases h : t.isNewline = true
    · rw [List.dropWhile_cons_of_neg (by simp [h])]
    · rw [List.dropWhile_cons_of_pos (by simp [h]), ih, List.countP_cons_of_neg h]

/-- Behind a line feed the tokens make lines of their own. -/
theorem linesFrom_append_newline (hfeed : feed.isNewline = true) (number : Nat)
    (ts us : List Token) :
    linesFrom number (ts ++ feed :: us) =
      linesFrom number ts ++ linesFrom (number + ts.countP Token.isNewline + 1) us := by
  induction number, ts using linesFrom_induction with
  | nil number =>
    rw [List.nil_append, linesFrom_newline hfeed, linesFrom_nil]
    rfl
  | newline number t ts h ih =>
    rw [List.cons_append, linesFrom_newline h, linesFrom_newline h, ih, List.countP_cons_of_pos h,
      Nat.add_right_comm number, Nat.add_assoc number]
  | line number t ts h ih =>
    rw [List.cons_append, linesFrom_cons h, linesFrom_cons h, takeWhile_append_newline hfeed,
      dropWhile_append_newline hfeed, ih, countP_dropWhile_newline,
      List.countP_cons_of_neg (by simp [h]), List.cons_append]

end

/-! ### Scripts of two parts -/

/-- The line feeds among the tokens of a script are those among its characters. -/
theorem Tiling.countP_isNewline {offset : Nat} {text : List Char} {tokens : List Token}
    (h : Tiling offset text tokens) : tokens.countP Token.isNewline = text.count '\n' := by
  obtain ⟨tail, htail, rfl⟩ := h.covers
  rw [List.count_append, count_newline_writtenOut h.wellFormed, List.count_eq_zero.2 htail,
    Nat.add_zero]

/-- The lines of a script of two parts are those of the first part, followed by those of the second
as far on as the first part reaches. -/
theorem toLines_append_newline {a b : String} {ta tb : List Token} (ha : tokenize a = .ok ta)
    (hb : tokenize b = .ok tb) :
    ∃ tokens, tokenize (a ++ "\n" ++ b) = .ok tokens ∧
      Token.toLines tokens = Token.toLines ta ++
        (Token.toLines tb).map (Line.shift (a.utf8ByteSize + 1) (1 + a.toList.count '\n')) := by
  obtain ⟨feed, hfeed, -, hlonger⟩ := tokenize_append_newline ha
  refine ⟨ta ++ feed :: tb.map (Token.shift (a.utf8ByteSize + 1)), ?_, ?_⟩
  · rw [hlonger, hb]
    rfl
  · rw [Token.toLines, linesFrom_append_newline hfeed, (tiling_of_tokenize ha).countP_isNewline,
      linesFrom_map_shift]
    rfl

end ScriptHints
