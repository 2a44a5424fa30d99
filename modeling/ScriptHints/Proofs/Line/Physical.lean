import Mathlib
import ScriptHints.Proofs.Line.Reindentation

/-!
# Lines and physical lines

A script is written in physical lines, one after each line feed. Lines are made of tokens and know
nothing of the text; still they are the physical lines that hold anything, with the same numbers and
the same indentation.

* `PhysicalLine`, `placedLines` — the physical lines of a script with their numbers and places.
* `exists_placedLine` — text without a line feed is on one physical line.
* `blank_of_mem_lead` — nothing but blanks is skipped before a token that is no line feed.
* `Line.Occupies` — a line holds the tokens of a physical line and is indented like it.
* `occupies_placedLines` — the lines of a script occupy its physical lines but for those of blanks
  and comments, in order.
* `lines_are_physical_lines` — all of it, with the region of a line and the tokens put together.
-/

namespace ScriptHints

open Text

/-! ### Physical lines and their places -/

/-- A physical line of a script. -/
structure PhysicalLine where
  /-- The number of the line, counting from one. -/
  number : Nat
  /-- Offset of its first byte. -/
  offset : Nat
  /-- Its characters, without the line feed. -/
  text : List Char
  deriving DecidableEq, Repr

/-- Offset of the byte behind the line, where its line feed is or the script ends. -/
def PhysicalLine.stop (l : PhysicalLine) : Nat := l.offset + size l.text

/-- The physical line `d` bytes and `n` lines further on. -/
def PhysicalLine.shift (d n : Nat) (l : PhysicalLine) : PhysicalLine :=
  ⟨n + l.number, d + l.offset, l.text⟩

/-- Texts as physical lines, the first of which has the given number and place. There is a line feed
between two of them. -/
def placeLines (number offset : Nat) : List (List Char) → List PhysicalLine
  | [] => []
  | text :: texts =>
    ⟨number, offset, text⟩ :: placeLines (number + 1) (offset + size text + 1) texts

/-- The physical lines of a script. -/
def placedLines (source : String) : List PhysicalLine := placeLines 1 0 (physicalLines source)

/-- Counting lines and bytes from elsewhere shifts all of the lines. -/
theorem placeLines_shift (d n number offset : Nat) (texts : List (List Char)) :
    placeLines (n + number) (d + offset) texts =
      (placeLines number offset texts).map (PhysicalLine.shift d n) := by
  induction texts generalizing number offset with
  | nil => rfl
  | cons text texts ih =>
    rw [placeLines, placeLines, List.map_cons, ← ih]
    simp only [Nat.add_assoc]
    rfl

/-- Further texts are placed behind the line feeds of those before. -/
theorem placeLines_append (number offset : Nat) (texts others : List (List Char)) :
    placeLines number offset (texts ++ others) =
      placeLines number offset texts ++
        placeLines (number + texts.length) (offset + (texts.map fun t => size t + 1).sum) others := by
  induction texts generalizing number offset with
  | nil => rfl
  | cons text texts ih =>
    rw [List.cons_append, placeLines, ih, placeLines, List.cons_append, List.length_cons,
      List.map_cons, List.sum_cons]
    congr 3 <;> omega

/-- A text has one line more than line feeds, and all its bytes are on its lines. -/
theorem length_and_size_splitOn (cs : List Char) :
    (cs.splitOn '\n').length = cs.count '\n' + 1 ∧
      ((cs.splitOn '\n').map fun t => size t + 1).sum = size cs + 1 := by
  induction cs with
  | nil => exact ⟨rfl, rfl⟩
  | cons c cs ih =>
    obtain ⟨first, others, hcs⟩ := List.exists_cons_of_ne_nil (List.splitOn_ne_nil '\n' cs)
    rw [hcs, List.length_cons, List.map_cons, List.sum_cons] at ih
    obtain ⟨hlength, hsize⟩ := ih
    rw [List.splitOn_cons_eq_if_modifyHead, hcs]
    split_ifs with hc
    · obtain rfl : c = '\n' := by simpa using hc
      have hfeed : size ('\n' :: cs) = 1 + size cs := rfl
      rw [List.count_cons_self, List.length_cons, List.length_cons, List.map_cons, List.map_cons,
        List.sum_cons, List.sum_cons, hfeed, size_nil]
      omega
    · rw [List.count_cons_of_ne (by simpa using hc), List.modifyHead_cons, List.length_cons,
        List.map_cons, List.sum_cons, size_cons, size_cons]
      omega

/-- What is left of a text behind its first line begins with a line feed. -/
theorem dropWhile_inLine (text : List Char) :
    text.dropWhile inLine = [] ∨ ∃ rest, text.dropWhile inLine = '\n' :: rest := by
  rcases hrest : text.dropWhile inLine with _ | ⟨c, rest⟩
  · exact .inl rfl
  · have hc := head_dropWhile inLine text c (by rw [hrest]; rfl)
    exact .inr ⟨rest, by rw [inLine_eq_false_iff.1 hc]⟩

section

variable {before text after : List Char}

/-- A text between two line feeds, or between one and an end of the script, is a physical line. -/
theorem mem_placeLines_splitOn (hbefore : before = [] ∨ ∃ front, before = front ++ ['\n'])
    (htext : '\n' ∉ text) (hafter : after = [] ∨ ∃ rest, after = '\n' :: rest) :
    ⟨1 + before.count '\n', size before, text⟩ ∈
      placeLines 1 0 ((before ++ text ++ after).splitOn '\n') := by
  have hhead : ∃ others, (text ++ after).splitOn '\n' = text :: others := by
    rcases hafter with rfl | ⟨rest, rfl⟩
    · exact ⟨[], by rw [List.append_nil, List.splitOn_eq_singleton htext]⟩
    · exact ⟨_, List.splitOn_append_cons_self_of_not_mem htext rest⟩
  obtain ⟨others, hothers⟩ := hhead
  rcases hbefore with rfl | ⟨front, rfl⟩
  · rw [List.nil_append, hothers]
    exact List.mem_cons_self
  · obtain ⟨hlength, hsize⟩ := length_and_size_splitOn front
    have hcount : 1 + (front ++ ['\n']).count '\n' = 1 + (front.count '\n' + 1) := by simp
    have hbytes : size (front ++ ['\n']) = 0 + (size front + 1) := by
      rw [size_append, Nat.zero_add]
      rfl
    rw [List.append_assoc, List.append_assoc, List.singleton_append,
      List.splitOn_append_cons_self, hothers, placeLines_append, hlength, hsize, hcount, hbytes]
    exact List.mem_append_right _ List.mem_cons_self

/-- Text without a line feed is on one physical line, and it reaches to the end of that line if a
line feed or the end of the script is behind it. -/
theorem exists_placedLine {source : String} (h : source.toList = before ++ text ++ after)
    (htext : '\n' ∉ text) :
    ∃ l ∈ placedLines source, ∃ front back, l.text = front ++ text ++ back ∧
      size before = l.offset + size front ∧
      ((after = [] ∨ ∃ rest, after = '\n' :: rest) → back = []) := by
  have hinLine : ∀ {cs : List Char}, (∀ c ∈ cs, inLine c = true) → '\n' ∉ cs := by
    intro cs hcs hmem
    have hfeed := hcs _ hmem
    simp [inLine] at hfeed
  have hbefore := List.rdropWhile_append_rtakeWhile (p := inLine) (l := before)
  have hafter := List.takeWhile_append_dropWhile (p := inLine) (l := after)
  have hmem := @mem_placeLines_splitOn (before.rdropWhile inLine)
    (before.rtakeWhile inLine ++ text ++ after.takeWhile inLine) (after.dropWhile inLine) ?_ ?_ ?_
  · have hsource : before.rdropWhile inLine ++
        (before.rtakeWhile inLine ++ text ++ after.takeWhile inLine) ++ after.dropWhile inLine =
        source.toList := by
      rw [h, List.append_assoc, List.append_assoc _ (after.takeWhile inLine), hafter,
        ← List.append_assoc, ← List.append_assoc, hbefore]
    rw [hsource] at hmem
    refine ⟨_, hmem, before.rtakeWhile inLine, after.takeWhile inLine, rfl, ?_, ?_⟩
    · show _ = size (before.rdropWhile inLine) + size (before.rtakeWhile inLine)
      rw [← size_append, hbefore]
    · rintro (rfl | ⟨rest, rfl⟩) <;> rfl
  · rcases List.eq_nil_or_concat (before.rdropWhile inLine) with hnil | ⟨front, c, hconcat⟩
    · exact .inl hnil
    · rw [List.concat_eq_append] at hconcat
      have hlast := List.rdropWhile_last_not inLine before (by simp [hconcat])
      simp only [hconcat, List.getLast_append_singleton, Bool.not_eq_true,
        inLine_eq_false_iff] at hlast
      exact .inr ⟨front, by rw [hconcat, hlast]⟩
  · simp only [List.mem_append, not_or]
    exact ⟨⟨hinLine fun c hc => List.mem_rtakeWhile_imp hc, htext⟩,
      hinLine fun c hc => List.mem_takeWhile_imp hc⟩
  · exact dropWhile_inLine after

end

/-! ### Blanks before a token -/

/-- A gap before anything but a line feed or the end is made of blanks: a comment would reach up to
one of the two. -/
theorem IsGap.blank_of_mem {gap rest : List Char} {c : Char} (h : IsGap gap (c :: rest))
    (hc : c ≠ '\n') : ∀ x ∈ gap, isBlank x = true := by
  generalize htext : c :: rest = text at h
  induction h with
  | nil => exact List.forall_mem_nil _
  | blank hblank h ih => exact List.forall_mem_cons.2 ⟨isBlank_iff.2 hblank, ih htext⟩
  | @comment body gap _ hbody hstop h ih =>
    subst htext
    rcases gap with _ | ⟨x, gap⟩
    · exact absurd (hstop c rfl) hc
    · exact absurd (hstop x rfl) h.head_ne_newline

/-- No lexeme begins with a blank, and none but the line feed with a line feed. -/
theorem IsLexeme.exists_head {category : Category} {chars rest : List Char}
    (h : IsLexeme category chars rest) :
    ∃ c cs, chars = c :: cs ∧ isBlank c = false ∧ (category ≠ .newline → c ≠ '\n') := by
  obtain ⟨c, cs, hchars⟩ := List.exists_cons_of_ne_nil h.chars_ne_nil
  obtain ⟨x, xs, happ, hpiece⟩ := piece_of_isLexeme h
  obtain rfl : c = x := by
    rw [hchars, List.cons_append] at happ
    exact (List.cons.inj happ).1
  refine ⟨c, cs, hchars, ?_, ?_⟩
  · rw [Bool.eq_false_iff]
    intro hblank
    rw [piece_blank hblank] at hpiece
    cases hpiece
  · rintro hcategory rfl
    rw [piece_newline] at hpiece
    exact hcategory (Verdict.lexeme.inj (congrArg Piece.verdict hpiece)).symm

/-- Nothing but blanks is skipped before a token that is no line feed, and the token begins with
none. -/
theorem blank_of_mem_lead {source : String} {tokens : List Token} (h : tokenize source = .ok tokens)
    {t : Token} (ht : t ∈ tokens) (hfeed : t.isNewline = false) :
    (∀ c ∈ t.lead, isBlank c = true) ∧ ∃ c cs, t.chars = c :: cs ∧ isBlank c = false := by
  obtain ⟨after, hgap, hlexeme⟩ := isLexeme_of_tokenize h ht
  obtain ⟨c, cs, hchars, hblank, hne⟩ := hlexeme.exists_head
  rw [hchars, List.cons_append] at hgap
  exact ⟨hgap.blank_of_mem (hne (by simpa [Token.isNewline] using hfeed)), c, cs, hchars, hblank⟩

/-! ### Blank lines -/

/-- A gap at the end of a script is padding. -/
theorem IsGap.isPadding {gap : List Char} (h : IsGap gap []) : IsPadding gap := by
  generalize hend : ([] : List Char) = rest at h
  induction h with
  | nil => exact ⟨[], [], rfl, List.forall_mem_nil _, .inl rfl⟩
  | @blank c gap _ hc h ih =>
    obtain ⟨blanks, comment, rfl, hblanks, hcomment⟩ := ih hend
    exact ⟨c :: blanks, comment, rfl, List.forall_mem_cons.2 ⟨hc, hblanks⟩, hcomment⟩
  | @comment body gap _ hbody hstop h ih =>
    subst hend
    rcases gap with _ | ⟨c, gap⟩
    · exact ⟨[], '#' :: body, List.append_nil _, List.forall_mem_nil _, .inr ⟨body, rfl, hbody⟩⟩
    · exact absurd (hstop c rfl) h.head_ne_newline

/-- Padding is what keeps to its line and holds nothing behind its blanks but a comment. -/
theorem isPadding_iff {text : List Char} :
    IsPadding text ↔ '\n' ∉ text ∧ (text.dropWhile isBlank).head?.all (· == '#') = true := by
  rw [Option.all_eq_true]
  simp only [beq_iff_eq]
  constructor
  · intro h
    refine ⟨h.inLine, ?_⟩
    obtain ⟨blanks, comment, rfl, hblanks, hcomment⟩ := h
    have hrun : ∀ c ∈ blanks, isBlank c = true := fun c hc => isBlank_iff.2 (hblanks c hc)
    rcases hcomment with rfl | ⟨body, rfl, -⟩
    · rw [List.append_nil, List.dropWhile_eq_nil_iff.2 hrun]
      nofun
    · rw [dropWhile_run hrun (by rintro c ⟨⟩; rfl)]
      rintro c ⟨⟩
      rfl
  · rintro ⟨hline, hhead⟩
    have hsplit := List.takeWhile_append_dropWhile (p := isBlank) (l := text)
    refine ⟨text.takeWhile isBlank, text.dropWhile isBlank, hsplit.symm, ?_, ?_⟩
    · intro c hc
      exact isBlank_iff.1 (List.mem_takeWhile_imp hc)
    · rcases hrest : text.dropWhile isBlank with _ | ⟨c, body⟩
      · exact .inl rfl
      · obtain rfl : c = '#' := hhead c (by rw [hrest]; rfl)
        refine .inr ⟨body, rfl, fun hmem => hline ?_⟩
        rw [← hsplit, hrest]
        exact List.mem_append_right _ (List.mem_cons_of_mem _ hmem)

instance : DecidablePred IsPadding := fun _ => decidable_of_iff _ isPadding_iff.symm

/-! ### Lines occupy physical lines -/

/-- The token is on the physical line. -/
def Token.LiesIn (l : PhysicalLine) (t : Token) : Prop := l.offset ≤ t.start ∧ t.stop ≤ l.stop

instance (l : PhysicalLine) (t : Token) : Decidable (t.LiesIn l) :=
  inferInstanceAs (Decidable (_ ∧ _))

/-- `line.Occupies tokens l`: the line is the physical line `l` of a script with the given
tokens. -/
structure Line.Occupies (line : Line) (tokens : List Token) (l : PhysicalLine) : Prop where
  number : line.number = l.number
  /-- The line is indented with the blanks that the physical line begins with, -/
  indent : line.indent = l.text.takeWhile isBlank
  /-- and its indentation is where they are. -/
  indentSpan : line.indentSpan = ⟨l.offset, l.offset + size (l.text.takeWhile isBlank)⟩
  /-- It has the tokens that are on the physical line. -/
  tokens : line.tokens = tokens.filter (Token.LiesIn l)

section

variable {source : String} {tokens ta tb : List Token} {text : List Char} {line : Line}
  {l : PhysicalLine} {d n : Nat}

/-- A token lies in a line wherever the two are shifted together. -/
theorem liesIn_shift {t : Token} : (t.shift d).LiesIn (l.shift d n) ↔ t.LiesIn l := by
  rw [Token.LiesIn, Token.start_shift, Token.stop_shift]
  show d + l.offset ≤ d + t.start ∧ d + t.stop ≤ d + l.offset + size l.text ↔ t.LiesIn l
  rw [Nat.add_assoc, Nat.add_le_add_iff_left, Nat.add_le_add_iff_left]
  rfl

/-- Tokens before a place and tokens behind a physical line are not on it. -/
theorem filter_liesIn_eq_nil (h : ∀ t ∈ tokens, t.start < l.offset ∨ l.stop < t.stop) :
    tokens.filter (Token.LiesIn l) = [] := by
  rw [List.filter_eq_nil_iff]
  intro t ht
  rw [decide_eq_true_eq]
  rintro ⟨hstart, hstop⟩
  rcases h t ht with hlt | hlt <;> omega

/-- A line that occupies a physical line does so further on as well, behind tokens that are all
before the place to which it is moved. -/
theorem Line.Occupies.shift (h : line.Occupies tb l) (hbefore : ∀ t ∈ ta, t.start < d) :
    (line.shift d n).Occupies (ta ++ tb.map (Token.shift d)) (l.shift d n) where
  number := congrArg (n + ·) h.number
  indent := h.indent
  indentSpan := by
    rw [Line.indentSpan_shift, h.indentSpan, Span.shift, ← Nat.add_assoc]
    rfl
  tokens := by
    have hfront : ta.filter (Token.LiesIn (l.shift d n)) = [] := by
      apply filter_liesIn_eq_nil
      intro t ht
      exact .inl (Nat.lt_of_lt_of_le (hbefore t ht) (Nat.le_add_right d l.offset))
    have htest : (fun t => decide (t.LiesIn (l.shift d n))) ∘ Token.shift d =
        fun t => decide (t.LiesIn l) := by
      funext t
      exact decide_eq_decide.2 liesIn_shift
    rw [List.filter_append, hfront, List.nil_append, List.filter_map, htest, ← h.tokens]
    rfl

/-- Tokens behind a physical line make no difference to the line that occupies it. -/
theorem Line.Occupies.append (h : line.Occupies ta l) (hbehind : ∀ t ∈ tb, l.stop < t.stop) :
    line.Occupies (ta ++ tb) l where
  number := h.number
  indent := h.indent
  indentSpan := h.indentSpan
  tokens := by
    rw [List.filter_append, filter_liesIn_eq_nil fun t ht => .inr (hbehind t ht), List.append_nil,
      ← h.tokens]

/-- A token of a text ends inside the text. -/
theorem stop_le_of_tokenize (h : tokenize (String.ofList text) = .ok tokens) {t : Token}
    (ht : t ∈ tokens) : t.stop ≤ size text := by
  have hstop := stop_le_size_of_slice? ((tiling_of_tokenize h).slice?_span ht)
  rwa [String.toList_ofList] at hstop

/-- A text on one line with a token in it makes one line, which occupies it. -/
theorem occupies_of_cons {t : Token} (h : tokenize (String.ofList text) = .ok (t :: ta))
    (htext : '\n' ∉ text) :
    ∃ line, Token.toLines (t :: ta) = [line] ∧ line.Occupies (t :: ta) ⟨1, 0, text⟩ := by
  have htiling : Tiling 0 (String.ofList text).toList ([] ++ t :: ta) := tiling_of_tokenize h
  have hfeed : ∀ x ∈ t :: ta, x.isNewline = false := by
    have hcount := htiling.countP_isNewline
    rw [String.toList_ofList, List.count_eq_zero.2 htext, List.countP_eq_zero] at hcount
    simpa using hcount
  obtain ⟨hoffset, after, happ⟩ := htiling.split
  rw [String.toList_ofList, writtenOut_nil, List.nil_append, List.append_assoc] at happ
  have hindent : text.takeWhile isBlank = t.lead := by
    obtain ⟨hlead, c, cs, hchars, hc⟩ :=
      blank_of_mem_lead h List.mem_cons_self (hfeed t List.mem_cons_self)
    rw [happ]
    apply takeWhile_run hlead
    rw [hchars]
    rintro x ⟨⟩
    exact hc
  refine ⟨_, toLines_of_inLine hfeed, rfl, hindent.symm, ?_, ?_⟩
  · show Span.mk t.offset (t.offset + size t.lead) = _
    rw [hindent, hoffset]
    rfl
  · show t :: ta = _
    rw [eq_comm, List.filter_eq_self]
    intro x hx
    rw [decide_eq_true_eq]
    refine ⟨Nat.zero_le _, ?_⟩
    rw [PhysicalLine.stop, Nat.zero_add]
    exact stop_le_of_tokenize h hx

/-- The lines of a text on one line: none if it is padding, and otherwise the one that occupies
it, whatever tokens are behind it. -/
theorem occupies_single (h : tokenize (String.ofList text) = .ok ta) (htext : '\n' ∉ text)
    (hbehind : ∀ t ∈ tb, size text < t.stop) :
    List.Forall₂ (fun line l => line.Occupies (ta ++ tb) l) (Token.toLines ta)
      ([⟨1, 0, text⟩].filter fun l : PhysicalLine => ¬IsPadding l.text) := by
  by_cases hpad : IsPadding text
  · have hnone : tokenize (String.ofList text) = .ok [] :=
      tokenize_padding (by rwa [String.toList_ofList])
    obtain rfl := Except.ok.inj (h.symm.trans hnone)
    rw [List.filter_cons_of_neg (by simpa using hpad), Token.toLines, linesFrom_nil]
    exact .nil
  · rw [List.filter_cons_of_pos (by simpa using hpad)]
    rcases ta with _ | ⟨t, ta⟩
    · -- without a token the text would be a gap, and so padding
      obtain ⟨lexemes, ⟨tail, happ, -, htail⟩, hnil⟩ := tokenize_eq_ok_iff_spells.1 h
      rcases lexemes with _ | ⟨l, ls⟩
      · rw [String.toList_ofList, spelling_nil, List.nil_append] at happ
        rw [happ] at hpad
        exact absurd htail.isPadding hpad
      · cases hnil
    · obtain ⟨line, hlines, hoccupies⟩ := occupies_of_cons h htext
      rw [hlines]
      refine .cons (hoccupies.append fun t ht => ?_) .nil
      rw [PhysicalLine.stop, Nat.zero_add]
      exact hbehind t ht

/-- The lines of texts put together, each without a line feed, occupy those that are not padding. -/
theorem occupies_joinLines {texts : List (List Char)} (hne : texts ≠ [])
    (htexts : ∀ text ∈ texts, '\n' ∉ text) (h : tokenize (joinLines texts) = .ok tokens) :
    List.Forall₂ (fun line l => line.Occupies tokens l) (Token.toLines tokens)
      ((placeLines 1 0 texts).filter fun l => ¬IsPadding l.text) := by
  induction texts generalizing tokens with
  | nil => exact absurd rfl hne
  | cons text texts ih =>
    have htext := htexts text List.mem_cons_self
    rcases texts with _ | ⟨text', texts⟩
    · rw [joinLines_singleton] at h
      have hsingle := occupies_single h htext (List.forall_mem_nil _)
      rwa [List.append_nil] at hsingle
    rw [joinLines_cons_cons] at h
    obtain ⟨⟨ta, ha⟩, tb, hb⟩ := tokenize_of_append_newline h
    have hrest := ih (List.cons_ne_nil _ _) (fun t ht => htexts t (List.mem_cons_of_mem _ ht)) hb
    obtain ⟨feed, hfeed, hspan, hlonger⟩ := tokenize_append_newline ha
    have hsize : (String.ofList text).utf8ByteSize = size text := by
      rw [← size_toList, String.toList_ofList]
    rw [hlonger, hb, hsize] at h
    rw [hsize] at hspan
    obtain rfl : ta ++ feed :: tb.map (Token.shift (size text + 1)) = tokens := Except.ok.inj h
    -- what is behind the line feed is as far on as the first line reaches
    have hplaces : placeLines 1 0 (text :: text' :: texts) =
        [⟨1, 0, text⟩] ++ (placeLines 1 0 (text' :: texts)).map
          (PhysicalLine.shift (size text + 1) 1) := by
      rw [← placeLines_shift, placeLines, Nat.zero_add, Nat.add_zero]
      rfl
    have hlines : Token.toLines (ta ++ feed :: tb.map (Token.shift (size text + 1))) =
        Token.toLines ta ++ (Token.toLines tb).map (Line.shift (size text + 1) 1) := by
      rw [Token.toLines, linesFrom_append_newline hfeed, (tiling_of_tokenize ha).countP_isNewline,
        String.toList_ofList, List.count_eq_zero.2 htext, linesFrom_map_shift]
      rfl
    have hfirst : ∀ t ∈ ta, t.stop ≤ size text := fun t ht => stop_le_of_tokenize ha ht
    have hstop : feed.stop = size text + 1 := congrArg Span.stop hspan
    have hstart : feed.start = size text := congrArg Span.start hspan
    rw [hlines, hplaces, List.filter_append, List.filter_map]
    apply List.rel_append
    · apply occupies_single ha htext
      intro t ht
      rcases List.mem_cons.1 ht with rfl | ht
      · omega
      · obtain ⟨x, -, rfl⟩ := List.mem_map.1 ht
        rw [Token.stop_shift]
        omega
    · rw [List.forall₂_map_left_iff, List.forall₂_map_right_iff]
      have happ : ta ++ feed :: tb.map (Token.shift (size text + 1)) =
          (ta ++ [feed]) ++ tb.map (Token.shift (size text + 1)) := by simp
      rw [happ]
      refine hrest.imp fun line l hoccupies => hoccupies.shift ?_
      intro t ht
      rcases List.mem_append.1 ht with ht | ht
      · have hle := t.start_le_stop
        have hlt := hfirst t ht
        omega
      · rw [List.mem_singleton.1 ht]
        omega

/-- The lines of a script occupy its physical lines but for those that are padding, in order. -/
theorem occupies_placedLines (h : tokenize source = .ok tokens) :
    List.Forall₂ (fun line l => line.Occupies tokens l) (Token.toLines tokens)
      ((placedLines source).filter fun l => ¬IsPadding l.text) := by
  apply occupies_joinLines (List.splitOn_ne_nil '\n' source.toList)
  · intro text htext
    exact notMem_of_mem_splitOn htext
  · rwa [← physicalLines, joinLines_physicalLines]

/-- Every line of a script occupies one of its physical lines. -/
theorem exists_occupied (h : tokenize source = .ok tokens) (hl : line ∈ Token.toLines tokens) :
    ∃ l ∈ placedLines source, line.Occupies tokens l := by
  have hall := occupies_placedLines h
  obtain ⟨i, hi, rfl⟩ := List.mem_iff_getElem.1 hl
  have hi' := hi
  rw [hall.length_eq] at hi'
  exact ⟨_, (List.mem_filter.1 (List.getElem_mem hi')).1, hall.get hi hi'⟩

end

/-! ### The lines of a script -/

/-- The region covers all of the tokens. -/
def Span.Covers (s : Span) (ts : List Token) : Prop := ∀ t ∈ ts, s.start ≤ t.start ∧ t.stop ≤ s.stop

/-- What a single line is like: it has tokens, none of which is a line feed, and its region is the
smallest that covers them. -/
structure Line.Compact (line : Line) : Prop where
  ne_nil : line.tokens ≠ []
  inLine : ∀ t ∈ line.tokens, t.category ≠ .newline
  covers : line.span.Covers line.tokens
  least : ∀ s : Span, s.Covers line.tokens → s.start ≤ line.span.start ∧ line.span.stop ≤ s.stop

/-- The lines of a script are compact. -/
theorem compact_of_mem {source : String} {tokens : List Token} (h : tokenize source = .ok tokens)
    {line : Line} (hl : line ∈ Token.toLines tokens) : line.Compact where
  ne_nil := List.cons_ne_nil _ _
  inLine t ht := by
    simpa [Token.isNewline] using isNewline_of_mem_line hl ht
  covers t ht := by
    rw [(tiling_of_tokenize h).span_line hl]
    exact (tiling_of_tokenize h).line_bounds hl ht
  least s hs := by
    rw [(tiling_of_tokenize h).span_line hl]
    exact ⟨(hs line.first List.mem_cons_self).1, (hs line.last line.last_mem).2⟩

/-- The lines of a script are its physical lines, in order and without those that are made of blanks
and comments. Each has the number, the indentation and the tokens of its physical line, and put
together they hold all tokens but the line feeds. -/
theorem lines_are_physical_lines {source : String} {tokens : List Token}
    (h : tokenize source = .ok tokens) :
    List.Forall₂ (fun line l => line.Occupies tokens l) (Token.toLines tokens)
        ((placedLines source).filter fun l => ¬IsPadding l.text) ∧
      (∀ line ∈ Token.toLines tokens, line.Compact) ∧
      (Token.toLines tokens).flatMap Line.tokens = tokens.filter (·.category ≠ .newline) := by
  refine ⟨occupies_placedLines h, fun line hl => compact_of_mem h hl, ?_⟩
  rw [flatMap_tokens_toLines]
  apply List.filter_congr
  intro t _
  rw [Token.isNewline, decide_not, beq_eq_decide]

/-- The second physical line is empty and the third a comment behind a blank: the two lines of the
script are the first and the fourth. -/
theorem lines_are_physical_lines_commented :
    ∃ tokens, tokenize "a:\n\n # d\n\tb" = .ok tokens ∧
      List.Forall₂ (fun line l => line.Occupies tokens l) (Token.toLines tokens)
        [⟨1, 0, ['a', ':']⟩, ⟨4, 9, ['\t', 'b']⟩] := by
  have htokens : tokenize "a:\n\n # d\n\tb" = .ok
      [⟨.word, 0, [], ['a']⟩, ⟨.colon, 1, [], [':']⟩, ⟨.newline, 2, [], ['\n']⟩,
        ⟨.newline, 3, [], ['\n']⟩, ⟨.newline, 4, [' ', '#', ' ', 'd'], ['\n']⟩,
        ⟨.word, 9, ['\t'], ['b']⟩] := by cbv
  have hplaces : ((placedLines "a:\n\n # d\n\tb").filter fun l => ¬IsPadding l.text) =
      [⟨1, 0, ['a', ':']⟩, ⟨4, 9, ['\t', 'b']⟩] := by decide
  refine ⟨_, htokens, ?_⟩
  rw [← hplaces]
  exact (lines_are_physical_lines htokens).1

end ScriptHints
