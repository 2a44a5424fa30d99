import ScriptHints.Proofs.Token.Resumption

/-!
# Reading over a line feed

No lexeme and no gap reaches over a line feed, so a script is read line by line: what is read up to
a line feed is what the text before it has as a script of its own, and what is read behind it is
what the text behind it has. The same holds where the text before the line feed ends with blanks or
a comment that it might do without.

* `Breaks` — what ends every lexeme before it: a line feed, a blank, a comment or the end.
  `IsLexeme.replace` and `Fits.replace` say that lexemes before one such text are lexemes before any
  other.
* `tokenize_append_newline_error` — an error stays where it is, whatever comes on further lines.
* `tokenize_append_newline` — the tokens of a script of two parts are those of the first part, the
  line feed, and those of the second part as far on as the first part is long.
* `tokenize_by_lines` — all of it, for any two parts and whichever of them has an error.
* `IsPadding` — blanks, perhaps with a comment behind them. `tokenize_append_padding` says that they
  make no difference to the tokens before them, and `tokenize_padding` that they have none.
-/

namespace ScriptHints

open Text

/-! ### What ends a lexeme -/

/-- The text is empty or begins with a line feed, a blank or a comment. -/
def Breaks (text : List Char) : Prop :=
  ∀ c ∈ text.head?, c = '\n' ∨ isBlank c = true ∨ c = '#'

/-- A line feed ends every lexeme. -/
theorem breaks_newline (cs : List Char) : Breaks ('\n' :: cs) := by
  intro c hc
  exact .inl (Option.some.inj hc).symm

/-- The first character of what ends a lexeme is outside any class that has none of these
characters. -/
theorem Breaks.outside {text : List Char} (h : Breaks text) {p : Char → Bool}
    (hp : ['\n', ' ', '\t', '\r', '\x0c', '#'].any p = false) : ∀ c ∈ text.head?, p c = false := by
  intro c hc
  apply Bool.eq_false_iff.2
  apply List.any_eq_false.1 hp
  rcases h c hc with rfl | hblank | rfl
  · simp
  · rcases isBlank_iff.1 hblank with rfl | rfl | rfl | rfl <;> simp
  · simp

/-- What follows does not change the first character. -/
theorem head?_append_of_ne_nil {x : List Char} (h : x ≠ []) (rest rest' : List Char) :
    (x ++ rest).head? = (x ++ rest').head? := by
  obtain ⟨c, x, rfl⟩ := List.exists_cons_of_ne_nil h
  rfl

/-- Whatever stands behind `x`, its first character is outside a class if that of what stood there
before was. -/
theorem head_replace {p : Char → Bool} {x rest rest' : List Char}
    (h : ∀ c ∈ (x ++ rest).head?, p c = false) (h' : ∀ c ∈ rest'.head?, p c = false) :
    ∀ c ∈ (x ++ rest').head?, p c = false := by
  rcases x with _ | ⟨a, x⟩
  · exact h'
  · exact h

/-- The characters that numbers are made of. -/
def isNumberPart (c : Char) : Bool := c.isDigit || c == '.'

/-- A number is made of digits and points. -/
theorem IsNumber.isNumberPart {n : List Char} (h : IsNumber n) {c : Char} (hc : c ∈ n) :
    isNumberPart c = true := by
  rw [ScriptHints.isNumberPart, Bool.or_eq_true, beq_iff_eq]
  rcases h with ⟨-, hds⟩ | ⟨-, hds, -, hfs⟩
  · exact .inl (hds c hc)
  · rcases List.mem_append.1 hc with hc | hc
    · exact .inl (hds c hc)
    · rcases List.mem_cons.1 hc with rfl | hc
      · exact .inr rfl
      · exact .inl (hfs c hc)

/-- A run of a class does not reach into a text that begins outside of it. -/
theorem prefix_of_prefix_append {p : Char → Bool} {run x rest : List Char}
    (hrun : ∀ c ∈ run, p c = true) (hrest : ∀ c ∈ rest.head?, p c = false)
    (h : run <+: x ++ rest) : run <+: x := by
  obtain ⟨after, happ⟩ := h
  rcases List.append_eq_append_iff.1 happ with ⟨between, rfl, -⟩ | ⟨more, rfl, rfl⟩
  · exact List.prefix_append _ _
  · rcases more with _ | ⟨c, more⟩
    · simp
    · have hin := hrun c (by simp)
      have hout := hrest c rfl
      rw [hin] at hout
      cases hout

/-- What stands behind a lexeme may be replaced by whatever ends a lexeme. -/
theorem IsLexeme.replace {category : Category} {chars x rest rest' : List Char}
    (h : IsLexeme category chars (x ++ rest)) (hbreaks : Breaks rest') :
    IsLexeme category chars (x ++ rest') := by
  generalize hmore : x ++ rest = more at h
  cases h with
  | newline => exact .newline _
  | word hc hcs hstop =>
    subst hmore
    simp only [← isWordPart_iff, Bool.not_eq_true] at hstop
    have hreplaced := head_replace hstop (hbreaks.outside (by decide))
    simp only [← Bool.not_eq_true, isWordPart_iff] at hreplaced
    exact .word hc hcs hreplaced
  | number hn hmax =>
    subst hmore
    apply IsLexeme.number hn
    intro more hprefix hnumber
    refine hmax more ?_ hnumber
    have hrun : ∀ c ∈ more, isNumberPart c = true := by
      intro c hc
      exact hnumber.isNumberPart (List.mem_append_right _ hc)
    have hstop : ∀ c ∈ rest'.head?, isNumberPart c = false := hbreaks.outside (by decide)
    exact (prefix_of_prefix_append hrun hstop hprefix).trans (List.prefix_append x rest)
  | text hbody hstop =>
    subst hmore
    apply IsLexeme.text hbody
    have hmark : ∀ c ∈ (x ++ rest).head?, (c == '"') = false := by
      intro c hc
      rw [beq_eq_false_iff_ne]
      rintro rfl
      exact hstop hc
    intro hhead
    have hreplaced := head_replace hmark (hbreaks.outside (by decide)) _ hhead
    cases hreplaced
  | var _ hname hne => exact .var _ hname hne
  | colon => exact .colon _
  | symbol _ hspace hword hc => exact .symbol _ hspace hword hc

/-- What stands behind a gap may change, as long as the first character stays. -/
theorem IsGap.replace {gap x rest : List Char} (h : IsGap gap (x ++ rest)) (hx : x ≠ [])
    (rest' : List Char) : IsGap gap (x ++ rest') := by
  generalize hmore : x ++ rest = more at h
  induction h with
  | nil => exact .nil _
  | blank hc h ih => exact .blank hc (ih hmore)
  | @comment body gap _ hbody hstop h ih =>
    refine .comment hbody ?_ (ih hmore)
    rw [← hmore, ← List.append_assoc] at hstop
    rwa [← List.append_assoc, head?_append_of_ne_nil (by simp [hx]) rest' rest]

/-- What stands behind lexemes may be replaced by whatever ends a lexeme. -/
theorem Fits.replace {x rest rest' : List Char} {ls : List Lexeme} (h : Fits (x ++ rest) ls)
    (hbreaks : Breaks rest') : Fits (x ++ rest') ls := by
  induction ls with
  | nil => trivial
  | cons l ls ih =>
    obtain ⟨hgap, hlexeme, hfits⟩ := h
    rw [← List.append_assoc] at hlexeme
    refine ⟨hgap.replace hlexeme.chars_ne_nil _, ?_, ih hfits⟩
    rw [← List.append_assoc]
    exact hlexeme.replace hbreaks

/-! ### The end of a line -/

/-- No gap begins with a line feed. -/
theorem IsGap.head_ne_newline {c : Char} {gap rest : List Char} (h : IsGap (c :: gap) rest) :
    c ≠ '\n' := by
  generalize htext : c :: gap = text at h
  rcases h with _ | ⟨hc, -⟩ | ⟨-, -, -⟩
  · cases htext
  · obtain ⟨rfl, -⟩ := List.cons.inj htext
    rcases hc with rfl | rfl | rfl | rfl <;> decide
  · obtain ⟨rfl, -⟩ := List.cons.inj htext
    decide

/-- A gap at the end of a script is one at the end of a line. -/
theorem IsGap.before_newline {gap : List Char} (h : IsGap gap []) (cs : List Char) :
    IsGap gap ('\n' :: cs) := by
  generalize hend : ([] : List Char) = rest at h
  induction h with
  | nil => exact .nil _
  | blank hc h ih => exact .blank hc (ih hend)
  | @comment body gap _ hbody hstop h ih =>
    refine .comment hbody ?_ (ih hend)
    rcases gap with _ | ⟨c, gap⟩
    · intro c hc
      exact (Option.some.inj hc).symm
    · exact hstop

/-! ### Errors -/

section

variable {c : Char} {cs shown front rest more : List Char} {cause : LexicalCause}

/-- A line ends at its line feed, whatever follows. -/
theorem takeWhile_inLine_append (cs more : List Char) :
    (cs ++ '\n' :: more).takeWhile inLine = cs.takeWhile inLine := by
  induction cs with
  | nil => rfl
  | cons c cs ih =>
    rw [List.cons_append, List.takeWhile_cons, List.takeWhile_cons, ih]

/-- A part of a script without a line feed that stands in front stands in front of the first
line. -/
theorem eq_append_of_inLine (hfront : '\n' ∉ front) (h : cs ++ '\n' :: more = front ++ rest) :
    ∃ after, cs = front ++ after ∧ rest = after ++ '\n' :: more := by
  rcases List.append_eq_append_iff.1 h with ⟨between, rfl, htext⟩ | ⟨after, rfl, htext⟩
  · rcases between with _ | ⟨x, between⟩
    · exact ⟨[], by simp, htext.symm⟩
    · obtain ⟨rfl, -⟩ := List.cons.inj htext
      simp at hfront
  · exact ⟨after, rfl, htext⟩

/-- A literal that is open at the end of a script is open at the end of a line. -/
theorem closeText?_append_newline (h : closeText? cs = none) (more : List Char) :
    closeText? (cs ++ '\n' :: more) = none := by
  rw [Option.eq_none_iff_forall_ne_some]
  rintro ⟨inside, rest⟩ hsome
  obtain ⟨body, hbody, hstop, rfl, happ⟩ := closeText?_eq_some_iff.1 hsome
  have hclosed : '\n' ∉ body ++ ['"'] := by
    simp [hbody.inLine]
  rw [List.append_cons _ _ rest] at happ
  obtain ⟨after, rfl, rfl⟩ := eq_append_of_inLine hclosed happ
  have hstop' : after.head? ≠ some '"' := by
    intro hhead
    exact hstop (mem_head?_append hhead _)
  rw [closeText?_eq_some_iff.2 ⟨body, hbody, hstop', rfl, (List.append_cons _ _ _).symm⟩] at h
  cases h

/-- A group that is open at the end of a script is open at the end of a line. -/
theorem closeGroup?_append_newline (h : closeGroup? cs = none) (more : List Char) :
    closeGroup? (cs ++ '\n' :: more) = none := by
  rw [Option.eq_none_iff_forall_ne_some]
  rintro ⟨inside, rest⟩ hsome
  obtain ⟨hcloses, happ⟩ := closeGroup?_eq_some_iff.1 hsome
  have hclosed : '\n' ∉ inside ++ ['}'] := by
    simp [hcloses.inLine]
  rw [List.append_cons _ _ rest] at happ
  obtain ⟨after, rfl, -⟩ := eq_append_of_inLine hclosed happ
  rw [closeGroup?_eq_some_iff.2 ⟨hcloses, (List.append_cons _ _ _).symm⟩] at h
  cases h

/-- Whether a character is a stray one does not depend on what stands behind it. -/
theorem verdict_stray (h : (piece c cs).verdict = .bad .strayCharacter shown) (cs' : List Char) :
    (piece c cs').verdict = .bad .strayCharacter shown := by
  -- anything else would be a piece of its own, whatever stands behind it
  have hblank : ¬isBlank c = true := by
    intro hc
    rw [piece_blank hc] at h
    cases h
  have hhash : c ≠ '#' := by
    rintro rfl
    rw [piece_hash] at h
    cases h
  have hnewline : c ≠ '\n' := by
    rintro rfl
    rw [piece_newline] at h
    cases h
  have hword : ¬isWordStart c = true := by
    intro hc
    rw [piece_word hc] at h
    cases h
  have hdigit : ¬c.isDigit = true := by
    intro hc
    rw [piece_digit hc] at h
    cases h
  have hmark : c ≠ '"' := by
    rintro rfl
    rw [piece_mark] at h
    split at h <;> cases h
  have hbrace : c ≠ '{' := by
    rintro rfl
    rw [piece_brace] at h
    split at h <;> cases h
  have hcolon : c ≠ ':' := by
    rintro rfl
    rw [piece_colon] at h
    cases h
  have hsymbol : ¬isSymbol c = true := by
    intro hc
    rw [piece_symbol hc] at h
    cases h
  rw [piece, if_neg hblank, if_neg hhash, if_neg hnewline, if_neg hword, if_neg hdigit,
    if_neg hmark, if_neg hbrace, if_neg hcolon, if_neg hsymbol] at h ⊢
  exact h

/-- A piece that is refused is refused in the same way if further lines follow. -/
theorem verdict_append_newline (h : (piece c cs).verdict = .bad cause shown) (more : List Char) :
    (piece c (cs ++ '\n' :: more)).verdict = .bad cause shown := by
  have hcut := piece_cut c cs
  have hstray := @verdict_stray c cs shown
  generalize piece c cs = p at h hcut hstray
  cases hcut with
  | openText hc hopen =>
    subst hc
    rw [piece_mark, closeText?_append_newline hopen, takeWhile_inLine_append]
    exact h
  | openGroup hc hopen =>
    subst hc
    rw [piece_brace, closeGroup?_append_newline hopen, takeWhile_inLine_append]
    exact h
  | @nameless rest hc hclose =>
    subst hc
    obtain ⟨hcloses, rfl⟩ := closeGroup?_eq_some_iff.1 hclose
    have happ : [] ++ '}' :: rest ++ '\n' :: more = [] ++ '}' :: (rest ++ '\n' :: more) := rfl
    rw [happ, piece_brace, closeGroup?_eq_some_iff.2 ⟨hcloses, rfl⟩]
    exact h
  | stray =>
    obtain ⟨rfl, -⟩ := Verdict.bad.inj h
    exact hstray h _
  | _ => cases h

end

/-- Text up to a refused piece is spelled as before if further lines follow. -/
theorem Spells.append_newline {ls : List Lexeme} {text cs : List Char} {c : Char}
    (h : Spells ls text (c :: cs)) (more : List Char) :
    Spells ls text (c :: (cs ++ '\n' :: more)) := by
  obtain ⟨tail, rfl, hfits, htail⟩ := h
  refine ⟨tail, rfl, ?_, htail.replace (x := [c]) (List.cons_ne_nil c []) _⟩
  rw [← List.append_nil (tail ++ c :: cs)] at hfits
  have hreplaced := hfits.replace (breaks_newline more)
  rwa [List.append_assoc, List.cons_append] at hreplaced

/-- An error stays where it is, whatever comes on further lines. -/
theorem tokenize_append_newline_error {a : String} {e : LexicalError} (h : tokenize a = .error e)
    (b : String) : tokenize (a ++ "\n" ++ b) = .error e := by
  obtain ⟨ls, text, stop, happ, hspells, hstop⟩ := exists_spelling (.nil a.toList)
  rw [List.nil_append] at happ
  rcases hstop with rfl | ⟨c, cs, cause, shown, rfl, hbad⟩
  · rw [List.append_nil] at happ
    rw [tokenize, Cursor.read, Cursor.atStart, happ, readFrom_of_spells hspells] at h
    cases h
  · have hlonger : (a ++ "\n" ++ b).toList = text ++ c :: (cs ++ '\n' :: b.toList) := by
      rw [String.toList_append, String.toList_append, happ]
      simp
    rw [tokenize, Cursor.read, Cursor.atStart, happ, readFrom_of_spells_bad hspells hbad] at h
    rw [tokenize, Cursor.read, Cursor.atStart, hlonger,
      readFrom_of_spells_bad (hspells.append_newline _) (verdict_append_newline hbad _)]
    exact h

/-! ### Tokens -/

/-- Lexemes in a row are spelled in that row. -/
theorem spelling_append (ls ls' : List Lexeme) :
    spelling (ls ++ ls') = spelling ls ++ spelling ls' := by
  simp [spelling]

/-- Lexemes stand in front of a text together if some of them stand in front of the others. -/
theorem Fits.append {rest : List Char} {ls ls' : List Lexeme} (h : Fits (spelling ls' ++ rest) ls)
    (h' : Fits rest ls') : Fits rest (ls ++ ls') := by
  induction ls with
  | nil => exact h'
  | cons l ls ih =>
    obtain ⟨hgap, hlexeme, hfits⟩ := h
    rw [← List.append_assoc (spelling ls), ← spelling_append] at hgap hlexeme
    exact ⟨hgap, hlexeme, ih hfits⟩

/-- Further lexemes become tokens behind the text of those before. -/
theorem tokensAt_append (offset : Nat) (ls ls' : List Lexeme) :
    tokensAt offset (ls ++ ls') =
      tokensAt offset ls ++ tokensAt (offset + size (spelling ls)) ls' := by
  induction ls generalizing offset with
  | nil => rfl
  | cons l ls ih =>
    rw [List.cons_append, tokensAt, ih, tokensAt, List.cons_append, spelling_cons, size_append,
      size_append]
    simp only [Nat.add_assoc]

/-- The tokens of a script of two parts are those of the first part, the line feed, and those of the
second part as far on as the first part is long. -/
theorem tokenize_append_newline {a : String} {tokens : List Token} (h : tokenize a = .ok tokens) :
    ∃ feed : Token, feed.isNewline = true ∧ feed.span = ⟨a.utf8ByteSize, a.utf8ByteSize + 1⟩ ∧
      ∀ b, tokenize (a ++ "\n" ++ b) =
        (shiftReading (a.utf8ByteSize + 1) (tokenize b)).map (tokens ++ feed :: ·) := by
  obtain ⟨ls, ⟨tail, htext, hfits, htail⟩, rfl⟩ := tokenize_eq_ok_iff_spells.1 h
  rw [List.append_nil] at hfits
  have hsize : size (spelling ls) + size tail = a.utf8ByteSize := by
    rw [← size_append, ← htext, size_toList]
  refine ⟨⟨.newline, size (spelling ls), tail, ['\n']⟩, rfl, ?_, ?_⟩
  · rw [← hsize]
    rfl
  intro b
  -- the line feed is one more lexeme, behind the last gap of the first part
  have hfeed : Fits b.toList [⟨tail, .newline, ['\n']⟩] :=
    ⟨htail.before_newline _, .newline _, trivial⟩
  have hall : Fits b.toList (ls ++ [⟨tail, .newline, ['\n']⟩]) := by
    refine Fits.append ?_ hfeed
    rw [← List.append_nil tail] at hfits
    simpa using hfits.replace (breaks_newline b.toList)
  have hlonger : (a ++ "\n" ++ b).toList =
      spelling (ls ++ [⟨tail, .newline, ['\n']⟩]) ++ b.toList := by
    rw [String.toList_append, String.toList_append, htext, spelling_append]
    simp
  have hsize' : 0 + size (spelling (ls ++ [⟨tail, .newline, ['\n']⟩])) =
      a.utf8ByteSize + 1 + 0 := by
    rw [spelling_append, size_append, ← hsize, Nat.zero_add, Nat.add_zero, Nat.add_assoc,
      spelling_cons, size_append]
    rfl
  rw [tokenize, Cursor.read, Cursor.atStart, hlonger, readFrom_fits hall, hsize', readFrom_shift,
    tokensAt_append, Nat.zero_add]
  simp only [tokensAt, List.append_assoc, List.singleton_append]
  rfl

/-- A script of two parts has tokens only if both parts have. -/
theorem tokenize_of_append_newline {a b : String} {tokens : List Token}
    (h : tokenize (a ++ "\n" ++ b) = .ok tokens) :
    (∃ ta, tokenize a = .ok ta) ∧ ∃ tb, tokenize b = .ok tb := by
  rcases ha : tokenize a with e | ta
  · rw [tokenize_append_newline_error ha] at h
    cases h
  · obtain ⟨feed, -, -, hlonger⟩ := tokenize_append_newline ha
    rw [hlonger] at h
    rcases hb : tokenize b with e | tb
    · rw [hb] at h
      cases h
    · exact ⟨⟨ta, rfl⟩, tb, rfl⟩

/-- A script of two parts is read like its parts. The tokens are those of the first part, a line
feed behind it and, moved behind that, those of the second part. An error in the first part stays
where it is, and one in the second part is moved like its tokens. -/
theorem tokenize_by_lines (a b : String) :
    (∀ ta tb, tokenize a = .ok ta → tokenize b = .ok tb →
      ∃ feed : Token, feed.category = .newline ∧
        feed.span = ⟨a.utf8ByteSize, a.utf8ByteSize + 1⟩ ∧
        tokenize (a ++ "\n" ++ b) = .ok (ta ++ feed :: tb.map (Token.shift (a.utf8ByteSize + 1)))) ∧
    (∀ e, tokenize a = .error e → tokenize (a ++ "\n" ++ b) = .error e) ∧
    ∀ ta e, tokenize a = .ok ta → tokenize b = .error e →
      tokenize (a ++ "\n" ++ b) = .error (e.shift (a.utf8ByteSize + 1)) := by
  refine ⟨?_, ?_, ?_⟩
  · intro ta tb ha hb
    obtain ⟨feed, hfeed, hspan, hlonger⟩ := tokenize_append_newline ha
    refine ⟨feed, beq_iff_eq.1 hfeed, hspan, ?_⟩
    rw [hlonger, hb]
    rfl
  · intro e ha
    exact tokenize_append_newline_error ha b
  · intro ta e ha hb
    obtain ⟨feed, -, -, hlonger⟩ := tokenize_append_newline ha
    rw [hlonger, hb]
    rfl

/-! ### Padding -/

/-- Blanks, perhaps with a comment behind them. -/
def IsPadding (text : List Char) : Prop :=
  ∃ blanks comment, text = blanks ++ comment ∧
    (∀ c ∈ blanks, c = ' ' ∨ c = '\t' ∨ c = '\r' ∨ c = '\x0c') ∧
    (comment = [] ∨ ∃ body, comment = '#' :: body ∧ '\n' ∉ body)

namespace IsPadding

variable {pad : List Char}

/-- Padding stays on its line. -/
theorem inLine (h : IsPadding pad) : '\n' ∉ pad := by
  obtain ⟨blanks, comment, rfl, hblanks, hcomment⟩ := h
  rw [List.mem_append]
  rintro (hmem | hmem)
  · have hblank := hblanks _ hmem
    simp at hblank
  · rcases hcomment with rfl | ⟨body, rfl, hbody⟩
    · cases hmem
    · simp [hbody] at hmem

/-- Padding ends every lexeme before it. -/
theorem breaks (h : IsPadding pad) : Breaks pad := by
  obtain ⟨blanks, comment, rfl, hblanks, hcomment⟩ := h
  intro c hc
  rcases blanks with _ | ⟨b, blanks⟩
  · rcases hcomment with rfl | ⟨body, rfl, -⟩
    · cases hc
    · exact .inr (.inr (Option.some.inj hc).symm)
  · obtain rfl := Option.some.inj hc
    exact .inr (.inl (isBlank_iff.2 (hblanks b List.mem_cons_self)))

/-- Padding is a gap at the end of a script. -/
theorem isGap (h : IsPadding pad) : IsGap pad [] := by
  obtain ⟨blanks, comment, rfl, hblanks, hcomment⟩ := h
  apply (isGap_of_blanks (fun c hc => isBlank_iff.2 (hblanks c hc)) _).append
  rcases hcomment with rfl | ⟨body, rfl, hbody⟩
  · exact .nil []
  · rw [← List.append_nil ('#' :: body)]
    exact .comment hbody nofun (.nil [])

end IsPadding

/-- Padding may be added to a gap at the end of a script: a comment there takes it in. -/
theorem IsGap.append_padding {gap pad : List Char} (h : IsGap gap []) (hpad : IsPadding pad) :
    IsGap (gap ++ pad) [] := by
  generalize hend : ([] : List Char) = rest at h
  induction h with
  | nil =>
    subst hend
    exact hpad.isGap
  | blank hc h ih => exact .blank hc (ih hend)
  | @comment body gap _ hbody hstop h ih =>
    subst hend
    rcases gap with _ | ⟨c, gap⟩
    · have hinLine : '\n' ∉ body ++ pad := by
        simp [hbody, hpad.inLine]
      rw [List.append_nil, List.cons_append, ← List.append_nil ('#' :: (body ++ pad))]
      exact .comment hinLine nofun (.nil [])
    · exact absurd (hstop c rfl) h.head_ne_newline

/-- Padding at the end of a script makes no difference to its tokens. -/
theorem tokenize_append_padding {a pad : String} {tokens : List Token}
    (h : tokenize a = .ok tokens) (hpad : IsPadding pad.toList) :
    tokenize (a ++ pad) = .ok tokens := by
  obtain ⟨ls, ⟨tail, htext, hfits, htail⟩, rfl⟩ := tokenize_eq_ok_iff_spells.1 h
  refine tokenize_eq_ok_iff_spells.2
    ⟨ls, ⟨tail ++ pad.toList, ?_, ?_, htail.append_padding hpad⟩, rfl⟩
  · rw [String.toList_append, htext, List.append_assoc]
  · rw [List.append_nil]
    exact hfits.replace hpad.breaks

/-- Padding has no tokens of its own. -/
theorem tokenize_padding {pad : String} (hpad : IsPadding pad.toList) : tokenize pad = .ok [] := by
  exact tokenize_eq_ok_iff_spells.2 ⟨[], ⟨pad.toList, rfl, trivial, hpad.isGap⟩, rfl⟩

end ScriptHints
