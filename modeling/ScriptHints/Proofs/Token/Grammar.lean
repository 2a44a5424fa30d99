import ScriptHints.Proofs.Token.Extent
import ScriptHints.Proofs.Token.Tiling

/-!
# The grammar of scripts

Which characters make up a script is said here without any reading: a script is a sequence of
lexemes with gaps between them, and each lexeme is as long as what stands behind it allows. Whether
a text is a gap or a lexeme therefore depends on the text behind it, which is a parameter `rest`
throughout.

* `IsGap` — blanks, and comments up to the end of their line.
* `IsLexeme` — the lexemes, one rule for each kind.
* `Fits` — lexemes, each behind its gap, that stand together in front of a text.
* `Spells` — a text that is gap, lexeme, gap, …, lexeme, gap.
* `readFrom_fits` — reading passes over lexemes that fit and gives one token for each.
* `exists_spelling` — every text is spelled by lexemes up to its end or up to a piece that is
  refused.
* `tokenize_accepts_grammar` — a script has tokens exactly if it is spelled by lexemes, and then the
  lexemes are the only ones and the tokens are theirs.
-/

namespace ScriptHints

open Text

/-! ### Gaps and lexemes -/

/-- Characters a word may go on with. -/
def IsWordChar (c : Char) : Prop := c.isAlphanum ∨ c = '_' ∨ c = '\x27'

/-- The words that are no names, with the categories they have. -/
def reservedWords : List (List Char × Category) :=
  [("true".toList, .boolean true), ("yes".toList, .boolean true),
    ("false".toList, .boolean false), ("no".toList, .boolean false),
    ("set".toList, .keyword .set), ("to".toList, .keyword .to)]

/-- `IsGap gap rest`: in front of `rest`, the text may stand between two lexemes. A comment reaches
up to the next line feed or to the end of the script. -/
inductive IsGap : List Char → List Char → Prop
  | nil (rest : List Char) : IsGap [] rest
  | blank {c : Char} {gap rest : List Char} (hc : c = ' ' ∨ c = '\t' ∨ c = '\r' ∨ c = '\x0c')
      (h : IsGap gap rest) : IsGap (c :: gap) rest
  | comment {body gap rest : List Char} (hbody : '\n' ∉ body)
      (hstop : ∀ c ∈ (gap ++ rest).head?, c = '\n') (h : IsGap gap rest) :
      IsGap ('#' :: body ++ gap) rest

/-- `IsLexeme category chars rest`: in front of `rest`, the characters are a lexeme of the given
category. -/
inductive IsLexeme : Category → List Char → List Char → Prop
  | newline (rest : List Char) : IsLexeme .newline ['\n'] rest
  | word {c : Char} {cs rest : List Char} (hc : c.isAlpha ∨ c = '_')
      (hcs : ∀ x ∈ cs, IsWordChar x) (hstop : ∀ x ∈ rest.head?, ¬IsWordChar x) :
      IsLexeme ((reservedWords.lookup (c :: cs)).getD .word) (c :: cs) rest
  | number {n rest : List Char} (hn : IsNumber n)
      (hmax : ∀ more, more <+: rest → IsNumber (n ++ more) → more = []) : IsLexeme .number n rest
  | text {body rest : List Char} (hbody : TextBody body) (hstop : rest.head? ≠ some '"') :
      IsLexeme .text ('"' :: body ++ ['"']) rest
  | var {name : List Char} (rest : List Char) (hname : Closes 0 name) (hne : name ≠ []) :
      IsLexeme .var ('{' :: name ++ ['}']) rest
  | colon (rest : List Char) : IsLexeme .colon [':'] rest
  | symbol {c : Char} (rest : List Char) (hspace : ¬isWhiteSpace c) (hword : ¬c.isAlphanum)
      (hc : c ∉ ['_', '{', '}', '"', '#', ':']) : IsLexeme .symbol [c] rest

/-! ### Spellings -/

/-- A lexeme together with the gap before it. -/
structure Lexeme where
  gap : List Char
  category : Category
  chars : List Char
  deriving DecidableEq, Repr

/-- Lexemes written one after the other, each behind its gap. -/
def spelling (lexemes : List Lexeme) : List Char := lexemes.flatMap fun l => l.gap ++ l.chars

/-- The lexemes stand in front of `rest`, each as long as what is behind it allows. -/
def Fits (rest : List Char) : List Lexeme → Prop
  | [] => True
  | l :: ls =>
    IsGap l.gap (l.chars ++ (spelling ls ++ rest)) ∧
      IsLexeme l.category l.chars (spelling ls ++ rest) ∧ Fits rest ls

/-- `Spells lexemes text rest`: in front of `rest`, the text is made of the lexemes, the gaps before
them and a last gap. -/
def Spells (lexemes : List Lexeme) (text rest : List Char) : Prop :=
  ∃ tail, text = spelling lexemes ++ tail ∧ Fits (tail ++ rest) lexemes ∧ IsGap tail rest

/-- The tokens for lexemes that begin at `offset`. -/
def tokensAt (offset : Nat) : List Lexeme → List Token
  | [] => []
  | l :: ls =>
    ⟨l.category, offset, l.gap, l.chars⟩ :: tokensAt (offset + size l.gap + size l.chars) ls

/-- Without lexemes nothing is spelled. -/
@[simp] theorem spelling_nil : spelling [] = [] := rfl

/-- A lexeme is spelled behind the gap before it. -/
@[simp] theorem spelling_cons (l : Lexeme) (ls : List Lexeme) :
    spelling (l :: ls) = l.gap ++ (l.chars ++ spelling ls) := by
  simp [spelling]

/-- The lexemes can be read off their tokens. -/
theorem tokensAt_injective {offset : Nat} {ls ls' : List Lexeme}
    (h : tokensAt offset ls = tokensAt offset ls') : ls = ls' := by
  induction ls generalizing offset ls' with
  | nil =>
    cases ls' with
    | nil => rfl
    | cons l' ls' => cases h
  | cons l ls ih =>
    cases ls' with
    | nil => cases h
    | cons l' ls' =>
      obtain ⟨hhead, htail⟩ := List.cons.inj h
      obtain ⟨hcategory, -, hgap, hchars⟩ := Token.mk.inj hhead
      rw [hgap, hchars] at htail
      rw [ih htail]
      congr 1
      rcases l with ⟨gap, category, chars⟩
      rcases l' with ⟨gap', category', chars'⟩
      simp_all

/-! ### Gaps and pieces -/

/-- The blank characters, one by one. -/
theorem isBlank_iff {c : Char} :
    isBlank c = true ↔ c = ' ' ∨ c = '\t' ∨ c = '\r' ∨ c = '\x0c' := by
  simp [isBlank, or_assoc]

/-- Blanks are a gap, whatever follows. -/
theorem isGap_of_blanks {gap : List Char} (h : ∀ c ∈ gap, isBlank c = true) (rest : List Char) :
    IsGap gap rest := by
  induction gap with
  | nil => exact .nil rest
  | cons c gap ih =>
    apply IsGap.blank
    · exact isBlank_iff.1 (h c List.mem_cons_self)
    · exact ih fun x hx => h x (List.mem_cons_of_mem c hx)

/-- Two gaps make one. -/
theorem IsGap.append {gap gap' rest : List Char} (h : IsGap gap (gap' ++ rest))
    (h' : IsGap gap' rest) : IsGap (gap ++ gap') rest := by
  generalize hmiddle : gap' ++ rest = middle at h
  induction h with
  | nil => exact h'
  | blank hc h ih => exact .blank hc (ih hmiddle)
  | comment hbody hstop h ih =>
    rw [List.append_assoc]
    apply IsGap.comment hbody
    · rw [List.append_assoc, hmiddle]
      exact hstop
    · exact ih hmiddle

/-- The first character stays the first if more follows. -/
theorem mem_head?_append {c : Char} {cs : List Char} (h : c ∈ cs.head?) (more : List Char) :
    c ∈ (cs ++ more).head? := by
  rw [List.head?_append, Option.mem_def.1 h]
  rfl

/-- A gap is one whatever is cut off behind it. -/
theorem IsGap.truncate {gap rest after : List Char} (h : IsGap gap (rest ++ after)) :
    IsGap gap rest := by
  generalize hmore : rest ++ after = more at h
  induction h with
  | nil => exact .nil rest
  | blank hc h ih => exact .blank hc (ih hmore)
  | @comment body gap _ hbody hstop h ih =>
    refine .comment hbody ?_ (ih hmore)
    intro c hc
    apply hstop
    rw [← hmore, ← List.append_assoc]
    exact mem_head?_append hc after

/-- Behind a blank, all blanks are cut off as a gap. -/
theorem piece_blank {c : Char} (hc : isBlank c = true) (cs : List Char) :
    piece c cs = ⟨.gap, c :: cs.takeWhile isBlank, cs.dropWhile isBlank⟩ := by
  rw [piece, if_pos hc]

/-- Behind a hash sign, the rest of the line is cut off as a gap. -/
theorem piece_hash (cs : List Char) :
    piece '#' cs = ⟨.gap, '#' :: cs.takeWhile inLine, cs.dropWhile inLine⟩ := by
  rw [piece, if_neg (by decide), if_pos rfl]

/-- Only a line feed ends a line. -/
theorem inLine_eq_false_iff {c : Char} : inLine c = false ↔ c = '\n' := by
  simp [inLine]

/-- A piece that is skipped is a gap. -/
theorem isGap_of_piece {c : Char} {cs : List Char} (h : (piece c cs).verdict = .gap) :
    IsGap (piece c cs).chars (piece c cs).rest := by
  have hcut := piece_cut c cs
  generalize piece c cs = p at h hcut
  cases hcut with
  | blanks hc =>
    apply isGap_of_blanks
    intro x hx
    rcases List.mem_cons.1 hx with rfl | hx
    · exact hc
    · exact List.mem_takeWhile_imp hx
  | comment hc =>
    subst hc
    have hbody := notMem_takeWhile (p := inLine) (c := '\n') (by decide) cs
    have hstop : ∀ x ∈ ([] ++ cs.dropWhile inLine).head?, x = '\n' := by
      intro x hx
      exact inLine_eq_false_iff.1 (head_dropWhile inLine cs x hx)
    have hgap := IsGap.comment hbody hstop (.nil _)
    rwa [List.append_nil] at hgap
  | _ => cases h

/-- The first character of a gap begins a piece that is skipped. -/
theorem verdict_of_isGap {c : Char} {gap rest : List Char} (h : IsGap (c :: gap) rest) :
    (piece c (gap ++ rest)).verdict = .gap := by
  cases h with
  | blank hc h => rw [piece_blank (isBlank_iff.2 hc)]
  | comment => rw [piece_hash]

variable {offset : Nat} {lead : List Char}

/-- Blanks may be skipped one by one. -/
theorem readFrom_blank {c : Char} (hc : isBlank c = true) (cs : List Char) :
    readFrom offset lead (c :: cs) = readFrom offset (lead ++ [c]) cs := by
  rw [readFrom_gap (by rw [piece_blank hc]), piece_blank hc]
  rcases cs with _ | ⟨b, cs⟩
  · rfl
  by_cases hb : isBlank b = true
  · rw [readFrom_gap (c := b) (by rw [piece_blank hb]), piece_blank hb]
    simp [hb]
  · simp [hb]

/-- Reading passes over a gap. -/
theorem readFrom_isGap {gap rest : List Char} (h : IsGap gap rest) :
    readFrom offset lead (gap ++ rest) = readFrom offset (lead ++ gap) rest := by
  induction h generalizing lead with
  | nil => rw [List.append_nil, List.nil_append]
  | blank hc h ih =>
    rw [List.cons_append, readFrom_blank (isBlank_iff.2 hc), ih, List.append_assoc]
    rfl
  | @comment body gap rest hbody hstop h ih =>
    have hrun : ∀ c ∈ body, inLine c = true := by
      intro c hc
      by_contra hn
      rw [inLine_eq_false_iff.1 (Bool.eq_false_iff.2 hn)] at hc
      exact hbody hc
    have hrest : ∀ c ∈ (gap ++ rest).head?, inLine c = false := by
      intro c hc
      exact inLine_eq_false_iff.2 (hstop c hc)
    rw [List.append_assoc, List.cons_append, readFrom_gap (by rw [piece_hash]), piece_hash]
    simp only [takeWhile_run hrun hrest, dropWhile_run hrun hrest, ih, List.append_assoc]

/-! ### Lexemes and pieces -/

/-- A lexeme is one whatever is cut off behind it. -/
theorem IsLexeme.truncate {category : Category} {chars rest after : List Char}
    (h : IsLexeme category chars (rest ++ after)) : IsLexeme category chars rest := by
  generalize hmore : rest ++ after = more at h
  cases h with
  | newline => exact .newline rest
  | word hc hcs hstop =>
    apply IsLexeme.word hc hcs
    intro x hx
    apply hstop
    rw [← hmore]
    exact mem_head?_append hx after
  | number hn hmax =>
    apply IsLexeme.number hn
    intro more hprefix
    apply hmax
    rw [← hmore]
    exact hprefix.trans (List.prefix_append rest after)
  | text hbody hstop =>
    apply IsLexeme.text hbody
    intro hmark
    apply hstop
    rw [← hmore]
    exact mem_head?_append hmark after
  | var _ hname hne => exact .var rest hname hne
  | colon => exact .colon rest
  | symbol _ hspace hword hc => exact .symbol rest hspace hword hc

/-- The characters inside a word are those of the grammar. -/
theorem isWordPart_iff {c : Char} : isWordPart c = true ↔ IsWordChar c := by
  simp [isWordPart, IsWordChar, or_assoc]

/-- A word begins with a letter or an underscore. -/
theorem isWordStart_iff {c : Char} : isWordStart c = true ↔ c.isAlpha ∨ c = '_' := by
  simp [isWordStart]

/-- The symbols are what is left once all other characters with a meaning are taken out. -/
theorem isSymbol_iff {c : Char} :
    isSymbol c = true ↔
      ¬isWhiteSpace c ∧ ¬c.isAlphanum ∧ c ∉ ['_', '{', '}', '"', '#', ':'] := by
  simp [isSymbol, and_assoc]

/-- The words with a category of their own are the reserved ones. -/
theorem wordCategory_eq (w : List Char) :
    wordCategory w = (reservedWords.lookup w).getD .word := by
  by_cases hw : w ∈ reservedWords.map Prod.fst
  · simp only [reservedWords, List.map_cons, List.map_nil, List.mem_cons, List.not_mem_nil,
      or_false] at hw
    rcases hw with rfl | rfl | rfl | rfl | rfl | rfl <;> rfl
  · have hnone : reservedWords.lookup w = none := by
      rw [List.lookup_eq_none_iff]
      intro p hp
      rw [bne_iff_ne]
      rintro rfl
      exact hw (List.mem_map_of_mem hp)
    have hne : ∀ v ∈ reservedWords.map Prod.fst, w ≠ v := by
      rintro v hv rfl
      exact hw hv
    simp [reservedWords] at hne
    rw [hnone]
    simp [wordCategory, hne]

/-- A piece that is a token is a lexeme. -/
theorem isLexeme_of_piece {c : Char} {cs : List Char} {category : Category}
    (h : (piece c cs).verdict = .lexeme category) :
    IsLexeme category (piece c cs).chars (piece c cs).rest := by
  have hcut := piece_cut c cs
  generalize piece c cs = p at h hcut
  cases hcut with
  | blanks | comment | openText | nameless | openGroup | stray => cases h
  | newline hc =>
    obtain rfl := Verdict.lexeme.inj h
    subst hc
    exact .newline cs
  | word hn hc =>
    obtain rfl := Verdict.lexeme.inj h
    rw [wordCategory_eq]
    apply IsLexeme.word (isWordStart_iff.1 hc)
    · intro x hx
      exact isWordPart_iff.1 (List.mem_takeWhile_imp hx)
    · intro x hx
      rw [← isWordPart_iff, head_dropWhile isWordPart cs x hx]
      exact Bool.false_ne_true
  | number hn hc =>
    obtain rfl := Verdict.lexeme.inj h
    have hscanned : c :: cs.takeWhile Char.isDigit ++
        (splitFraction (cs.dropWhile Char.isDigit)).1 = scannedNumber (c :: cs) := by
      rw [scannedNumber, List.takeWhile_cons_of_pos hc, List.dropWhile_cons_of_pos hc]
    have happ := scannedNumber_append (c :: cs)
    rw [List.dropWhile_cons_of_pos hc] at happ
    rw [hscanned]
    apply IsLexeme.number (isNumber_scannedNumber hc cs)
    -- a longer number would be in front of the text as well
    intro more hmore hlonger
    have hprefix : scannedNumber (c :: cs) ++ more <+: scannedNumber (c :: cs) := by
      apply prefix_scannedNumber hlonger
      conv => rhs; rw [← happ]
      exact (List.prefix_append_right_inj _).2 hmore
    have hlength := hprefix.length_le
    rw [List.length_append] at hlength
    exact List.length_eq_zero_iff.1 (by omega)
  | text hc hclose =>
    obtain rfl := Verdict.lexeme.inj h
    subst hc
    obtain ⟨body, hbody, hstop, rfl, -⟩ := closeText?_eq_some_iff.1 hclose
    exact .text hbody hstop
  | group hc hclose hne =>
    obtain rfl := Verdict.lexeme.inj h
    subst hc
    exact .var _ (closeGroup?_eq_some_iff.1 hclose).1 hne
  | colon hc =>
    obtain rfl := Verdict.lexeme.inj h
    subst hc
    exact .colon cs
  | symbol hn hc =>
    obtain rfl := Verdict.lexeme.inj h
    obtain ⟨hspace, hword, hmark⟩ := isSymbol_iff.1 hc
    exact .symbol cs hspace hword hmark

section

variable {p : Char → Bool} {c x : Char}

/-- A character of a class differs from one outside of it. -/
theorem ne_of_class (h : p c = true) (hx : p x = false) : c ≠ x := by
  rintro rfl
  rw [h] at hx
  cases hx

/-- A class of characters without the four blanks has no blank in it. -/
theorem not_blank_of_class (h : p c = true) (hp : [' ', '\t', '\r', '\x0c'].any p = false) :
    ¬isBlank c = true := by
  intro hblank
  have hb : c ∈ [' ', '\t', '\r', '\x0c'] := by simpa using isBlank_iff.1 hblank
  exact List.any_eq_false.1 hp c hb h

end

/-- A line feed is a lexeme by itself. -/
theorem piece_newline (cs : List Char) : piece '\n' cs = ⟨.lexeme .newline, ['\n'], cs⟩ := by
  rw [piece, if_neg (by decide), if_neg (by decide), if_pos rfl]

/-- Behind the beginning of a word, the whole word is cut off, and its letters decide on its
category. -/
theorem piece_word {c : Char} (hc : isWordStart c = true) (cs : List Char) :
    piece c cs = ⟨.lexeme (wordCategory (c :: cs.takeWhile isWordPart)),
      c :: cs.takeWhile isWordPart, cs.dropWhile isWordPart⟩ := by
  rw [piece, if_neg (not_blank_of_class hc (by decide)), if_neg (ne_of_class hc (by decide)),
    if_neg (ne_of_class hc (by decide)), if_pos hc]

/-- No word starts with a digit. -/
theorem not_isWordStart_of_isDigit {c : Char} (h : c.isDigit = true) : ¬isWordStart c = true := by
  rw [isWordStart_iff]
  rintro (halpha | rfl)
  · have hdigit : (decide ('0'.val ≤ c.val) && decide (c.val ≤ '9'.val)) = true := h
    have hletter : (decide ('A'.val ≤ c.val ∧ c.val ≤ 'Z'.val) ||
        (decide ('a'.val ≤ c.val) && decide (c.val ≤ 'z'.val))) = true := halpha
    simp only [Bool.or_eq_true, Bool.and_eq_true, decide_eq_true_eq,
      UInt32.le_iff_toNat_le] at hdigit hletter
    have h9 : '9'.val.toNat = 57 := rfl
    have hA : 'A'.val.toNat = 65 := rfl
    have ha : 'a'.val.toNat = 97 := rfl
    omega
  · cases h

/-- Behind a digit, the longest number is cut off. -/
theorem piece_digit {c : Char} (hc : c.isDigit = true) (cs : List Char) :
    piece c cs = ⟨.lexeme .number, scannedNumber (c :: cs),
      (splitFraction (cs.dropWhile Char.isDigit)).2⟩ := by
  rw [piece, if_neg (not_blank_of_class hc (by decide)), if_neg (ne_of_class hc (by decide)),
    if_neg (ne_of_class hc (by decide)), if_neg (not_isWordStart_of_isDigit hc), if_pos hc,
    scannedNumber, List.takeWhile_cons_of_pos hc, List.dropWhile_cons_of_pos hc]

/-- Behind a quotation mark a literal is cut off, if it is closed on its line. -/
theorem piece_mark (cs : List Char) :
    piece '"' cs =
      match closeText? cs with
      | some (inside, rest) => ⟨.lexeme .text, '"' :: inside, rest⟩
      | none => ⟨.bad .unclosedText ('"' :: cs.takeWhile inLine), ['"'], cs⟩ := by
  rw [piece, if_neg (by decide), if_neg (by decide), if_neg (by decide), if_neg (by decide),
    if_neg (by decide)]
  exact if_pos rfl

/-- Behind a brace a variable is cut off, if it is closed on its line and has a name. -/
theorem piece_brace (cs : List Char) :
    piece '{' cs =
      match closeGroup? cs with
      | some ([], rest) => ⟨.bad .namelessVariable ['{', '}'], ['{', '}'], rest⟩
      | some (inside, rest) => ⟨.lexeme .var, '{' :: inside ++ ['}'], rest⟩
      | none => ⟨.bad .unclosedVariable ('{' :: cs.takeWhile inLine), ['{'], cs⟩ := by
  rw [piece, if_neg (by decide), if_neg (by decide), if_neg (by decide), if_neg (by decide),
    if_neg (by decide), if_neg (by decide)]
  exact if_pos rfl

/-- A colon is a lexeme by itself. -/
theorem piece_colon (cs : List Char) : piece ':' cs = ⟨.lexeme .colon, [':'], cs⟩ := by
  rw [piece, if_neg (by decide), if_neg (by decide), if_neg (by decide), if_neg (by decide),
    if_neg (by decide), if_neg (by decide), if_neg (by decide), if_pos rfl]

/-- A symbol is a lexeme by itself. -/
theorem piece_symbol {c : Char} (hc : isSymbol c = true) (cs : List Char) :
    piece c cs = ⟨.lexeme .symbol, [c], cs⟩ := by
  obtain ⟨-, halnum, hmark⟩ := isSymbol_iff.1 hc
  have hstart : ¬isWordStart c = true := by
    rw [isWordStart_iff]
    rintro (halpha | rfl)
    · exact halnum (by simp [Char.isAlphanum, halpha])
    · simp at hmark
  have hdigit : ¬c.isDigit = true := by
    intro hdigit
    exact halnum (by simp [Char.isAlphanum, hdigit])
  rw [piece, if_neg (not_blank_of_class hc (by decide)), if_neg (ne_of_class hc (by decide)),
    if_neg (ne_of_class hc (by decide)), if_neg hstart, if_neg hdigit,
    if_neg (ne_of_class hc (by decide)), if_neg (ne_of_class hc (by decide)),
    if_neg (ne_of_class hc (by decide)), if_pos hc]

/-- A lexeme is the piece at the front of the text. -/
theorem piece_of_isLexeme {category : Category} {chars rest : List Char}
    (h : IsLexeme category chars rest) :
    ∃ c cs, chars ++ rest = c :: cs ∧ piece c cs = ⟨.lexeme category, chars, rest⟩ := by
  cases h with
  | newline => exact ⟨_, _, rfl, piece_newline rest⟩
  | @word c cs _ hc hcs hstop =>
    have hrun : ∀ x ∈ cs, isWordPart x = true := by
      intro x hx
      exact isWordPart_iff.2 (hcs x hx)
    have hrest : ∀ x ∈ rest.head?, isWordPart x = false := by
      intro x hx
      rw [Bool.eq_false_iff, Ne, isWordPart_iff]
      exact hstop x hx
    refine ⟨c, cs ++ rest, rfl, ?_⟩
    rw [piece_word (isWordStart_iff.2 hc), takeWhile_run hrun hrest, dropWhile_run hrun hrest,
      wordCategory_eq]
  | number hn hmax =>
    have hscanned := scannedNumber_eq hn hmax
    obtain ⟨c, cs, happ, hc⟩ := hn.starts rest
    refine ⟨c, cs, happ, ?_⟩
    have hrest := scannedNumber_append (c :: cs)
    rw [← happ, hscanned, List.append_cancel_left_eq, happ, List.dropWhile_cons_of_pos hc] at hrest
    rw [piece_digit hc, ← happ, hscanned, hrest]
  | @text body _ hbody hstop =>
    refine ⟨'"', body ++ '"' :: rest, by simp, ?_⟩
    rw [piece_mark, closeText?_of_textBody hbody hstop]
    rfl
  | @var name _ hname hne =>
    refine ⟨'{', name ++ '}' :: rest, by simp, ?_⟩
    rw [piece_brace, closeGroup?_eq_some_iff.2 ⟨hname, rfl⟩]
    obtain ⟨x, name, rfl⟩ := List.exists_cons_of_ne_nil hne
    rfl
  | colon => exact ⟨_, _, rfl, piece_colon rest⟩
  | symbol _ hspace hword hc =>
    exact ⟨_, _, rfl, piece_symbol (isSymbol_iff.2 ⟨hspace, hword, hc⟩) rest⟩

/-- No lexeme is empty. -/
theorem IsLexeme.chars_ne_nil {category : Category} {chars rest : List Char}
    (h : IsLexeme category chars rest) : chars ≠ [] := by
  obtain ⟨c, cs, -, hpiece⟩ := piece_of_isLexeme h
  have hne := piece_chars_ne_nil c cs
  rwa [hpiece] at hne

/-! ### Reading what is spelled -/

/-- Reading passes over lexemes that fit, with a token for each of them. -/
theorem readFrom_fits {rest : List Char} {ls : List Lexeme} (h : Fits rest ls) (offset : Nat) :
    readFrom offset [] (spelling ls ++ rest) =
      ((readFrom (offset + size (spelling ls)) [] rest).1.map (tokensAt offset ls ++ ·),
        (readFrom (offset + size (spelling ls)) [] rest).2) := by
  induction ls generalizing offset with
  | nil =>
    simp only [spelling_nil, size_nil, List.nil_append, tokensAt, Nat.add_zero]
    rcases readFrom offset [] rest with ⟨_ | _, _⟩ <;> rfl
  | cons l ls ih =>
    obtain ⟨hgap, hlexeme, hfits⟩ := h
    obtain ⟨c, cs, happ, hpiece⟩ := piece_of_isLexeme hlexeme
    have hstop : Token.stop ⟨l.category, offset, l.gap, l.chars⟩ =
        offset + size l.gap + size l.chars := rfl
    have hsize : offset + size l.gap + size l.chars + size (spelling ls) =
        offset + size (l.gap ++ (l.chars ++ spelling ls)) := by
      rw [size_append, size_append]
      omega
    rw [spelling_cons, List.append_assoc, List.append_assoc, readFrom_isGap hgap, happ,
      readFrom_lexeme (by rw [hpiece]) rfl]
    simp only [hpiece, List.nil_append, hstop, ih hfits, hsize, tokensAt]
    rcases readFrom (offset + size (l.gap ++ (l.chars ++ spelling ls))) [] rest with ⟨_ | _, _⟩ <;>
      rfl

/-- Each token of lexemes that fit is a lexeme, and what was skipped before it is a gap. -/
theorem Fits.isLexeme {rest : List Char} {ls : List Lexeme} (h : Fits rest ls) (offset : Nat) :
    ∀ t ∈ tokensAt offset ls, ∃ after, IsGap t.lead (t.chars ++ after) ∧
      IsLexeme t.category t.chars after := by
  induction ls generalizing offset with
  | nil => exact List.forall_mem_nil _
  | cons l ls ih =>
    obtain ⟨hgap, hlexeme, hfits⟩ := h
    rw [tokensAt, List.forall_mem_cons]
    exact ⟨⟨_, hgap, hlexeme⟩, ih hfits _⟩

/-- No token is empty. -/
theorem Fits.chars_ne_nil {rest : List Char} {ls : List Lexeme} (h : Fits rest ls) (offset : Nat) :
    ∀ t ∈ tokensAt offset ls, t.chars ≠ [] := by
  intro t ht
  obtain ⟨after, -, hlexeme⟩ := h.isLexeme offset t ht
  exact hlexeme.chars_ne_nil

section

variable {ls : List Lexeme} {text cs : List Char} {c : Char}

/-- A text that is spelled to its end has the tokens of its lexemes. -/
theorem readFrom_of_spells (h : Spells ls text []) (offset : Nat) :
    readFrom offset [] text = (.ok (tokensAt offset ls), ⟨offset + size text, []⟩) := by
  obtain ⟨tail, rfl, hfits, htail⟩ := h
  rw [List.append_nil] at hfits
  have hread : readFrom (offset + size (spelling ls)) [] tail =
      (.ok [], ⟨offset + size (spelling ls) + size tail, []⟩) := by
    rw [← List.append_nil tail, readFrom_isGap htail, readFrom_nil]
    simp
  rw [readFrom_fits hfits, hread, size_append, Nat.add_assoc]
  simp [Except.map]

/-- A text that is spelled up to a refused piece cannot be read any further. -/
theorem readFrom_of_spells_bad {cause : LexicalCause} {shown : List Char}
    (h : Spells ls text (c :: cs)) (hbad : (piece c cs).verdict = .bad cause shown)
    (offset : Nat) :
    readFrom offset [] (text ++ c :: cs) =
      (.error ⟨cause, offset + size text, offset + size text + size shown⟩,
        ⟨offset + size text + size (piece c cs).chars, (piece c cs).rest⟩) := by
  obtain ⟨tail, rfl, hfits, htail⟩ := h
  rw [List.append_assoc, readFrom_fits hfits, readFrom_isGap htail, readFrom_bad hbad,
    List.nil_append, size_append, Nat.add_assoc offset]
  rfl

end

/-- Every text is spelled by lexemes up to its end, or up to a piece that is refused. -/
theorem exists_spelling {lead cs : List Char} (h : IsGap lead cs) :
    ∃ ls text stop, lead ++ cs = text ++ stop ∧ Spells ls text stop ∧
      (stop = [] ∨
        ∃ c cs cause shown, stop = c :: cs ∧ (piece c cs).verdict = .bad cause shown) := by
  -- the induction is that of a reading, at whatever offset
  refine readFrom_induction
    (motive := fun _ lead cs => IsGap lead cs → ∃ ls text stop, lead ++ cs = text ++ stop ∧
      Spells ls text stop ∧
        (stop = [] ∨ ∃ c cs cause shown, stop = c :: cs ∧ (piece c cs).verdict = .bad cause shown))
    ?_ ?_ ?_ ?_ 0 lead cs h
  · intro _ lead h
    exact ⟨[], lead, [], rfl, ⟨lead, rfl, trivial, h⟩, .inl rfl⟩
  · intro _ lead c cs hv ih h
    rw [← piece_append c cs] at h
    have hread := ih (h.append (isGap_of_piece hv))
    rwa [List.append_assoc, piece_append] at hread
  · intro _ lead c cs category hv ih h
    obtain ⟨ls, text, stop, happ, ⟨tail, rfl, hfits, htail⟩, hstop⟩ := ih (.nil _)
    rw [List.nil_append] at happ
    have hlexeme := isLexeme_of_piece hv
    rw [← piece_append c cs, happ] at h ⊢
    rw [happ] at hlexeme
    refine ⟨⟨lead, category, (piece c cs).chars⟩ :: ls,
      lead ++ ((piece c cs).chars ++ (spelling ls ++ tail)), stop, by simp, ?_, hstop⟩
    rw [List.append_assoc] at h hlexeme
    exact ⟨tail, by simp, ⟨h, hlexeme, hfits⟩, htail⟩
  · intro _ lead c cs cause shown hv h
    exact ⟨[], lead, c :: cs, rfl, ⟨lead, rfl, trivial, h⟩, .inr ⟨c, cs, cause, shown, rfl, hv⟩⟩

/-! ### Scripts -/

/-- The tokens of a script are those of the lexemes that spell it. -/
theorem tokenize_eq_ok_iff_spells {source : String} {tokens : List Token} :
    tokenize source = .ok tokens ↔
      ∃ lexemes, Spells lexemes source.toList [] ∧ tokens = tokensAt 0 lexemes := by
  constructor
  · intro h
    obtain ⟨lexemes, text, stop, happ, hspells, hstop⟩ := exists_spelling (.nil source.toList)
    rw [List.nil_append] at happ
    rcases hstop with rfl | ⟨c, cs, cause, shown, rfl, hbad⟩
    · rw [List.append_nil] at happ
      rw [tokenize, Cursor.read, Cursor.atStart, happ, readFrom_of_spells hspells] at h
      rw [happ]
      exact ⟨lexemes, hspells, (Except.ok.inj h).symm⟩
    · rw [tokenize, Cursor.read, Cursor.atStart, happ, readFrom_of_spells_bad hspells hbad] at h
      cases h
  · rintro ⟨lexemes, hspells, rfl⟩
    rw [tokenize, Cursor.read, Cursor.atStart, readFrom_of_spells hspells]

section

variable {source : String} {tokens : List Token}

/-- Each token of a script is a lexeme of it, and what was skipped before it is a gap. -/
theorem isLexeme_of_tokenize (h : tokenize source = .ok tokens) {t : Token} (ht : t ∈ tokens) :
    ∃ after, IsGap t.lead (t.chars ++ after) ∧ IsLexeme t.category t.chars after := by
  obtain ⟨lexemes, ⟨tail, -, hfits, -⟩, rfl⟩ := tokenize_eq_ok_iff_spells.1 h
  exact hfits.isLexeme 0 t ht

/-- The tokens of a script are not empty. -/
theorem chars_ne_nil_of_tokenize (h : tokenize source = .ok tokens) :
    ∀ t ∈ tokens, t.chars ≠ [] := by
  obtain ⟨lexemes, ⟨tail, -, hfits, -⟩, rfl⟩ := tokenize_eq_ok_iff_spells.1 h
  exact hfits.chars_ne_nil 0

end

/-- A script has tokens exactly if it is gap, lexeme, gap, …, lexeme, gap. The lexemes are then the
only ones and the tokens are theirs; no token is empty, each is at its place in the script, and none
begins before the one before it ends. -/
theorem tokenize_accepts_grammar (source : String) :
    (∀ tokens, tokenize source = .ok tokens ↔
        ∃ lexemes, Spells lexemes source.toList [] ∧ tokens = tokensAt 0 lexemes) ∧
      (∀ lexemes lexemes', Spells lexemes source.toList [] → Spells lexemes' source.toList [] →
        lexemes = lexemes') ∧
      ∀ tokens, tokenize source = .ok tokens →
        (∀ t ∈ tokens, t.start < t.stop ∧ slice? source.toList t.span = some t.chars) ∧
          tokens.Pairwise fun a b => a.stop ≤ b.start := by
  refine ⟨fun tokens => tokenize_eq_ok_iff_spells, ?_, ?_⟩
  · intro lexemes lexemes' h h'
    have hread := tokenize_eq_ok_iff_spells.2 ⟨lexemes, h, rfl⟩
    have hread' := tokenize_eq_ok_iff_spells.2 ⟨lexemes', h', rfl⟩
    exact tokensAt_injective (Except.ok.inj (hread.symm.trans hread'))
  · intro tokens h
    have htiling := tiling_of_tokenize h
    obtain ⟨lexemes, ⟨tail, -, hfits, -⟩, rfl⟩ := tokenize_eq_ok_iff_spells.1 h
    refine ⟨?_, htiling.chained.pairwise⟩
    intro t ht
    have hpos := List.length_pos_iff.2 (hfits.chars_ne_nil 0 t ht)
    have hsize := length_le_size t.chars
    refine ⟨?_, htiling.slice?_span ht⟩
    rw [Token.stop]
    omega

end ScriptHints
