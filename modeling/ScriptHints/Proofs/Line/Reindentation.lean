import Mathlib
import ScriptHints.Proofs.Analysis.Walk
import ScriptHints.Proofs.Line.Wording

/-!
# Scripts that are indented otherwise

A script is indented otherwise if the blanks its physical lines begin with are replaced by other
blanks, fewer or more of them. All bytes are elsewhere then, and still the same is read, line by
line: the words of every line stay, and so does the place of an error among the lines.

* `physicalLines`, `IndentedWith` — the lines a script is written in, and that no other blank than
  the given one is used to indent them.
* `reindent` — the script with every leading run of `n` blanks replaced by `f n` copies of a blank.
* `ReadsAlike` — two scripts have the same lines up to a relation, or the same error on the same
  line. `ReadsAlike.append_newline` puts scripts together of parts that read alike.
* `Spells.indent`, `readsAlike_line` — blanks in front of a line are skipped, and nothing else.
* `Line.Reindented` — a line and the line it becomes; `readsAlike_reindent` says that a script reads
  as before once it is indented otherwise.
-/

namespace ScriptHints

open Text

/-! ### Physical lines -/

/-- The lines a script is written in, without their line feeds. -/
def physicalLines (source : String) : List (List Char) := source.toList.splitOn '\n'

/-- The blanks a physical line begins with are copies of `b`, the same for all lines. -/
def IndentedWith (b : Char) (source : String) : Prop :=
  ∀ text ∈ physicalLines source, ∀ c ∈ text.takeWhile isBlank, c = b

/-- The physical line with `f n` copies of `c` for the `n` blanks it begins with. -/
def reindentLine (f : Nat → Nat) (c : Char) (text : List Char) : List Char :=
  List.replicate (f (text.takeWhile isBlank).length) c ++ text.dropWhile isBlank

/-- The script that is written in the given lines. -/
def joinLines (texts : List (List Char)) : String := String.ofList (['\n'].intercalate texts)

/-- The script with `f n` copies of `c` for every `n` blanks that a physical line begins with. -/
def reindent (f : Nat → Nat) (c : Char) (source : String) : String :=
  joinLines ((physicalLines source).map (reindentLine f c))

/-- A script is written in its physical lines. -/
theorem joinLines_physicalLines (source : String) : joinLines (physicalLines source) = source := by
  rw [joinLines, physicalLines, List.intercalate_splitOn, String.ofList_toList]

/-- A script of one line is that line. -/
theorem joinLines_singleton (text : List Char) : joinLines [text] = String.ofList text := by
  rw [joinLines, List.intercalate_singleton]

/-- Between two lines of a script there is a line feed. -/
theorem joinLines_cons_cons (text text' : List Char) (texts : List (List Char)) :
    joinLines (text :: text' :: texts) =
      String.ofList text ++ "\n" ++ joinLines (text' :: texts) := by
  rw [← String.toList_inj]
  simp [joinLines, List.intercalate_cons_cons, String.toList_append]

/-- There is no line feed in what is between line feeds. -/
theorem notMem_of_mem_splitOn {c : Char} {cs text : List Char} (h : text ∈ cs.splitOn c) :
    c ∉ text := by
  induction cs generalizing text with
  | nil =>
    rw [List.splitOn_nil, List.mem_singleton] at h
    simp [h]
  | cons a cs ih =>
    obtain ⟨first, others, hcs⟩ := List.exists_cons_of_ne_nil (List.splitOn_ne_nil c cs)
    rw [List.splitOn_cons_eq_if_modifyHead, hcs] at h
    rw [hcs] at ih
    split_ifs at h with hac
    · rcases List.mem_cons.1 h with rfl | h
      · exact List.not_mem_nil
      · exact ih h
    · rcases List.mem_cons.1 h with rfl | h
      · have hne : c ≠ a := by
          rintro rfl
          simp at hac
        exact List.not_mem_cons_of_ne_of_not_mem hne (ih List.mem_cons_self)
      · exact ih (List.mem_cons_of_mem first h)

/-! ### Scripts that read alike -/

/-- Both scripts have an error of the same cause on the same line, or lines that are related one by
one. -/
inductive ReadsAlike (R : Line → Line → Prop) (source source' : String) : Prop
  | refused {e e' : LexicalError} {n : Nat} (h : tokenize source = .error e)
      (h' : tokenize source' = .error e') (hcause : e'.cause = e.cause)
      (hline : lineOfOffset source e.span.start = some n)
      (hline' : lineOfOffset source' e'.span.start = some n)
  | read {tokens tokens' : List Token} (h : tokenize source = .ok tokens)
      (h' : tokenize source' = .ok tokens')
      (hlines : List.Forall₂ R (Token.toLines tokens) (Token.toLines tokens'))

section

variable {R : Line → Line → Prop} {a a' b b' : String}

/-- Scripts that are put together of parts that read alike read alike. -/
theorem ReadsAlike.append_newline (ha : ReadsAlike R a a') (hb : ReadsAlike R b b')
    (hcount : a'.toList.count '\n' = a.toList.count '\n')
    (hshift : ∀ d d' n l l', R l l' → R (l.shift d n) (l'.shift d' n)) :
    ReadsAlike R (a ++ "\n" ++ b) (a' ++ "\n" ++ b') := by
  rcases ha with ⟨ha, ha', hcause, hline, hline'⟩ | ⟨ha, ha', hlines⟩
  · -- what follows the line of an error makes no difference to it
    have hkeep := lineOfOffset_append hline ("\n" ++ b)
    have hkeep' := lineOfOffset_append hline' ("\n" ++ b')
    rw [← String.append_assoc] at hkeep hkeep'
    exact .refused (tokenize_append_newline_error ha b) (tokenize_append_newline_error ha' b')
      hcause hkeep hkeep'
  rcases hb with ⟨hb, hb', hcause, hline, hline'⟩ | ⟨hb, hb', hlinesb⟩
  · obtain ⟨feed, -, -, hlonger⟩ := tokenize_append_newline ha
    obtain ⟨feed', -, -, hlonger'⟩ := tokenize_append_newline ha'
    have herror := hlonger b
    have herror' := hlonger' b'
    rw [hb] at herror
    rw [hb'] at herror'
    refine .refused herror herror' hcause (lineOfOffset_append_newline hline a) ?_
    rw [← hcount]
    exact lineOfOffset_append_newline hline' a'
  · obtain ⟨tokens, htokens, hall⟩ := toLines_append_newline ha hb
    obtain ⟨tokens', htokens', hall'⟩ := toLines_append_newline ha' hb'
    refine .read htokens htokens' ?_
    rw [hall, hall', hcount]
    apply List.rel_append hlines
    rw [List.forall₂_map_left_iff, List.forall₂_map_right_iff]
    exact hlinesb.imp fun l l' hl => hshift _ _ _ l l' hl

end

/-! ### Blanks in front of a line -/

/-- The lexemes with more blanks in front of the first. -/
def indentLexemes (blanks : List Char) : List Lexeme → List Lexeme
  | [] => []
  | l :: ls => { l with gap := blanks ++ l.gap } :: ls

/-- Blanks in front of a text are skipped. -/
theorem Spells.indent {ls : List Lexeme} {text rest blanks : List Char} (h : Spells ls text rest)
    (hblanks : ∀ c ∈ blanks, isBlank c = true) :
    Spells (indentLexemes blanks ls) (blanks ++ text) rest := by
  obtain ⟨tail, rfl, hfits, htail⟩ := h
  rcases ls with _ | ⟨l, ls⟩
  · exact ⟨blanks ++ tail, rfl, trivial, (isGap_of_blanks hblanks _).append htail⟩
  · obtain ⟨hgap, hlexeme, hfits⟩ := hfits
    refine ⟨tail, ?_, ⟨(isGap_of_blanks hblanks _).append hgap, hlexeme, hfits⟩, htail⟩
    simp [indentLexemes]

/-- On a line that begins with no blank, no gap is before the first lexeme. -/
theorem IsGap.eq_nil {gap rest : List Char} (h : IsGap gap rest) (hrest : rest ≠ [])
    (hinLine : '\n' ∉ gap ++ rest) (hhead : ∀ c ∈ (gap ++ rest).head?, isBlank c = false) :
    gap = [] := by
  rcases h with _ | ⟨hc, h⟩ | @⟨body, gap, _, hbody, hstop, h⟩
  · rfl
  · have hblank := hhead _ rfl
    rw [isBlank_iff.2 hc] at hblank
    cases hblank
  · -- a comment would reach to the end of the line, and nothing could follow
    obtain ⟨c, more, hmore⟩ : ∃ c more, gap ++ rest = c :: more :=
      List.exists_cons_of_ne_nil (List.append_ne_nil_of_right_ne_nil gap hrest)
    rw [List.append_assoc, hmore] at hinLine
    rw [hmore] at hstop
    rw [hstop c rfl] at hinLine
    simp at hinLine

/-- Without their places, tokens are the lexemes they were made of. -/
theorem bare_tokensAt (offset : Nat) (ls : List Lexeme) :
    (tokensAt offset ls).map Token.bare = ls.map fun l => ⟨l.category, 0, [], l.chars⟩ := by
  induction ls generalizing offset with
  | nil => rfl
  | cons l ls ih =>
    rw [tokensAt, List.map_cons, List.map_cons, ih]
    rfl

/-- Tokens without a line feed among them make one line. -/
theorem toLines_of_inLine {t : Token} {ts : List Token}
    (h : ∀ x ∈ t :: ts, x.isNewline = false) : Token.toLines (t :: ts) = [⟨1, t, ts⟩] := by
  have hall : ∀ x ∈ ts, (!x.isNewline) = true := by
    intro x hx
    rw [h x (List.mem_cons_of_mem t hx)]
    rfl
  rw [Token.toLines, linesFrom_cons (h t List.mem_cons_self), List.takeWhile_eq_self_iff.2 hall,
    List.dropWhile_eq_nil_iff.2 hall, linesFrom_nil]

section

variable {blanks blanks' body : List Char}

/-- A line feed is not blank. -/
theorem newline_notMem_blanks (h : ∀ c ∈ blanks, isBlank c = true) : '\n' ∉ blanks := by
  intro hmem
  have hblank := h _ hmem
  revert hblank
  decide

/-- Blanks in front of a line go to its first token and change no other. -/
theorem tokenize_line {ls : List Lexeme} (hspells : Spells ls body [])
    (hblanks : ∀ c ∈ blanks, isBlank c = true) :
    tokenize (String.ofList (blanks ++ body)) = .ok (tokensAt 0 (indentLexemes blanks ls)) := by
  refine tokenize_eq_ok_iff_spells.2 ⟨_, ?_, rfl⟩
  rw [String.toList_ofList]
  exact hspells.indent hblanks

/-- The tokens of a physical line make one line, indented with the blanks in front of it. -/
theorem toLines_line {l : Lexeme} {ls : List Lexeme} (hspells : Spells (l :: ls) body [])
    (hblanks : ∀ c ∈ blanks, isBlank c = true) (hbody : '\n' ∉ body)
    (hhead : ∀ c ∈ body.head?, isBlank c = false) :
    ∃ line, Token.toLines (tokensAt 0 (indentLexemes blanks (l :: ls))) = [line] ∧
      line.number = 1 ∧ line.indent = blanks ∧
      line.tokens.map Token.bare = (l :: ls).map fun l => ⟨l.category, 0, [], l.chars⟩ := by
  have hnewline : ∀ t ∈ tokensAt 0 (indentLexemes blanks (l :: ls)), t.isNewline = false := by
    have hcount := (tiling_of_tokenize (tokenize_line hspells hblanks)).countP_isNewline
    rw [String.toList_ofList, List.count_eq_zero.2, List.countP_eq_zero] at hcount
    · simpa using hcount
    · simp [newline_notMem_blanks hblanks, hbody]
  have hgap : l.gap = [] := by
    obtain ⟨tail, rfl, ⟨hgap, hlexeme, -⟩, -⟩ := hspells
    rw [spelling_cons, List.append_assoc, List.append_assoc, ← List.append_nil tail] at hbody hhead
    exact hgap.eq_nil (by simp [hlexeme.chars_ne_nil]) hbody hhead
  refine ⟨_, toLines_of_inLine hnewline, rfl, ?_, bare_tokensAt 0 (indentLexemes blanks (l :: ls))⟩
  show blanks ++ l.gap = blanks
  rw [hgap, List.append_nil]

/-- An error on a physical line keeps its cause, and it is on the only line there is. -/
theorem tokenize_line_error {ls : List Lexeme} {text cs shown : List Char} {c : Char}
    {cause : LexicalCause} (hspells : Spells ls text (c :: cs))
    (hbad : (piece c cs).verdict = .bad cause shown) (htext : '\n' ∉ text)
    (hblanks : ∀ c ∈ blanks, isBlank c = true) :
    ∃ e, tokenize (String.ofList (blanks ++ (text ++ c :: cs))) = .error e ∧ e.cause = cause ∧
      lineOfOffset (String.ofList (blanks ++ (text ++ c :: cs))) e.span.start = some 1 := by
  rw [← List.append_assoc, tokenize, Cursor.read, Cursor.atStart, String.toList_ofList,
    readFrom_of_spells_bad (hspells.indent hblanks) hbad]
  refine ⟨_, rfl, rfl, lineOfOffset_eq_some_iff.2 ⟨blanks ++ text, c :: cs, ?_, ?_, ?_⟩⟩
  · rw [String.toList_ofList]
  · exact (Nat.zero_add _).symm
  · rw [List.count_eq_zero.2]
    simp [newline_notMem_blanks hblanks, htext]

/-- Physical lines that differ in their leading blanks read alike. -/
theorem readsAlike_line (hblanks : ∀ c ∈ blanks, isBlank c = true)
    (hblanks' : ∀ c ∈ blanks', isBlank c = true) (hbody : '\n' ∉ body)
    (hhead : ∀ c ∈ body.head?, isBlank c = false) :
    ReadsAlike (fun l l' => l.SameWords l' ∧ l.indent = blanks ∧ l'.indent = blanks')
      (String.ofList (blanks ++ body)) (String.ofList (blanks' ++ body)) := by
  obtain ⟨ls, text, stop, happ, hspells, hstop⟩ := exists_spelling (.nil body)
  rw [List.nil_append] at happ
  subst happ
  rcases hstop with rfl | ⟨c, cs, cause, shown, rfl, hbad⟩
  · rw [List.append_nil] at hbody hhead ⊢
    refine .read (tokenize_line hspells hblanks) (tokenize_line hspells hblanks') ?_
    rcases ls with _ | ⟨l, ls⟩
    · have hnil : Token.toLines [] = [] := linesFrom_nil 1
      rw [indentLexemes, indentLexemes, tokensAt, hnil]
      exact .nil
    · obtain ⟨line, hline, hnumber, hindent, hwords⟩ := toLines_line hspells hblanks hbody hhead
      obtain ⟨line', hline', hnumber', hindent', hwords'⟩ :=
        toLines_line hspells hblanks' hbody hhead
      rw [hline, hline']
      exact .cons ⟨⟨hnumber'.trans hnumber.symm, hwords'.trans hwords.symm⟩, hindent, hindent'⟩ .nil
  · have htext : '\n' ∉ text := fun hmem => hbody (List.mem_append_left _ hmem)
    obtain ⟨e, he, hcause, hline⟩ := tokenize_line_error hspells hbad htext hblanks
    obtain ⟨e', he', hcause', hline'⟩ := tokenize_line_error hspells hbad htext hblanks'
    exact .refused he he' (hcause'.trans hcause.symm) hline hline'

end

/-! ### Whole scripts -/

/-- A line that is indented with copies of `b`, and the line it becomes. -/
structure Line.Reindented (f : Nat → Nat) (b c : Char) (l l' : Line) : Prop where
  words : l.SameWords l'
  indent : l.indent = List.replicate l.columns b
  indent' : l'.indent = List.replicate (f l.columns) c

section

variable {f : Nat → Nat} {b c : Char}

/-- Lines stay indented anew wherever the two are shifted, by whatever number of bytes. -/
theorem Line.Reindented.shift {l l' : Line} (h : l.Reindented f b c l') (d d' n : Nat) :
    (l.shift d n).Reindented f b c (l'.shift d' n) :=
  ⟨h.words.shift d d' n, h.indent, h.indent'⟩

/-- Scripts that read alike do so for every weaker relation of their lines. -/
theorem ReadsAlike.mono {R R' : Line → Line → Prop} {source source' : String}
    (h : ReadsAlike R source source') (himp : ∀ l l', R l l' → R' l l') :
    ReadsAlike R' source source' := by
  rcases h with ⟨h, h', hcause, hline, hline'⟩ | ⟨h, h', hlines⟩
  · exact .refused h h' hcause hline hline'
  · exact .read h h' (hlines.imp himp)

/-- Copies of a blank are blank. -/
theorem isBlank_of_mem_replicate (hc : isBlank c = true) (n : Nat) :
    ∀ x ∈ List.replicate n c, isBlank x = true := by
  intro x hx
  rw [List.eq_of_mem_replicate hx]
  exact hc

/-- Indenting a line anew does not break it. -/
theorem newline_notMem_reindentLine {text : List Char} (htext : '\n' ∉ text)
    (hc : isBlank c = true) : '\n' ∉ reindentLine f c text := by
  rw [reindentLine, List.mem_append, not_or]
  exact ⟨newline_notMem_blanks (isBlank_of_mem_replicate hc _),
    fun hmem => htext ((List.dropWhile_sublist isBlank).mem hmem)⟩

/-- A physical line reads like the line that is indented anew. -/
theorem readsAlike_reindentLine {text : List Char} (htext : '\n' ∉ text)
    (hblanks : ∀ x ∈ text.takeWhile isBlank, x = b) (hc : isBlank c = true) :
    ReadsAlike (Line.Reindented f b c) (String.ofList text)
      (String.ofList (reindentLine f c text)) := by
  have hsplit := List.takeWhile_append_dropWhile (p := isBlank) (l := text)
  have hrun : text.takeWhile isBlank = List.replicate (text.takeWhile isBlank).length b :=
    List.eq_replicate_iff.2 ⟨rfl, hblanks⟩
  have hbody : '\n' ∉ text.dropWhile isBlank :=
    fun hmem => htext ((List.dropWhile_sublist isBlank).mem hmem)
  have hleading : ∀ x ∈ text.takeWhile isBlank, isBlank x = true :=
    fun x hx => List.mem_takeWhile_imp hx
  have halike := readsAlike_line hleading
    (isBlank_of_mem_replicate hc (f (text.takeWhile isBlank).length)) hbody
    (head_dropWhile isBlank text)
  rw [hsplit] at halike
  apply halike.mono
  rintro l l' ⟨hwords, hindent, hindent'⟩
  have hcolumns : l.columns = (text.takeWhile isBlank).length := congrArg List.length hindent
  refine ⟨hwords, ?_, ?_⟩
  · rw [hcolumns, hindent]
    exact hrun
  · rw [hcolumns, hindent']

/-- Line by line, a script that is indented otherwise reads as before. -/
theorem readsAlike_joinLines {texts : List (List Char)} (hne : texts ≠ [])
    (htexts : ∀ text ∈ texts, '\n' ∉ text ∧ ∀ x ∈ text.takeWhile isBlank, x = b)
    (hc : isBlank c = true) :
    ReadsAlike (Line.Reindented f b c) (joinLines texts)
      (joinLines (texts.map (reindentLine f c))) := by
  induction texts with
  | nil => exact absurd rfl hne
  | cons text texts ih =>
    obtain ⟨htext, hblanks⟩ := htexts text List.mem_cons_self
    have hline := readsAlike_reindentLine (f := f) htext hblanks hc
    rcases texts with _ | ⟨text', texts⟩
    · rw [List.map_cons, List.map_nil, joinLines_singleton, joinLines_singleton]
      exact hline
    · have hrest := ih (List.cons_ne_nil _ _) fun t ht => htexts t (List.mem_cons_of_mem text ht)
      rw [List.map_cons, List.map_cons, joinLines_cons_cons, joinLines_cons_cons]
      refine hline.append_newline hrest ?_ fun d d' n l l' h => h.shift d d' n
      rw [String.toList_ofList, String.toList_ofList, List.count_eq_zero.2 htext,
        List.count_eq_zero.2 (newline_notMem_reindentLine htext hc)]

/-- A script that is indented with one blank throughout, and then otherwise, has the same words on
the same lines, or the same error on the same line. -/
theorem readsAlike_reindent {source : String} (h : IndentedWith b source) (hc : isBlank c = true) :
    ReadsAlike (Line.Reindented f b c) source (reindent f c source) := by
  have halike := readsAlike_joinLines (f := f) (List.splitOn_ne_nil '\n' source.toList)
    (fun text htext => ⟨notMem_of_mem_splitOn htext, h text htext⟩) hc
  rwa [← physicalLines, joinLines_physicalLines] at halike

end

end ScriptHints
