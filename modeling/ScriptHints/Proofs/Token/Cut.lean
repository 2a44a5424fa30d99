import Mathlib.Data.List.TakeWhile
import Mathlib.Tactic.SplitIfs
import ScriptHints.Proofs.Token.Extent
import ScriptHints.Token.Stream

/-!
# How a piece comes about

`piece` decides by a chain of tests what the front of a text is. `Cut` writes the chain down as a
list of cases, each with the test that led to it, so that a fact about pieces is proved once per
case and no other file has to open `piece`.

* `piece_cut` — every piece is one of the cases.
* `Token.WellFormed` — what the characters of a token look like: no line feed outside the token for
  it, braces around the name of a variable.
* `wellFormed_of_lexeme` — the tokens cut off a text are well formed.
* `inLine_of_gap` — a gap never reaches over a line feed.
* `shown_of_bad` — what a refused piece points at stands at the front of the text.
* `readFrom_gap`, `readFrom_lexeme`, `readFrom_bad` — what reading does with each kind of piece, and
  `readFrom_induction`, the induction over a reading that goes with them.
-/

namespace ScriptHints

open Text

/-! ### The cases -/

/-- The piece at the front of `c :: cs`, case by case. -/
inductive Cut (c : Char) (cs : List Char) : Piece → Prop
  | blanks (hc : isBlank c) : Cut c cs ⟨.gap, c :: cs.takeWhile isBlank, cs.dropWhile isBlank⟩
  | comment (hc : c = '#') : Cut c cs ⟨.gap, c :: cs.takeWhile inLine, cs.dropWhile inLine⟩
  | newline (hc : c = '\n') : Cut c cs ⟨.lexeme .newline, [c], cs⟩
  | word (hn : c ≠ '\n') (hc : isWordStart c) :
      Cut c cs ⟨.lexeme (wordCategory (c :: cs.takeWhile isWordPart)),
        c :: cs.takeWhile isWordPart, cs.dropWhile isWordPart⟩
  | number (hn : c ≠ '\n') (hc : c.isDigit) :
      Cut c cs ⟨.lexeme .number,
        c :: cs.takeWhile Char.isDigit ++ (splitFraction (cs.dropWhile Char.isDigit)).1,
        (splitFraction (cs.dropWhile Char.isDigit)).2⟩
  | text {inside rest : List Char} (hc : c = '"') (h : closeText? cs = some (inside, rest)) :
      Cut c cs ⟨.lexeme .text, c :: inside, rest⟩
  | openText (hc : c = '"') (h : closeText? cs = none) :
      Cut c cs ⟨.bad .unclosedText (c :: cs.takeWhile inLine), [c], cs⟩
  | nameless {rest : List Char} (hc : c = '{') (h : closeGroup? cs = some ([], rest)) :
      Cut c cs ⟨.bad .namelessVariable ['{', '}'], ['{', '}'], rest⟩
  | group {inside rest : List Char} (hc : c = '{') (h : closeGroup? cs = some (inside, rest))
      (hi : inside ≠ []) : Cut c cs ⟨.lexeme .var, c :: inside ++ ['}'], rest⟩
  | openGroup (hc : c = '{') (h : closeGroup? cs = none) :
      Cut c cs ⟨.bad .unclosedVariable (c :: cs.takeWhile inLine), [c], cs⟩
  | colon (hc : c = ':') : Cut c cs ⟨.lexeme .colon, [c], cs⟩
  | symbol (hn : c ≠ '\n') (hc : isSymbol c) : Cut c cs ⟨.lexeme .symbol, [c], cs⟩
  | stray (hn : c ≠ '\n') (hc : isSymbol c = false) : Cut c cs ⟨.bad .strayCharacter [c], [c], cs⟩

/-- Every piece is one of the cases. -/
theorem piece_cut (c : Char) (cs : List Char) : Cut c cs (piece c cs) := by
  unfold piece
  split
  · exact .blanks ‹_›
  split
  · exact .comment ‹_›
  split
  · exact .newline ‹_›
  rename_i hn
  split
  · exact .word hn ‹_›
  split
  · exact .number hn ‹_›
  split
  · rename_i hc
    split
    · exact .text hc ‹_›
    · exact .openText hc ‹_›
  split
  · rename_i hc
    split
    · exact .nameless hc ‹_›
    · rename_i hne h
      exact .group hc h hne
    · exact .openGroup hc ‹_›
  split
  · exact .colon ‹_›
  split
  · exact .symbol hn ‹_›
  · rename_i hc
    exact .stray hn (by simpa using hc)

/-! ### Line feeds -/

/-- A character outside a class is not among the characters taken from it. -/
theorem notMem_takeWhile {p : Char → Bool} {c : Char} (h : p c = false) (cs : List Char) :
    c ∉ cs.takeWhile p := by
  intro hc
  rw [List.mem_takeWhile_imp hc] at h
  cases h

/-- A literal ends on the line it begins on. -/
theorem newline_notMem_of_closeText? {cs inside rest : List Char}
    (h : closeText? cs = some (inside, rest)) : '\n' ∉ inside := by
  obtain ⟨body, hbody, -, rfl, -⟩ := closeText?_eq_some_iff.1 h
  simp [hbody.inLine]

/-- A fraction is on one line. -/
theorem newline_notMem_splitFraction (cs : List Char) : '\n' ∉ (splitFraction cs).1 := by
  unfold splitFraction
  split
  · rename_i d cs
    split
    · rename_i hd
      have hn : '\n' ≠ d := by
        rintro rfl
        simp [Char.isDigit] at hd
      have ht := notMem_takeWhile (p := Char.isDigit) (c := '\n') (by decide) cs
      simp [hn, ht]
    · simp
  · simp

/-! ### What tokens look like -/

/-- What the characters of a token look like. -/
structure Token.WellFormed (t : Token) : Prop where
  /-- What is skipped before a token never reaches over a line feed. -/
  lead_inLine : '\n' ∉ t.lead
  /-- The token that ends a line is a line feed. -/
  chars_newline : t.category = .newline → t.chars = ['\n']
  /-- No other token holds one. -/
  chars_inLine : t.category ≠ .newline → '\n' ∉ t.chars
  /-- A variable is a name between braces. -/
  chars_var : t.category = .var → t.chars = '{' :: t.inner ++ ['}']
  /-- The name is not empty. -/
  inner_ne_nil : t.category = .var → t.inner ≠ []

/-- A word is a truth value, a keyword or a word like any other. -/
theorem wordCategory_ne (category : Category) (hboolean : ∀ value, category ≠ .boolean value)
    (hkeyword : ∀ word, category ≠ .keyword word) (hword : category ≠ .word) (w : List Char) :
    wordCategory w ≠ category := by
  unfold wordCategory
  split_ifs
  · exact (hboolean true).symm
  · exact (hboolean false).symm
  · exact (hkeyword .set).symm
  · exact (hkeyword .to).symm
  · exact hword.symm

/-- A token of no special category is well formed once it keeps to its line. -/
theorem Token.WellFormed.of_inLine {t : Token} (hlead : '\n' ∉ t.lead) (hchars : '\n' ∉ t.chars)
    (hn : t.category ≠ .newline) (hv : t.category ≠ .var) : t.WellFormed where
  lead_inLine := hlead
  chars_newline h := absurd h hn
  chars_inLine _ := hchars
  chars_var h := absurd h hv
  inner_ne_nil h := absurd h hv

/-- The tokens cut off a text are well formed. -/
theorem wellFormed_of_lexeme {c : Char} {cs : List Char} {category : Category} {offset : Nat}
    {lead : List Char} (hlead : '\n' ∉ lead) (h : (piece c cs).verdict = .lexeme category) :
    Token.WellFormed ⟨category, offset, lead, (piece c cs).chars⟩ := by
  have hcut := piece_cut c cs
  generalize piece c cs = p at h hcut
  cases hcut with
  | blanks | comment | openText | nameless | openGroup | stray => simp at h
  | newline hc =>
    obtain rfl := Verdict.lexeme.inj h
    subst hc
    exact ⟨hlead, fun _ => rfl, fun h => absurd rfl h, nofun, nofun⟩
  | word hn hc =>
    obtain rfl := Verdict.lexeme.inj h
    have ht := notMem_takeWhile (p := isWordPart) (c := '\n') (by decide) cs
    exact .of_inLine hlead (by simp [ht, Ne.symm hn])
      (wordCategory_ne .newline nofun nofun nofun _) (wordCategory_ne .var nofun nofun nofun _)
  | number hn hc =>
    obtain rfl := Verdict.lexeme.inj h
    have ht := notMem_takeWhile (p := Char.isDigit) (c := '\n') (by decide) cs
    have hf := newline_notMem_splitFraction (cs.dropWhile Char.isDigit)
    exact .of_inLine hlead (by simp [ht, hf, Ne.symm hn]) nofun nofun
  | text hc hclose =>
    obtain rfl := Verdict.lexeme.inj h
    subst hc
    have hi := newline_notMem_of_closeText? hclose
    exact .of_inLine hlead (by simp [hi]) nofun nofun
  | @group inside rest hc hclose hi =>
    obtain rfl := Verdict.lexeme.inj h
    subst hc
    have hn := (closeGroup?_eq_some_iff.1 hclose).1.inLine
    have hinner : Token.inner ⟨.var, offset, lead, '{' :: inside ++ ['}']⟩ = inside := by
      simp [Token.inner]
    refine ⟨hlead, nofun, fun _ => by simp [hn], fun _ => ?_, fun _ => ?_⟩
    · rw [hinner]
    · rw [hinner]
      exact hi
  | colon hc =>
    obtain rfl := Verdict.lexeme.inj h
    subst hc
    exact .of_inLine hlead (by simp) nofun nofun
  | symbol hn hc =>
    obtain rfl := Verdict.lexeme.inj h
    exact .of_inLine hlead (by simp [Ne.symm hn]) nofun nofun

/-- A gap never reaches over a line feed. -/
theorem inLine_of_gap {c : Char} {cs : List Char} (h : (piece c cs).verdict = .gap) :
    '\n' ∉ (piece c cs).chars := by
  have hcut := piece_cut c cs
  generalize piece c cs = p at h hcut
  cases hcut with
  | blanks hc =>
    have hn : '\n' ≠ c := by
      rintro rfl
      simp [isBlank] at hc
    have ht := notMem_takeWhile (p := isBlank) (c := '\n') (by decide) cs
    simp [hn, ht]
  | comment hc =>
    subst hc
    have ht := notMem_takeWhile (p := inLine) (c := '\n') (by decide) cs
    simp [ht]
  | _ => simp at h

/-- What a refused piece points at is not empty and stands at the front of the text. -/
theorem shown_of_bad {c : Char} {cs shown : List Char} {cause : LexicalCause}
    (h : (piece c cs).verdict = .bad cause shown) :
    shown ≠ [] ∧ ∃ after, c :: cs = shown ++ after := by
  have hcut := piece_cut c cs
  generalize piece c cs = p at h hcut
  cases hcut with
  | openText | openGroup =>
    obtain ⟨-, rfl⟩ := Verdict.bad.inj h
    exact ⟨by simp, cs.dropWhile inLine, by simp⟩
  | @nameless rest hc hclose =>
    obtain ⟨-, rfl⟩ := Verdict.bad.inj h
    subst hc
    have happ := append_of_closeGroup? hclose
    exact ⟨by simp, rest, by simp [← happ]⟩
  | stray =>
    obtain ⟨-, rfl⟩ := Verdict.bad.inj h
    exact ⟨by simp, cs, rfl⟩
  | _ => simp at h

/-! ### Reading piece by piece -/

variable {offset : Nat} {lead cs : List Char} {c : Char}

/-- At the end of the text, what was skipped before it belongs to no token. -/
theorem readFrom_nil : readFrom offset lead [] = (.ok [], ⟨offset + size lead, []⟩) := by
  rw [readFrom]

/-- A gap is skipped. -/
theorem readFrom_gap (h : (piece c cs).verdict = .gap) :
    readFrom offset lead (c :: cs) =
      readFrom offset (lead ++ (piece c cs).chars) (piece c cs).rest := by
  rw [readFrom]
  simp only [h]

/-- A token is put in front of what is read behind it. -/
theorem readFrom_lexeme {category : Category} (h : (piece c cs).verdict = .lexeme category)
    {token : Token} (ht : token = ⟨category, offset, lead, (piece c cs).chars⟩) :
    readFrom offset lead (c :: cs) =
      ((readFrom token.stop [] (piece c cs).rest).1.map (token :: ·),
        (readFrom token.stop [] (piece c cs).rest).2) := by
  subst ht
  rw [readFrom]
  simp only [h]

/-- A refused piece ends the reading. -/
theorem readFrom_bad {cause : LexicalCause} {shown : List Char}
    (h : (piece c cs).verdict = .bad cause shown) :
    readFrom offset lead (c :: cs) =
      (.error ⟨cause, offset + size lead, offset + size lead + size shown⟩,
        ⟨offset + size lead + size (piece c cs).chars, (piece c cs).rest⟩) := by
  rw [readFrom]
  simp only [h]

/-- Induction over a reading, piece by piece. -/
@[elab_as_elim]
theorem readFrom_induction {motive : Nat → List Char → List Char → Prop}
    (nil : ∀ offset lead, motive offset lead [])
    (gap : ∀ offset lead c cs, (piece c cs).verdict = .gap →
      motive offset (lead ++ (piece c cs).chars) (piece c cs).rest → motive offset lead (c :: cs))
    (lexeme : ∀ offset lead c cs category, (piece c cs).verdict = .lexeme category →
      motive (Token.stop ⟨category, offset, lead, (piece c cs).chars⟩) [] (piece c cs).rest →
      motive offset lead (c :: cs))
    (bad : ∀ offset lead c cs cause shown, (piece c cs).verdict = .bad cause shown →
      motive offset lead (c :: cs))
    (offset : Nat) (lead cs : List Char) : motive offset lead cs :=
  readFrom.induct motive nil gap
    (fun offset lead c cs category hv _ _ _ ih => lexeme offset lead c cs category hv ih)
    bad offset lead cs

end ScriptHints
