import ScriptHints.Text.Blank
import ScriptHints.Text.Braces
import ScriptHints.Token

/-!
# The next piece of a script

Reading a script repeats one step: look at the text that is left and cut off its first *piece*.
A piece is a gap that carries no meaning, a token, or a place at which no token can be read. This
file decides which of them it is and how far it reaches; the longest word always wins.

* `piece` — the first piece of a non-empty text.
* `piece_append` — the piece and what is left behind it make up the text.
* `length_rest_piece_lt` — a piece is never empty, so reading comes to an end.
-/

namespace ScriptHints

open Text

/-! ## Character classes -/

/-- Characters a word may start with. -/
def isWordStart (c : Char) : Bool := c.isAlpha || c == '_'

/-- Characters a word may go on with. -/
def isWordPart (c : Char) : Bool := c.isAlphanum || c == '_' || c == '\x27'

/-- Characters that are a token on their own. -/
def isSymbol (c : Char) : Bool :=
  !isWhiteSpace c && !c.isAlphanum && !(['_', '{', '}', '"', '#', ':'].contains c)

/-- Characters that do not end a line. -/
def inLine (c : Char) : Bool := c != '\n'

/-! ## Extents -/

/-- The category of a word: keywords and truth values are words of a fixed spelling. -/
def wordCategory (w : List Char) : Category :=
  if w = ['t', 'r', 'u', 'e'] ∨ w = ['y', 'e', 's'] then .boolean true
  else if w = ['f', 'a', 'l', 's', 'e'] ∨ w = ['n', 'o'] then .boolean false
  else if w = ['s', 'e', 't'] then .keyword .set
  else if w = ['t', 'o'] then .keyword .to
  else .word

/-- Cuts a fraction off the front of a text: a point with at least one digit behind it. Without one
nothing is cut off. -/
def splitFraction : List Char → List Char × List Char
  | '.' :: d :: cs =>
    if d.isDigit then ('.' :: d :: cs.takeWhile Char.isDigit, cs.dropWhile Char.isDigit)
    else ([], '.' :: d :: cs)
  | cs => ([], cs)

/-- Cuts off the rest of a literal whose opening mark has just been read, closing mark included.
Two marks in a row stand for one inside the literal. A literal ends on its own line. -/
def closeText? : List Char → Option (List Char × List Char)
  | [] => none
  | '"' :: '"' :: cs => (closeText? cs).map fun (inside, rest) => ('"' :: '"' :: inside, rest)
  | c :: cs =>
    if c = '"' then some (['"'], cs)
    else if c = '\n' then none
    else (closeText? cs).map fun (inside, rest) => (c :: inside, rest)

/-! ## Pieces -/

/-- What a piece of text is. -/
inductive Verdict
  /-- Blanks or a comment. -/
  | gap
  /-- A token. -/
  | lexeme (category : Category)
  /-- No token can be read; `shown` is the text to point at. -/
  | bad (cause : LexicalCause) (shown : List Char)
  deriving DecidableEq, Repr

/-- A piece cut off the front of a text. After a bad piece reading goes on with `rest` as well. -/
structure Piece where
  verdict : Verdict
  /-- The characters of the piece. -/
  chars : List Char
  /-- The text behind it. -/
  rest : List Char
  deriving DecidableEq, Repr

/-- The piece at the front of the text `c :: cs`. -/
def piece (c : Char) (cs : List Char) : Piece :=
  if isBlank c then
    ⟨.gap, c :: cs.takeWhile isBlank, cs.dropWhile isBlank⟩
  else if c = '#' then
    ⟨.gap, c :: cs.takeWhile inLine, cs.dropWhile inLine⟩
  else if c = '\n' then
    ⟨.lexeme .newline, [c], cs⟩
  else if isWordStart c then
    let word := c :: cs.takeWhile isWordPart
    ⟨.lexeme (wordCategory word), word, cs.dropWhile isWordPart⟩
  else if c.isDigit then
    let (fraction, rest) := splitFraction (cs.dropWhile Char.isDigit)
    ⟨.lexeme .number, c :: cs.takeWhile Char.isDigit ++ fraction, rest⟩
  else if c = '"' then
    match closeText? cs with
    | some (inside, rest) => ⟨.lexeme .text, c :: inside, rest⟩
    | none => ⟨.bad .unclosedText (c :: cs.takeWhile inLine), [c], cs⟩
  else if c = '{' then
    match closeGroup? cs with
    | some ([], rest) => ⟨.bad .namelessVariable ['{', '}'], ['{', '}'], rest⟩
    | some (inside, rest) => ⟨.lexeme .var, c :: inside ++ ['}'], rest⟩
    | none => ⟨.bad .unclosedVariable (c :: cs.takeWhile inLine), [c], cs⟩
  else if c = ':' then
    ⟨.lexeme .colon, [c], cs⟩
  else if isSymbol c then
    ⟨.lexeme .symbol, [c], cs⟩
  else
    ⟨.bad .strayCharacter [c], [c], cs⟩

/-! ## Nothing is lost -/

/-- A fraction and what is left make up the text. -/
theorem splitFraction_append (cs : List Char) :
    (splitFraction cs).1 ++ (splitFraction cs).2 = cs := by
  unfold splitFraction
  split
  · split <;> simp
  · rfl

/-- The rest of a literal and what is left make up the text. -/
theorem append_of_closeText? {cs inside rest : List Char}
    (h : closeText? cs = some (inside, rest)) : inside ++ rest = cs := by
  fun_induction closeText? cs generalizing inside with
  | case1 => simp at h
  | case2 cs ih =>
    obtain ⟨⟨i, r⟩, hr, he⟩ := Option.map_eq_some_iff.1 h
    obtain ⟨rfl, rfl⟩ := Prod.mk.inj he
    simp [ih hr]
  | case3 cs =>
    obtain ⟨rfl, rfl⟩ := Prod.mk.inj (Option.some.inj h)
    rfl
  | case4 => simp at h
  | case5 c cs _ _ _ ih =>
    obtain ⟨⟨i, r⟩, hr, he⟩ := Option.map_eq_some_iff.1 h
    obtain ⟨rfl, rfl⟩ := Prod.mk.inj he
    simp [ih hr]

/-- A piece and what is left behind it make up the text it was cut off. -/
theorem piece_append (c : Char) (cs : List Char) :
    (piece c cs).chars ++ (piece c cs).rest = c :: cs := by
  unfold piece
  split
  · simp
  split
  · simp
  split
  · simp
  split
  · simp
  split
  · simp [splitFraction_append]
  split
  · split
    · rename_i h
      simp [append_of_closeText? h]
    · simp
  split
  · rename_i hc
    subst hc
    split
    · rename_i h
      simpa using append_of_closeGroup? h
    · rename_i h
      simpa using append_of_closeGroup? h
    · simp
  split
  · simp
  split <;> simp

/-- A piece holds at least the first character of the text. -/
theorem piece_chars_ne_nil (c : Char) (cs : List Char) : (piece c cs).chars ≠ [] := by
  unfold piece
  split
  · simp
  split
  · simp
  split
  · simp
  split
  · simp
  split
  · simp
  split
  · split <;> simp
  split
  · split <;> simp
  split
  · simp
  split <;> simp

/-- What is left behind a piece is shorter than the text it was cut off. -/
theorem length_rest_piece_lt (c : Char) (cs : List Char) :
    (piece c cs).rest.length < (c :: cs).length := by
  have h := congrArg List.length (piece_append c cs)
  have := List.length_pos_iff.2 (piece_chars_ne_nil c cs)
  simp only [List.length_append] at h
  omega

end ScriptHints
