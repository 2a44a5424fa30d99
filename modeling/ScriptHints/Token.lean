import ScriptHints.Span
import ScriptHints.Text.Size

/-!
# Tokens

The words a script is made of. A token keeps the text it was read from and the text that was
skipped before it, so that everything about it — where it lies, what it says, how far its line is
indented — can be told from the token alone.

* `Category` — what kind of word a token is.
* `Token` — a word with its place in the script.
* `LexicalError` — why a script cannot be split into tokens, and where.
-/

namespace ScriptHints

/-- Words with a meaning of their own. -/
inductive Keyword
  | set
  | to
  deriving DecidableEq, Repr

/-- What kind of word a token is. -/
inductive Category
  /-- A line feed. -/
  | newline
  /-- One of the words for truth values. -/
  | boolean (value : Bool)
  /-- Digits, perhaps with a fraction. -/
  | number
  /-- A literal between quotation marks. -/
  | text
  /-- A name between braces. -/
  | var
  | keyword (word : Keyword)
  /-- Any other run of letters, digits, underscores and apostrophes. -/
  | word
  | colon
  /-- A single character of any other kind. -/
  | symbol
  deriving DecidableEq, Repr

/-- The name a category is listed under. -/
def Category.describe : Category → String
  | .newline => "Newline"
  | .boolean true => "Boolean(true)"
  | .boolean false => "Boolean(false)"
  | .number => "Number"
  | .text => "Text"
  | .var => "Variable"
  | .keyword .set => "Keyword(Set)"
  | .keyword .to => "Keyword(To)"
  | .word => "Word"
  | .colon => "Colon"
  | .symbol => "Symbol"

/-- A word of a script together with what was skipped before it. -/
structure Token where
  category : Category
  /-- Where the skipped text before the token begins. -/
  offset : Nat
  /-- Blanks and comments skipped between the token before and this one. -/
  lead : List Char
  /-- The characters of the token. -/
  chars : List Char
  deriving DecidableEq, Repr

namespace Token

/-- Offset of the first byte of the token. -/
def start (t : Token) : Nat := t.offset + Text.size t.lead

/-- Offset of the byte behind the token. -/
def stop (t : Token) : Nat := t.start + Text.size t.chars

/-- The region the token takes up. -/
def span (t : Token) : Span := ⟨t.start, t.stop⟩

/-- The text of the token. -/
def text (t : Token) : String := String.ofList t.chars

/-- The characters of the name between the braces of a variable. -/
def inner (t : Token) : List Char := t.chars.tail.dropLast

/-- The name of a variable, without its braces. -/
def name? (t : Token) : Option String :=
  if t.category = .var then some (String.ofList t.inner) else none

/-- Whether the token ends a line. -/
def isNewline (t : Token) : Bool := t.category == .newline

/-- A token does not end before it begins. -/
theorem start_le_stop (t : Token) : t.start ≤ t.stop := Nat.le_add_right _ _

end Token

/-- Why no token can be read. -/
inductive LexicalCause
  /-- No token starts with this character. -/
  | strayCharacter
  /-- A text without its closing mark. -/
  | unclosedText
  /-- A variable without its closing brace. -/
  | unclosedVariable
  /-- A pair of braces with no name between them. -/
  | namelessVariable
  deriving DecidableEq, Repr

/-- A place at which no token can be read. -/
structure LexicalError where
  cause : LexicalCause
  span : Span
  deriving DecidableEq, Repr

end ScriptHints
