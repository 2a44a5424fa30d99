import ScriptHints.Variable

/-!
# Lines

A line of a script that holds at least one token. Blank lines and lines with nothing but a comment
are not among them, yet they count when lines are numbered.

* `Token.toLines` — the lines of a list of tokens.
* `Line.indent`, `Line.width`, `Line.style` — how a line is indented. The text skipped before the
  first token of a line is exactly its indentation.
* `Line.statement` — what a line says: it assigns a value to a variable, or something else.
-/

namespace ScriptHints

/-- Why the outline of a script is refused. -/
inductive LayoutCause
  /-- A line is indented deeper without a header above it. -/
  | tooDeep
  /-- A line is indented less, but not as much as any open section. -/
  | misaligned
  /-- Tabs and spaces are both used. -/
  | mixedBlanks
  deriving DecidableEq, Repr

/-- An indentation that is refused. -/
structure LayoutError where
  cause : LayoutCause
  span : Span
  deriving DecidableEq, Repr

/-- A line that holds at least one token. -/
structure Line where
  /-- The number of the line, counting from one. -/
  number : Nat
  first : Token
  others : List Token
  deriving DecidableEq, Repr

/-- Groups tokens into lines, the first of which has the given number. -/
def linesFrom (number : Nat) : List Token → List Line
  | [] => []
  | t :: ts =>
    if t.isNewline then linesFrom (number + 1) ts
    else
      ⟨number, t, ts.takeWhile (!·.isNewline)⟩ :: linesFrom number (ts.dropWhile (!·.isNewline))
termination_by ts => ts.length
decreasing_by
  · simp
  · have := (List.dropWhile_sublist (fun t : Token => !t.isNewline) (l := ts)).length_le
    simp only [List.length_cons]
    omega

/-- The lines of a list of tokens. -/
def Token.toLines (tokens : List Token) : List Line :=
  linesFrom 1 tokens

/-- What a line says. -/
inductive Statement
  /-- `set target to value`. -/
  | assignment (target : Token) (value : List Token)
  | other (tokens : List Token)
  deriving DecidableEq, Repr

namespace Line

/-- The tokens of the line. -/
def tokens (l : Line) : List Token := l.first :: l.others

/-- The last token of the line. -/
def last (l : Line) : Token := l.others.getLastD l.first

/-- The region from the first to the last token. -/
def span (l : Line) : Span := l.first.span.merge l.last.span

/-- Whether the line is the header of a section: its last token is a colon. -/
def isHeader (l : Line) : Bool := l.last.category == .colon

/-- The text the line is indented with. -/
def indent (l : Line) : List Char := l.first.lead

/-- The region of the indentation. -/
def indentSpan (l : Line) : Span := ⟨l.first.offset, l.first.start⟩

/-- The number of characters the line is indented with. Tabs and spaces must not be mixed. -/
def width (l : Line) : Except LayoutError Nat :=
  if ' ' ∈ l.indent ∧ '\t' ∈ l.indent then .error ⟨.mixedBlanks, l.indentSpan⟩
  else .ok l.indent.length

/-- The character the line is indented with, none for a line at top level. -/
def style (l : Line) : Option Char := l.indent.head?

/-- What the line says. -/
def statement (l : Line) : Statement :=
  match l.tokens with
  | a :: target :: b :: value =>
    if a.category = .keyword .set ∧ target.category = .var ∧ b.category = .keyword .to then
      .assignment target value
    else .other l.tokens
  | tokens => .other tokens

/-- The variables the line mentions. -/
def uses (l : Line) : List Use := l.tokens.flatMap Token.uses

end Line

end ScriptHints
