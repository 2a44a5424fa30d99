import ScriptHints.Token.Piece

/-!
# Reading tokens

A `Cursor` is a place in a script together with the text that is left from there on. Reading from
a cursor gives all tokens up to the end of the script, or the first place at which no token can be
read; in either case it also gives the cursor from which a later reading goes on. What was read
before an error is lost.

* `readFrom` — reads to the end of the script or to the first error.
* `Cursor.read`, `Cursor.readTimes` — one reading, and several in a row.
* `tokenize` — the tokens of a whole script.
-/

namespace ScriptHints

/-- A place in a script. -/
structure Cursor where
  /-- Bytes before the cursor. -/
  offset : Nat
  /-- The text behind the cursor. -/
  rest : List Char
  deriving DecidableEq, Repr

/-- What a reading gives: the tokens, or the place at which there is none. -/
abbrev Reading := Except LexicalError (List Token)

/-- Reads the text to its end or to the first error. The text stands behind `lead`, which was
skipped already and begins at `offset`. -/
def readFrom (offset : Nat) (lead : List Char) : List Char → Reading × Cursor
  | [] => (.ok [], ⟨offset + Text.size lead, []⟩)
  | c :: cs =>
    let p := piece c cs
    match p.verdict with
    | .gap => readFrom offset (lead ++ p.chars) p.rest
    | .lexeme category =>
      let token : Token := ⟨category, offset, lead, p.chars⟩
      let (reading, cursor) := readFrom token.stop [] p.rest
      (reading.map (token :: ·), cursor)
    | .bad cause shown =>
      let start := offset + Text.size lead
      (.error ⟨cause, start, start + Text.size shown⟩, ⟨start + Text.size p.chars, p.rest⟩)
termination_by cs => cs.length
decreasing_by all_goals exact length_rest_piece_lt c cs

namespace Cursor

/-- The cursor at the start of a script. -/
def atStart (source : String) : Cursor := ⟨0, source.toList⟩

/-- Reads from the cursor on, giving also the cursor for the next reading. -/
def read (cursor : Cursor) : Reading × Cursor :=
  readFrom cursor.offset [] cursor.rest

/-- Reads several times in a row, each time from where the reading before stopped. -/
def readTimes : Nat → Cursor → List Reading
  | 0, _ => []
  | n + 1, cursor => cursor.read.1 :: readTimes n cursor.read.2

end Cursor

/-- The tokens of a script. -/
def tokenize (source : String) : Reading :=
  (Cursor.atStart source).read.1

end ScriptHints
