/-!
# White space

Two notions of white space matter to scripts.

* `isBlank` — the four characters that may stand between tokens without meaning: space, tab,
  carriage return and form feed. They also make up a line's indentation.
* `isWhiteSpace` — every character with the Unicode property White_Space. Outside texts, comments
  and variable names, the ones that are neither blank nor a line feed are not allowed at all.
-/

namespace ScriptHints.Text

/-- Space, tab, carriage return or form feed: skipped between tokens. -/
def isBlank (c : Char) : Bool :=
  c == ' ' || c == '\t' || c == '\r' || c == '\x0c'

/-- The code point ranges of the Unicode property White_Space, ends included. -/
def whiteSpaceRanges : List (Nat × Nat) :=
  [(0x09, 0x0d), (0x20, 0x20), (0x85, 0x85), (0xa0, 0xa0), (0x1680, 0x1680), (0x2000, 0x200a),
    (0x2028, 0x2029), (0x202f, 0x202f), (0x205f, 0x205f), (0x3000, 0x3000)]

/-- Whether a code point lies in one of the ranges. -/
def inRanges (ranges : List (Nat × Nat)) (n : Nat) : Bool :=
  ranges.any fun r => r.1 ≤ n && n ≤ r.2

/-- Whether a character has the Unicode property White_Space. -/
def isWhiteSpace (c : Char) : Bool :=
  inRanges whiteSpaceRanges c.toNat

end ScriptHints.Text
