import ScriptHints.Line

/-!
# The outline of a script

Indentation groups the lines of a script into sections: a header, a line ending with a colon, may
be followed by lines that are indented deeper. This file says where a line stands given the lines
before it, and nothing about what the line means.

* `Outline` — the sections open after a line and the header still waiting for its first line.
* `Outline.place` — what a further line does to the outline: which section it opens, how many it
  closes, which header it leaves with an empty section, and whether its indentation is refused.

The checks come in a fixed order: an indentation mixing tabs and spaces, a deeper line without a
header, a line that matches no open section, a line indented with another character than the
sections around it.
-/

namespace ScriptHints

/-- An open section, described by its first line. -/
structure Section where
  /-- Characters its lines are indented with. -/
  width : Nat
  /-- The first of those characters. -/
  style : Option Char
  deriving DecidableEq, Repr

/-- The state of the outline between two lines. -/
structure Outline where
  /-- The open sections, innermost first. -/
  sections : List Section := []
  /-- The region of the last line if that was a header. -/
  pending : Option Span := none
  deriving DecidableEq, Repr

/-- The width lines have in the innermost of the given sections, zero at top level. -/
def widthOf (sections : List Section) : Nat :=
  (sections.head?.map Section.width).getD 0

/-- What a line does to the outline. -/
structure Placement where
  /-- A header whose section the line shows to be empty. -/
  emptied : Option Span := none
  /-- Whether the line is the first of a new section. -/
  opened : Bool := false
  /-- The number of sections that end before the line. -/
  closed : Nat := 0
  /-- The outline after the line, or the reason to refuse it. -/
  verdict : Except LayoutError Outline

namespace Outline

/-- The checks on a line of the given width once the sections deeper than it are closed. -/
def settle (sections : List Section) (width : Nat) (line : Line) : Except LayoutError Outline :=
  if width ≠ widthOf sections then .error ⟨.misaligned, line.indentSpan⟩
  else if sections.any (·.style != line.style) then .error ⟨.mixedBlanks, line.indentSpan⟩
  else .ok ⟨sections, if line.isHeader then some line.span else none⟩

/-- Places a line below the lines before it. -/
def place (o : Outline) (line : Line) : Placement :=
  match line.width with
  | .error e => { verdict := .error e }
  | .ok width =>
    if widthOf o.sections < width then
      match o.pending with
      | none => { verdict := .error ⟨.tooDeep, line.indentSpan⟩ }
      | some _ =>
        { opened := true
          verdict := settle (⟨width, line.style⟩ :: o.sections) width line }
    else
      { emptied := o.pending
        closed := (o.sections.takeWhile (width < ·.width)).length
        verdict := settle (o.sections.dropWhile (width < ·.width)) width line }

end Outline

end ScriptHints
