import ScriptHints.Failure

/-!
# Telling the user

A diagnostic told in plain lines: what is wrong, where the lines around it start if it points at a
script, how to mend it, and the code to look it up by.

* `Complaint` — a diagnostic, and the script it is about if there is one.
* `Complaint.lines` — the lines it is told in.
-/

namespace ScriptHints.Command

/-- A script by its name and text. -/
structure Script where
  name : String
  text : String
  deriving DecidableEq, Repr

/-- The number of lines of a text, which begins at `position`, that end before `offset`. A line ends
with a line feed, a carriage return, or both. -/
def lineEndsBefore (offset position : Nat) : List Char → Nat
  | [] => 0
  | '\r' :: '\n' :: cs =>
    if position + 1 < offset then lineEndsBefore offset (position + 2) cs + 1 else 0
  | c :: cs =>
    if position < offset then
      lineEndsBefore offset (position + c.utf8Size) cs + if c = '\n' ∨ c = '\r' then 1 else 0
    else 0

/-- Says where the lines around a labelled region start: with the line before that of the region, if
there is one. -/
def Script.excerptLine (script : Script) (label : Label) : String :=
  "Begin snippet for " ++ script.name ++ " starting at line " ++
    toString (max 1 (lineEndsBefore label.offset 0 script.text.toList)) ++ ", column 1"

/-- A diagnostic, and the script it is about if there is one. -/
structure Complaint where
  diagnostic : Diagnostic
  script : Option Script := none
  deriving DecidableEq, Repr

namespace Complaint

/-- The lines that say where a complaint points. -/
def excerpts (c : Complaint) : List String :=
  match c.script with
  | some script => c.diagnostic.labels.map script.excerptLine
  | none => []

/-- The lines a complaint is told in. -/
def lines (c : Complaint) : List String :=
  c.diagnostic.headline :: (c.excerpts ++ c.diagnostic.details)

/-- A failed transfer. -/
def transfer (reason : String) : Complaint :=
  ⟨(Diagnostic.error reason).withCode "skhint::io_error", none⟩

end Complaint

end ScriptHints.Command
