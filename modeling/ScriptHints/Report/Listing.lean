import ScriptHints.Report
import ScriptHints.Report.Writer

/-!
# Listings

A report as a list for people to read: the name of the script, then one line per use with the
number of the line, the variable, an arrow pointing at the variable where it is assigned and away
from it where it is read, and the hint.
-/

namespace ScriptHints

/-- A number in decimal digits, padded on the left with spaces to four columns. -/
def padNumber (n : Nat) : String :=
  let digits := toString n
  String.ofList (List.replicate (4 - digits.length) ' ') ++ digits

/-- The arrow between a variable and its hint. -/
def Role.arrow : Role → String
  | .assignment => "<-"
  | .reference => "->"

/-- The hint in a listing. -/
def Entry.hintText (e : Entry) : String :=
  match e.hint with
  | some type => type.name
  | none => "<no hint>"

/-- The line of an entry in a listing. -/
def Entry.listingLine (e : Entry) : String :=
  "\t" ++ padNumber e.line ++ ": " ++ braced e.name ++ " " ++ e.role.arrow ++ " " ++ e.hintText ++
    "\n"

namespace Report

/-- The lines of the listing of a report. -/
def listingLines (r : Report) : List String :=
  (r.script ++ ":\n") :: r.entries.map Entry.listingLine

/-- The listing of a report. -/
def listing (r : Report) : String := String.join r.listingLines

/-- Writes the listing of a report, one line after the other. -/
def writeListing {m : Type → Type} [Monad m] (r : Report) (write : Writer m) :
    ExceptT String m Unit :=
  Writer.writeAll write r.listingLines

end Report

end ScriptHints
