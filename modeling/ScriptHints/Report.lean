import ScriptHints.Hint.ValueType
import ScriptHints.Span

/-!
# Reports

The outcome of analyzing a script: for every use of a local variable, the hint known at that place.
-/

namespace ScriptHints

/-- How a variable is used. -/
inductive Role
  /-- It is given a value. -/
  | assignment
  /-- Its value is read. -/
  | reference
  deriving DecidableEq, Repr

/-- The name of a role in reports. -/
def Role.name : Role → String
  | .assignment => "assignment"
  | .reference => "reference"

/-- One use of a local variable. -/
structure Entry where
  /-- The name of the variable, without braces. -/
  name : String
  role : Role
  /-- The type known at this place, if any. -/
  hint : Option ValueType
  /-- The number of the line. -/
  line : Nat
  span : Span
  deriving DecidableEq, Repr

/-- The uses of local variables in a script, in the order they were resolved. -/
structure Report where
  /-- The name of the script. -/
  script : String
  entries : List Entry := []
  deriving DecidableEq, Repr

/-- The entries for one variable. -/
def Report.entriesAbout (r : Report) (name : String) : List Entry :=
  r.entries.filter (·.name == name)

end ScriptHints
