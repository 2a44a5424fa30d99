/-!
# Faults

A *fault* is a broken expectation of the library itself: an offset that leaves the range of a
machine word, or a hint recorded for a variable without a name. No script should ever provoke one,
so faults are kept apart from the complaints a script author sees. Every operation that could meet
one says so in its type.
-/

namespace ScriptHints

/-- A broken internal expectation. -/
inductive Fault
  /-- An offset grew past the largest machine word. -/
  | addOverflow
  /-- A length would have been negative. -/
  | subOverflow
  /-- A hint was recorded for the empty name. -/
  | unnamedVariable
  deriving DecidableEq, Repr

/-- The text a fault is announced with. -/
def Fault.message : Fault → String
  | .addOverflow => "attempt to add with overflow"
  | .subOverflow => "attempt to subtract with overflow"
  | .unnamedVariable => "type hint for an unnamed variable"

end ScriptHints
