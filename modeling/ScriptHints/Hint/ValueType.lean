import ScriptHints.Text.Quoted

/-!
# Types that can be hinted

A hint says of which type the value of a variable is. Hints are kept for any type of descriptions
that is `Hintable`: it must tell which description carries no information, and how a description
is shown in log messages.

* `ValueType` — the types that can be told from the text of a script.
* `ClassName` — a description by the name of a class.
-/

namespace ScriptHints

/-- Descriptions of types that can be recorded as hints. -/
class Hintable (τ : Type) where
  /-- Whether the description carries no information. -/
  isUnknown : τ → Bool
  /-- The description as shown in log messages. -/
  describe : τ → String

/-- Types that can be told from the text of a script. -/
inductive ValueType
  /-- Any value. -/
  | object
  | boolean
  | number
  | text
  deriving DecidableEq, Repr

namespace ValueType

/-- The name of a type in reports. -/
def name : ValueType → String
  | .object => "object"
  | .boolean => "boolean"
  | .number => "number"
  | .text => "text"

/-- The type with a given name in reports. -/
def ofName? : String → Option ValueType
  | "object" => some .object
  | "boolean" => some .boolean
  | "number" => some .number
  | "text" => some .text
  | _ => none

/-- The name of a type in log messages. -/
def describe : ValueType → String
  | .object => "Object"
  | .boolean => "Boolean"
  | .number => "Number"
  | .text => "Text"

/-- A type is found again by its name. -/
@[simp] theorem ofName?_name (t : ValueType) : ofName? t.name = some t := by
  cases t <;> rfl

instance : Hintable ValueType where
  isUnknown t := t == .object
  describe := describe

end ValueType

/-- A type described by the name of a class. -/
structure ClassName where
  name : String
  deriving DecidableEq, Repr

namespace ClassName

instance : Hintable ClassName where
  isUnknown c := c.name == "Object"
  describe c := "ClassName(" ++ Text.quote c.name ++ ")"

end ClassName

end ScriptHints
