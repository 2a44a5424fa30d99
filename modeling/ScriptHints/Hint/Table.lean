import ScriptHints.Fault
import ScriptHints.Hint.ValueType
import ScriptHints.Variable

/-!
# The hint table

Hints live in scopes. A hint is recorded in the innermost scope, is seen from every scope inside
it, hides an older hint for the same variable, and is gone once its scope is exited. The outermost
scope, the *root*, is always there.

* `HintTable.record`, `HintTable.lookup` — write and read a hint.
* `HintTable.enter`, `HintTable.exit`, `HintTable.reset` — open, close and drop scopes.
* `Misuse` — what the code that drives a table may do wrong.
-/

namespace ScriptHints

/-- Wrong use of a hint table by the code driving it. -/
inductive Misuse
  /-- Only local variables have hints. -/
  | notLocal (name : String)
  /-- The root scope cannot be exited. -/
  | exitOfRoot
  deriving DecidableEq, Repr

/-- The hints of one scope. The most recent hint for a name comes first. -/
abbrev Scope (τ : Type) := List (String × τ)

/-- The hints known at a place of a script. -/
structure HintTable (τ : Type) where
  /-- The scope hints are recorded in. -/
  current : Scope τ := []
  /-- The scopes around it, innermost first. The last of all scopes is the root. -/
  enclosing : List (Scope τ) := []
  deriving DecidableEq, Repr

namespace HintTable

variable {τ : Type}

/-- All scopes, innermost first. -/
def scopes (t : HintTable τ) : List (Scope τ) := t.current :: t.enclosing

/-- The number of scopes, the root included. -/
def depth (t : HintTable τ) : Nat := t.enclosing.length + 1

/-- The hint for a name in the innermost scope that has one. -/
def find? (t : HintTable τ) (name : String) : Option τ :=
  t.scopes.findSome? (·.lookup name)

/-- Puts a hint into the innermost scope. -/
def insert (t : HintTable τ) (name : String) (type : τ) : HintTable τ :=
  { t with current := (name, type) :: t.current }

/-- Records a hint. A type that carries no information is ignored, so that it never replaces a
more specific hint. -/
def record [Hintable τ] (t : HintTable τ) (name : String) (type : τ) :
    Except Fault (HintTable τ) :=
  if name = "" then .error .unnamedVariable
  else if Hintable.isUnknown type then .ok t
  else .ok (t.insert name type)

/-- Looks up the hint for a local variable. -/
def lookup (t : HintTable τ) (name : String) : Except Misuse (Option τ) :=
  if isLocal name then .ok (t.find? name) else .error (.notLocal name)

/-- Opens a scope inside the current one. -/
def enter (t : HintTable τ) : HintTable τ := ⟨[], t.current :: t.enclosing⟩

/-- Closes the current scope and drops its hints. -/
def exit (t : HintTable τ) : Except Misuse (HintTable τ) :=
  match t.enclosing with
  | [] => .error .exitOfRoot
  | scope :: enclosing => .ok ⟨scope, enclosing⟩

/-- Drops every hint and every scope but an empty root. -/
def reset (_ : HintTable τ) : HintTable τ := {}

/-! ## Equations -/

/-- A scope that is entered counts. -/
@[simp] theorem depth_enter (t : HintTable τ) : t.enter.depth = t.depth + 1 := rfl

/-- Hints are put into a scope without opening one. -/
@[simp] theorem depth_insert (t : HintTable τ) (name : String) (type : τ) :
    (t.insert name type).depth = t.depth := rfl

/-- Only the root survives a reset. -/
@[simp] theorem depth_reset (t : HintTable τ) : t.reset.depth = 1 := rfl

/-- Exiting undoes entering, whatever the table. -/
@[simp] theorem exit_enter (t : HintTable τ) : t.enter.exit = .ok t := rfl

/-- A scope just entered changes no hint. -/
@[simp] theorem find?_enter (t : HintTable τ) (name : String) :
    t.enter.find? name = t.find? name := by
  simp [find?, scopes, enter, List.findSome?_cons]

/-- The last hint recorded for a name is the one found. -/
theorem find?_insert (t : HintTable τ) (name other : String) (type : τ) :
    (t.insert name type).find? other = if other = name then some type else t.find? other := by
  by_cases h : other = name
  · subst h
    simp [find?, scopes, insert]
  · have hb : (other == name) = false := by simpa using h
    simp [find?, scopes, insert, List.findSome?_cons, List.lookup_cons, hb, h]

/-- Only the root cannot be exited. -/
theorem exit_eq_error_iff (t : HintTable τ) (e : Misuse) :
    t.exit = .error e ↔ t.depth = 1 ∧ e = .exitOfRoot := by
  unfold exit depth
  split <;> simp_all [eq_comm]

end HintTable

end ScriptHints
