import ScriptHints.Hint.Table
import ScriptHints.Log

/-!
# Calls of a hint table

The operations of a hint table as data, so that a whole history of them can be replayed and talked
about. A call is answered, changes the table, and leaves log messages; a call that fails changes
nothing and leaves none.
-/

namespace ScriptHints

/-- An operation on a hint table. -/
inductive Call (τ : Type)
  | record (name : String) (type : τ)
  | lookup (name : String)
  | enter
  | exit
  | reset
  deriving DecidableEq, Repr

/-- What a call of a hint table gives back. -/
inductive Answer (τ : Type)
  | done
  | hint (type? : Option τ)
  | misused (misuse : Misuse)
  | faulty (fault : Fault)
  deriving DecidableEq, Repr

namespace HintTable

variable {τ : Type} [Hintable τ]

/-- Performs a call, giving its answer and the table after it. -/
def perform (t : HintTable τ) : Call τ → Answer τ × HintTable τ
  | .record name type =>
    match t.record name type with
    | .ok t' => (.done, t')
    | .error fault => (.faulty fault, t)
  | .lookup name =>
    match t.lookup name with
    | .ok type? => (.hint type?, t)
    | .error misuse => (.misused misuse, t)
  | .enter => (.done, t.enter)
  | .exit =>
    match t.exit with
    | .ok t' => (.done, t')
    | .error misuse => (.misused misuse, t)
  | .reset => (.done, t.reset)

/-- The table after a history of calls. -/
def performAll (t : HintTable τ) (calls : List (Call τ)) : HintTable τ :=
  calls.foldl (fun t call => (t.perform call).2) t

/-- A hint as shown in log messages. -/
def describeHint : Option τ → String
  | some type => "Some(" ++ Hintable.describe type ++ ")"
  | none => "None"

/-- The message left by a successful call that looked up a name. -/
def lookupMessage (name : String) (type? : Option τ) : Message :=
  ⟨.trace, "Looked up " ++ braced name ++ ": " ++ describeHint type?⟩

/-- The log messages a call leaves. -/
def messages (t : HintTable τ) : Call τ → List Message
  | .record name type =>
    if name = "" then []
    else if Hintable.isUnknown type then
      [⟨.trace, "Ignoring unknown type hint for " ++ braced name⟩]
    else
      [⟨.debug, "Hinting " ++ braced name ++ " as " ++ Hintable.describe type ++
        " (depth " ++ toString t.depth ++ ")"⟩]
  | .lookup name =>
    match t.lookup name with
    | .ok type? => [lookupMessage name type?]
    | .error _ => []
  | .enter => [⟨.debug, "Entered type hint scope (depth " ++ toString t.enter.depth ++ ")"⟩]
  | .exit =>
    match t.exit with
    | .ok t' => [⟨.debug, "Exited type hint scope (depth " ++ toString t'.depth ++ ")"⟩]
    | .error _ => []
  | .reset => [⟨.debug, "Type hints reset"⟩]

end HintTable

end ScriptHints
