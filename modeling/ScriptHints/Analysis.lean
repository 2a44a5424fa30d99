import ScriptHints.Failure
import ScriptHints.Inference
import ScriptHints.Report
import ScriptHints.Token.Stream

/-!
# Analyzing a script

A script is walked line by line. Each line is placed in the outline, which opens and closes scopes
of the hint table; then the variables it mentions are looked up, and a value it assigns is typed and
recorded. The walk stops at the first failure, and what it has reached by then — the open scopes and
the warnings so far — stays visible.

* `Walk` — steps over the state `Progress` that may fail; a failure keeps the state.
* `resolve`, `studyLine` — what a line mentions and assigns, given the hints before it.
* `visit`, `visitAll`, `finish` — one line, all lines, and the end of the script.
* `Analyzer` — what stays between runs. `Analyzer.run` starts every run from scratch.
-/

namespace ScriptHints

/-- The state of a walk over a script. -/
structure Progress where
  outline : Outline := {}
  hints : HintTable ValueType := {}
  /-- The warnings so far, in the order they were given. -/
  warnings : List Diagnostic := []

/-- A step of a walk. A failing step keeps the state it has reached. -/
abbrev Walk := EStateM Failure Progress

/-! ## Placing a line -/

/-- Warns about a header with an empty section. -/
def warn (header : Span) : Walk Unit :=
  match emptySection header with
  | .ok warning => modify fun p => { p with warnings := p.warnings ++ [warning] }
  | .error fault => throw (.fault fault)

/-- Exits the innermost scopes, as many as told. -/
def exitScopes : Nat → Walk Unit
  | 0 => pure ()
  | n + 1 => do
    match (← get).hints.exit with
    | .ok hints => modify fun p => { p with hints }
    | .error misuse => throw (.misuse misuse)
    exitScopes n

/-- Makes the hint table and the warnings follow the placement of a line. -/
def follow (placement : Placement) : Walk Unit := do
  match placement.emptied with
  | some header => warn header
  | none => pure ()
  if placement.opened then
    modify fun p => { p with hints := p.hints.enter }
  exitScopes placement.closed
  match placement.verdict with
  | .ok outline => modify fun p => { p with outline }
  | .error error => throw (.layout error)

/-! ## Reading a line -/

/-- The entries for the local variables among the uses on a line. -/
def resolve (hints : HintTable ValueType) (line : Nat) (uses : List Use) :
    Except Misuse (List Entry) :=
  (uses.filter Use.isLocal).mapM fun use => do
    let hint ← hints.lookup use.name
    return ⟨use.name, .reference, hint, line, use.span⟩

/-- Assigns a value of the given type to a variable, giving the entry for it and the hints after
it. -/
def assign (hints : HintTable ValueType) (line : Nat) (target : Token) (type : ValueType) :
    Except Failure (Entry × HintTable ValueType) := do
  let name := String.ofList target.inner
  let hints ← (hints.record name type).mapError .fault
  let hint ← (hints.lookup name).mapError .misuse
  return (⟨name, .assignment, hint, line, target.span⟩, hints)

/-- The entries of a line and the hints after it. The target of an assignment is not read, but the
variables inside its name are; a value is typed before the target gets its hint; only local
variables are hinted. -/
def studyLine (hints : HintTable ValueType) (line : Line) :
    Except Failure (List Entry × HintTable ValueType) := do
  match line.statement with
  | .other tokens =>
    let entries ← (resolve hints line.number (tokens.flatMap Token.uses)).mapError .misuse
    return (entries, hints)
  | .assignment target value =>
    let indices ← (resolve hints line.number (target.uses.drop 1)).mapError .misuse
    let operands ← (resolve hints line.number (value.flatMap Token.uses)).mapError .misuse
    let type ← (expressionType hints value).mapError .misuse
    if isLocal (String.ofList target.inner) then
      let (entry, hints) ← assign hints line.number target type
      return (indices ++ operands ++ [entry], hints)
    else
      return (indices ++ operands, hints)

/-! ## The walk -/

/-- Walks over one line. -/
def visit (line : Line) : Walk (List Entry) := do
  follow ((← get).outline.place line)
  match studyLine (← get).hints line with
  | .ok (entries, hints) =>
    modify fun p => { p with hints }
    return entries
  | .error failure => throw failure

/-- Walks over lines in order. -/
def visitAll : List Line → Walk (List Entry)
  | [] => return []
  | line :: lines => do
    let entries ← visit line
    let others ← visitAll lines
    return entries ++ others

/-- Ends the walk: a header on the last line has an empty section, and all sections are closed. -/
def finish : Walk Unit := do
  let outline := (← get).outline
  match outline.pending with
  | some header => warn header
  | none => pure ()
  exitScopes outline.sections.length

/-- Walks over a whole script. -/
def walk (source : String) : Walk (List Entry) :=
  match tokenize source with
  | .error error => throw (.lexical error)
  | .ok tokens => do
    let entries ← visitAll (Token.toLines tokens)
    finish
    return entries

/-! ## Runs -/

/-- What stays between runs: the hints and the warnings of the last run. -/
structure Analyzer where
  hints : HintTable ValueType := {}
  warnings : List Diagnostic := []
  deriving DecidableEq, Repr

namespace Analyzer

/-- Analyzes a script. Hints and warnings of earlier runs are dropped first. -/
def run (a : Analyzer) (name source : String) : Except Failure Report × Analyzer :=
  match (walk source).run { hints := a.hints.reset } with
  | .ok entries p => (.ok ⟨name, entries⟩, ⟨p.hints, p.warnings⟩)
  | .error failure p => (.error failure, ⟨p.hints, p.warnings⟩)

/-- Hands over the warnings, leaving none. -/
def takeWarnings (a : Analyzer) : List Diagnostic × Analyzer :=
  (a.warnings, { a with warnings := [] })

/-- A run does not depend on what was done before it. -/
theorem run_eq_run_new (a : Analyzer) (name source : String) :
    a.run name source = ({} : Analyzer).run name source := rfl

end Analyzer

end ScriptHints
