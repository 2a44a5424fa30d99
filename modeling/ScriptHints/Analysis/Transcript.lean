import ScriptHints.Analysis
import ScriptHints.Hint.Call

/-!
# The transcript of a run

The log messages an analysis leaves, told from the script alone: which scopes were entered and
exited, which variables were looked up, also while typing an expression, and what was recorded. A
run that fails leaves the messages up to its failure.

* `lineMessages` — the messages for reading one line, given the hints before it.
* `visitMessages`, `transcriptFrom` — those of placing and reading lines, one by one.
* `runMessages` — those of a whole run.
-/

namespace ScriptHints

/-- The messages for looking up the local variables among the uses on a line. -/
def resolveMessages (hints : HintTable ValueType) (uses : List Use) : List Message :=
  (uses.filter Use.isLocal).flatMap fun use => hints.messages (.lookup use.name)

/-- The messages for asking for the type of an operand: local variables are looked up. -/
def termMessages (hints : HintTable ValueType) (t : Token) : List Message :=
  match t.name? with
  | some name => if isLocal name then hints.messages (.lookup name) else []
  | none => []

/-- The messages for an assignment once its value is typed. -/
def assignMessages (hints : HintTable ValueType) (line : Nat) (target : Token)
    (type : ValueType) : List Message :=
  let name := String.ofList target.inner
  let place := "Line " ++ toString line ++ ": "
  if isLocal name then
    ⟨.debug, place ++ braced name ++ " assigned " ++ type.name⟩ ::
      (hints.messages (.record name type) ++
        (hints.perform (.record name type)).2.messages (.lookup name))
  else
    [⟨.trace, place ++ "not hinting global variable " ++ target.text⟩]

/-- The messages for reading one line. -/
def lineMessages (hints : HintTable ValueType) (line : Line) : List Message :=
  match line.statement with
  | .other tokens => resolveMessages hints (tokens.flatMap Token.uses)
  | .assignment target value =>
    resolveMessages hints (target.uses.drop 1) ++
      resolveMessages hints (value.flatMap Token.uses) ++
      (examinedTerms hints value).flatMap (termMessages hints) ++
      match expressionType hints value with
      | .ok type => assignMessages hints line.number target type
      | .error _ => []

/-- The messages for exiting scopes, as many as told. -/
def exitMessages : Nat → HintTable ValueType → List Message
  | 0, _ => []
  | n + 1, hints => hints.messages .exit ++ exitMessages n (hints.perform .exit).2

/-- The messages for placing and reading one line. -/
def visitMessages (p : Progress) (line : Line) : List Message :=
  let placement := p.outline.place line
  (if placement.opened then p.hints.messages .enter else []) ++
    exitMessages placement.closed p.hints ++
    match (follow placement).run p with
    | .ok _ p => lineMessages p.hints line
    | .error _ _ => []

/-- The messages for walking over lines and closing what is open at the end of the script. -/
def transcriptFrom (p : Progress) : List Line → List Message
  | [] => exitMessages p.outline.sections.length p.hints
  | line :: lines =>
    visitMessages p line ++
      match (visit line).run p with
      | .ok _ p => transcriptFrom p lines
      | .error _ _ => []

/-- The messages of a whole run. -/
def runMessages (name source : String) : List Message :=
  [⟨.info, "Running hint pass on '" ++ name ++ "'"⟩, ⟨.debug, "Type hints reset"⟩] ++
    (match tokenize source with
      | .ok tokens => transcriptFrom {} (Token.toLines tokens)
      | .error _ => []) ++
    match (({} : Analyzer).run name source).1 with
    | .ok report =>
      [⟨.info, "Hint pass on '" ++ name ++ "' resolved " ++
        toString report.entries.length ++ " variable uses"⟩]
    | .error _ => []

end ScriptHints
