import Mathlib
import ScriptHints.Proofs.Analysis.Continuation

/-!
# An analyzer that is used again

An analyzer may have been through any number of runs, some of which stopped halfway and left scopes
open and warnings behind. The next run does not see any of it. What can be looked up once a run has
succeeded are the hints at top level: whatever was recorded inside a section is gone.

* `Operation`, `Analyzer.performAll` — what can be done with an analyzer, and the analyzer after a
  history of it.
* `RunsAfresh`, `KeepsTopLevel` — what a run owes to the runs before it, and what it leaves to look
  up.
* `run_on_used_analyzer` — a run on any used analyzer runs afresh and keeps the top level alone.
-/

namespace ScriptHints

/-! ### Histories -/

/-- Something that is done with an analyzer. -/
inductive Operation
  | run (name source : String)
  | takeWarnings
  deriving DecidableEq, Repr

namespace Analyzer

/-- The analyzer after one operation. -/
def perform (a : Analyzer) : Operation → Analyzer
  | .run name source => (a.run name source).2
  | .takeWarnings => a.takeWarnings.2

/-- The analyzer after a history of operations. -/
def performAll (a : Analyzer) (operations : List Operation) : Analyzer :=
  operations.foldl perform a

end Analyzer

/-! ### The next run -/

/-- A run on a used analyzer gives what a run on a new one gives, and leaves the same behind. -/
structure RunsAfresh (used : Analyzer) (name source : String) : Prop where
  result : (used.run name source).1 = (({} : Analyzer).run name source).1
  depth : (used.run name source).2.hints.depth = (({} : Analyzer).run name source).2.hints.depth
  warnings : (used.run name source).2.warnings = (({} : Analyzer).run name source).2.warnings
  lookup : ∀ v, (used.run name source).2.hints.lookup v =
    (({} : Analyzer).run name source).2.hints.lookup v

/-- After a run with the given report, the hint of a local variable is that of the last assignment
to it on a line that is not indented, and there is none without such an assignment. -/
def KeepsTopLevel (left : Analyzer) (source : String) (report : Report) : Prop :=
  ∀ v, isLocal v = true →
    left.hints.lookup v = .ok (lastHint report.entries v (·.Unindented source))

/-- Whatever was done with an analyzer before, a run on it runs afresh, and if it succeeds nothing
but the hints at top level is left. -/
theorem run_on_used_analyzer (operations : List Operation) (name source : String) :
    RunsAfresh (({} : Analyzer).performAll operations) name source ∧
      ∀ report, ((({} : Analyzer).performAll operations).run name source).1 = .ok report →
        KeepsTopLevel ((({} : Analyzer).performAll operations).run name source).2 source report := by
  generalize ({} : Analyzer).performAll operations = used
  have hnew := used.run_eq_run_new name source
  refine ⟨⟨?_, ?_, ?_, ?_⟩, ?_⟩
  · rw [hnew]
  · rw [hnew]
  · rw [hnew]
  · intro v
    rw [hnew]
  · intro report hreport v hv
    obtain ⟨tokens, p, htokens, hreached⟩ := reached_of_run hreport
    rw [run_eq_of_reached used name htokens hreached, lookup_eq_ok hv]
    exact congrArg Except.ok (hreached.find?_closed htokens v)

/-- A run that stops inside two sections, the inner one with a hint of its own. -/
def stoppedRun : Operation := .run "stopped" "a:\n b:\n  set \x7b_z\x7d to 1\n    c"

/-- A script with a text at top level and two numbers inside a section. -/
def keptScript : String :=
  "set \x7b_x\x7d to \"t\"\non a:\n set \x7b_x\x7d to 1\n set \x7b_y\x7d to 2\n"

/-- An analyzer that was stopped inside two sections leaves, after the next run, the text of that
run: the numbers of its section are gone, and so is what the first run had recorded. -/
theorem run_on_used_analyzer_stopped :
    (({} : Analyzer).performAll [stoppedRun]).hints.depth = 3 ∧
      ∃ report left,
        (({} : Analyzer).performAll [stoppedRun]).run "kept" keptScript = (.ok report, left) ∧
          report.entries.map Entry.hint = [some .text, some .number, some .number] ∧
          KeepsTopLevel left keptScript report ∧
          left.hints.lookup "_x" = .ok (some .text) ∧ left.hints.lookup "_y" = .ok none := by
  have hrun : (({} : Analyzer).performAll [stoppedRun]).run "kept" keptScript =
      (.ok ⟨"kept", [⟨"_x", .assignment, some .text, 1, ⟨4, 8⟩⟩,
        ⟨"_x", .assignment, some .number, 3, ⟨27, 31⟩⟩,
        ⟨"_y", .assignment, some .number, 4, ⟨42, 46⟩⟩]⟩, ⟨⟨[("_x", .text)], []⟩, []⟩) := by cbv
  have hkept := (run_on_used_analyzer [stoppedRun] "kept" keptScript).2 _ (congrArg Prod.fst hrun)
  rw [hrun] at hkept
  exact ⟨by cbv, _, _, hrun, rfl, hkept, by cbv, by cbv⟩

end ScriptHints
