import ScriptHints.Analysis
import ScriptHints.Command.Arguments
import ScriptHints.Command.Files
import ScriptHints.Command.Narration
import ScriptHints.Report.Json
import ScriptHints.Report.Listing

/-!
# Running the command

The command reads one script after the other and writes a report on each to standard output or to
a file. It stops at the first script that cannot be read or analyzed; what was written before stays
written. Warnings and the error that ended the run go to standard error.

* `Host` — what the command needs from its surroundings.
* `runSources` — the scripts, one by one.
* `runCommand` — the command from its arguments to its exit code.
* `Desk` — surroundings held in memory, with `Desk.host` to run the command on them.
-/

namespace ScriptHints.Command

/-- What the command needs from its surroundings. -/
structure Host (m : Type → Type) where
  /-- Reads a file. -/
  read : String → m (Except FileError ByteArray)
  /-- Starts an empty file, giving the way to write to it. -/
  create : String → m (Except FileError (Writer m))
  /-- Writes to standard output. -/
  print : Writer m
  /-- Writes a line to standard error. -/
  complain : String → m Unit

/-- The line of a token in a listing of tokens. -/
def tokenLine (t : Token) : String :=
  "Token " ++ t.category.describe ++ " - " ++ Text.quote t.text ++ "\n"

/-- The line in front of the warnings about a script. -/
def warningsHeading (name : String) : String :=
  "During analysis of '" ++ name ++ "' the following diagnostics were generated:"

/-- The lines shown for the warnings about a script. -/
def warningLines (script : Script) (warnings : List Diagnostic) : List String :=
  if warnings = [] then []
  else
    warningsHeading script.name ::
      warnings.flatMap fun warning => ({ diagnostic := warning, script } : Complaint).lines

section

variable {m : Type → Type} [Monad m] (host : Host m)

/-- Writes lines to standard error. -/
def complainAll : List String → m Unit
  | [] => pure ()
  | line :: lines => do
    host.complain line
    complainAll lines

/-- Reads a script from its file. -/
def loadScript (name : String) : ExceptT Complaint m Script := do
  match ← host.read name with
  | .error .notFound => throw { diagnostic := (Failure.missingFile name).unlabelled }
  | .error e => throw (.transfer e.message)
  | .ok bytes =>
    match String.fromUTF8? bytes with
    | some text => return ⟨name, text⟩
    | none => throw (.transfer "stream did not contain valid UTF-8")

/-- Lists the tokens of a script. -/
def listTokens (write : Writer m) (name : String) : ExceptT Complaint m Unit := do
  let script ← loadScript host name
  match tokenize script.text with
  | .error e => throw ⟨(Failure.lexical e).shown, script⟩
  | .ok tokens => ExceptT.adapt Complaint.transfer (Writer.writeAll write (tokens.map tokenLine))

/-- Reports the hints of a script, then shows its warnings. -/
def reportHints (write : Writer m) (json : Bool) (analyzer : Analyzer) (name : String) :
    ExceptT Complaint m Analyzer := do
  let script ← loadScript host name
  let (result, analyzer) := analyzer.run name script.text
  match result with
  | .error failure => throw ⟨failure.shown, script⟩
  | .ok report =>
    if json then
      ExceptT.adapt (fun failure => ⟨failure.unlabelled, none⟩) (report.writeJson write)
    else
      ExceptT.adapt Complaint.transfer (report.writeListing write)
    let (warnings, analyzer) := analyzer.takeWarnings
    ExceptT.lift (complainAll host (warningLines script warnings))
    return analyzer

/-- Works through script files up to the first that fails. -/
def runSources (write : Writer m) (mode : Mode) (json : Bool) (analyzer : Analyzer) :
    List String → ExceptT Complaint m Unit
  | [] => pure ()
  | name :: names => do
    let analyzer ← match mode with
      | .tokens => do
        listTokens host write name
        pure analyzer
      | .hints => reportHints host write json analyzer name
    runSources write mode json analyzer names

/-- Does what the options say. The output file is started before any script is read. -/
def runOptions (options : Options) : ExceptT Complaint m Unit := do
  let write ← match options.output with
    | none => pure host.print
    | some name =>
      match ← host.create name with
      | .ok write => pure write
      | .error e => throw (.transfer e.message)
  runSources host write options.mode options.json {} options.sources

/-- Runs the command, giving its exit code: zero for success, one if an error ended the run, two if
the arguments make no sense. -/
def runCommand (arguments : List String) : m UInt32 := do
  match parseArguments arguments with
  | .help =>
    let _ ← (host.print helpText).run
    return 0
  | .version =>
    let _ ← (host.print versionText).run
    return 0
  | .refused => return 2
  | .analyze options =>
    match ← (runOptions host options).run with
    | .ok () => return 0
    | .error complaint =>
      complainAll host complaint.lines
      return 1

end

/-! ## Surroundings held in memory -/

/-- Files, standard output and standard error. -/
structure Desk where
  files : FileTree := {}
  /-- The text written to standard output. -/
  output : String := ""
  /-- The text written to standard error. -/
  errors : String := ""

namespace Desk

/-- Writes to a file that was started before. -/
def write (path : Path) : Writer (StateM Desk) := fun text desk =>
  match desk.files.node? path with
  | some (.device .null) => (.ok (), desk)
  | some (.device .full) => (.error FileError.noSpace.message, desk)
  | some (.device .output) => (.ok (), { desk with output := desk.output ++ text })
  | some (.device .errors) => (.ok (), { desk with errors := desk.errors ++ text })
  | _ => (.ok (), { desk with files := desk.files.append path text.toUTF8 })

/-- Surroundings in which nothing happens but the command itself. -/
def host : Host (StateM Desk) where
  read name := do return (← get).files.read name
  create name := do
    match (← get).files.create name with
    | .error e => return .error e
    | .ok (path, files) =>
      modify fun desk => { desk with files }
      return .ok (write path)
  print text := modify fun desk => { desk with output := desk.output ++ text }
  complain line := modify fun desk => { desk with errors := desk.errors ++ line ++ "\n" }

/-- Runs the command on a desk, giving its exit code and the desk after it. -/
def run (desk : Desk) (arguments : List String) : UInt32 × Desk :=
  StateT.run (runCommand host arguments) desk

end Desk

end ScriptHints.Command
