import Mathlib
import ScriptHints.Command.Run
import ScriptHints.Proofs.Analysis.Outcome
import ScriptHints.Proofs.Command.Arguments
import ScriptHints.Proofs.Command.Files
import ScriptHints.Proofs.Report.Writer

/-!
# One script after the other

The command shares one analyzer and one place to write to between all its files, and stops at the
first that fails. What it does with a file nevertheless depends on that file alone: a run for
several files gives, one after the other, what the runs for the single files give, and nothing of
the output for the file that fails. Written to a file instead of the screen, the same text arrives
there, and the rest of the run stays as it is, as long as that file is on the way to none of the
scripts.

* `productIn` — what the command makes of a file: a text and some complaints, or a failure.
* `Channel` — a place to write to; `screen` and `intoFile` are the two there are.
* `Channel.workThrough_run` — files are worked through one by one on any channel. A step is
  `Channel.source_run`: the analyzer it starts with does not matter.
* `Unusable` — the files that fail.
* `InOrder`, `SameInFile`, `run_sources_in_order` — what runs of the command have in common.
-/

namespace ScriptHints.Command

/-! ### What is made of one script -/

/-- What the command makes of a script: the text it writes and the lines it complains with. -/
structure Product where
  text : String
  complaints : List String

/-- The text of a script, given what reading its file gives. -/
def textOf (name : String) : Except FileError ByteArray → Except Complaint String
  | .error .notFound => .error { diagnostic := (Failure.missingFile name).unlabelled }
  | .error e => .error (.transfer e.message)
  | .ok bytes =>
    match String.fromUTF8? bytes with
    | some text => .ok text
    | none => .error (.transfer "stream did not contain valid UTF-8")

/-- What the command makes of a script, or the reason why it makes nothing of it. -/
def productOf (mode : Mode) (json : Bool) (script : Script) : Except Complaint Product :=
  match mode with
  | .tokens =>
    match tokenize script.text with
    | .error e => .error ⟨(Failure.lexical e).shown, script⟩
    | .ok tokens => .ok ⟨String.join (tokens.map tokenLine), []⟩
  | .hints =>
    match ({} : Analyzer).run script.name script.text with
    | (.error failure, _) => .error ⟨failure.shown, script⟩
    | (.ok report, analyzer) =>
      .ok ⟨if json then report.json else report.listing, warningLines script analyzer.warnings⟩

/-- What the command makes of a file. -/
def productIn (files : FileTree) (mode : Mode) (json : Bool) (name : String) :
    Except Complaint Product :=
  match textOf name (files.read name) with
  | .error complaint => .error complaint
  | .ok text => productOf mode json ⟨name, text⟩

/-- Lines as they are written to standard error. -/
def linesText (lines : List String) : String := String.join (lines.map (· ++ "\n"))

/-- What the command does with one file. -/
def workOn (write : Writer (StateM Desk)) (mode : Mode) (json : Bool) (analyzer : Analyzer)
    (name : String) : ExceptT Complaint (StateM Desk) Analyzer :=
  match mode with
  | .tokens => do
    listTokens Desk.host write name
    pure analyzer
  | .hints => reportHints Desk.host write json analyzer name

/-- Several files are worked on one after the other, the analyzer being handed on. -/
theorem runSources_cons (write : Writer (StateM Desk)) (mode : Mode) (json : Bool)
    (analyzer : Analyzer) (name : String) (names : List String) :
    runSources Desk.host write mode json analyzer (name :: names) =
      workOn write mode json analyzer name >>= fun analyzer =>
        runSources Desk.host write mode json analyzer names := by
  rcases mode with _ | _
  · simp only [runSources, workOn, bind_assoc, pure_bind]
  · rfl

/-! ### Where texts go -/

/-- A place to write to, with the desk that there is once given texts have been written to it and to
standard error. -/
structure Channel where
  write : Writer (StateM Desk)
  desk : String → String → Desk
  write_run : ∀ text written errors,
    (write text).run.run (desk written errors) = (.ok (), desk (written ++ text) errors)
  complain_run : ∀ line written errors,
    (Desk.host.complain line).run (desk written errors) =
      ((), desk written (errors ++ line ++ "\n"))

/-- How a step ends that was to make something of a file: what it gives, and the desk after it. -/
def Channel.after {α : Type} (channel : Channel) (written errors : String) (a : α) :
    Except Complaint Product → Except Complaint α × Desk
  | .error complaint => (.error complaint, channel.desk written errors)
  | .ok product =>
    (.ok a, channel.desk (written ++ product.text) (errors ++ linesText product.complaints))

/-- On all desks of the channel, the file is read as in the given tree. -/
def Channel.Reads (channel : Channel) (files : FileTree) (name : String) : Prop :=
  ∀ written errors, (channel.desk written errors).files.read name = files.read name

namespace Channel

variable (channel : Channel) (written errors : String)

/-- Texts in a row arrive on a channel as one text. -/
theorem writeAll_run (texts : List String) :
    (Writer.writeAll channel.write texts).run.run (channel.desk written errors) =
      (.ok (), channel.desk (written ++ String.join texts) errors) := by
  induction texts generalizing written with
  | nil =>
    rw [String.join_nil, String.append_empty]
    rfl
  | cons text texts ih =>
    rw [Writer.writeAll, run_bind_of_ok (channel.write_run text written errors), ih,
      String.join_cons, String.append_assoc]

/-- Complaints arrive on standard error, a line each. -/
theorem complainAll_run (lines : List String) :
    (complainAll Desk.host lines).run (channel.desk written errors) =
      ((), channel.desk written (errors ++ linesText lines)) := by
  induction lines generalizing errors with
  | nil =>
    rw [linesText, List.map_nil, String.join_nil, String.append_empty]
    rfl
  | cons line lines ih =>
    rw [complainAll, StateT.run_bind, channel.complain_run]
    show (complainAll Desk.host lines).run _ = _
    rw [ih, linesText, linesText, List.map_cons, String.join_cons, String.append_assoc,
      String.append_assoc, String.append_assoc]

/-- Loading a file gives the text in it or the complaint about it, and writes nothing. -/
theorem loadScript_run {files : FileTree} {name : String} (h : channel.Reads files name) :
    (loadScript Desk.host name).run.run (channel.desk written errors) =
      ((textOf name (files.read name)).map (Script.mk name), channel.desk written errors) := by
  have hread : (Desk.host.read name).run (channel.desk written errors) =
      (files.read name, channel.desk written errors) :=
    congrArg (·, channel.desk written errors) (h written errors)
  rw [loadScript, run_bind_lift hread]
  rcases files.read name with e | bytes
  · rcases e with _ | _ | _ | _ | _ | reason <;> rfl
  · simp only [textOf]
    rcases String.fromUTF8? bytes with _ | text <;> rfl

/-- A channel takes the JSON form of every report. -/
theorem writeJson_run (report : Report) :
    (report.writeJson channel.write).run.run (channel.desk written errors) =
      (.ok (), channel.desk (written ++ report.json) errors) := by
  rw [Report.writeJson, run_bind_of_ok (run_adapt_of_ok (channel.write_run _ _ _)),
    run_adapt_of_ok (channel.write_run _ _ _), Report.json, String.append_assoc]

section

variable {files : FileTree} {name : String} (h : channel.Reads files name)

include h

/-- Listing tokens writes what is made of the file in that mode, or nothing at all. -/
theorem listTokens_run (json : Bool) :
    (listTokens Desk.host channel.write name).run.run (channel.desk written errors) =
      channel.after written errors () (productIn files .tokens json name) := by
  have hload := channel.loadScript_run written errors h
  rw [listTokens, productIn]
  generalize textOf name (files.read name) = loaded at hload ⊢
  rcases loaded with complaint | text
  · exact run_bind_of_error hload
  · rw [run_bind_of_ok hload]
    simp only [productOf]
    rcases tokenize text with e | tokens
    · rfl
    · have hquiet : errors ++ linesText [] = errors := String.append_empty
      show _ = (_, channel.desk _ (errors ++ linesText []))
      rw [hquiet]
      exact run_adapt_of_ok (channel.writeAll_run written errors _)

/-- So does reporting hints, whatever analyzer it starts with. -/
theorem reportHints_run (json : Bool) (analyzer : Analyzer) :
    ∃ analyzer', (reportHints Desk.host channel.write json analyzer name).run.run
        (channel.desk written errors) =
      channel.after written errors analyzer' (productIn files .hints json name) := by
  have hload := channel.loadScript_run written errors h
  rw [reportHints, productIn]
  generalize textOf name (files.read name) = loaded at hload ⊢
  rcases loaded with complaint | text
  · exact ⟨{}, run_bind_of_error hload⟩
  · rw [run_bind_of_ok hload]
    -- the analyzer comes from the files before, but a run on it is a run on a new one
    simp only [productOf, analyzer.run_eq_run_new name text]
    rcases ({} : Analyzer).run name text with ⟨failure | report, left⟩
    · exact ⟨{}, rfl⟩
    · refine ⟨left.takeWarnings.2, ?_⟩
      have hwarn : ∀ written, (ExceptT.lift (complainAll Desk.host
            (warningLines ⟨name, text⟩ left.takeWarnings.1)) >>= fun _ =>
              (pure left.takeWarnings.2 : ExceptT Complaint (StateM Desk) Analyzer)).run.run
                (channel.desk written errors) = (.ok left.takeWarnings.2,
          channel.desk written (errors ++ linesText (warningLines ⟨name, text⟩ left.warnings))) :=
        fun written => run_bind_lift (channel.complainAll_run written errors _)
      rcases json with _ | _
      · exact (run_bind_of_ok (run_adapt_of_ok (channel.writeAll_run written errors _))).trans
          (hwarn _)
      · exact (run_bind_of_ok (run_adapt_of_ok (channel.writeJson_run written errors report))).trans
          (hwarn _)

/-- What the command does with one file. -/
theorem source_run (mode : Mode) (json : Bool) (analyzer : Analyzer) :
    ∃ analyzer', (workOn channel.write mode json analyzer name).run.run
        (channel.desk written errors) =
      channel.after written errors analyzer' (productIn files mode json name) := by
  rcases mode with _ | _
  · have hlist := channel.listTokens_run written errors h json
    refine ⟨analyzer, ?_⟩
    generalize productIn files .tokens json name = result at hlist ⊢
    rcases result with complaint | product
    · exact run_bind_of_error hlist
    · exact run_bind_of_ok hlist
  · exact channel.reportHints_run written errors h json analyzer

end

end Channel

/-! ### Several scripts -/

/-- How a run ends: its exit code and the texts it has written. -/
structure Tally where
  exit : UInt32
  output : String
  errors : String

/-- What comes of files that are worked through up to the first that fails. -/
def tally : List (Except Complaint Product) → Tally
  | [] => ⟨0, "", ""⟩
  | .error complaint :: _ => ⟨1, "", linesText complaint.lines⟩
  | .ok product :: results =>
    ⟨(tally results).exit, product.text ++ (tally results).output,
      linesText product.complaints ++ (tally results).errors⟩

/-- What comes of the files that the options name. -/
def tallyIn (files : FileTree) (options : Options) : Tally :=
  tally (options.sources.map (productIn files options.mode options.json))

/-- Works through files, and tells what is wrong with the first that fails. -/
def workThrough (write : Writer (StateM Desk)) (mode : Mode) (json : Bool) (analyzer : Analyzer)
    (names : List String) : StateM Desk UInt32 := do
  match ← (runSources Desk.host write mode json analyzer names).run with
  | .ok () => return 0
  | .error complaint =>
    complainAll Desk.host complaint.lines
    return 1

section

variable (mode : Mode) (json : Bool)

/-- Once the files come to the same, so does the run with its exit code. -/
theorem workThrough_congr {write : Writer (StateM Desk)} {analyzer analyzer' : Analyzer}
    {names names' : List String} {desk desk' : Desk}
    (h : (runSources Desk.host write mode json analyzer names).run.run desk =
      (runSources Desk.host write mode json analyzer' names').run.run desk') :
    (workThrough write mode json analyzer names).run desk =
      (workThrough write mode json analyzer' names').run desk' := by
  rw [workThrough, workThrough, StateT.run_bind, StateT.run_bind, h]

/-- Files are worked through one by one, and what is made of each does not depend on the others. -/
theorem Channel.workThrough_run (channel : Channel) {files : FileTree} {names : List String}
    (h : ∀ name ∈ names, channel.Reads files name) (analyzer : Analyzer)
    (written errors : String) :
    (workThrough channel.write mode json analyzer names).run (channel.desk written errors) =
      ((tally (names.map (productIn files mode json))).exit,
        channel.desk (written ++ (tally (names.map (productIn files mode json))).output)
          (errors ++ (tally (names.map (productIn files mode json))).errors)) := by
  -- every file leaves another analyzer and longer texts to the files behind it
  induction names generalizing analyzer written errors with
  | nil =>
    simp only [List.map_nil, tally, String.append_empty]
    rfl
  | cons name names ih =>
    obtain ⟨analyzer', hstep⟩ := channel.source_run written errors (h name List.mem_cons_self) mode
      json analyzer
    rw [List.map_cons]
    generalize productIn files mode json name = result at hstep ⊢
    rcases result with complaint | product
    · have hrun : (runSources Desk.host channel.write mode json analyzer (name :: names)).run.run
          (channel.desk written errors) = (.error complaint, channel.desk written errors) := by
        rw [runSources_cons]
        exact run_bind_of_error hstep
      have hcomplain := channel.complainAll_run written errors complaint.lines
      rw [workThrough, StateT.run_bind, hrun]
      show (complainAll Desk.host complaint.lines >>= fun _ => pure 1 : StateM Desk UInt32).run _ = _
      rw [StateT.run_bind, hcomplain]
      simp only [tally, String.append_empty]
      rfl
    · have hrun : (runSources Desk.host channel.write mode json analyzer (name :: names)).run.run
          (channel.desk written errors) =
          (runSources Desk.host channel.write mode json analyzer' names).run.run
            (channel.desk (written ++ product.text)
              (errors ++ linesText product.complaints)) := by
        rw [runSources_cons]
        exact run_bind_of_ok hstep
      rw [workThrough_congr mode json hrun, ih fun name hname => h name (List.mem_cons_of_mem _ hname)]
      simp only [tally, String.append_assoc]

end

/-- The files of a list up to the first that fails, in terms of what each comes to alone. -/
theorem tally_eq (results : String → Except Complaint Product) (names : List String) :
    tally (names.map results) =
      let k := names.findIdx fun name => (tally [results name]).exit ≠ 0
      ⟨if k = names.length then 0 else 1,
        String.join ((names.take k).map fun name => (tally [results name]).output),
        String.join ((names.take (k + 1)).map fun name => (tally [results name]).errors)⟩ := by
  induction names with
  | nil => rfl
  | cons name names ih =>
    rw [List.map_cons, List.findIdx_cons]
    rcases hresult : results name with complaint | product
    · simp [tally, hresult]
    · simp [tally, hresult, ih]

/-! ### Channels -/

/-- Standard output. -/
def screen (files : FileTree) : Channel where
  write := Desk.host.print
  desk written errors := ⟨files, written, errors⟩
  write_run _ _ _ := rfl
  complain_run _ _ _ := rfl

/-- A file that was started at a path. -/
def intoFile (files : FileTree) (path : Path) (hdir : files.node? path ≠ some .directory) :
    Channel where
  write := Desk.write path
  desk written errors := ⟨files.put path (.file written.toUTF8), "", errors⟩
  write_run text written errors := by
    have htext : (written ++ text).toUTF8 = written.toUTF8 ++ text.toUTF8 :=
      String.toByteArray_append
    show Desk.write path text _ = _
    rw [Desk.write]
    simp only [FileTree.node?_put_self hdir, FileTree.append_put hdir, htext]
  complain_run _ _ _ := rfl

/-! ### Runs of the command -/

section

variable {arguments : List String} {options : Options}

/-- Without a file to write to, reports go to standard output. -/
theorem run_eq_of_print (h : parseArguments arguments = .analyze options)
    (houtput : options.output = none) (desk : Desk) :
    desk.run arguments =
      (workThrough Desk.host.print options.mode options.json {} options.sources).run desk := by
  rw [Desk.run, runCommand, h]
  simp only [runOptions, houtput, pure_bind]
  rfl

/-- A file to write to is started first. -/
theorem run_eq_of_create (h : parseArguments arguments = .analyze options) {name : String}
    (houtput : options.output = some name) (desk : Desk) {path : Path} {files : FileTree}
    (hcreate : desk.files.create name = .ok (path, files)) :
    desk.run arguments =
      (workThrough (Desk.write path) options.mode options.json {} options.sources).run
        { desk with files } := by
  have hstart : (Desk.host.create name).run desk =
      (.ok (Desk.write path), { desk with files }) := by
    simp only [Desk.host, StateT.run_bind, StateT.run_get, pure_bind, hcreate]
    rfl
  have hoptions : (runOptions Desk.host options).run.run desk =
      (runSources Desk.host (Desk.write path) options.mode options.json {} options.sources).run.run
        { desk with files } := by
    simp only [runOptions, houtput]
    rw [run_bind_lift hstart]
    rfl
  rw [Desk.run, runCommand, h]
  simp only [StateT.run_bind, hoptions]
  rfl

end

/-! ### Together and alone -/

/-- The run for one of the files alone, which writes to standard output. -/
def runAlone (files : FileTree) (options : Options) (name : String) : UInt32 × Desk :=
  ({ files } : Desk).run { options with sources := [name], output := none : Options }.arguments

/-- The number of files before the first whose own run fails. -/
def firstFailure (files : FileTree) (options : Options) : Nat :=
  options.sources.findIdx fun name => (runAlone files options name).1 ≠ 0

/-- A run gives what the runs for the single files give one after the other, up to the first that
fails. -/
structure InOrder (files : FileTree) (options : Options) (run : UInt32 × Desk) : Prop where
  exit : run.1 = if firstFailure files options = options.sources.length then 0 else 1
  /-- Nothing is written for the file that fails. -/
  output : run.2.output = String.join
    ((options.sources.take (firstFailure files options)).map fun name =>
      (runAlone files options name).2.output)
  /-- The last that is complained about is the file that fails. -/
  errors : run.2.errors = String.join
    ((options.sources.take (firstFailure files options + 1)).map fun name =>
      (runAlone files options name).2.errors)
  files : run.2.files = files

/-- A file that the command can make nothing of. -/
@[mk_iff]
inductive Unusable (files : FileTree) (mode : Mode) (name : String) : Prop
  /-- It is missing, or it cannot be read. -/
  | unread (e : FileError) (h : files.read name = .error e)
  /-- What it holds is no text. -/
  | undecoded (bytes : ByteArray) (h : files.read name = .ok bytes)
      (hbytes : String.fromUTF8? bytes = none)
  /-- Its text cannot be split into tokens. -/
  | lexical (bytes : ByteArray) (text : String) (e : LexicalError)
      (h : files.read name = .ok bytes) (hbytes : String.fromUTF8? bytes = some text)
      (htext : tokenize text = .error e)
  /-- The outline of its text is refused, which matters to hints only. -/
  | layout (bytes : ByteArray) (text : String) (e : LayoutError) (hmode : mode = .hints)
      (h : files.read name = .ok bytes) (hbytes : String.fromUTF8? bytes = some text)
      (htext : (({} : Analyzer).run name text).1 = .error (.layout e))

/-- A run that writes to a file does what it does on standard output, and leaves all other files as
they are. -/
structure SameInFile (files : FileTree) (path : Path) (onScreen inFile : UInt32 × Desk) : Prop where
  exit : inFile.1 = onScreen.1
  errors : inFile.2.errors = onScreen.2.errors
  output : inFile.2.output = ""
  written : inFile.2.files.node? path = some (.file onScreen.2.output.toUTF8)
  others : ∀ other, other ≠ path → inFile.2.files.node? other = files.node? other

section

variable {files : FileTree} {mode : Mode} {json : Bool} {name : String}

/-- A text comes to nothing if it has no tokens, or if hints are asked for and its outline is
refused. -/
theorem productOf_eq_error_iff {script : Script} :
    (∃ complaint, productOf mode json script = .error complaint) ↔
      (∃ e, tokenize script.text = .error e) ∨
        mode = .hints ∧
          ∃ e, (({} : Analyzer).run script.name script.text).1 = .error (.layout e) := by
  rcases mode with _ | _
  · rcases htokens : tokenize script.text with e | tokens <;> simp [productOf, htokens]
  · have hended := ended_run {} script.name script.text
    simp only [productOf]
    generalize ({} : Analyzer).run script.name script.text = outcome at hended ⊢
    obtain ⟨result, analyzer⟩ := outcome
    rcases hended with ⟨htokens⟩ | ⟨htokens, _⟩ | ⟨htokens, _, _, _⟩ <;> simp [htokens]

/-- The files that come to nothing are the unusable ones. -/
theorem productIn_eq_error_iff :
    (∃ complaint, productIn files mode json name = .error complaint) ↔
      Unusable files mode name := by
  rw [productIn, unusable_iff]
  rcases hread : files.read name with e | bytes
  · rcases e with _ | _ | _ | _ | _ | reason <;> simp [textOf]
  · rcases hbytes : String.fromUTF8? bytes with _ | text
    · simp [textOf, hbytes]
    · simp [textOf, hbytes, productOf_eq_error_iff]

/-- The exit code of a run for one file tells whether the file failed. -/
theorem tally_exit_ne_zero_iff {result : Except Complaint Product} :
    (tally [result]).exit ≠ 0 ↔ ∃ complaint, result = .error complaint := by
  rcases result with complaint | product <;> simp [tally]

end

section

variable (files : FileTree) {arguments : List String} {options : Options}

/-- What a run on standard output comes to. -/
theorem run_print (h : parseArguments arguments = .analyze options)
    (houtput : options.output = none) :
    ({ files } : Desk).run arguments =
      ((tallyIn files options).exit,
        ⟨files, (tallyIn files options).output, (tallyIn files options).errors⟩) := by
  have hreads : ∀ source ∈ options.sources, (screen files).Reads files source :=
    fun _ _ _ _ => rfl
  have hrun := (screen files).workThrough_run options.mode options.json hreads {} "" ""
  rw [String.empty_append, String.empty_append] at hrun
  rw [run_eq_of_print h houtput]
  exact hrun

/-- The run for a single file shows what is made of that file and changes no file. -/
theorem runAlone_eq (options : Options) (name : String) :
    runAlone files options name =
      ((tally [productIn files options.mode options.json name]).exit,
        ⟨files, (tally [productIn files options.mode options.json name]).output,
          (tally [productIn files options.mode options.json name]).errors⟩) :=
  run_print files (parseArguments_arguments (List.cons_ne_nil name [])) rfl

/-- The run for a single file fails exactly for files that the command can make nothing of. -/
theorem runAlone_fails_iff (options : Options) (name : String) :
    (runAlone files options name).1 ≠ 0 ↔ Unusable files options.mode name := by
  rw [runAlone_eq, tally_exit_ne_zero_iff, productIn_eq_error_iff]

/-- A run on standard output does what the runs for its single files do, in order. -/
theorem inOrder_run (h : parseArguments arguments = .analyze options)
    (houtput : options.output = none) :
    InOrder files options (({ files } : Desk).run arguments) := by
  rw [run_print files h houtput, tallyIn, tally_eq]
  refine ⟨?_, ?_, ?_, rfl⟩ <;> simp only [firstFailure, runAlone_eq]

/-- A run into a file writes there what the run on standard output shows. -/
theorem sameInFile_run (h : parseArguments arguments = .analyze options)
    (houtput : options.output = none) {arguments' : List String} {name : String}
    (h' : parseArguments arguments' = .analyze { options with output := some name })
    {path : Path} {started : FileTree} (hcreate : files.create name = .ok (path, started))
    (hdevice : ∀ device, files.node? path ≠ some (.device device))
    (havoids : ∀ source ∈ options.sources, files.Avoids path source) :
    SameInFile files path (({ files } : Desk).run arguments)
      (({ files } : Desk).run arguments') := by
  obtain ⟨hdir, rfl⟩ := FileTree.create_eq_ok hcreate hdevice
  -- whatever has been written so far, the scripts are read as they were before the run
  have hreads : ∀ source ∈ options.sources, (intoFile files path hdir).Reads files source :=
    fun source hsource written _ => (havoids source hsource).read_put hdir written.toUTF8
  have hrun := (intoFile files path hdir).workThrough_run options.mode options.json hreads {} "" ""
  rw [String.empty_append, String.empty_append] at hrun
  have hfile : ({ files } : Desk).run arguments' = _ :=
    (run_eq_of_create h' rfl { files } hcreate).trans hrun
  rw [hfile, run_print files h houtput]
  refine ⟨rfl, rfl, rfl, FileTree.node?_put_self hdir _, ?_⟩
  intro other hother
  exact FileTree.node?_put_of_ne hother _

/-- **Several files give what the single files give, in order, up to the first that fails**, and
with a file to write to the same goes into the file. -/
theorem run_sources_in_order (h : parseArguments arguments = .analyze options)
    (houtput : options.output = none) :
    InOrder files options (({ files } : Desk).run arguments) ∧
      (∀ name, (runAlone files options name).1 ≠ 0 ↔ Unusable files options.mode name) ∧
        ∀ arguments' name path started,
          parseArguments arguments' = .analyze { options with output := some name } →
          files.create name = .ok (path, started) →
          (∀ device, files.node? path ≠ some (.device device)) →
          (∀ source ∈ options.sources, files.Avoids path source) →
            SameInFile files path (({ files } : Desk).run arguments)
              (({ files } : Desk).run arguments') := by
  refine ⟨inOrder_run files h houtput, runAlone_fails_iff files options, ?_⟩
  intro arguments' name path started h' hcreate hdevice havoids
  exact sameInFile_run files h houtput h' hcreate hdevice havoids

/-- An empty script, then a missing one: the report on the first is written, on the screen or into a
file. -/
theorem run_sources_in_order_missing :
    InOrder .machine { sources := ["/dev/null", "a.sk"], json := true }
        (({ files := .machine } : Desk).run ["--json", "/dev/null", "a.sk"]) ∧
      (runAlone .machine { sources := ["/dev/null", "a.sk"], json := true } "a.sk").1 ≠ 0 ∧
        SameInFile .machine ["tmp", "scripts", "out"]
          (({ files := .machine } : Desk).run ["--json", "/dev/null", "a.sk"])
          (({ files := .machine } : Desk).run ["--json", "-o", "out", "/dev/null", "a.sk"]) := by
  have hparse : parseArguments ["--json", "/dev/null", "a.sk"] =
      .analyze { sources := ["/dev/null", "a.sk"], json := true } := by decide
  obtain ⟨horder, hfails, hsame⟩ := run_sources_in_order .machine hparse rfl
  refine ⟨horder, (hfails "a.sk").2 (.unread .notFound rfl), ?_⟩
  refine hsame ["--json", "-o", "out", "/dev/null", "a.sk"] "out" _ _ (by decide) rfl nofun ?_
  intro source hsource
  rcases List.mem_pair.1 hsource with rfl | rfl
  · exact ⟨by decide, by decide⟩
  · exact ⟨by decide, by decide⟩

/-- A file that is written to changes the way to what would be below it, and a device need not take
what is written to it. In both cases the run is not the one on the screen. -/
theorem run_into_file_differs :
    ((∃ started, FileTree.machine.create "x" = .ok (["tmp", "scripts", "x"], started)) ∧
      FileTree.machine.resolve "x/y" (stepsOf "x/y") ≠ .ok ["tmp", "scripts", "x"] ∧
      (({ files := .machine } : Desk).run ["-o", "x", "x/y"]).2.errors ≠
        (({ files := .machine } : Desk).run ["x/y"]).2.errors) ∧
    (∃ started, FileTree.machine.create "/dev/full" = .ok (["dev", "full"], started)) ∧
      FileTree.machine.resolve "/dev/null" (stepsOf "/dev/null") ≠ .ok ["dev", "full"] ∧
      (({ files := .machine } : Desk).run ["-o", "/dev/full", "/dev/null"]).1 = 1 ∧
      (({ files := .machine } : Desk).run ["/dev/null"]).1 = 0 := by
  refine ⟨⟨⟨_, rfl⟩, by decide, ?_⟩, ⟨_, rfl⟩, by decide, ?_⟩
  · decide +kernel
  · decide +kernel

end

end ScriptHints.Command
