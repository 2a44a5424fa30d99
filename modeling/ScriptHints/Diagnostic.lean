import ScriptHints.Span

/-!
# Diagnostics

What a script author is told about a problem: a message, perhaps a code to look it up by and advice
on how to mend it, and labels pointing at regions of the script. A diagnostic is built up from its
message part by part; a later code or advice replaces an earlier one, labels add up.

* `Diagnostic.error`, `Diagnostic.warning` — a diagnostic with nothing but its message.
* `Diagnostic.withCode`, `Diagnostic.withHelp`, `Diagnostic.withLabel` — the further parts.
* `Diagnostic.headline`, `Diagnostic.details` — the lines it is shown with.
-/

namespace ScriptHints

/-- How bad a problem is: an error ends the work on a script, a warning does not. -/
inductive Severity
  | error
  | warning
  deriving DecidableEq, Repr

/-- A remark on a region of the script. -/
structure Label where
  text : String
  /-- Offset of the first byte of the region. -/
  offset : Nat
  /-- Number of bytes of the region. -/
  length : Nat
  deriving DecidableEq, Repr

/-- A problem as shown to a script author. -/
structure Diagnostic where
  severity : Severity
  message : String
  code : Option String := none
  help : Option String := none
  /-- Remarks in the order they were made. -/
  labels : List Label := []
  deriving DecidableEq, Repr

namespace Diagnostic

/-- An error with a message and no further parts. -/
def error (message : String) : Diagnostic := { severity := .error, message }

/-- A warning with a message and no further parts. -/
def warning (message : String) : Diagnostic := { severity := .warning, message }

/-- Gives the diagnostic a code. -/
def withCode (d : Diagnostic) (code : String) : Diagnostic := { d with code := some code }

/-- Gives the diagnostic advice on how to mend the problem. -/
def withHelp (d : Diagnostic) (help : String) : Diagnostic := { d with help := some help }

/-- Adds a remark on a region, which must not end before it starts. -/
def withLabel (d : Diagnostic) (span : Span) (text : String) : Except Fault Diagnostic := do
  let length ← span.length
  return { d with labels := d.labels ++ [⟨text, span.start, length⟩] }

/-- A further part of a diagnostic. -/
inductive Part
  | code (value : String)
  | help (value : String)
  | label (span : Span) (text : String)
  deriving DecidableEq, Repr

/-- Adds one part. -/
def withPart (d : Diagnostic) : Part → Except Fault Diagnostic
  | .code value => .ok (d.withCode value)
  | .help value => .ok (d.withHelp value)
  | .label span text => d.withLabel span text

/-- Adds parts in order. -/
def withParts (d : Diagnostic) (parts : List Part) : Except Fault Diagnostic :=
  parts.foldlM withPart d

/-! ## Showing a diagnostic -/

/-- The line a diagnostic starts with. -/
def headline (d : Diagnostic) : String :=
  match d.severity with
  | .error => "Error: " ++ d.message
  | .warning => d.message

/-- The lines below the headline: advice, then code, where there are any. -/
def details (d : Diagnostic) : List String :=
  (d.help.map ("diagnostic help: " ++ ·)).toList ++ (d.code.map ("diagnostic code: " ++ ·)).toList

/-- A region that is not reversed becomes the last label. -/
theorem withLabel_eq_ok {d : Diagnostic} {span : Span} (h : span.start ≤ span.stop)
    (text : String) :
    d.withLabel span text =
      .ok { d with labels := d.labels ++ [⟨text, span.start, span.stop - span.start⟩] } := by
  simp [withLabel, Span.length_eq_ok h, bind, Except.bind, pure, Except.pure]

end Diagnostic

end ScriptHints
