import ScriptHints.Diagnostic
import ScriptHints.Hint.Table
import ScriptHints.Outline

/-!
# Failures

Everything that can end the work on a script, in one type, with the words used for it in one place.

* `Failure` — the causes.
* `Failure.message` — the short text of a failure.
* `Failure.unlabelled` — the failure in words: message, code and advice.
* `Failure.diagnostic` — the same with a label on the script. A fault has none, and where the region
  to be labelled is malformed the fault is the answer.
* `emptySection` — the one warning there is.
-/

namespace ScriptHints

/-- What ends the work on a script. -/
inductive Failure
  /-- The script cannot be split into tokens. -/
  | lexical (error : LexicalError)
  /-- The outline of the script is refused. -/
  | layout (error : LayoutError)
  /-- The hint table was used wrongly. -/
  | misuse (misuse : Misuse)
  /-- Reading or writing failed. -/
  | transfer (reason : String)
  /-- Writing a report in its structured form failed. -/
  | encoding (reason : String)
  /-- There is no such script. -/
  | missingFile (name : String)
  /-- An internal expectation was broken. -/
  | fault (fault : Fault)
  deriving DecidableEq, Repr

/-! ## Wording -/

/-- The words for a place at which no token can be read: message, label and help. -/
def LexicalCause.wording : LexicalCause → String × String × String
  | .strayCharacter =>
    ("Invalid token", "This character is not allowed here",
      "Remove it or put it inside a text literal")
  | .unclosedText =>
    ("Unterminated text", "This text is never closed",
      "Add a closing `\"` on the same line. Use `\"\"` for a quote inside text")
  | .unclosedVariable =>
    ("Unterminated variable", "This variable is never closed",
      "Variables are written as `\x7bname\x7d` on a single line")
  | .namelessVariable =>
    ("Empty variable name", "Variable without a name",
      "Give the variable a name, e.g. `\x7b_value\x7d`")

/-- The words for a refused indentation: message, label and help. -/
def LayoutCause.wording : LayoutCause → String × String × String
  | .tooDeep =>
    ("Unexpected indentation", "This line is indented deeper than the previous one",
      "Only lines following a section header ending with `:` may be indented deeper.")
  | .misaligned =>
    ("Indentation does not match any enclosing section",
      "This indentation belongs to no open section",
      "Align the line with the section it belongs to.")
  | .mixedBlanks =>
    ("Indentation mixes tabs and spaces", "Both tabs and spaces used here",
      "Indent with either tabs or spaces.")

/-- The words for a wrong use of the hint table: message and help. -/
def Misuse.wording : Misuse → String × String
  | .notLocal name =>
    ("Type hints can only be acquired for local variables, but `" ++ braced name ++
        "` is not local",
      "This is an internal error. Only variables starting with `_` may be looked up.")
  | .exitOfRoot =>
    ("Attempted to exit the root type hint scope",
      "This is an internal error. Every exited scope must have been entered first.")

/-! ## Diagnostics -/

namespace Failure

/-- The short text of a failure. -/
def message : Failure → String
  | .lexical e => e.cause.wording.1
  | .layout e => e.cause.wording.1
  | .misuse m => m.wording.1
  | .transfer reason => reason
  | .encoding reason => reason
  | .missingFile _ => "File not found"
  | .fault f => f.message

/-- The code a failure can be looked up by. -/
def code : Failure → Option String
  | .lexical _ => some "sklang::lexer"
  | .layout _ => some "sklang::structure"
  | .misuse _ => some "sklang::internal"
  | _ => none

/-- Advice on how to mend a failure. -/
def help : Failure → Option String
  | .lexical e => some e.cause.wording.2.2
  | .layout e => some e.cause.wording.2.2
  | .misuse m => some m.wording.2
  | .transfer reason => some reason
  | .encoding reason => some reason
  | .missingFile name => some ("Make sure this file exists: " ++ name)
  | .fault _ => none

/-- The region of the script a failure points at, and the remark on it. -/
def label? : Failure → Option (Span × String)
  | .lexical e => some (e.span, e.cause.wording.2.1)
  | .layout e => some (e.span, e.cause.wording.2.1)
  | _ => none

/-- A failure in words alone. -/
def unlabelled (f : Failure) : Diagnostic :=
  { severity := .error, message := f.message, code := f.code, help := f.help }

/-- A failure as shown to the script author, pointing at the script where it can. -/
def diagnostic (f : Failure) : Except Fault Diagnostic :=
  match f with
  | .fault cause => .error cause
  | _ =>
    match f.label? with
    | some (span, text) => f.unlabelled.withLabel span text
    | none => .ok f.unlabelled

/-- A failure as shown to the script author; a label that cannot be made is left out. -/
def shown (f : Failure) : Diagnostic :=
  match f.diagnostic with
  | .ok diagnostic => diagnostic
  | .error _ => f.unlabelled

end Failure

/-- The warning about a header, found at the given region, with nothing indented below it. -/
def emptySection (header : Span) : Except Fault Diagnostic := do
  let labelled ← ((Diagnostic.warning "Empty section").withCode "sklang::structure").withLabel
    header "Nothing is indented below this header"
  return labelled.withHelp "Indent the section body or remove the trailing `:`."

end ScriptHints
