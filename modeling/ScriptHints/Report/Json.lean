import ScriptHints.Report
import ScriptHints.Report.Writer

/-!
# Reports as JSON

A report as a JSON document for other programs to read. Members come in a fixed order, each level
is indented by two spaces, and a missing hint is `null`. In strings only the quotation mark, the
backslash and characters below the space are escaped.
-/

namespace ScriptHints.Json

/-- The form of one character inside a JSON string. Hexadecimal digits are in lower case. -/
def escapeChar (c : Char) : List Char :=
  if c = '"' then ['\\', '"']
  else if c = '\\' then ['\\', '\\']
  else if c = '\x08' then ['\\', 'b']
  else if c = '\x0c' then ['\\', 'f']
  else if c = '\n' then ['\\', 'n']
  else if c = '\r' then ['\\', 'r']
  else if c = '\t' then ['\\', 't']
  else if c.toNat < 0x20 then
    ['\\', 'u', '0', '0', Nat.digitChar (c.toNat / 16), Nat.digitChar (c.toNat % 16)]
  else [c]

/-- A JSON string. -/
def string (s : String) : String :=
  "\"" ++ String.ofList (s.toList.flatMap escapeChar) ++ "\""

/-- A hint as a JSON value. -/
def hint : Option ValueType → String
  | some type => string type.name
  | none => "null"

/-- An entry as a JSON object inside the list of entries. -/
def entry (e : Entry) : String :=
  "    \x7b\n" ++
  "      \"variable\": " ++ string e.name ++ ",\n" ++
  "      \"kind\": " ++ string e.role.name ++ ",\n" ++
  "      \"hint\": " ++ hint e.hint ++ ",\n" ++
  "      \"line\": " ++ toString e.line ++ ",\n" ++
  "      \"span\": \x7b\n" ++
  "        \"start\": " ++ toString e.span.start ++ ",\n" ++
  "        \"end\": " ++ toString e.span.stop ++ "\n" ++
  "      \x7d\n" ++
  "    \x7d"

/-- A list of entries as a JSON array. -/
def entries : List Entry → String
  | [] => "[]"
  | es => "[\n" ++ String.intercalate ",\n" (es.map entry) ++ "\n  ]"

/-- A report as a JSON document. -/
def report (r : Report) : String :=
  "\x7b\n" ++
  "  \"source_name\": " ++ string r.script ++ ",\n" ++
  "  \"entries\": " ++ entries r.entries ++ "\n" ++
  "\x7d"

end ScriptHints.Json

namespace ScriptHints.Report

/-- The JSON document of a report with the line feed behind it. -/
def json (r : Report) : String := Json.report r ++ "\n"

/-- Writes the JSON document of a report, then a line feed. -/
def writeJson {m : Type → Type} [Monad m] (r : Report) (write : Writer m) :
    ExceptT Failure m Unit := do
  ExceptT.adapt Failure.encoding (write (Json.report r))
  ExceptT.adapt Failure.transfer (write "\n")

end ScriptHints.Report
