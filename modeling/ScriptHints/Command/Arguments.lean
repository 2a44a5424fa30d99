/-!
# Command line arguments

The command takes script files and a few options. Arguments are read from left to right, and the
first one that settles the matter does: a request for help or for the version, or a mistake.
Options may stand before and after files; `--` ends them.

* `Options` — what to do with which files.
* `Request` — what the arguments as a whole ask for.
* `readArgument` — one argument on its own.
* `parseArguments` — all of them.
-/

namespace ScriptHints.Command

/-- What to do with each file. -/
inductive Mode
  /-- List its tokens. -/
  | tokens
  /-- Report the hints for its local variables. -/
  | hints
  deriving DecidableEq, Repr

/-- The mode with the given name. -/
def Mode.ofName? (name : String) : Option Mode :=
  if name = "tokenize" then some .tokens else if name = "hints" then some .hints else none

/-- What to do with which files. -/
structure Options where
  /-- The script files, in the order given. -/
  sources : List String
  /-- The file to write to instead of standard output. -/
  output : Option String := none
  mode : Mode := .hints
  /-- Whether hints are reported as JSON. -/
  json : Bool := false
  deriving DecidableEq, Repr

/-- What the arguments ask for. -/
inductive Request
  | help
  | version
  | analyze (options : Options)
  /-- The arguments make no sense. -/
  | refused
  deriving DecidableEq, Repr

/-! ## One argument -/

/-- The options that take a value. -/
inductive Slot
  | output
  | mode
  deriving DecidableEq, Repr

/-- What one argument is. -/
inductive Argument
  /-- A script file. -/
  | source
  /-- The end of the options. -/
  | endOfOptions
  | help
  | version
  | json
  /-- An option whose value is the next argument. -/
  | awaiting (slot : Slot)
  /-- An option together with its value. -/
  | filled (slot : Slot) (value : String)
  | unknown
  deriving DecidableEq, Repr

/-- Reads an option with a long name, its two dashes removed. A value may follow an equals sign. -/
def readLong (cs : List Char) : Argument :=
  let name := String.ofList (cs.takeWhile (· != '='))
  match cs.dropWhile (· != '=') with
  | [] =>
    if name = "help" then .help
    else if name = "version" then .version
    else if name = "json" then .json
    else if name = "output" then .awaiting .output
    else if name = "mode" then .awaiting .mode
    else .unknown
  | _ :: value =>
    if name = "output" then .filled .output (String.ofList value)
    else if name = "mode" then .filled .mode (String.ofList value)
    else .unknown

/-- Reads what follows the letter of an option that takes a value: the value itself, perhaps behind
an equals sign, or nothing. -/
def readAttached (slot : Slot) : List Char → Argument
  | [] => .awaiting slot
  | '=' :: value => .filled slot (String.ofList value)
  | value => .filled slot (String.ofList value)

/-- Reads an option named by one letter, its dash removed. -/
def readShort (letter : Char) (cs : List Char) : Argument :=
  if letter = 'h' then .help
  else if letter = 'V' then .version
  else if letter = 'o' then readAttached .output cs
  else if letter = 'm' then readAttached .mode cs
  else .unknown

/-- Reads one argument. A dash alone is a file name. -/
def readArgument (argument : String) : Argument :=
  match argument.toList with
  | ['-', '-'] => .endOfOptions
  | '-' :: '-' :: cs => readLong cs
  | '-' :: letter :: cs => readShort letter cs
  | _ => .source

/-! ## All arguments -/

/-- The options seen so far. -/
structure Seen where
  sources : List String := []
  output : Option String := none
  mode : Option Mode := none
  json : Bool := false
  deriving DecidableEq, Repr

/-- Gives an option its value. No option may be given twice, and a mode must have a known name. -/
def Seen.fill (seen : Seen) (slot : Slot) (value : String) : Option Seen :=
  match slot with
  | .output => if seen.output.isNone then some { seen with output := some value } else none
  | .mode =>
    if seen.mode.isNone then
      (Mode.ofName? value).map fun mode => { seen with mode := some mode }
    else none

/-- What is asked for at the end of the arguments, which must have named a file. -/
def Seen.request (seen : Seen) : Request :=
  if seen.sources = [] then .refused
  else .analyze ⟨seen.sources, seen.output, seen.mode.getD .hints, seen.json⟩

/-- Reads the arguments that are left. -/
def parseFrom (seen : Seen) : List String → Request
  | [] => seen.request
  | argument :: others =>
    match readArgument argument with
    | .source => parseFrom { seen with sources := seen.sources ++ [argument] } others
    | .endOfOptions => { seen with sources := seen.sources ++ others : Seen }.request
    | .help => .help
    | .version => .version
    | .json => if seen.json then .refused else parseFrom { seen with json := true } others
    | .filled slot value =>
      match seen.fill slot value with
      | some seen => parseFrom seen others
      | none => .refused
    | .awaiting slot =>
      match others with
      | [] => .refused
      | value :: others =>
        -- a value looks like a file name, not like a further option
        if readArgument value = .source then
          match seen.fill slot value with
          | some seen => parseFrom seen others
          | none => .refused
        else .refused
    | .unknown => .refused

/-- What the arguments ask for. -/
def parseArguments (arguments : List String) : Request :=
  parseFrom {} arguments

/-! ## Fixed texts -/

/-- The answer to a request for help. -/
def helpText : String :=
  "Usage: skhint [OPTIONS] <source>...\n" ++
  "\n" ++
  "Arguments:\n" ++
  "  <source>...  Script files to analyze\n" ++
  "\n" ++
  "Options:\n" ++
  "  -o, --output <output>  Write the result to this file instead of stdout\n" ++
  "  -m, --mode <mode>      Specify which action should be performed " ++
  "[default: hints] [possible values: tokenize, hints]\n" ++
  "      --json             Print type hints as JSON\n" ++
  "  -h, --help             Print help\n" ++
  "  -V, --version          Print version\n"

/-- The answer to a request for the version. -/
def versionText : String := "skhint 0.1.0\n"

end ScriptHints.Command
