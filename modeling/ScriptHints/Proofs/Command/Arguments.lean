import Mathlib.Data.List.Basic
import ScriptHints.Command.Arguments

/-!
# Arguments for given options

Every choice of options can be asked for, whatever the files are called: a file whose name looks
like an option is named behind two dashes, and a file to write to behind an equals sign.

* `Options.arguments` — arguments that ask for the options.
* `parseArguments_arguments` — they do.
-/

namespace ScriptHints.Command

/-- The name a mode is asked for by. -/
def Mode.name : Mode → String
  | .tokens => "tokenize"
  | .hints => "hints"

/-- A mode is found again by its name. -/
theorem Mode.ofName?_name (mode : Mode) : Mode.ofName? mode.name = some mode := by
  rcases mode with _ | _ <;> rfl

/-- Arguments that ask for the options. -/
def Options.arguments (options : Options) : List String :=
  ("--mode=" ++ options.mode.name) :: ((if options.json then ["--json"] else []) ++
    ((options.output.map ("--output=" ++ ·)).toList ++ "--" :: options.sources))

/-- What follows `--output=` is taken as the name of the output file, whatever it is. -/
theorem readArgument_output (value : String) :
    readArgument ("--output=" ++ value) = .filled .output value := by
  have hlist : ("--output=" ++ value).toList =
      '-' :: '-' :: 'o' :: 'u' :: 't' :: 'p' :: 'u' :: 't' :: '=' :: value.toList := by
    rw [String.toList_append]
    rfl
  rw [readArgument, hlist]
  simp [readLong, String.ofList_toList]

/-- What follows `--mode=` is taken as the name of a mode, whatever it is. -/
theorem readArgument_mode (value : String) :
    readArgument ("--mode=" ++ value) = .filled .mode value := by
  have hlist : ("--mode=" ++ value).toList =
      '-' :: '-' :: 'm' :: 'o' :: 'd' :: 'e' :: '=' :: value.toList := by
    rw [String.toList_append]
    rfl
  rw [readArgument, hlist]
  simp [readLong, String.ofList_toList]

/-- Behind two dashes everything is a file. -/
theorem parseFrom_dashes (seen : Seen) (sources : List String) :
    parseFrom seen ("--" :: sources) =
      { seen with sources := seen.sources ++ sources : Seen }.request := by
  have hdashes : readArgument "--" = .endOfOptions := by decide
  rw [parseFrom, hdashes]

/-- The argument for the output file sets that file where none was given before. -/
theorem parseFrom_output {seen : Seen} (hseen : seen.output = none) (output : Option String)
    (others : List String) :
    parseFrom seen ((output.map ("--output=" ++ ·)).toList ++ others) =
      parseFrom { seen with output } others := by
  rcases output with _ | value
  · obtain ⟨sources, output, mode, json⟩ := seen
    obtain rfl : output = none := hseen
    rfl
  · show parseFrom seen (("--output=" ++ value) :: others) = _
    rw [parseFrom, readArgument_output]
    simp [Seen.fill, hseen]

/-- The argument for JSON is seen where it is there. -/
theorem parseFrom_json {seen : Seen} (hseen : seen.json = false) (json : Bool)
    (others : List String) :
    parseFrom seen ((if json then ["--json"] else []) ++ others) =
      parseFrom { seen with json } others := by
  have hread : readArgument "--json" = .json := by decide
  rcases json with _ | _
  · obtain ⟨sources, output, mode, json⟩ := seen
    obtain rfl : json = false := hseen
    rfl
  · show parseFrom seen ("--json" :: others) = _
    rw [parseFrom, hread]
    simp [hseen]

/-- The arguments for given options ask for these options. -/
theorem parseArguments_arguments {options : Options} (h : options.sources ≠ []) :
    parseArguments options.arguments = .analyze options := by
  rw [parseArguments, Options.arguments, parseFrom, readArgument_mode]
  simp only [Seen.fill, Option.isNone_none, if_true, Mode.ofName?_name, Option.map_some]
  rw [parseFrom_json rfl, parseFrom_output rfl, parseFrom_dashes, Seen.request]
  simp [h]

end ScriptHints.Command
