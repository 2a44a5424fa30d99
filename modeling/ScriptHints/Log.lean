/-!
# Log messages

What the library is doing, told line by line to whoever cares to listen.
-/

namespace ScriptHints

/-- How much detail a log message gives. -/
inductive Level
  | info
  | debug
  | trace
  deriving DecidableEq, Repr

/-- The name of a level in log lines. -/
def Level.name : Level → String
  | .info => "INFO"
  | .debug => "DEBUG"
  | .trace => "TRACE"

/-- One log message. -/
structure Message where
  level : Level
  text : String
  deriving DecidableEq, Repr

/-- A message with its level in front. -/
def Message.line (m : Message) : String := m.level.name ++ " " ++ m.text

end ScriptHints
