import ScriptHints.Failure

/-!
# Writing

Reports are written piece by piece to a place that may stop taking text: a `Writer` takes a text or
gives the reason why it did not. A `Sink` is such a place with room for a limited number of bytes;
of a text that does not fit it still takes what there is room for.

* `Writer.writeAll` — writes texts in order, up to the first that is refused.
* `Sink.write` — the writer that fills a sink.
-/

namespace ScriptHints

/-- Takes a text, or refuses it with a reason. -/
abbrev Writer (m : Type → Type) := String → ExceptT String m Unit

/-- Writes texts in order, up to the first that is refused. -/
def Writer.writeAll {m : Type → Type} [Monad m] (write : Writer m) :
    List String → ExceptT String m Unit
  | [] => pure ()
  | text :: texts => do
    write text
    Writer.writeAll write texts

/-- A place with room for a limited number of bytes. -/
structure Sink where
  /-- Bytes there is still room for; without a limit, none is named. -/
  room : Option Nat
  /-- The reason given once there is no room left. -/
  reason : String
  /-- The bytes taken so far. -/
  contents : List UInt8 := []
  deriving DecidableEq, Repr

/-- The UTF-8 form of a text. -/
def Text.utf8 (s : String) : List UInt8 := s.toList.flatMap String.utf8EncodeChar

namespace Sink

/-- Writes into a sink. Of a text that does not fit, the sink takes what there is room for. -/
def write : Writer (StateM Sink) := fun text sink =>
  let bytes := Text.utf8 text
  match sink.room with
  | none => (.ok (), { sink with contents := sink.contents ++ bytes })
  | some room =>
    let taken := { sink with
      room := some (room - bytes.length), contents := sink.contents ++ bytes.take room }
    if bytes.length ≤ room then (.ok (), taken) else (.error sink.reason, taken)

end Sink

end ScriptHints
