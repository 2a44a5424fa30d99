import ScriptHints.Text.Braces
import ScriptHints.Token

/-!
# Variables and their uses

A variable is written `{name}`. Its name may again hold variables, as an index does in
`{_list::%{_i}%}`, and so may a text: what stands between two percent signs is computed when the
script runs, and every group of braces there is a variable.

* `isLocal` — names starting with an underscore belong to one run of a section.
* `usesIn` — the variables interpolated into a text or a name.
* `Token.uses` — every variable a token mentions, each followed by the ones inside its name.
-/

namespace ScriptHints

/-- Whether a name is that of a local variable: it starts with an underscore. -/
def isLocal (name : String) : Bool :=
  name.toList.head? == some '_'

/-- A name as it is written in a script, between braces. -/
def braced (name : String) : String := "\x7b" ++ name ++ "\x7d"

/-- A place at which a variable is mentioned. -/
structure Use where
  /-- Offset of the opening brace. -/
  offset : Nat
  /-- The characters of the name between the braces. -/
  inner : List Char
  deriving DecidableEq, Repr

namespace Use

/-- The name of the variable. -/
def name (u : Use) : String := String.ofList u.inner

/-- Offset of the byte behind the closing brace. -/
def stop (u : Use) : Nat := u.offset + 1 + Text.size u.inner + 1

/-- The region from the opening to the closing brace. -/
def span (u : Use) : Span := ⟨u.offset, u.stop⟩

/-- Whether the variable is a local one. -/
def isLocal (u : Use) : Bool := ScriptHints.isLocal u.name

end Use

/-- The variables interpolated into a text that begins at `offset`, in order of appearance, each
followed by the ones inside its name. A percent sign outside groups switches between plain text
and interpolation, and `active` says on which side the text begins. A group that is never closed
swallows what follows it. -/
def usesIn (active : Bool) (offset : Nat) : List Char → List Use
  | [] => []
  | c :: cs =>
    if c = '%' then usesIn (!active) (offset + 1) cs
    else if c = '{' ∧ active = true then
      match _h : Text.closeGroup? cs with
      | none => []
      | some (inside, rest) =>
        let use : Use := ⟨offset, inside⟩
        use :: (usesIn false (offset + 1) inside ++ usesIn true use.stop rest)
    else usesIn active (offset + c.utf8Size) cs
termination_by cs => cs.length
decreasing_by
  · simp
  · have := Text.length_inside_lt _h
    simp only [List.length_cons]
    omega
  · have := Text.length_rest_lt _h
    simp only [List.length_cons]
    omega
  · simp

/-- A variable mentioned on its own, followed by the ones inside its name. -/
def Use.withNested (u : Use) : List Use :=
  u :: usesIn false (u.offset + 1) u.inner

/-- The variables a token mentions: a variable mentions itself and those inside its name, a text
those interpolated into it. -/
def Token.uses (t : Token) : List Use :=
  match t.category with
  | .var => Use.withNested ⟨t.start, t.inner⟩
  | .text => usesIn false t.start t.chars
  | _ => []

end ScriptHints
