/-!
# Braced groups

Variables are written between braces, and braces may nest. Both the tokens of a script and the
interpolations inside its texts and names rest on one question: where does the group end whose
opening brace has just been read? `closeGroup?` answers it with the text inside the group and the
text behind its closing brace. A group never runs past the end of its line.

* `append_of_splitGroup?` — nothing is lost: inside, closing brace and rest make up the input.
-/

namespace ScriptHints.Text

/-- Splits at the brace that closes the innermost open group once `depth` inner groups are closed,
giving the text before that brace and the text behind it. -/
def splitGroup? (depth : Nat) : List Char → Option (List Char × List Char)
  | [] => none
  | c :: cs =>
    if c = '\n' then none
    else if c = '}' then
      match depth with
      | 0 => some ([], cs)
      | depth + 1 => (splitGroup? depth cs).map fun (inside, rest) => (c :: inside, rest)
    else if c = '{' then
      (splitGroup? (depth + 1) cs).map fun (inside, rest) => (c :: inside, rest)
    else
      (splitGroup? depth cs).map fun (inside, rest) => (c :: inside, rest)

/-- The text inside a group whose opening brace has just been read, and the text behind it. -/
def closeGroup? (cs : List Char) : Option (List Char × List Char) :=
  splitGroup? 0 cs

/-! ## One character further -/

/-- A brace that opens has to be closed before the group is. -/
theorem splitGroup?_open (depth : Nat) (cs : List Char) :
    splitGroup? depth ('{' :: cs) =
      (splitGroup? (depth + 1) cs).map fun p => ('{' :: p.1, p.2) := by
  simp [splitGroup?]

/-- The brace that closes the group ends it. -/
theorem splitGroup?_close_zero (cs : List Char) : splitGroup? 0 ('}' :: cs) = some ([], cs) := by
  simp [splitGroup?]

/-- A brace that closes an inner group belongs to the inside. -/
theorem splitGroup?_close_succ (depth : Nat) (cs : List Char) :
    splitGroup? (depth + 1) ('}' :: cs) =
      (splitGroup? depth cs).map fun p => ('}' :: p.1, p.2) := by
  simp [splitGroup?]

/-- A group does not reach over the end of a line. -/
theorem splitGroup?_newline (depth : Nat) (cs : List Char) :
    splitGroup? depth ('\n' :: cs) = none := by
  simp [splitGroup?]

/-- Any other character belongs to the inside. -/
theorem splitGroup?_plain {c : Char} (hn : c ≠ '\n') (hc : c ≠ '}') (ho : c ≠ '{') (depth : Nat)
    (cs : List Char) :
    splitGroup? depth (c :: cs) = (splitGroup? depth cs).map fun p => (c :: p.1, p.2) := by
  simp [splitGroup?, hn, hc, ho]

/-! ## Nothing is lost -/

/-- Inside, closing brace and rest make up the input. -/
theorem append_of_splitGroup? {depth : Nat} {cs inside rest : List Char}
    (h : splitGroup? depth cs = some (inside, rest)) : inside ++ '}' :: rest = cs := by
  induction cs generalizing depth inside with
  | nil => simp [splitGroup?] at h
  | cons c cs ih =>
    simp only [splitGroup?] at h
    split at h
    · simp at h
    · split at h
      · rename_i hc
        subst hc
        cases depth with
        | zero => simp_all
        | succ depth =>
          obtain ⟨⟨i, r⟩, hr, he⟩ := Option.map_eq_some_iff.1 h
          obtain ⟨rfl, rfl⟩ := Prod.mk.inj he
          simp [ih hr]
      · split at h
        all_goals
          obtain ⟨⟨i, r⟩, hr, he⟩ := Option.map_eq_some_iff.1 h
          obtain ⟨rfl, rfl⟩ := Prod.mk.inj he
          simp [ih hr]

/-- Inside and rest are all of the text but the closing brace. -/
theorem append_of_closeGroup? {cs inside rest : List Char}
    (h : closeGroup? cs = some (inside, rest)) : inside ++ '}' :: rest = cs :=
  append_of_splitGroup? h

/-- The text inside a group is shorter than the text the group was closed in. -/
theorem length_inside_lt {cs inside rest : List Char} (h : closeGroup? cs = some (inside, rest)) :
    inside.length < cs.length := by
  have := congrArg List.length (append_of_closeGroup? h)
  simp at this
  omega

/-- The text behind a group is shorter than the text the group was closed in. -/
theorem length_rest_lt {cs inside rest : List Char} (h : closeGroup? cs = some (inside, rest)) :
    rest.length < cs.length := by
  have := congrArg List.length (append_of_closeGroup? h)
  simp at this
  omega

end ScriptHints.Text
