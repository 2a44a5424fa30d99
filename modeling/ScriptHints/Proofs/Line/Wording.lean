import ScriptHints.Proofs.Line.Shift

/-!
# The words of a line

What a line means is said by its words alone. Where the words stand, and how much is skipped between
them, decides nothing but the regions that are told of them.

* `Token.bare`, `Line.bare` — a token and a line without their places.
* `Entry.told` — an entry, but for the bytes it is at.
* `KeepsWords.told_lineEntries` — where words are put elsewhere, the same is told of them.
* `Line.SameWords` — two lines of the same number and the same words. They tell the same, leave the
  same hints, and are headers both or neither.
-/

namespace ScriptHints

/-- The token without its place. -/
def Token.bare (t : Token) : Token := { t with offset := 0, lead := [] }

/-- The line without the places of its tokens. -/
def Line.bare (l : Line) : Line := ⟨l.number, l.first.bare, l.others.map Token.bare⟩

/-- What an entry tells, but for the bytes it is at. -/
def Entry.told (e : Entry) : String × Role × Option ValueType × Nat :=
  (e.name, e.role, e.hint, e.line)

/-- Taking the places away keeps the words. -/
theorem keepsWords_bare : KeepsWords Token.bare := ⟨fun _ => rfl, fun _ => rfl⟩

/-- The tokens of a line without places have no places. -/
theorem Line.tokens_bare (l : Line) : l.bare.tokens = l.tokens.map Token.bare := rfl

/-! ### Uses -/

/-- Which variables a text mentions does not depend on where it begins. -/
theorem inner_usesIn (active : Bool) (offset offset' : Nat) (cs : List Char) :
    (usesIn active offset cs).map Use.inner = (usesIn active offset' cs).map Use.inner := by
  have hstart : ∀ d, (usesIn active d cs).map Use.inner = (usesIn active 0 cs).map Use.inner := by
    intro d
    have hshift := usesIn_shift d active 0 cs
    rw [Nat.add_zero] at hshift
    rw [hshift, List.map_map]
    rfl
  rw [hstart, hstart offset']

/-- What is told of the uses on a line is a matter of their names. -/
theorem told_references (env : String → Option ValueType) (line : Nat) (uses : List Use) :
    (references env line uses).map Entry.told =
      ((uses.map Use.inner).filter fun cs => isLocal (String.ofList cs)).map fun cs =>
        (String.ofList cs, .reference, env (String.ofList cs), line) := by
  rw [references, List.filter_map, List.map_map, List.map_map]
  rfl

/-! ### Entries -/

namespace KeepsWords

variable {g : Token → Token} (h : KeepsWords g)

include h

/-- A token mentions the same variables wherever it is put. -/
theorem inner_uses (t : Token) : (g t).uses.map Use.inner = t.uses.map Use.inner := by
  by_cases hvar : t.category = .var
  · rw [Token.uses_of_var hvar, Token.uses_of_var ((h.category_eq t).trans hvar), h.inner_eq,
      Use.withNested, Use.withNested, List.map_cons, List.map_cons, inner_usesIn]
  by_cases htext : t.category = .text
  · rw [Token.uses_of_text htext, Token.uses_of_text ((h.category_eq t).trans htext), h.chars_eq,
      inner_usesIn]
  · have hvar' : (g t).category ≠ .var := by rwa [h.category_eq]
    have htext' : (g t).category ≠ .text := by rwa [h.category_eq]
    rw [Token.uses_of_ne hvar htext, Token.uses_of_ne hvar' htext']

/-- So do several tokens. -/
theorem inner_flatMap_uses (ts : List Token) :
    ((ts.map g).flatMap Token.uses).map Use.inner = (ts.flatMap Token.uses).map Use.inner := by
  rw [List.flatMap_map, List.map_flatMap, List.map_flatMap]
  exact List.flatMap_congr fun t _ => h.inner_uses t

/-- Of words that are put elsewhere on their line, the same is told. -/
theorem told_lineEntries {l l' : Line} (hnumber : l'.number = l.number)
    (htokens : l'.tokens = l.tokens.map g) (env : String → Option ValueType) :
    (lineEntries env l').map Entry.told = (lineEntries env l).map Entry.told := by
  unfold lineEntries
  rw [h.statement_eq htokens, hnumber]
  rcases l.statement with ⟨target, value⟩ | tokens
  · have hhint : ∀ name, assignedHint env name (value.map g) = assignedHint env name value := by
      intro name
      rw [assignedHint, h.typeOfValue_eq, assignedHint]
    have huses : ((g target).uses.drop 1 ++ (value.map g).flatMap Token.uses).map Use.inner =
        (target.uses.drop 1 ++ value.flatMap Token.uses).map Use.inner := by
      rw [List.map_append, List.map_append, h.inner_flatMap_uses, List.map_drop, h.inner_uses,
        List.map_drop]
    simp only [Statement.map, List.map_append, h.inner_eq, hhint]
    rw [told_references, told_references, huses]
    split <;> rfl
  · simp only [Statement.map]
    rw [told_references, told_references, h.inner_flatMap_uses]

end KeepsWords

/-! ### Lines of the same words -/

/-- The last token of a line is the last of all its tokens. -/
theorem Line.getLast?_tokens (l : Line) : l.tokens.getLast? = some l.last := by
  rw [Line.tokens, List.getLast?_cons, Line.last, List.getLastD_eq_getLast?]

/-- Both lines have the same number and the same words. -/
structure Line.SameWords (l l' : Line) : Prop where
  number : l'.number = l.number
  words : l'.tokens.map Token.bare = l.tokens.map Token.bare

namespace Line.SameWords

variable {l l' : Line} (h : l.SameWords l')

include h

/-- Lines of the same words tell the same. -/
theorem told_lineEntries (env : String → Option ValueType) :
    (lineEntries env l').map Entry.told = (lineEntries env l).map Entry.told := by
  -- both are compared with the line that has these words and no places
  have hnumber : l.bare.number = l.number := rfl
  have hbare := keepsWords_bare.told_lineEntries hnumber l.tokens_bare env
  have hbare' := keepsWords_bare.told_lineEntries (hnumber.trans h.number.symm)
    (l.tokens_bare.trans h.words.symm) env
  rw [← hbare, ← hbare']

/-- Lines of the same words leave the same hints. -/
theorem afterLine_eq (hints : HintTable ValueType) : hints.afterLine l' = hints.afterLine l := by
  have hbare := keepsWords_bare.afterLine_eq l.tokens_bare hints
  have hbare' := keepsWords_bare.afterLine_eq (l.tokens_bare.trans h.words.symm) hints
  rw [← hbare, ← hbare']

/-- Lines of the same words are headers both or neither. -/
theorem isHeader_eq : l'.isHeader = l.isHeader := by
  have hlast := congrArg List.getLast? h.words
  rw [List.getLast?_map, List.getLast?_map, getLast?_tokens, getLast?_tokens] at hlast
  have hbare : l'.last.bare = l.last.bare := Option.some.inj hlast
  show (l'.last.bare.category == .colon) = (l.last.bare.category == .colon)
  rw [hbare]

/-- Lines of the same words have the same words further on, each on its own way. -/
theorem shift (d d' n : Nat) : (l.shift d n).SameWords (l'.shift d' n) := by
  have hbare : ∀ (d : Nat) (ts : List Token),
      (ts.map (Token.shift d)).map Token.bare = ts.map Token.bare := by
    intro d ts
    rw [List.map_map]
    rfl
  refine ⟨congrArg (n + ·) h.number, ?_⟩
  rw [tokens_shift, tokens_shift, hbare, hbare, h.words]

end Line.SameWords

end ScriptHints
