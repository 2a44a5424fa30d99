import Mathlib
import ScriptHints.Proofs.Report.Grammar
import ScriptHints.Proofs.Token.Extent

/-!
# Reading JSON documents

The reader goes through a text from left to right. It reads every text of the grammar, whatever
stands behind it, so a text is the form of one value only.

* `readValue` — the reader. It is given more steps than it can need.
* `readSequence_of_isSequence` — items with commas between them are read if the items are.
* `readValue_of_isValue` — the reader reads what the grammar derives.
-/

namespace ScriptHints.Json

/-! ### The reader -/

/-- Reads something off the front of a text and leaves the rest. -/
abbrev Reader (α : Type) := List Char → Option (α × List Char)

/-- What is left of a text behind white space. -/
def skip (cs : List Char) : List Char := cs.dropWhile isSpace

/-- The rest of an escape behind its backslash. -/
def readEscape : Reader Char
  | [] => none
  | x :: rest =>
    if x = 'u' then
      match hexValue? (rest.take 4) with
      | some n =>
        if (rest.take 4).length = 4 ∧ n.isValidChar then some (Char.ofNat n, rest.drop 4) else none
      | none => none
    else (shortEscapes.lookup x).map (·, rest)

/-- One character of a string. -/
def readChar : Reader Char
  | [] => none
  | c :: rest =>
    if c = '\\' then readEscape rest
    else if c = '"' ∨ c.toNat < 0x20 then none
    else some (c, rest)

/-- The rest of a string behind its opening mark. -/
def readString : Nat → Reader (List Char)
  | 0, _ => none
  | steps + 1, cs =>
    if cs.head? = some '"' then some ([], cs.tail)
    else do
      let (c, rest) ← readChar cs
      let (s, rest) ← readString steps rest
      return (c :: s, rest)

/-- A natural number. -/
def readNatural : Reader Nat := fun cs =>
  let digits := cs.takeWhile Char.isDigit
  if digits = [] ∨ digits.head? = some '0' ∧ digits ≠ ['0'] then none
  else some (Nat.ofDigitChars 10 digits 0, cs.dropWhile Char.isDigit)

section

variable {α : Type} (element : Reader α) (close : Char)

/-- Items with commas between them, and the bracket behind them. -/
def readSequence : Nat → Reader (List α)
  | 0, _ => none
  | steps + 1, cs => do
    let (a, rest) ← element cs
    match skip rest with
    | [] => none
    | c :: rest =>
      if c = close then some ([a], rest)
      else if c = ',' then do
        let (as, rest) ← readSequence steps (skip rest)
        return (a :: as, rest)
      else none

/-- What stands behind an opening bracket. -/
def readEnclosed (steps : Nat) : Reader (List α) := fun cs =>
  if (skip cs).head? = some close then some ([], (skip cs).tail)
  else readSequence element close steps (skip cs)

end

/-- A member of an object. -/
def readMember (value : Reader Value) (steps : Nat) : Reader (String × Value)
  | [] => none
  | c :: cs =>
    if c = '"' then do
      let (key, rest) ← readString steps cs
      match skip rest with
      | [] => none
      | c :: rest =>
        if c = ':' then do
          let (v, rest) ← value (skip rest)
          return ((String.ofList key, v), rest)
        else none
    else none

/-- A value. The steps bound how deep values are nested and how long they are. -/
def readValue : Nat → Reader Value
  | 0, _ => none
  | _ + 1, [] => none
  | steps + 1, c :: cs =>
    if c = '"' then (readString steps cs).map fun p => (.string (String.ofList p.1), p.2)
    else if c = '[' then
      (readEnclosed (readValue steps) ']' steps cs).map fun p => (.array p.1, p.2)
    else if c = '{' then
      (readEnclosed (readMember (readValue steps) steps) '}' steps cs).map fun p =>
        (.object p.1, p.2)
    else if (c :: cs).take 4 = ['n', 'u', 'l', 'l'] then some (.null, (c :: cs).drop 4)
    else (readNatural (c :: cs)).map fun p => (.number p.1, p.2)

/-! ### Strings and numbers -/

section

variable {c : Char} {s text cs rest space : List Char}

/-- Every form of a character is read as that character. -/
theorem readChar_of_isChar (h : IsChar c text) (rest : List Char) :
    readChar (text ++ rest) = some (c, rest) := by
  cases h with
  | plain hmark hslash hcontrol =>
    rw [List.cons_append, List.nil_append, readChar, if_neg hslash, if_neg]
    rintro (h | h)
    · exact hmark h
    · omega
  | @short x hx =>
    have hu : x ≠ 'u' := by
      rintro rfl
      cases hx
    show readEscape (x :: rest) = _
    rw [readEscape, if_neg hu, hx]
    rfl
  | @code digits hlength hvalue =>
    have htake : (digits ++ rest).take 4 = digits := by
      rw [← hlength, List.take_left']
      rfl
    have hdrop : (digits ++ rest).drop 4 = rest := by
      rw [← hlength, List.drop_left']
      rfl
    show readEscape ('u' :: (digits ++ rest)) = _
    rw [readEscape, if_pos rfl, htake, hvalue, hdrop]
    show (if digits.length = 4 ∧ c.toNat.isValidChar then some (Char.ofNat c.toNat, rest) else none)
      = _
    rw [if_pos ⟨hlength, c.valid⟩, Char.ofNat_toNat]

/-- The form of a character does not begin like the end of a string. -/
theorem IsChar.head_ne (h : IsChar c text) (rest : List Char) :
    (text ++ rest).head? ≠ some '"' := by
  cases h with
  | plain hmark => simpa using hmark
  | short => simp
  | code => simp

/-- Every form of a string is read as that string, up to its mark. -/
theorem readString_of_isString (h : IsString s cs) {steps : Nat} (hsteps : cs.length < steps)
    (rest : List Char) : readString steps (cs ++ '"' :: rest) = some (s, rest) := by
  induction h generalizing steps with
  | nil =>
    obtain ⟨steps, rfl⟩ := Nat.exists_eq_succ_of_ne_zero (Nat.ne_of_gt hsteps)
    rfl
  | @cons c s text cs hc h ih =>
    obtain ⟨steps, rfl⟩ := Nat.exists_eq_succ_of_ne_zero (Nat.ne_of_gt (Nat.zero_lt_of_lt hsteps))
    have hpos : 0 < text.length := by cases hc <;> simp
    rw [List.length_append] at hsteps
    rw [List.append_assoc, readString, if_neg (hc.head_ne _), readChar_of_isChar hc]
    show ((readString steps (cs ++ '"' :: rest)).bind _) = _
    rw [ih (by omega)]
    rfl

/-- Behind a number there is no further digit. -/
def Stops (rest : List Char) : Prop := ∀ d ∈ rest.head?, d.isDigit = false

/-- The digits of a number are read as that number where no digit follows. -/
theorem readNatural_of_isNatural {n : Nat} (h : IsNatural n cs) (hrest : Stops rest) :
    readNatural (cs ++ rest) = some (n, rest) := by
  have htake : (cs ++ rest).takeWhile Char.isDigit = cs := takeWhile_run h.isDigit hrest
  have hdrop : (cs ++ rest).dropWhile Char.isDigit = rest := dropWhile_run h.isDigit hrest
  rw [readNatural]
  simp only [htake, hdrop, h.value]
  rw [if_neg]
  rintro (hnil | ⟨hzero, hne⟩)
  · exact h.ne_nil hnil
  · exact hne (h.no_zero hzero)

/-! ### Sequences -/

/-- White space is skipped, and nothing else. -/
theorem skip_space (hspace : ∀ c ∈ space, isSpace c = true) (hc : isSpace c = false)
    (cs : List Char) : skip (space ++ c :: cs) = c :: cs := by
  apply dropWhile_run hspace
  rintro x ⟨⟩
  exact hc

/-- White space and what is no digit may stand behind a number. -/
theorem stops_space (hspace : ∀ c ∈ space, isSpace c = true) (hc : c.isDigit = false)
    (cs : List Char) : Stops (space ++ c :: cs) := by
  rcases space with _ | ⟨x, space⟩
  · rintro d ⟨⟩
    exact hc
  · rintro d ⟨⟩
    exact isDigit_of_isSpace (hspace x List.mem_cons_self)

variable {α : Type} {element : α → List Char → Prop} {read : Reader α} {close : Char} {steps : Nat}
  {as : List α}

/-- What a sequence needs of its items, up to a length: they begin with neither white space nor the
closing bracket, and they are read. -/
structure ReadsItems (element : α → List Char → Prop) (read : Reader α) (close : Char)
    (length : Nat) : Prop where
  head : ∀ a text, element a text →
    ∃ c cs, text = c :: cs ∧ isSpace c = false ∧ c ≠ close
  read : ∀ a text, element a text → text.length ≤ length → ∀ rest, Stops rest →
    read (text ++ rest) = some (a, rest)

/-- A closing bracket is not taken for anything else. -/
structure Closing (close : Char) : Prop where
  isSpace : isSpace close = false
  isDigit : close.isDigit = false
  ne_comma : close ≠ ','

/-- Items begin neither with white space nor with the closing bracket. -/
theorem IsSequence.exists_head {length : Nat} (hitems : ReadsItems element read close length)
    (h : IsSequence element close as cs) :
    ∃ c cs', cs = c :: cs' ∧ Json.isSpace c = false ∧ c ≠ close := by
  cases h with
  | last h =>
    obtain ⟨c, cs', rfl, hc⟩ := hitems.head _ _ h
    exact ⟨c, _, rfl, hc⟩
  | more h =>
    obtain ⟨c, cs', rfl, hc⟩ := hitems.head _ _ h
    exact ⟨c, _, rfl, hc⟩

/-- Items with commas between them are read if the items are. -/
theorem readSequence_of_isSequence {length : Nat} (hclose : Closing close)
    (hitems : ReadsItems element read close length) (h : IsSequence element close as cs)
    (hlength : cs.length ≤ length) (hsteps : cs.length ≤ steps) (rest : List Char) :
    readSequence read close steps (cs ++ rest) = some (as, rest) := by
  induction h generalizing steps with
  | @last a text space h hspace =>
    simp only [List.length_append, List.length_cons, List.length_nil] at hlength hsteps
    obtain ⟨steps, rfl⟩ : ∃ n, steps = n + 1 := ⟨steps - 1, by omega⟩
    rw [List.append_assoc, List.append_assoc, List.singleton_append, readSequence,
      hitems.read a text h (by omega) _ (stops_space hspace hclose.isDigit rest)]
    simp only [Option.bind_eq_bind, Option.bind_some, skip_space hspace hclose.isSpace, if_true]
  | @more a as text space space' cs h hspace hspace' hrest ih =>
    simp only [List.length_append, List.length_cons] at hlength hsteps
    obtain ⟨steps, rfl⟩ : ∃ n, steps = n + 1 := ⟨steps - 1, by omega⟩
    obtain ⟨c, cs', hcs, hc, -⟩ := hrest.exists_head hitems
    have hbehind : skip (space' ++ (cs ++ rest)) = cs ++ rest := by
      rw [hcs, List.cons_append]
      exact skip_space hspace' hc _
    rw [List.append_assoc, List.append_assoc, List.cons_append, List.append_assoc, readSequence,
      hitems.read a text h (by omega) _ (stops_space hspace (by decide) _)]
    simp only [Option.bind_eq_bind, Option.bind_some,
      skip_space (c := ',') hspace (by decide), if_neg hclose.ne_comma.symm, if_true, hbehind,
      ih (by omega) (by omega : cs.length ≤ steps)]
    rfl

/-- What stands between brackets is read item by item, if each item is. -/
theorem readEnclosed_of_isEnclosed {length : Nat} (hclose : Closing close)
    (hitems : ReadsItems element read close length) (h : IsEnclosed element close as cs)
    (hlength : cs.length ≤ length) (hsteps : cs.length ≤ steps) (rest : List Char) :
    readEnclosed read close steps (cs ++ rest) = some (as, rest) := by
  cases h with
  | none hspace =>
    rw [List.append_assoc, List.singleton_append, readEnclosed, skip_space hspace hclose.isSpace]
    exact if_pos rfl
  | @some as space cs hspace h =>
    rw [List.length_append] at hlength hsteps
    obtain ⟨c, cs', hcs, hc, hne⟩ := h.exists_head hitems
    have hskip : skip (space ++ (cs ++ rest)) = cs ++ rest := by
      rw [hcs, List.cons_append]
      exact skip_space hspace hc _
    have hhead : (cs ++ rest).head? ≠ Option.some close := by
      rw [hcs]
      simpa using hne
    rw [List.append_assoc, readEnclosed, hskip, if_neg hhead]
    exact readSequence_of_isSequence hclose hitems h (by omega) (by omega) rest

end

/-! ### Values -/

/-- Members are read if values are. -/
theorem readMember_of_isMember {read : Reader Value} {length steps : Nat}
    (hread : ∀ v text, IsValue v text → text.length ≤ length → ∀ rest, Stops rest →
      read (text ++ rest) = some (v, rest))
    {p : String × Value} {cs rest : List Char} (h : IsMember IsValue p cs)
    (hlength : cs.length ≤ length) (hsteps : cs.length ≤ steps) (hrest : Stops rest) :
    readMember read steps (cs ++ rest) = some (p, rest) := by
  cases h with
  | @mk key v ks space space' text hkey hspace hspace' hv =>
    simp only [List.length_append, List.length_cons] at hlength hsteps
    obtain ⟨c, cs', htext, hc, -⟩ := hv.exists_head
    have hbehind : skip (space' ++ (text ++ rest)) = text ++ rest := by
      rw [htext, List.cons_append]
      exact skip_space hspace' hc _
    rw [List.cons_append, List.append_assoc, List.cons_append, List.append_assoc, List.cons_append,
      List.append_assoc, readMember, if_pos rfl, readString_of_isString hkey (by omega)]
    simp only [Option.bind_eq_bind, Option.bind_some, skip_space (c := ':') hspace (by decide),
      if_true, hbehind, hread v text hv (by omega) rest hrest, String.ofList_toList]
    rfl

/-- The reader reads what the grammar derives, if it may take as many steps as there are
characters. -/
theorem readValue_of_isValue {v : Value} {cs rest : List Char} {steps : Nat} (h : IsValue v cs)
    (hsteps : cs.length ≤ steps) (hrest : Stops rest) :
    readValue steps (cs ++ rest) = some (v, rest) := by
  induction steps generalizing v cs rest with
  | zero =>
    obtain ⟨c, cs', rfl, -⟩ := h.exists_head
    cases hsteps
  | succ steps ih =>
    have hread : ∀ v text, IsValue v text → text.length ≤ steps → ∀ rest, Stops rest →
        readValue steps (text ++ rest) = some (v, rest) :=
      fun v text hv hlength rest hstops => ih hv hlength hstops
    cases h with
    | null => rfl
    | @string s cs h =>
      simp only [List.length_append, List.length_cons, List.length_nil] at hsteps
      rw [List.cons_append, List.append_assoc, List.singleton_append, readValue, if_pos rfl,
        readString_of_isString h (by omega), Option.map_some, String.ofList_toList]
    | @number n digits h =>
      obtain ⟨d, ds, rfl⟩ := List.exists_cons_of_ne_nil h.ne_nil
      have hd := h.isDigit d List.mem_cons_self
      have hne : ∀ c, c.isDigit = false → d ≠ c := by
        rintro c hc rfl
        rw [hc] at hd
        cases hd
      rw [List.cons_append, readValue, if_neg (hne _ (by decide)), if_neg (hne _ (by decide)),
        if_neg (hne _ (by decide)), if_neg, ← List.cons_append, readNatural_of_isNatural h hrest]
      · rfl
      · intro hnull
        exact hne 'n' (by decide) (List.cons.inj hnull).1
    | @array items cs h =>
      have hitems : ReadsItems IsValue (readValue steps) ']' steps :=
        ⟨fun v text hv => hv.exists_head, hread⟩
      have hle := Nat.le_of_succ_le_succ hsteps
      rw [List.cons_append, readValue, if_neg (by decide), if_pos rfl,
        readEnclosed_of_isEnclosed ⟨by decide, by decide, by decide⟩ hitems h hle hle]
      rfl
    | @object members cs h =>
      have hitems :
          ReadsItems (IsMember IsValue) (readMember (readValue steps) steps) '}' steps := by
        constructor
        · rintro p text ⟨-, -, -, -⟩
          exact ⟨'"', _, rfl, by decide, by decide⟩
        · intro p text hp hlength rest hstops
          exact readMember_of_isMember hread hp hlength hlength hstops
      have hle := Nat.le_of_succ_le_succ hsteps
      rw [List.cons_append, readValue, if_neg (by decide), if_neg (by decide), if_pos rfl,
        readEnclosed_of_isEnclosed ⟨by decide, by decide, by decide⟩ hitems h hle hle]
      rfl

end ScriptHints.Json
