import ScriptHints.Analysis

/-!
# What a line says under given hints

Reading a line asks the hint table questions and may, by its type, fail: a name that is not local is
no name to look up, the empty name is no name to record. This file shows that it never does. What a
line says is a plain function of the line and of the hints its names have, written `env` here: a
function from names to hints, with no table behind it.

* `typeOfTerm`, `typeOfValue` — the type of a token and of an expression under `env`.
* `references`, `assignedHint`, `lineEntries` — the entries of a line under `env`.
* `HintTable.afterLine` — the table after a line.
* `studyLine_eq` — reading a line succeeds and gives exactly these.
* `cases_of_mem_lineEntries` — what the entries of a line say.
* `KeepsWords` — tokens are put elsewhere, but keep their words; the statement of a line and the
  types of expressions stay what they are.
-/

namespace ScriptHints

section

variable (env : String → Option ValueType)

/-! ### Types under an environment -/

/-- The type of a single token. A local variable without a hint may be any object, and so may a
global one. -/
def typeOfTerm (t : Token) : ValueType :=
  match t.category with
  | .number => .number
  | .text => .text
  | .boolean _ => .boolean
  | .var => if isLocal (String.ofList t.inner) then (env (String.ofList t.inner)).getD .object
    else .object
  | _ => .object

/-- Whether the tokens are numbers with arithmetic signs between them. -/
def isSumOfNumbers : List Token → Bool
  | [] => false
  | [t] => typeOfTerm env t == .number
  | t :: sign :: ts => typeOfTerm env t == .number && sign.isOperator && isSumOfNumbers ts

/-- The type of an expression. -/
def typeOfValue : List Token → ValueType
  | [t] => typeOfTerm env t
  | [sign, t] => if sign.isMinus && typeOfTerm env t == .number then .number else .object
  | ts => if hasArithmeticLength ts && isSumOfNumbers env ts then .number else .object

/-! ### Entries under an environment -/

/-- The entries for the local variables among the uses on a line. -/
def references (line : Nat) (uses : List Use) : List Entry :=
  (uses.filter Use.isLocal).map fun u => ⟨u.name, .reference, env u.name, line, u.span⟩

/-- The hint of a variable that is assigned a value: the type of the value where that says anything,
and the hint the variable had before otherwise. -/
def assignedHint (name : String) (value : List Token) : Option ValueType :=
  if typeOfValue env value = .object then env name else some (typeOfValue env value)

/-- The entries of a line. -/
def lineEntries (line : Line) : List Entry :=
  match line.statement with
  | .other tokens => references env line.number (tokens.flatMap Token.uses)
  | .assignment target value =>
    let name := String.ofList target.inner
    references env line.number (target.uses.drop 1 ++ value.flatMap Token.uses) ++
      if isLocal name then
        [⟨name, .assignment, assignedHint env name value, line.number, target.span⟩]
      else []

end

/-- The table after a line whose hints were those of the table before it. -/
def HintTable.afterLine (hints : HintTable ValueType) (line : Line) : HintTable ValueType :=
  match line.statement with
  | .other _ => hints
  | .assignment target value =>
    let name := String.ofList target.inner
    if isLocal name ∧ typeOfValue hints.find? value ≠ .object then
      hints.insert name (typeOfValue hints.find? value)
    else hints

/-! ### Looking up and recording never fail -/

/-- Looking up a local variable gives the hint that is found. -/
theorem lookup_eq_ok {hints : HintTable ValueType} {name : String} (h : isLocal name = true) :
    hints.lookup name = .ok (hints.find? name) := by
  rw [HintTable.lookup, if_pos h]

/-- A local variable has a name. -/
theorem ne_empty_of_isLocal {name : String} (h : isLocal name = true) : name ≠ "" := by
  rintro rfl
  simp [isLocal] at h

/-- Recording a hint for a local variable succeeds. -/
theorem record_eq_ok {hints : HintTable ValueType} {name : String} (h : isLocal name = true)
    (type : ValueType) :
    hints.record name type = .ok (if type = .object then hints else hints.insert name type) := by
  rw [HintTable.record, if_neg (ne_empty_of_isLocal h)]
  by_cases ht : type = .object
  · subst ht
    rfl
  · rw [if_neg (by simpa [Hintable.isUnknown] using ht), if_neg ht]

/-- Typing a token asks the table for nothing but the hints it finds. -/
theorem termType_eq (hints : HintTable ValueType) (t : Token) :
    termType hints t = .ok (typeOfTerm hints.find? t) := by
  unfold termType typeOfTerm
  cases t.category with
  | var =>
    by_cases h : isLocal (String.ofList t.inner) = true
    · simp only [if_pos h, lookup_eq_ok h]
      rfl
    · simp only [if_neg h]
  | _ => rfl

/-- A token counts as a number exactly if it is typed as one. -/
theorem isNumber_eq (hints : HintTable ValueType) (t : Token) :
    isNumber hints t = .ok (typeOfTerm hints.find? t == .number) := by
  rw [isNumber, termType_eq]
  rfl

/-- The test for arithmetic never fails and tests for a sum of numbers. -/
theorem isArithmetic_eq (hints : HintTable ValueType) (ts : List Token) :
    isArithmetic hints ts = .ok (isSumOfNumbers hints.find? ts) := by
  induction ts using isArithmetic.induct with
  | case1 => rfl
  | case2 t =>
    rw [isArithmetic, isNumber_eq]
    rfl
  | case3 t sign ts ih =>
    rw [isArithmetic, isNumber_eq, isSumOfNumbers]
    by_cases h : (typeOfTerm hints.find? t == .number && sign.isOperator) = true
    · rw [h, Bool.true_and, ← ih]
      show (if _ then _ else _) = _
      rw [if_pos h]
    · rw [Bool.eq_false_iff.2 h, Bool.false_and]
      show (if _ then _ else _) = _
      rw [if_neg h]

/-- Typing an expression succeeds and depends on the hints of its names only. -/
theorem expressionType_eq (hints : HintTable ValueType) (ts : List Token) :
    expressionType hints ts = .ok (typeOfValue hints.find? ts) := by
  unfold expressionType
  split
  · exact termType_eq hints _
  · rename_i hne
    unfold isNumeric
    split
    · rename_i sign t
      rw [typeOfValue]
      by_cases h : sign.isMinus = true
      · rw [if_pos h, isNumber_eq, h, Bool.true_and]
        rfl
      · rw [if_neg h, Bool.eq_false_iff.2 h, Bool.false_and]
        rfl
    · rename_i hne'
      rw [typeOfValue]
      · by_cases h : hasArithmeticLength ts = true
        · rw [if_pos h, isArithmetic_eq, h, Bool.true_and]
          rfl
        · rw [if_neg h, Bool.eq_false_iff.2 h, Bool.false_and]
          rfl
      · exact hne
      · exact hne'

/-! ### Reading a line never fails -/

/-- Looking up the uses on a line never fails and gives a reference for each. -/
theorem resolve_eq (hints : HintTable ValueType) (line : Nat) (uses : List Use) :
    resolve hints line uses = .ok (references hints.find? line uses) := by
  unfold resolve references
  induction uses with
  | nil => rfl
  | cons u uses ih =>
    by_cases h : u.isLocal = true
    · rw [List.filter_cons_of_pos h, List.mapM_cons, lookup_eq_ok h, ih]
      rfl
    · rw [List.filter_cons_of_neg h, ih]

/-- Assigning to a local variable never fails; a type that says nothing leaves the older hint in
place. -/
theorem assign_eq {hints : HintTable ValueType} {line : Nat} {target : Token}
    (h : isLocal (String.ofList target.inner) = true) (type : ValueType) :
    assign hints line target type =
      .ok (⟨String.ofList target.inner, .assignment,
          if type = .object then hints.find? (String.ofList target.inner) else some type,
          line, target.span⟩,
        if type = .object then hints else hints.insert (String.ofList target.inner) type) := by
  unfold assign
  simp only [record_eq_ok h]
  by_cases ht : type = .object
  · simp only [if_pos ht]
    show (((HintTable.lookup _ _).mapError _) >>= _) = _
    rw [lookup_eq_ok h]
    rfl
  · simp only [if_neg ht]
    show (((HintTable.lookup _ _).mapError _) >>= _) = _
    rw [lookup_eq_ok h, HintTable.find?_insert, if_pos rfl]
    rfl

/-- The references for uses in a row come in that row. -/
theorem references_append (env : String → Option ValueType) (line : Nat) (us vs : List Use) :
    references env line (us ++ vs) = references env line us ++ references env line vs := by
  simp [references]

/-- Reading a line succeeds: its entries and the table after it are those of the hints before
it. -/
theorem studyLine_eq (hints : HintTable ValueType) (line : Line) :
    studyLine hints line = .ok (lineEntries hints.find? line, hints.afterLine line) := by
  unfold studyLine lineEntries HintTable.afterLine
  cases line.statement with
  | other tokens =>
    simp only [resolve_eq]
    rfl
  | assignment target value =>
    simp only [resolve_eq, expressionType_eq, references_append]
    by_cases h : isLocal (String.ofList target.inner) = true
    · simp only [assign_eq h, assignedHint, h, true_and, ne_eq, ite_not]
      rfl
    · have hrecord : ¬(isLocal (String.ofList target.inner) = true ∧
          typeOfValue hints.find? value ≠ .object) := fun hr => h hr.1
      rw [if_neg h, if_neg hrecord, List.append_nil]
      show (if _ then _ else _) = _
      rw [if_neg h]
      rfl

/-! ### What the entries of a line say -/

section

variable {env : String → Option ValueType} {line : Line}

/-- A reference carries the hint for its name and the number of its line. -/
theorem role_of_mem_references {number : Nat} {uses : List Use} {e : Entry}
    (h : e ∈ references env number uses) :
    e.role = .reference ∧ e.hint = env e.name ∧ e.line = number := by
  obtain ⟨u, -, rfl⟩ := List.mem_map.1 h
  exact ⟨rfl, rfl, rfl⟩

/-- What the entries of a line say. -/
theorem cases_of_mem_lineEntries {e : Entry} (h : e ∈ lineEntries env line) :
    e.line = line.number ∧
      (e.role = .reference ∧ e.hint = env e.name ∨
        e.role = .assignment ∧ ∃ target value, line.statement = .assignment target value ∧
          e.name = String.ofList target.inner ∧ e.hint = assignedHint env e.name value) := by
  unfold lineEntries at h
  cases hs : line.statement with
  | other tokens =>
    rw [hs] at h
    obtain ⟨hrole, hhint, hline⟩ := role_of_mem_references h
    exact ⟨hline, .inl ⟨hrole, hhint⟩⟩
  | assignment target value =>
    rw [hs] at h
    rcases List.mem_append.1 h with h | h
    · obtain ⟨hrole, hhint, hline⟩ := role_of_mem_references h
      exact ⟨hline, .inl ⟨hrole, hhint⟩⟩
    · split at h
      · obtain rfl := List.mem_singleton.1 h
        exact ⟨rfl, .inr ⟨rfl, target, value, rfl, rfl, rfl⟩⟩
      · cases h

end

/-! ### Words alone matter -/

/-- The tokens are put elsewhere, but keep their words. -/
structure KeepsWords (g : Token → Token) : Prop where
  category_eq : ∀ t, (g t).category = t.category
  chars_eq : ∀ t, (g t).chars = t.chars

/-- The statement with its tokens put elsewhere. -/
def Statement.map (g : Token → Token) : Statement → Statement
  | .assignment target value => .assignment (g target) (value.map g)
  | .other tokens => .other (tokens.map g)

namespace KeepsWords

variable {g : Token → Token} (h : KeepsWords g) (env : String → Option ValueType)

include h

/-- A variable keeps the name between its braces. -/
theorem inner_eq (t : Token) : (g t).inner = t.inner := by
  rw [Token.inner, h.chars_eq, Token.inner]

/-- What a line says is said by its words. -/
theorem statement_eq {l l' : Line} (htokens : l'.tokens = l.tokens.map g) :
    l'.statement = l.statement.map g := by
  unfold Line.statement
  rw [htokens]
  rcases l.tokens with _ | ⟨a, _ | ⟨target, _ | ⟨b, value⟩⟩⟩
  · rfl
  · rfl
  · rfl
  · simp only [List.map_cons, h.category_eq]
    split <;> rfl

/-- A token keeps its type. -/
theorem typeOfTerm_eq (t : Token) : typeOfTerm env (g t) = typeOfTerm env t := by
  rw [typeOfTerm, h.category_eq, h.inner_eq, typeOfTerm]

/-- A sum of numbers stays one, and nothing else becomes one. -/
theorem isSumOfNumbers_eq (ts : List Token) :
    isSumOfNumbers env (ts.map g) = isSumOfNumbers env ts := by
  induction ts using isSumOfNumbers.induct with
  | case1 => rfl
  | case2 t =>
    rw [List.map_cons, List.map_nil, isSumOfNumbers, isSumOfNumbers, h.typeOfTerm_eq]
  | case3 t sign ts ih =>
    have hsign : (g sign).isOperator = sign.isOperator := by
      rw [Token.isOperator, h.category_eq, h.chars_eq, Token.isOperator]
    rw [List.map_cons, List.map_cons, isSumOfNumbers, isSumOfNumbers, ih, h.typeOfTerm_eq, hsign]

/-- The type of an expression does not depend on where it stands. -/
theorem typeOfValue_eq (ts : List Token) : typeOfValue env (ts.map g) = typeOfValue env ts := by
  rcases ts with _ | ⟨t, _ | ⟨t', _ | ⟨t'', ts⟩⟩⟩
  · rfl
  · exact h.typeOfTerm_eq env t
  · have hsign : (g t).isMinus = t.isMinus := by
      rw [Token.isMinus, h.chars_eq, Token.isMinus]
    simp only [List.map_cons, List.map_nil, typeOfValue, hsign, h.typeOfTerm_eq]
  · have hsum := h.isSumOfNumbers_eq env (t :: t' :: t'' :: ts)
    have hlength : hasArithmeticLength ((t :: t' :: t'' :: ts).map g) =
        hasArithmeticLength (t :: t' :: t'' :: ts) := by
      rw [hasArithmeticLength, List.length_map, hasArithmeticLength]
    simp only [List.map_cons] at hsum hlength
    simp only [List.map_cons, typeOfValue, hsum, hlength]

/-- The hints after a line do not depend on where its words stand. -/
theorem afterLine_eq {l l' : Line} (htokens : l'.tokens = l.tokens.map g)
    (hints : HintTable ValueType) : hints.afterLine l' = hints.afterLine l := by
  unfold HintTable.afterLine
  rw [h.statement_eq htokens]
  rcases l.statement with ⟨target, value⟩ | tokens
  · simp only [Statement.map, h.typeOfValue_eq, h.inner_eq]
  · rfl

end KeepsWords

end ScriptHints
