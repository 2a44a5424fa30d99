import Mathlib
import ScriptHints.Proofs.Analysis.Study
import ScriptHints.Proofs.Token.Grammar

/-!
# The grammar of numbers

An expression is a number if it is written as one: an operand, an operand behind a minus sign, or
operands with arithmetic signs between them. The type of an expression is found by looking at its
length and at every other token; the grammar builds it up from the left and counts nothing.

* `Token.Stands` — a token stands for a value of a type.
* `Chain`, `Numeric` — the grammar.
* `isSumOfNumbers_append`, `Chain.cons` — the two ways of building up a chain come to the same.
* `chain_iff` — what is recognized as numbers with signs between them is a chain.
* `expressionType_recognizes_grammar` — the type of an expression, by the grammar.
-/

namespace ScriptHints

/-! ### The grammar -/

section

variable (hints : HintTable ValueType)

/-- The token stands for a value of a type: it is a literal of that type, or a local variable that
is hinted with it. -/
inductive Token.Stands (t : Token) : ValueType → Prop
  | number (h : t.category = .number) : Stands t .number
  | text (h : t.category = .text) : Stands t .text
  | boolean {value : Bool} (h : t.category = .boolean value) : Stands t .boolean
  | var {type : ValueType} (h : t.category = .var)
      (hhint : hints.lookup (String.ofList t.inner) = .ok (some type)) : Stands t type

/-- The token is one of the given signs. -/
def Token.IsSign (signs : List Char) (t : Token) : Prop :=
  t.category = .symbol ∧ ∃ c ∈ signs, t.chars = [c]

/-- Operands with arithmetic signs between them, at least two. -/
inductive Chain : List Token → Prop
  | pair {t sign u : Token} (ht : t.Stands hints .number) (hsign : sign.IsSign ['+', '-', '*', '/'])
      (hu : u.Stands hints .number) : Chain [t, sign, u]
  | more {ts : List Token} {sign u : Token} (h : Chain ts)
      (hsign : sign.IsSign ['+', '-', '*', '/']) (hu : u.Stands hints .number) :
      Chain (ts ++ [sign, u])

/-- Expressions that are written as numbers. -/
inductive Numeric : List Token → Prop
  | operand {t : Token} (ht : t.Stands hints .number) : Numeric [t]
  | negative {sign t : Token} (hsign : sign.IsSign ['-']) (ht : t.Stands hints .number) :
      Numeric [sign, t]
  | chain {ts : List Token} (h : Chain hints ts) : Numeric ts

end

section

variable {hints : HintTable ValueType} {ts : List Token} {t u sign : Token}

/-! ### Single tokens -/

/-- The type of a token that says anything is the type it stands for. -/
theorem typeOfTerm_eq_iff {type : ValueType} (htype : type ≠ .object) :
    typeOfTerm hints.find? t = type ↔ t.Stands hints type := by
  constructor
  · intro h
    unfold typeOfTerm at h
    split at h
    · exact h ▸ .number ‹_›
    · exact h ▸ .text ‹_›
    · exact h ▸ .boolean ‹_›
    · split_ifs at h with hlocal
      · apply Token.Stands.var ‹_›
        cases hfind : hints.find? (String.ofList t.inner) with
        | none =>
          rw [hfind] at h
          exact absurd h.symm htype
        | some found =>
          rw [hfind] at h
          rw [lookup_eq_ok hlocal, hfind]
          exact congrArg (fun v => Except.ok (some v)) h
      · exact absurd h.symm htype
    · exact absurd h.symm htype
  · intro h
    unfold typeOfTerm
    cases h with
    | number h => rw [h]
    | text h => rw [h]
    | boolean h => rw [h]
    | var h hhint =>
      rw [h]
      by_cases hlocal : isLocal (String.ofList t.inner) = true
      · rw [lookup_eq_ok hlocal] at hhint
        simp [hlocal, Except.ok.inj hhint]
      · rw [HintTable.lookup, if_neg hlocal] at hhint
        cases hhint

/-- The operators are the four arithmetic signs. -/
theorem isOperator_iff : sign.isOperator = true ↔ sign.IsSign ['+', '-', '*', '/'] := by
  simp [Token.isOperator, Token.IsSign]

/-- Among the tokens of a script, a minus sign is known by its text alone. -/
theorem isMinus_iff {source : String} {tokens : List Token} (h : tokenize source = .ok tokens)
    (hsign : sign ∈ tokens) : sign.isMinus = true ↔ sign.IsSign ['-'] := by
  have hchars : sign.isMinus = true ↔ sign.chars = ['-'] := by simp [Token.isMinus]
  rw [hchars]
  constructor
  · intro hminus
    obtain ⟨after, -, hlexeme⟩ := isLexeme_of_tokenize h hsign
    rw [hminus] at hlexeme
    refine ⟨?_, '-', List.mem_cons_self, hminus⟩
    generalize sign.category = category at hlexeme
    generalize htext : ['-'] = text at hlexeme
    cases hlexeme with
    | symbol => rfl
    | word hc =>
      obtain ⟨rfl, -⟩ := List.cons.inj htext
      exact absurd hc (by decide)
    | number hn =>
      obtain ⟨c, cs, hcs, hdigit⟩ := hn.starts []
      rw [← htext] at hcs
      obtain ⟨rfl, -⟩ := List.cons.inj hcs
      exact absurd hdigit (by decide)
    | _ => cases htext
  · rintro ⟨-, c, hc, hminus⟩
    rwa [List.mem_singleton.1 hc] at hminus

/-! ### Chains -/

/-- Numbers with signs between them may be followed by a further sign and number. -/
theorem isSumOfNumbers_append (env : String → Option ValueType) (ts : List Token)
    (sign u : Token) :
    isSumOfNumbers env (ts ++ [sign, u]) =
      (isSumOfNumbers env ts && (sign.isOperator && typeOfTerm env u == .number)) := by
  induction ts using isSumOfNumbers.induct with
  | case1 =>
    show (_ && isSumOfNumbers env []) = (isSumOfNumbers env [] && _)
    rw [isSumOfNumbers, Bool.and_false, Bool.false_and]
  | case2 t =>
    show (typeOfTerm env t == .number && sign.isOperator && (typeOfTerm env u == .number)) = _
    rw [isSumOfNumbers, Bool.and_assoc]
  | case3 t sign' ts ih =>
    rw [List.cons_append, List.cons_append, isSumOfNumbers, ih, isSumOfNumbers, Bool.and_assoc _ _
      (sign.isOperator && _)]

/-- A chain may also be begun one operand earlier. -/
theorem Chain.cons (h : Chain hints ts) (ht : t.Stands hints .number)
    (hsign : sign.IsSign ['+', '-', '*', '/']) : Chain hints (t :: sign :: ts) := by
  induction h with
  | pair hu hsign' hv => exact .more (.pair ht hsign hu) hsign' hv
  | more _ hsign' hu ih => exact .more ih hsign' hu

/-- A chain has at least two operands, and one sign less than operands. -/
theorem Chain.hasArithmeticLength (h : Chain hints ts) : hasArithmeticLength ts = true := by
  induction h with
  | pair => simp [ScriptHints.hasArithmeticLength]
  | more _ _ _ ih =>
    simp only [ScriptHints.hasArithmeticLength, Bool.and_eq_true, decide_eq_true_eq, beq_iff_eq,
      List.length_append, List.length_cons, List.length_nil] at ih ⊢
    omega

/-- Numbers with signs between them, at least two, are a chain. -/
theorem chain_of_isSumOfNumbers (h : isSumOfNumbers hints.find? ts = true)
    (hlength : 3 ≤ ts.length) : Chain hints ts := by
  induction ts using isSumOfNumbers.induct with
  | case1 => exact absurd hlength (by decide)
  | case2 t => exact absurd hlength (by simp)
  | case3 t sign ts ih =>
    rw [isSumOfNumbers, Bool.and_eq_true, Bool.and_eq_true, beq_iff_eq,
      typeOfTerm_eq_iff (by decide), isOperator_iff] at h
    obtain ⟨⟨ht, hsign⟩, hrest⟩ := h
    -- behind the sign there is one more operand or a chain
    rcases ts with _ | ⟨u, _ | ⟨v, _ | ⟨w, ts⟩⟩⟩
    · cases hrest
    · rw [isSumOfNumbers, beq_iff_eq, typeOfTerm_eq_iff (by decide)] at hrest
      exact .pair ht hsign hrest
    · simp [isSumOfNumbers] at hrest
    · exact (ih hrest (by simp)).cons ht hsign

/-- What is recognized as numbers with signs between them is a chain. -/
theorem chain_iff :
    (hasArithmeticLength ts && isSumOfNumbers hints.find? ts) = true ↔ Chain hints ts := by
  constructor
  · intro h
    rw [Bool.and_eq_true, hasArithmeticLength, Bool.and_eq_true, decide_eq_true_eq] at h
    exact chain_of_isSumOfNumbers h.2 h.1.1
  · intro h
    rw [h.hasArithmeticLength, Bool.true_and]
    induction h with
    | pair ht hsign hu =>
      simp [isSumOfNumbers, (typeOfTerm_eq_iff (by decide)).2 ht, isOperator_iff.2 hsign,
        (typeOfTerm_eq_iff (by decide)).2 hu]
    | more _ hsign hu ih =>
      rw [isSumOfNumbers_append, ih, isOperator_iff.2 hsign,
        (typeOfTerm_eq_iff (by decide)).2 hu]
      rfl

/-! ### Expressions -/

/-- A single token is a number if it stands for one. -/
theorem numeric_single_iff : Numeric hints [t] ↔ t.Stands hints .number := by
  constructor
  · intro h
    cases h with
    | operand ht => exact ht
    | chain h => simpa [hasArithmeticLength] using h.hasArithmeticLength
  · exact .operand

/-- Two tokens are a number if the first is a minus sign and the second stands for a number. -/
theorem numeric_pair_iff :
    Numeric hints [sign, t] ↔ sign.IsSign ['-'] ∧ t.Stands hints .number := by
  constructor
  · intro h
    cases h with
    | negative hsign ht => exact ⟨hsign, ht⟩
    | chain h => simpa [hasArithmeticLength] using h.hasArithmeticLength
  · rintro ⟨hsign, ht⟩
    exact .negative hsign ht

/-- The last token of a number is an operand. -/
theorem Numeric.exists_last (h : Numeric hints ts) :
    ∃ t, ts.getLast? = some t ∧ t.Stands hints .number := by
  cases h with
  | operand ht => exact ⟨_, rfl, ht⟩
  | negative _ ht => exact ⟨_, rfl, ht⟩
  | chain h =>
    cases h with
    | pair _ _ hu => exact ⟨_, rfl, hu⟩
    | more _ _ hu => exact ⟨_, by simp, hu⟩

/-- An even number of tokens is a number only behind a minus sign. -/
theorem Numeric.exists_negative (h : Numeric hints ts) (heven : ts.length % 2 = 0) :
    ∃ sign t, ts = [sign, t] ∧ sign.IsSign ['-'] ∧ t.Stands hints .number := by
  cases h with
  | operand ht => cases heven
  | negative hsign ht => exact ⟨_, _, rfl, hsign, ht⟩
  | chain h =>
    have hodd := h.hasArithmeticLength
    simp [hasArithmeticLength, heven] at hodd

/-- The expressions of type number are those that are written as numbers. -/
theorem typeOfValue_eq_number_iff {source : String} {tokens : List Token}
    (h : tokenize source = .ok tokens) (hts : ∀ t ∈ ts, t ∈ tokens) :
    typeOfValue hints.find? ts = .number ↔ Numeric hints ts := by
  unfold typeOfValue
  split
  · rw [numeric_single_iff, typeOfTerm_eq_iff (by decide)]
  · rename_i sign t
    rw [numeric_pair_iff, ← typeOfTerm_eq_iff (by decide), ← isMinus_iff h (hts sign (by simp))]
    simp
  · rename_i hsingle hpair
    have hnumeric : Numeric hints ts ↔ Chain hints ts := by
      refine ⟨?_, .chain⟩
      intro hn
      cases hn with
      | operand => exact absurd rfl (hsingle _)
      | negative => exact absurd rfl (hpair _ _)
      | chain hc => exact hc
    rw [hnumeric, ← chain_iff]
    simp

/-- The expressions of another type are single tokens. -/
theorem typeOfValue_eq_iff_single {type : ValueType} (hobject : type ≠ .object)
    (hnumber : type ≠ .number) :
    typeOfValue hints.find? ts = type ↔ ∃ t, ts = [t] ∧ t.Stands hints type := by
  unfold typeOfValue
  split
  · rw [typeOfTerm_eq_iff hobject]
    simp
  · split_ifs <;> simp [hobject.symm, hnumber.symm]
  · rename_i hsingle _
    have hnone : ¬∃ t, ts = [t] ∧ t.Stands hints type := by
      rintro ⟨t, rfl, -⟩
      exact hsingle t rfl
    split_ifs <;> simp [hobject.symm, hnumber.symm, hnone]

/-- A colon stands for nothing. -/
theorem Token.Stands.ne_colon {type : ValueType} (h : t.Stands hints type) :
    t.category ≠ .colon := by
  intro hcolon
  cases h <;> simp_all

end

/-- What the type of an expression says about the expression. -/
structure ValueType.Describes (hints : HintTable ValueType) (ts : List Token) (type : ValueType) :
    Prop where
  number : type = .number ↔ Numeric hints ts
  text : type = .text ↔ ∃ t, ts = [t] ∧ t.Stands hints .text
  boolean : type = .boolean ↔ ∃ t, ts = [t] ∧ t.Stands hints .boolean
  /-- It may be any object if it is nothing of these. -/
  object : type = .object ↔ ¬Numeric hints ts ∧
    ¬∃ t, ts = [t] ∧ (t.Stands hints .text ∨ t.Stands hints .boolean)
  /-- Nothing is some object, -/
  empty : ts = [] → type = .object
  /-- and so is everything of even length but an operand behind a minus sign, -/
  even : ts.length % 2 = 0 →
    (¬∃ sign t, ts = [sign, t] ∧ sign.IsSign ['-'] ∧ t.Stands hints .number) → type = .object
  /-- and what ends with a colon. -/
  colon : ∀ t, ts.getLast? = some t → t.category = .colon → type = .object

/-- The type of an expression made of tokens of a script is always found, whatever is hinted. It is a
number exactly where it is written as one. -/
theorem expressionType_recognizes_grammar (hints : HintTable ValueType) {source : String}
    {tokens ts : List Token} (h : tokenize source = .ok tokens) (hts : ∀ t ∈ ts, t ∈ tokens) :
    ∃ type, expressionType hints ts = .ok type ∧ type.Describes hints ts := by
  refine ⟨typeOfValue hints.find? ts, expressionType_eq hints ts, ?_⟩
  have hnumber : typeOfValue hints.find? ts = .number ↔ Numeric hints ts :=
    typeOfValue_eq_number_iff h hts
  have htext : typeOfValue hints.find? ts = .text ↔ ∃ t, ts = [t] ∧ t.Stands hints .text :=
    typeOfValue_eq_iff_single (by decide) (by decide)
  have hboolean : typeOfValue hints.find? ts = .boolean ↔
      ∃ t, ts = [t] ∧ t.Stands hints .boolean :=
    typeOfValue_eq_iff_single (by decide) (by decide)
  generalize typeOfValue hints.find? ts = type at hnumber htext hboolean
  have hobject : type = .object ↔ ¬Numeric hints ts ∧
      ¬∃ t, ts = [t] ∧ (t.Stands hints .text ∨ t.Stands hints .boolean) := by
    simp only [and_or_left, exists_or, ← hnumber, ← htext, ← hboolean]
    cases type <;> decide
  refine ⟨hnumber, htext, hboolean, hobject, ?_, ?_, ?_⟩
  · rintro rfl
    refine hobject.2 ⟨fun hn => ?_, by simp⟩
    obtain ⟨t, hlast, -⟩ := hn.exists_last
    cases hlast
  · intro heven hnegative
    refine hobject.2 ⟨fun hn => hnegative (hn.exists_negative heven), ?_⟩
    rintro ⟨t, rfl, -⟩
    cases heven
  · intro t hlast hcolon
    refine hobject.2 ⟨?_, ?_⟩
    · intro hn
      obtain ⟨u, hlast', hu⟩ := hn.exists_last
      obtain rfl := Option.some.inj (hlast.symm.trans hlast')
      exact hu.ne_colon hcolon
    · rintro ⟨u, rfl, hu⟩
      obtain rfl := Option.some.inj hlast
      rcases hu with hu | hu <;> exact hu.ne_colon hcolon

/-- A product and a difference, of a variable that is hinted as a number. -/
theorem expressionType_recognizes_grammar_signs :
    ∃ tokens type, tokenize "\x7b_n\x7d * 2 - \x7b_n\x7d" = .ok tokens ∧
      expressionType (HintTable.insert {} "_n" .number) tokens = .ok type ∧ type = .number ∧
      Numeric (HintTable.insert {} "_n" .number) tokens := by
  have htokens : tokenize "\x7b_n\x7d * 2 - \x7b_n\x7d" = .ok
      [⟨.var, 0, [], ['{', '_', 'n', '}']⟩, ⟨.symbol, 4, [' '], ['*']⟩,
        ⟨.number, 6, [' '], ['2']⟩, ⟨.symbol, 8, [' '], ['-']⟩,
        ⟨.var, 10, [' '], ['{', '_', 'n', '}']⟩] := by cbv
  obtain ⟨type, htype, hdescribes⟩ :=
    expressionType_recognizes_grammar (HintTable.insert {} "_n" .number) htokens fun _ ht => ht
  have hnumber : type = .number := Except.ok.inj (htype.symm.trans (by decide))
  exact ⟨_, type, htokens, htype, hnumber, hdescribes.number.1 hnumber⟩

end ScriptHints
