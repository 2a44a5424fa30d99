import ScriptHints.Hint.Table
import ScriptHints.Line

/-!
# Types of expressions

The type of an expression as far as its text shows it. Literals and hinted variables have a type,
a minus sign keeps a number a number, and so do sums, differences, products and quotients of
numbers. Everything else may be any object.

* `termType` — the type of a single token.
* `expressionType` — the type of an expression.
* `examinedTerms` — the tokens whose types were asked for on the way, in order.
-/

namespace ScriptHints

variable (hints : HintTable ValueType)

/-- The type of a single token. Local variables have the type they are hinted with. -/
def termType (t : Token) : Except Misuse ValueType :=
  match t.category with
  | .number => .ok .number
  | .text => .ok .text
  | .boolean _ => .ok .boolean
  | .var =>
    let name := String.ofList t.inner
    if isLocal name then (hints.lookup name).map (·.getD .object) else .ok .object
  | _ => .ok .object

/-- Whether a token is one of the four arithmetic signs. -/
def Token.isOperator (t : Token) : Bool :=
  t.category == .symbol && [['+'], ['-'], ['*'], ['/']].contains t.chars

/-- Whether a token is a minus sign. -/
def Token.isMinus (t : Token) : Bool := t.chars == ['-']

/-- Whether a single token is a number. -/
def isNumber (t : Token) : Except Misuse Bool :=
  (termType hints t).map (· == .number)

/-- Whether the tokens are numbers with arithmetic signs between them. -/
def isArithmetic : List Token → Except Misuse Bool
  | [] => .ok false
  | [t] => isNumber hints t
  | t :: sign :: ts => do
    let number ← isNumber hints t
    if number && sign.isOperator then isArithmetic ts else .ok false

/-- Whether a list of tokens is as long as numbers with signs between them are: at least two
numbers, and one sign less than numbers. -/
def hasArithmeticLength (ts : List Token) : Bool :=
  3 ≤ ts.length && ts.length % 2 == 1

/-- Whether several tokens form a number: a minus sign before a number, or numbers with arithmetic
signs between them. -/
def isNumeric : List Token → Except Misuse Bool
  | [sign, t] => if sign.isMinus then isNumber hints t else .ok false
  | ts => if hasArithmeticLength ts then isArithmetic hints ts else .ok false

/-- The type of an expression. -/
def expressionType : List Token → Except Misuse ValueType
  | [t] => termType hints t
  | ts => (isNumeric hints ts).map fun numeric => if numeric then .number else .object

/-! ## What was asked for -/

/-- The numbers among alternating numbers and signs whose types are asked for: all up to the first
place that does not fit. -/
def arithmeticTerms : List Token → List Token
  | [] => []
  | [t] => [t]
  | t :: sign :: ts =>
    match isNumber hints t with
    | .ok true => if sign.isOperator then t :: arithmeticTerms ts else [t]
    | _ => [t]

/-- The tokens of an expression whose types are asked for to tell its type. -/
def examinedTerms : List Token → List Token
  | [t] => [t]
  | [sign, t] => if sign.isMinus then [t] else []
  | ts => if hasArithmeticLength ts then arithmeticTerms hints ts else []

end ScriptHints
