import GridScript.Formula.Token

/-!
# Reading formulas

Tokens are read by precedence: `or` binds least, then `and`, the comparisons,
sums, products, and prefixed operators; a power binds most and is right
associative. All other operators between operands are left associative. Every
nested phrase passes through a prefixed operand, and at most `maxDepth` of those
may be nested.
-/

namespace GridScript.Formula

/-- The greatest number of nested operands. -/
def maxDepth : Nat :=
  64

/-- A reader of one phrase: the formula it stands for and the tokens after it. -/
abbrev Reader :=
  List Token → Except FormulaError (Formula × List Token)

/-- The first of some operators, if it comes next. -/
def nextOp? (ops : List BinaryOp) : List Token → Option (BinaryOp × List Token)
  | .op op :: rest => if op ∈ ops then some (op, rest) else none
  | _ => none

/-- Further operands of a left-associative level, joined to what was read. -/
def joinOperands (ops : List BinaryOp) (operand : Reader) :
    (fuel : Nat) → Formula → Reader
  | 0, left, tokens => .ok (left, tokens)
  | fuel + 1, left, tokens =>
    match nextOp? ops tokens with
    | none => .ok (left, tokens)
    | some (op, rest) => do
      let (right, rest) ← operand rest
      joinOperands ops operand fuel (.binary op left right) rest

/-- Operands joined by left-associative operators. -/
def leftLevel (ops : List BinaryOp) (operand : Reader) : Reader := fun tokens => do
  let (left, rest) ← operand tokens
  joinOperands ops operand rest.length left rest

/-- A whole phrase over a reader of prefixed operands. -/
def phrase (operand : Reader) : Reader :=
  leftLevel [.or] <| leftLevel [.and] <|
    leftLevel [.eq, .ne, .lt, .le, .gt, .ge] <|
      leftLevel [.add, .sub] <| leftLevel [.mul, .div, .mod] operand

/-- The complaint about a token that cannot stand here, or about the end. -/
def unexpected {α : Type} : List Token → Except FormulaError α
  | token :: _ => .error (.unexpectedToken token.shown)
  | [] => .error .unexpectedEnd

/-- Phrases separated by commas up to a closing token. -/
def phrasesUntil (close : Token) (phrase : Reader) :
    (fuel : Nat) → List Token → Except FormulaError (List Formula × List Token)
  | 0, _ => .error .unexpectedEnd
  | fuel + 1, tokens => do
    let (item, rest) ← phrase tokens
    match rest with
    | .comma :: rest =>
      let (items, rest) ← phrasesUntil close phrase fuel rest
      .ok (item :: items, rest)
    | token :: after => if token = close then .ok ([item], after) else unexpected rest
    | [] => unexpected []

/-- A possibly empty list of phrases up to a closing token. -/
def listUntil (close : Token) (phrase : Reader) (tokens : List Token) :
    Except FormulaError (List Formula × List Token) :=
  match tokens with
  | token :: rest =>
    if token = close then .ok ([], rest) else phrasesUntil close phrase tokens.length tokens
  | [] => phrasesUntil close phrase 1 []

/-- A literal, variable, call, list or parenthesized phrase. -/
def factor (phrase : Reader) : Reader
  | .number value :: rest => .ok (.const (.number value), rest)
  | .text content :: rest => .ok (.const (.text content), rest)
  | .bool value :: rest => .ok (.const (.bool value), rest)
  | .name name :: .leftParen :: rest =>
    match FormulaFunction.ofName? name with
    | none => .error (.unknownFunction name)
    | some function => do
      let (arguments, rest) ← listUntil .rightParen phrase rest
      if function.takes arguments.length then .ok (.call function arguments, rest)
      else .error (.arity function arguments.length)
  | .name name :: rest => .ok (.var name, rest)
  | .leftParen :: rest => do
    let (inner, rest) ← phrase rest
    match rest with
    | .rightParen :: rest => .ok (inner, rest)
    | rest => unexpected rest
  | .leftSquare :: rest => do
    let (items, rest) ← listUntil .rightSquare phrase rest
    .ok (.list items, rest)
  | tokens => unexpected tokens

/-- A factor, raised to a power if one follows. -/
def power (operand phrase : Reader) : Reader := fun tokens => do
  let (base, rest) ← factor phrase tokens
  match nextOp? [.pow] rest with
  | none => .ok (base, rest)
  | some (_, rest) =>
    let (exponent, rest) ← operand rest
    .ok (.binary .pow base exponent, rest)

/-- A prefixed operand inside which `room` more may be nested. -/
def operand : (room : Nat) → Reader
  | 0, _ => .error (.tooDeep maxDepth)
  | room + 1, tokens =>
    match tokens with
    | .op .sub :: rest => do
      let (value, rest) ← operand room rest
      .ok (.unary .neg value, rest)
    | .not :: rest => do
      let (value, rest) ← operand room rest
      .ok (.unary .not value, rest)
    | tokens => power (operand room) (phrase (operand room)) tokens

/-- The formula of a complete list of tokens. -/
def ofTokens (tokens : List Token) : Except FormulaError Formula := do
  let (formula, rest) ← phrase (operand maxDepth) tokens
  if rest.isEmpty then .ok formula else unexpected rest

/-- The formula a text stands for. -/
def parse (source : String) : Except FormulaError Formula := do
  ofTokens (← Token.tokenize source)

end GridScript.Formula
