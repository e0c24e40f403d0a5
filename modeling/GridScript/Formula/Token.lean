import GridScript.Formula.Basic
import GridScript.Text.Blank
import GridScript.Text.Letter

/-!
# Tokens of formulas

A formula is first cut into tokens. Every token comes with the characters it was
read from, so that the place of an error can be told in bytes from the start.
-/

namespace GridScript

/-- The smallest meaningful piece of a formula. -/
inductive Token where
  | number (value : Number)
  | text (content : String)
  | bool (value : Bool)
  | name (content : String)
  | op (operator : BinaryOp)
  | not
  | leftParen | rightParen | leftSquare | rightSquare | comma
  deriving DecidableEq

namespace Token

/-- A token as messages show it. -/
def shown : Token → String
  | .number value => value.text
  | .text content => Text.quoted content
  | .bool true => "true"
  | .bool false => "false"
  | .name content => content
  | .op operator => operator.symbol
  | .not => "!"
  | .leftParen => "("
  | .rightParen => ")"
  | .leftSquare => "["
  | .rightSquare => "]"
  | .comma => ","

/-- The greatest number of tokens in a formula. -/
def limit : Nat :=
  1024

/-- A token, the characters it was read from, and what follows them. -/
structure Lexeme where
  /-- The token. -/
  token : Token
  /-- The characters it was read from. -/
  source : List Char
  /-- The characters after it. -/
  rest : List Char

/-- The size of characters in bytes. -/
def byteSize (cs : List Char) : Nat :=
  cs.foldl (fun n c => n + c.utf8Size) 0

/-- A character of a number. -/
def inNumber (c : Char) : Bool :=
  c.isDigit || c == '.'

/-- A character that may start a name. -/
def startsName (c : Char) : Bool :=
  Text.isAlphabetic c || c == '_'

/-- A character that may continue a name. -/
def inName (c : Char) : Bool :=
  Text.isAlphanumeric c || c == '_'

/-- The token of a word; some words are operators or truth values. -/
def ofWord (word : String) : Token :=
  match word with
  | "and" => .op .and
  | "or" => .op .or
  | "not" => .not
  | "true" => .bool true
  | "false" => .bool false
  | word => .name word

/-- The token of a character that stands for itself. -/
def ofSymbol? : Char → Option Token
  | '+' => some (.op .add)
  | '-' => some (.op .sub)
  | '*' => some (.op .mul)
  | '/' => some (.op .div)
  | '%' => some (.op .mod)
  | '^' => some (.op .pow)
  | '(' => some .leftParen
  | ')' => some .rightParen
  | '[' => some .leftSquare
  | ']' => some .rightSquare
  | ',' => some .comma
  | _ => none

/-- A character that a following one may extend to a longer operator. -/
def startsOperator (c : Char) : Bool :=
  c == '=' || c == '!' || c == '<' || c == '>' || c == '&' || c == '|'

/-- Whether `second` extends the operator that starts with `first`: an equals
sign always does, and some characters may be doubled. -/
def extendsOperator (first second : Char) : Bool :=
  second == '=' || (second == first && (first == '&' || first == '|'))

/-- The token of an operator that starts with `first`, extended or not. -/
def ofOperator? (first : Char) (extended : Bool) : Option Token :=
  match first, extended with
  | '=', _ => some (.op .eq)
  | '!', true => some (.op .ne)
  | '!', false => some .not
  | '<', false => some (.op .lt)
  | '<', true => some (.op .le)
  | '>', false => some (.op .gt)
  | '>', true => some (.op .ge)
  | '&', true => some (.op .and)
  | '|', true => some (.op .or)
  | _, _ => none

/-- The token that starts with the character `c`, which is not blank and stands
`offset` bytes after the start. -/
def scan (offset : Nat) (c : Char) (rest : List Char) : Except FormulaError Lexeme :=
  if inNumber c then
    let source := c :: rest.takeWhile inNumber
    match Number.parse? (String.ofList source) with
    | some value => .ok ⟨.number value, source, rest.dropWhile inNumber⟩
    | none => .error (.badNumber (String.ofList source))
  else if c == '"' || c.toNat == 39 then
    let content := rest.takeWhile (· != c)
    match rest.dropWhile (· != c) with
    | [] => .error (.unterminatedText offset)
    | close :: rest => .ok ⟨.text (String.ofList content), c :: content ++ [close], rest⟩
  else if startsName c then
    let source := c :: rest.takeWhile inName
    .ok ⟨ofWord (String.ofList source), source, rest.dropWhile inName⟩
  else
    match ofSymbol? c with
    | some token => .ok ⟨token, [c], rest⟩
    | none =>
      if startsOperator c then
        let (extension, after) :=
          match rest with
          | d :: after => if extendsOperator c d then ([d], after) else ([], rest)
          | [] => ([], [])
        match ofOperator? c (!extension.isEmpty) with
        | some token => .ok ⟨token, c :: extension, after⟩
        | none => .error (.unexpectedChar c offset)
      else .error (.unexpectedChar c offset)

/-- The tokens of the characters that start `offset` bytes after the start, when
`count` tokens stand before them. -/
def scanAll : (fuel offset count : Nat) → List Char → Except FormulaError (List Token)
  | 0, _, _, _ => .ok []
  | _ + 1, _, _, [] => .ok []
  | fuel + 1, offset, count, c :: rest =>
    if Text.isBlank c then scanAll fuel (offset + c.utf8Size) count rest
    else do
      let lexeme ← scan offset c rest
      if limit ≤ count then .error (.tooLong limit)
      else
        let tokens ← scanAll fuel (offset + byteSize lexeme.source) (count + 1) lexeme.rest
        .ok (lexeme.token :: tokens)

/-- The tokens of a formula. -/
def tokenize (source : String) : Except FormulaError (List Token) :=
  scanAll source.toList.length 0 0 source.toList

end Token

end GridScript
