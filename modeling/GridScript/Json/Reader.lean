import GridScript.Json.Numeral

/-!
# Reading documents

A strict reader of JSON text. The only input is the text and the number of
levels that may be nested; a document nested more deeply is still checked for
being well formed, but has no meaning.
-/

namespace GridScript.Json

/-- White space between the parts of a document. -/
def isGap (c : Char) : Bool :=
  c == ' ' || c == '\n' || c == '\t' || c == '\r'

/-- The text after white space. -/
def skipGap (cs : List Char) : List Char :=
  cs.dropWhile isGap

/-- The value of a hexadecimal digit. -/
def hexDigit? (c : Char) : Option Nat :=
  Decimal.baseDigit? 16 c

/-- The code unit that four hexadecimal digits stand for. -/
def unit? (a b c d : Char) : Option Nat := do
  let a ← hexDigit? a
  let b ← hexDigit? b
  let c ← hexDigit? c
  let d ← hexDigit? d
  some (((a * 16 + b) * 16 + c) * 16 + d)

/-- The character a single letter after a backslash stands for. -/
def escaped? : Char → Option Char
  | '"' => some '"'
  | '\\' => some '\\'
  | '/' => some '/'
  | 'b' => some '\x08'
  | 'f' => some '\x0c'
  | 'n' => some '\n'
  | 'r' => some '\r'
  | 't' => some '\t'
  | _ => none

/-- One unit of a text between quotation marks. -/
inductive TextUnit where
  /-- A character. -/
  | char (c : Char)
  /-- A code unit of sixteen bits that may be half of a surrogate pair. -/
  | half (code : Nat)

/-- The units of a text up to its closing quotation mark, and what follows.
Control characters must be escaped. -/
def readUnits? : List Char → Option (List TextUnit × List Char)
  | [] => none
  | '"' :: rest => some ([], rest)
  | '\\' :: 'u' :: a :: b :: c :: d :: rest => do
    let code ← unit? a b c d
    let (units, rest) ← readUnits? rest
    some (.half code :: units, rest)
  | '\\' :: c :: rest => do
    let c ← escaped? c
    let (units, rest) ← readUnits? rest
    some (.char c :: units, rest)
  | c :: rest =>
    if c.toNat < 0x20 || c == '\\' then none
    else do
      let (units, rest) ← readUnits? rest
      some (.char c :: units, rest)

/-- The characters of a sequence of units, unless half of a surrogate pair is
left alone in it. -/
def joinUnits? : List TextUnit → Option (List Char)
  | [] => some []
  | .char c :: rest => (joinUnits? rest).map (c :: ·)
  | .half high :: .half low :: rest =>
    if 0xD800 ≤ high ∧ high < 0xDC00 then
      if 0xDC00 ≤ low ∧ low < 0xE000 then
        (joinUnits? rest).map (Char.ofNat (0x10000 + (high - 0xD800) * 0x400 + (low - 0xDC00)) :: ·)
      else none
    else if 0xDC00 ≤ high ∧ high < 0xE000 then none
    else (joinUnits? (.half low :: rest)).map (Char.ofNat high :: ·)
  | .half code :: rest =>
    if 0xD800 ≤ code ∧ code < 0xE000 then none
    else (joinUnits? rest).map (Char.ofNat code :: ·)

/-- A text after its opening quotation mark: its characters, if they have a
meaning, and what follows. -/
def readText? (cs : List Char) : Option (Option String × List Char) :=
  (readUnits? cs).map fun (units, rest) =>
    ((joinUnits? units).map String.ofList, rest)

/-- A numeral and what follows it. -/
def readNumeral? (cs : List Char) : Option (Numeral × List Char) := do
  let (negative, cs) :=
    match cs with
    | '-' :: rest => (true, rest)
    | cs => (false, cs)
  let (whole, cs) ←
    match cs with
    | '0' :: rest => some (['0'], rest)
    | cs =>
      let (digits, rest) := Decimal.spanDigits cs
      if digits.isEmpty then none else some (digits, rest)
  if (cs.head?.map Char.isDigit).getD false then none
  let (fraction, cs) ←
    match cs with
    | '.' :: rest =>
      let (digits, rest) := Decimal.spanDigits rest
      if digits.isEmpty then none else some (some digits, rest)
    | cs => some (none, cs)
  let (exponent, cs) ←
    match cs with
    | c :: rest =>
      if c == 'e' || c == 'E' then
        let (negative, rest) := Decimal.splitSign rest
        let (digits, rest) := Decimal.spanDigits rest
        if digits.isEmpty then none else some (some (negative, digits), rest)
      else some (none, cs)
    | [] => some (none, [])
  some ({ negative, whole, fraction, exponent }, cs)

/-- A text that must come next. -/
def expectWord? (word : List Char) (cs : List Char) : Option (List Char) :=
  if word.isPrefixOf cs then some (cs.drop word.length) else none

mutual

/-- The document at the start of a text and what follows it, where `room` more
levels may be nested. -/
def readValue? : (fuel room : Nat) → List Char → Option (Json × List Char)
  | 0, _, _ => none
  | fuel + 1, room, cs =>
    match skipGap cs with
    | 'n' :: rest => (expectWord? ['u', 'l', 'l'] rest).map (.null, ·)
    | 't' :: rest => (expectWord? ['r', 'u', 'e'] rest).map (.bool true, ·)
    | 'f' :: rest => (expectWord? ['a', 'l', 's', 'e'] rest).map (.bool false, ·)
    | '"' :: rest =>
      (readText? rest).map fun (content, rest) =>
        (match content with
          | some content => .text content
          | none => .unreadable, rest)
    | '[' :: rest =>
      let items :=
        match skipGap rest with
        | ']' :: rest => some ([], rest)
        | _ => readItems? fuel (room - 1) rest
      items.map fun (items, rest) => (if room = 0 then .unreadable else .array items, rest)
    | '\x7b' :: rest =>
      let members :=
        match skipGap rest with
        | '\x7d' :: rest => some (some [], rest)
        | _ => readMembers? fuel (room - 1) rest
      members.map fun (members, rest) =>
        (match members, room with
          | some members, _ + 1 => .object members
          | _, _ => .unreadable, rest)
    | cs => (readNumeral? cs).map fun (numeral, rest) => (numeral.toJson, rest)

/-- The items of an array up to its closing bracket, and what follows. -/
def readItems? : (fuel room : Nat) → List Char → Option (List Json × List Char)
  | 0, _, _ => none
  | fuel + 1, room, cs => do
    let (item, rest) ← readValue? fuel room cs
    match skipGap rest with
    | ']' :: rest => some ([item], rest)
    | ',' :: rest =>
      let (items, rest) ← readItems? fuel room rest
      some (item :: items, rest)
    | _ => none

/-- The members of an object up to its closing brace, and what follows. The
members have no meaning when the name of one of them has none. -/
def readMembers? :
    (fuel room : Nat) → List Char → Option (Option (List (String × Json)) × List Char)
  | 0, _, _ => none
  | fuel + 1, room, cs =>
    match skipGap cs with
    | '"' :: rest => do
      let (name, rest) ← readText? rest
      match skipGap rest with
      | ':' :: rest =>
        let (value, rest) ← readValue? fuel room rest
        match skipGap rest with
        | '\x7d' :: rest => some (name.map fun name => [(name, value)], rest)
        | ',' :: rest =>
          let (members, rest) ← readMembers? fuel room rest
          some (do some ((← name, value) :: (← members)), rest)
        | _ => none
      | _ => none
    | _ => none

end

/-- The document a text holds, if the text is well formed and nothing follows
the document. At most `levels` arrays and objects may be nested. -/
def read? (levels : Nat) (text : String) : Option Json := do
  let cs := text.toList
  let (json, rest) ← readValue? (cs.length + 1) levels cs
  if (skipGap rest).isEmpty then some json else none

/-- The nesting limit of stored documents. -/
def storedLevels : Nat :=
  127

/-- A stored document. -/
def readStored? (text : String) : Option Json :=
  read? storedLevels text

end GridScript.Json
