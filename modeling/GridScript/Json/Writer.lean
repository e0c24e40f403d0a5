import GridScript.Json.Basic
import GridScript.Text.Quoted

/-!
# Writing documents

Documents are written without white space. Texts keep every character except
quotation marks, backslashes and control characters, which are escaped.
-/

namespace GridScript.Json

/-- One character between quotation marks. -/
def writeChar (c : Char) : String :=
  match c with
  | '"' => "\\\""
  | '\\' => "\\\\"
  | '\x08' => "\\b"
  | '\t' => "\\t"
  | '\n' => "\\n"
  | '\x0c' => "\\f"
  | '\r' => "\\r"
  | c =>
    if c.toNat < 0x20 then (if c.toNat < 0x10 then "\\u000" else "\\u00") ++ Text.hexDigits c.toNat
    else c.toString

/-- A text between quotation marks. -/
def writeText (text : String) : String :=
  "\"" ++ String.join (text.toList.map writeChar) ++ "\""

mutual

/-- A document as text. -/
def write : Json → String
  | .null => "null"
  | .bool true => "true"
  | .bool false => "false"
  | .integer value => toString value
  | .float value => value.write Number.stored
  | .text value => writeText value
  | .array items => "[" ++ String.intercalate "," (writeItems items) ++ "]"
  | .object members => "\x7b" ++ String.intercalate "," (writeMembers members) ++ "\x7d"
  | .unreadable => "null"

/-- Every item as text. -/
def writeItems : List Json → List String
  | [] => []
  | item :: rest => item.write :: writeItems rest

/-- Every member as text. -/
def writeMembers : List (String × Json) → List String
  | [] => []
  | (name, value) :: rest => (writeText name ++ ":" ++ value.write) :: writeMembers rest

end

end GridScript.Json
