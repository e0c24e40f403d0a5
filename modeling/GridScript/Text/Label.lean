import GridScript.Text.Blank
import GridScript.Text.Letter

/-!
# Names and label lines

Identifiers are plain ASCII names. Label lines may carry formatting codes, an
ampersand or a section sign followed by a letter or digit, which are removed
before a line is read. A line left without letters and digits is decoration.
-/

namespace GridScript.Text

/-- A character that may start an identifier. -/
def startsIdentifier (c : Char) : Bool :=
  c.isAlpha || c == '_'

/-- A character that may continue an identifier. -/
def continuesIdentifier (c : Char) : Bool :=
  c.isAlphanum || c == '_'

/-- A letter or underscore followed by letters, digits and underscores. -/
def isIdentifier (text : String) : Bool :=
  match text.toList with
  | [] => false
  | c :: rest => startsIdentifier c && rest.all continuesIdentifier

/-- A character that introduces a formatting code. -/
def introducesFormat (c : Char) : Bool :=
  c == '&' || c.toNat == 0xA7

/-- A line without its formatting codes. -/
def stripFormatting : List Char → List Char
  | [] => []
  | [c] => [c]
  | c :: code :: rest =>
    if introducesFormat c && code.isAlphanum then stripFormatting rest
    else c :: stripFormatting (code :: rest)

/-- A line that says nothing once its formatting codes are gone. -/
def isDecorative (line : String) : Bool :=
  !(stripFormatting line.toList).any isAlphanumeric

/-- The words of a line, without formatting codes and with underscores read as
spaces, joined by single spaces. -/
def normalLabel (line : String) : String :=
  let plain := (stripFormatting line.toList).map fun c => if c == '_' then ' ' else c
  String.intercalate " " ((pieces isBlank plain).map String.ofList)

end GridScript.Text
