/-!
# Blank characters

White space in the sense of the Unicode property of that name: the characters
that separate words and that are trimmed from the ends of a text.
-/

namespace GridScript.Text

/-- A character that counts as white space. -/
def isBlank (c : Char) : Bool :=
  let code := c.toNat
  (9 ≤ code && code ≤ 13) || code == 0x20 || code == 0x85 || code == 0xA0 || code == 0x1680 ||
    (0x2000 ≤ code && code ≤ 0x200A) || code == 0x2028 || code == 0x2029 || code == 0x202F ||
    code == 0x205F || code == 0x3000

/-- The characters left after blanks are dropped from the front. -/
def trimFront (cs : List Char) : List Char :=
  cs.dropWhile isBlank

/-- The characters left after blanks are dropped from the back. -/
def trimBack (cs : List Char) : List Char :=
  (cs.reverse.dropWhile isBlank).reverse

/-- The characters left after blanks are dropped from both ends. -/
def trimBoth (cs : List Char) : List Char :=
  trimBack (trimFront cs)

/-- A text without the blanks at its ends. -/
def trim (text : String) : String :=
  String.ofList (trimBoth text.toList)

/-- The maximal stretches of characters without a separator, in order. -/
def pieces (separates : Char → Bool) (cs : List Char) : List (List Char) :=
  (cs.splitOnP separates).filter (! ·.isEmpty)

end GridScript.Text
