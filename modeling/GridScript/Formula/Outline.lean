import GridScript.Formula.Basic
import GridScript.Json.Writer

/-!
# Outlines of formulas

A formula written with all its structure: every operation is a parenthesized
list that starts with its name.
-/

namespace GridScript.Formula

mutual

/-- The outline of a formula. -/
def outline : Formula → String
  | .const (.text content) => Json.writeText content
  | .const value => value.toText
  | .var name => "$" ++ name
  | .list items => "(list" ++ outlines items ++ ")"
  | .unary .neg operand => "(neg " ++ outline operand ++ ")"
  | .unary .not operand => "(not " ++ outline operand ++ ")"
  | .binary op left right =>
    "(" ++ op.symbol ++ " " ++ outline left ++ " " ++ outline right ++ ")"
  | .call function arguments => "(" ++ function.name ++ outlines arguments ++ ")"

/-- The outlines of several formulas, each with a space before it. -/
def outlines : List Formula → String
  | [] => ""
  | formula :: rest => " " ++ outline formula ++ outlines rest

end

end GridScript.Formula
