import GridScript.Number.Basic

/-!
# Documents

Stored programs, settings and catalogues are JSON documents. A document is kept
as the tree that was written: members stay in order and may repeat. Integers and
floats are told apart, because most fields take only one of them.

Some parts of a document are skipped without being understood. A part that is
well formed, but could not be understood if it were needed, is kept as
`unreadable`: a float beyond the greatest finite one, a text with half of a
surrogate pair, and anything nested beyond the reader's limit.
-/

namespace GridScript

/-- A JSON document. -/
inductive Json where
  /-- The null document. -/
  | null
  /-- A truth value. -/
  | bool (value : Bool)
  /-- A number written as an integer of at most 64 bits. -/
  | integer (value : Int)
  /-- Any other number. -/
  | float (value : Number)
  /-- A text. -/
  | text (value : String)
  /-- Items in order. -/
  | array (items : List Json)
  /-- Named members in the order they were written. -/
  | object (members : List (String × Json))
  /-- A well-formed part without a meaning. -/
  | unreadable

namespace Json

instance : Inhabited Json := ⟨.null⟩

mutual

/-- How many levels of arrays and objects a document has. -/
def depth : Json → Nat
  | .array items => depthOfItems items + 1
  | .object members => depthOfMembers members + 1
  | _ => 0

/-- The greatest depth among items. -/
def depthOfItems : List Json → Nat
  | [] => 0
  | item :: rest => max item.depth (depthOfItems rest)

/-- The greatest depth among members. -/
def depthOfMembers : List (String × Json) → Nat
  | [] => 0
  | (_, value) :: rest => max value.depth (depthOfMembers rest)

end

mutual

/-- Whether every part of a document has a meaning. -/
def isReadable : Json → Bool
  | .array items => itemsReadable items
  | .object members => membersReadable members
  | .unreadable => false
  | _ => true

/-- Whether every item has a meaning. -/
def itemsReadable : List Json → Bool
  | [] => true
  | item :: rest => item.isReadable && itemsReadable rest

/-- Whether every member has a meaning. -/
def membersReadable : List (String × Json) → Bool
  | [] => true
  | (_, value) :: rest => value.isReadable && membersReadable rest

end

end Json

end GridScript
