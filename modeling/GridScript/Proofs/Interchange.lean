import GridScript.Proofs.Integers
import GridScript.Proofs.Persistence
import GridScript.Value.Plain

/-!
# Exchanging plain documents

A value is written as a plain document and read back. `plain_exchange_closes` says what comes of it:
the value itself if there are no references within it, and otherwise the value with plain values
in their place (`Value.exchanged`). Only values with a nameless item within them are lost, because
the absent name is written as null, as `nameless_item_refused` shows.
-/

namespace GridScript.Value

/-- A value that refers to something outside of it. -/
def isReference : Value → Bool
  | .item _ | .location _ | .actor _ | .any _ => true
  | _ => false

/-- An item without a name. -/
def isNameless : Value → Bool
  | .item content => content.name.isNone
  | _ => false

/-- Items are references. -/
theorem isReference_of_isNameless {value : Value} (h : value.isNameless = true) :
    value.isReference = true := by
  cases value with
  | item => rfl
  | _ => cases h

mutual

/-- A value and all values within it. -/
def parts : Value → List Value
  | .list items => .list items :: itemParts items
  | .map entries => .map entries :: entryParts entries
  | value => [value]

/-- All values within items. -/
def itemParts : List Value → List Value
  | [] => []
  | head :: rest => head.parts ++ itemParts rest

/-- All values within entries. -/
def entryParts : List (String × Value) → List Value
  | [] => []
  | (_, value) :: rest => value.parts ++ entryParts rest

end

mutual

/-- A value with references replaced by plain values: maps of their parts, or their keys. -/
def exchanged : Value → Value
  | .list items => .list (itemsExchanged items)
  | .map entries => .map (entriesExchanged entries)
  | .item content =>
    .map ([("amount", .number (.ofInt content.amount.toNat)),
      ("material", .text content.material)] ++
        content.name.toList.map fun name => ("name", .text name))
  | .location content =>
    .map [("world", .text content.world), ("x", .number (.ofInt content.position.x.toInt)),
      ("y", .number (.ofInt content.position.y.toInt)),
      ("z", .number (.ofInt content.position.z.toInt))]
  | .actor content => .text content.name
  | .any content => .text content.key
  | value => value

/-- Items with references replaced. -/
def itemsExchanged : List Value → List Value
  | [] => []
  | head :: rest => head.exchanged :: itemsExchanged rest

/-- Entries with references replaced. -/
def entriesExchanged : List (String × Value) → List (String × Value)
  | [] => []
  | (name, value) :: rest => (name, value.exchanged) :: entriesExchanged rest

end

mutual

/-- Only references are replaced. -/
theorem exchanged_of_plain : (value : Value) →
    (∀ part ∈ value.parts, part.isReference = false) → value.exchanged = value
  | .text _, _ | .number _, _ | .bool _, _ => rfl
  | .list items, h => by
    rw [exchanged, itemsExchanged_of_plain items (List.forall_mem_cons.1 h).2]
  | .map entries, h => by
    rw [exchanged, entriesExchanged_of_plain entries (List.forall_mem_cons.1 h).2]
  | .item _, h | .location _, h | .actor _, h | .any _, h => by
    simp [parts, isReference] at h

/-- Only references among items are replaced. -/
theorem itemsExchanged_of_plain : (items : List Value) →
    (∀ part ∈ itemParts items, part.isReference = false) → itemsExchanged items = items
  | [], _ => rfl
  | first :: rest, h => by
    rw [itemParts, List.forall_mem_append] at h
    rw [itemsExchanged, exchanged_of_plain first h.1, itemsExchanged_of_plain rest h.2]

/-- Only references among entries are replaced. -/
theorem entriesExchanged_of_plain : (entries : List (String × Value)) →
    (∀ part ∈ entryParts entries, part.isReference = false) → entriesExchanged entries = entries
  | [], _ => rfl
  | (name, value) :: rest, h => by
    rw [entryParts, List.forall_mem_append] at h
    rw [entriesExchanged, exchanged_of_plain value h.1, entriesExchanged_of_plain rest h.2]

end

mutual

/-- Nothing is left to be replaced. -/
theorem plain_exchanged : (value : Value) →
    ∀ part ∈ value.exchanged.parts, part.isReference = false
  | .text _ | .number _ | .bool _ | .location _ | .actor _ | .any _ => by
    simp [exchanged, parts, entryParts, isReference]
  | .item ⟨_, _, name⟩ => by
    cases name <;> simp [exchanged, parts, entryParts, isReference]
  | .list items => List.forall_mem_cons.2 ⟨rfl, plain_itemsExchanged items⟩
  | .map entries => List.forall_mem_cons.2 ⟨rfl, plain_entriesExchanged entries⟩

/-- Nothing is left to be replaced among items. -/
theorem plain_itemsExchanged : (items : List Value) →
    ∀ part ∈ itemParts (itemsExchanged items), part.isReference = false
  | [] => by simp [itemsExchanged, itemParts]
  | first :: rest => List.forall_mem_append.2 ⟨plain_exchanged first, plain_itemsExchanged rest⟩

/-- Nothing is left to be replaced among entries. -/
theorem plain_entriesExchanged : (entries : List (String × Value)) →
    ∀ part ∈ entryParts (entriesExchanged entries), part.isReference = false
  | [] => by simp [entriesExchanged, entryParts]
  | (_, value) :: rest =>
    List.forall_mem_append.2 ⟨plain_exchanged value, plain_entriesExchanged rest⟩

end

/-- The names of entries stay. -/
theorem names_entriesExchanged (entries : List (String × Value)) :
    (entriesExchanged entries).map Prod.fst = entries.map Prod.fst := by
  induction entries with
  | nil => rfl
  | cons entry rest ih => rw [entriesExchanged, List.map_cons, List.map_cons, ih]

mutual

/-- The maps that references are replaced by are in order. -/
theorem isCanonical_exchanged : (value : Value) → value.isCanonical = true →
    value.exchanged.isCanonical = true
  | .text _, _ | .number _, _ | .bool _, _ | .actor _, _ | .any _, _ => rfl
  | .location _, _ | .item ⟨_, _, none⟩, _ | .item ⟨_, _, some _⟩, _ => by
    simp [exchanged, isCanonical, entriesCanonical, ascends]
    decide
  | .list items, h => itemsCanonical_exchanged items h
  | .map entries, h => by
    rw [isCanonical, Bool.and_eq_true] at h
    rw [exchanged, isCanonical, names_entriesExchanged, h.1, Bool.true_and]
    exact entriesCanonical_exchanged entries h.2

/-- So are those among items. -/
theorem itemsCanonical_exchanged : (items : List Value) → itemsCanonical items = true →
    itemsCanonical (itemsExchanged items) = true
  | [], _ => rfl
  | first :: rest, h => by
    rw [itemsCanonical, Bool.and_eq_true] at h
    rw [itemsExchanged, itemsCanonical, isCanonical_exchanged first h.1,
      itemsCanonical_exchanged rest h.2, Bool.true_and]

/-- So are those among entries. -/
theorem entriesCanonical_exchanged : (entries : List (String × Value)) →
    entriesCanonical entries = true → entriesCanonical (entriesExchanged entries) = true
  | [], _ => rfl
  | (_, value) :: rest, h => by
    rw [entriesCanonical, Bool.and_eq_true] at h
    rw [entriesExchanged, entriesCanonical, isCanonical_exchanged value h.1,
      entriesCanonical_exchanged rest h.2, Bool.true_and]

end

/-- Members are read each on its own. -/
theorem membersOfPlain_eq (members : List (String × Json)) :
    membersOfPlain members = members.map fun entry => (entry.1, ofPlain entry.2) := by
  induction members with
  | nil => rfl
  | cons entry rest ih => rw [membersOfPlain, ih, List.map_cons]

/-- Entries are written each on its own. -/
theorem entriesToPlain_eq (entries : List (String × Value)) :
    entriesToPlain entries = entries.map fun entry => (entry.1, entry.2.toPlain) := by
  induction entries with
  | nil => rfl
  | cons entry rest ih => rw [entriesToPlain, ih, List.map_cons]

/-- Members in ascending order are read as a map in their order. -/
theorem ofPlain_object {members : List (String × Json)} (h : Entries.Ascending members) :
    ofPlain (.object members) =
      (members.mapM fun entry => (ofPlain entry.2).map (entry.1, ·)).map .map := by
  have hascending : Entries.Ascending (members.map fun entry => (entry.1, ofPlain entry.2)) :=
    List.pairwise_map.2 h
  rw [ofPlain, membersOfPlain_eq, Entries.ofList_eq_self hascending, List.mapM_map]
  rfl

/-- An integer is read as the number it is. -/
theorem ofPlain_integer {n : Int} (hn : n.natAbs < 2 ^ 53) :
    ofPlain (.integer n) = .ok (.number (.ofInt n)) := by
  rw [ofPlain, Whole.ofFloat_ofInt hn]
  rfl

mutual

/-- A value that was written is read with its references replaced, unless there is a nameless
item within it. -/
theorem ofPlain_toPlain : (value : Value) → value.isCanonical = true →
    ofPlain value.toPlain =
      if value.parts.any isNameless then .error .null else .ok value.exchanged
  | .text _, _ | .number _, _ | .bool _, _ | .actor _, _ | .any _, _ => rfl
  | .list items, h => by
    rw [toPlain, ofPlain, itemsOfPlain_itemsToPlain items h, parts, List.any_cons, exchanged]
    cases (itemParts items).any isNameless <;> rfl
  | .map entries, h => by
    obtain ⟨hascending, hcanonical⟩ := isCanonical_map.1 h
    have hwritten : Entries.Ascending (entriesToPlain entries) := by
      rw [entriesToPlain_eq]
      exact List.pairwise_map.2 hascending
    rw [toPlain, ofPlain_object hwritten, entriesOfPlain_entriesToPlain entries hcanonical, parts,
      List.any_cons, exchanged]
    cases (entryParts entries).any isNameless <;> rfl
  | .item content, _ => by
    obtain ⟨material, amount, name⟩ := content
    have hamount := ofPlain_integer (n := amount.toNat) (by have := amount.toNat_lt; omega)
    rw [toPlain, ofPlain_object (by simp [Entries.Ascending]; decide)]
    simp only [List.mapM_cons, hamount]
    cases name <;> rfl
  | .location content, _ => by
    obtain ⟨world, x, y, z⟩ := content
    have hnumber (n : Int32) := ofPlain_integer (n := n.toInt)
      (by have := n.le_toInt; have := n.toInt_lt; omega)
    rw [toPlain, ofPlain_object (by simp [Entries.Ascending]; decide)]
    simp only [List.mapM_cons, hnumber]
    rfl

/-- Written items are read one after the other. -/
theorem itemsOfPlain_itemsToPlain : (items : List Value) → itemsCanonical items = true →
    itemsOfPlain (itemsToPlain items) =
      if (itemParts items).any isNameless then .error .null else .ok (itemsExchanged items)
  | [], _ => rfl
  | first :: rest, h => by
    rw [itemsCanonical, Bool.and_eq_true] at h
    have hfirst := ofPlain_toPlain first h.1
    have hrest := itemsOfPlain_itemsToPlain rest h.2
    rw [itemsToPlain, itemsOfPlain, hfirst, hrest, itemParts, List.any_append, itemsExchanged]
    cases first.parts.any isNameless <;> cases (itemParts rest).any isNameless <;> rfl

/-- Written entries are read one after the other. -/
theorem entriesOfPlain_entriesToPlain : (entries : List (String × Value)) →
    entriesCanonical entries = true →
    ((entriesToPlain entries).mapM fun entry => (ofPlain entry.2).map (entry.1, ·)) =
      if (entryParts entries).any isNameless then .error .null
      else .ok (entriesExchanged entries)
  | [], _ => rfl
  | (name, value) :: rest, h => by
    rw [entriesCanonical, Bool.and_eq_true] at h
    have hvalue := ofPlain_toPlain value h.1
    have hrest := entriesOfPlain_entriesToPlain rest h.2
    rw [entriesToPlain, List.mapM_cons, hrest]
    dsimp only
    rw [hvalue, entryParts, List.any_append, entriesExchanged]
    cases value.parts.any isNameless <;> cases (entryParts rest).any isNameless <;> rfl

end

/-- A value without references comes back as it was. -/
theorem ofPlain_toPlain_of_plain {value : Value} (h : value.isCanonical = true)
    (hplain : ∀ part ∈ value.parts, part.isReference = false) :
    ofPlain value.toPlain = .ok value := by
  have hnamed : ∀ part ∈ value.parts, ¬ part.isNameless = true := by
    intro part hm hnameless
    have hreference := isReference_of_isNameless hnameless
    simp [hplain part hm] at hreference
  rw [ofPlain_toPlain value h, if_neg (by simpa using hnamed), exchanged_of_plain value hplain]

/-- A value that was written as a plain document is read back unless an item within it has no
name. It is read with its references replaced, and comes back as it is from then on; without
references it is read as it was. -/
theorem plain_exchange_closes {value : Value} (h : value.isCanonical = true) :
    ((∃ part ∈ value.parts, part.isNameless = true) → ofPlain value.toPlain = .error .null) ∧
      ((∀ part ∈ value.parts, part.isNameless = false) →
        ofPlain value.toPlain = .ok value.exchanged ∧
          ofPlain value.exchanged.toPlain = .ok value.exchanged) ∧
      ((∀ part ∈ value.parts, part.isReference = false) → ofPlain value.toPlain = .ok value) := by
  refine ⟨fun hnameless => ?_, fun hnamed => ⟨?_, ?_⟩, ofPlain_toPlain_of_plain h⟩
  · rw [ofPlain_toPlain value h, if_pos (List.any_eq_true.2 hnameless)]
  · rw [ofPlain_toPlain value h, if_neg (by simpa using hnamed)]
  · exact ofPlain_toPlain_of_plain (isCanonical_exchanged value h) (plain_exchanged value)

/-- A named item in a list and a place under another name. -/
def suppliesValue : Value :=
  .map [("at", .location ⟨"hub", ⟨1, 64, -2⟩⟩),
    ("stock", .list [.item ⟨"diamond", 3, some "gem"⟩, .bool true])]

/-- Items and places become maps. -/
theorem plain_exchange_closes_supplies : suppliesValue.isCanonical = true ∧
    ofPlain suppliesValue.toPlain = .ok (.map [
      ("at", .map [("world", .text "hub"), ("x", .number (.ofInt 1)), ("y", .number (.ofInt 64)),
        ("z", .number (.ofInt (-2)))]),
      ("stock", .list [.map [("amount", .number (.ofInt 3)), ("material", .text "diamond"),
        ("name", .text "gem")], .bool true])]) := by
  have hcanonical : suppliesValue.isCanonical = true := by decide +kernel
  exact ⟨hcanonical, ((plain_exchange_closes hcanonical).2.1 (by decide +kernel)).1⟩

/-- The document of an item without a name is no value. -/
theorem nameless_item_refused :
    ofPlain (toPlain (.item ⟨"diamond", 3, none⟩)) = .error .null ∧
      ¬ ∀ value : Value, value.isCanonical = true → ∃ other, ofPlain value.toPlain = .ok other := by
  have hrefused : ofPlain (toPlain (.item ⟨"diamond", 3, none⟩)) = .error .null := by rfl
  refine ⟨hrefused, fun hall => ?_⟩
  obtain ⟨other, hread⟩ := hall (.item ⟨"diamond", 3, none⟩) rfl
  rw [hrefused] at hread
  cases hread

end GridScript.Value
