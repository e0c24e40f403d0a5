/-!
# Spots in lists of entries

Maps hold few entries, so a plain list does. An operation first looks for the spot of a key.
What it does there does not depend on how the spot was found, so maps that look in different
ways share it.
-/

namespace GridScript

/-- The index of a key in a list of entries or, as an error, the index to put it at. -/
abbrev Spot :=
  Except Nat Nat

namespace Spot

variable {κ α : Type}

/-- The same spot with one more entry in front of the list. -/
def behind : Spot → Spot
  | .ok index => .ok (index + 1)
  | .error index => .error (index + 1)

/-- The value that was replaced, and the entries with another one at the spot of the key. -/
def put (spot : Spot) (key : κ) (value : α) (entries : List (κ × α)) :
    Option α × List (κ × α) :=
  match spot with
  | .ok index =>
    (entries[index]?.map Prod.snd, entries.modify index fun entry => (entry.1, value))
  | .error index => (none, entries.insertIdx index (key, value))

/-- The value that was removed, and the entries without the spot. -/
def take (spot : Spot) (entries : List (κ × α)) : Option α × List (κ × α) :=
  match spot with
  | .ok index => (entries[index]?.map Prod.snd, entries.eraseIdx index)
  | .error _ => (none, entries)

/-- What is put behind an entry leaves it alone. -/
theorem put_behind (spot : Spot) (key : κ) (value : α) (entry : κ × α) (rest : List (κ × α)) :
    spot.behind.put key value (entry :: rest) =
      ((spot.put key value rest).1, entry :: (spot.put key value rest).2) := by
  cases spot with
  | ok index => rfl
  | error index => rfl

/-- What is taken from behind an entry leaves it alone. -/
theorem take_behind (spot : Spot) (entry : κ × α) (rest : List (κ × α)) :
    spot.behind.take (entry :: rest) = ((spot.take rest).1, entry :: (spot.take rest).2) := by
  cases spot with
  | ok index => rfl
  | error index => rfl

/-- Taking leaves some of the entries. -/
theorem take_sublist (spot : Spot) (entries : List (κ × α)) :
    (spot.take entries).2.Sublist entries := by
  cases spot with
  | ok index => exact List.eraseIdx_sublist ..
  | error index => exact List.Sublist.refl _

end Spot

end GridScript
