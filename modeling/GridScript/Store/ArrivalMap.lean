import GridScript.Store.Spot

/-!
# Maps in order of arrival

A finite map that keeps its entries in the order in which their keys arrived. A
replaced value stays in its place; a removed key that comes back goes to the
end.
-/

namespace GridScript

/-- A finite map in the order in which its keys arrived. -/
structure ArrivalMap (κ α : Type) where
  /-- The entries, first arrival first. -/
  entries : List (κ × α)
  /-- No key occurs twice. -/
  distinct : (entries.map Prod.fst).Nodup

namespace ArrivalMap

variable {κ α : Type}

/-- The map without entries. -/
def empty : ArrivalMap κ α :=
  ⟨[], List.nodup_nil⟩

instance : Inhabited (ArrivalMap κ α) := ⟨empty⟩

instance [DecidableEq κ] [DecidableEq α] : DecidableEq (ArrivalMap κ α) := fun left right =>
  decidable_of_iff (left.entries = right.entries) <| by
    cases left; cases right; simp

/-- Entries with the value under a key changed. -/
def replace [DecidableEq κ] (key : κ) (change : α → α) (entries : List (κ × α)) : List (κ × α) :=
  entries.map fun (k, v) => (k, if key = k then change v else v)

/-- Changing a value leaves the keys alone. -/
theorem keys_replace [DecidableEq κ] (key : κ) (change : α → α) (entries : List (κ × α)) :
    (replace key change entries).map Prod.fst = entries.map Prod.fst := by
  simp [replace, Function.comp_def]

variable [DecidableEq κ]

/-- The spot of a key; a new one goes to the end. -/
def search (key : κ) (entries : List (κ × α)) : Spot :=
  match entries.findIdx? fun entry => entry.1 = key with
  | some index => .ok index
  | none => .error entries.length

/-- The value that a key had, and the entries with another value under it. -/
def putEntry (key : κ) (value : α) (entries : List (κ × α)) : Option α × List (κ × α) :=
  (search key entries).put key value entries

/-- The value that a key had, and the entries without it. -/
def takeEntry (key : κ) (entries : List (κ × α)) : Option α × List (κ × α) :=
  (search key entries).take entries

/-- A key is the first one, or its spot is behind it. -/
theorem search_cons (key : κ) (entry : κ × α) (rest : List (κ × α)) :
    search key (entry :: rest) = if entry.1 = key then .ok 0 else (search key rest).behind := by
  unfold search
  rw [List.findIdx?_cons]
  by_cases hkey : entry.1 = key
  · simp [hkey]
  · simp only [hkey, decide_false, Bool.false_eq_true, if_false]
    cases rest.findIdx? fun entry => entry.1 = key with
    | none => rfl
    | some index => rfl

/-- A value is put into the first entry or behind it. -/
theorem putEntry_cons (key : κ) (value : α) (k : κ) (v : α) (rest : List (κ × α)) :
    putEntry key value ((k, v) :: rest) =
      if k = key then (some v, (k, value) :: rest)
      else ((putEntry key value rest).1, (k, v) :: (putEntry key value rest).2) := by
  unfold putEntry
  rw [search_cons]
  split
  · rfl
  · exact Spot.put_behind ..

/-- A value is taken from the first entry or from behind it. -/
theorem takeEntry_cons (key : κ) (k : κ) (v : α) (rest : List (κ × α)) :
    takeEntry key ((k, v) :: rest) =
      if k = key then (some v, rest)
      else ((takeEntry key rest).1, (k, v) :: (takeEntry key rest).2) := by
  unfold takeEntry
  rw [search_cons]
  split
  · rfl
  · exact Spot.take_behind ..

/-- Putting a value in adds a key if it is new. -/
theorem keys_putEntry (key : κ) (value : α) (entries : List (κ × α)) :
    (putEntry key value entries).2.map Prod.fst =
      if key ∈ entries.map Prod.fst then entries.map Prod.fst
      else entries.map Prod.fst ++ [key] := by
  induction entries with
  | nil => rfl
  | cons head rest ih =>
    obtain ⟨k, v⟩ := head
    rw [putEntry_cons]
    by_cases hk : k = key
    · simp [hk]
    · simp only [hk, Ne.symm hk, if_false, List.map_cons, ih, List.mem_cons, false_or]
      split <;> rfl

/-- The value under a key. -/
def get? (map : ArrivalMap κ α) (key : κ) : Option α :=
  map.entries.lookup key

/-- Whether a key has a value. -/
def contains (map : ArrivalMap κ α) (key : κ) : Bool :=
  decide (key ∈ map.entries.map Prod.fst)

/-- The map with the value under a key changed, if there is one. -/
def modify (map : ArrivalMap κ α) (key : κ) (change : α → α) : ArrivalMap κ α :=
  ⟨replace key change map.entries, by rw [keys_replace]; exact map.distinct⟩

/-- The map with the value under a key set: in place, or at the end. -/
def insert (map : ArrivalMap κ α) (key : κ) (value : α) : ArrivalMap κ α :=
  if old : key ∈ map.entries.map Prod.fst then map.modify key fun _ => value
  else
    ⟨map.entries ++ [(key, value)], by
      rw [List.map_append]
      refine List.nodup_append.mpr ⟨map.distinct, by simp, ?_⟩
      intro a ha b hb hab
      simp only [List.map_cons, List.map_nil, List.mem_singleton] at hb
      exact old (by rw [← hb, ← hab]; exact ha)⟩

/-- The map without a key. -/
def erase (map : ArrivalMap κ α) (key : κ) : ArrivalMap κ α :=
  ⟨map.entries.filter fun entry => entry.1 ≠ key,
    List.Nodup.sublist (List.Sublist.map _ (List.filter_sublist)) map.distinct⟩

/-- The value that a key had, and the map with another value under it: in place, or at the end. -/
def put (map : ArrivalMap κ α) (key : κ) (value : α) : Option α × ArrivalMap κ α :=
  ((putEntry key value map.entries).1, ⟨(putEntry key value map.entries).2, by
    rw [keys_putEntry]
    split
    · exact map.distinct
    · rename_i new
      refine List.nodup_append.mpr ⟨map.distinct, by simp, ?_⟩
      intro a ha b hb hab
      exact new (by rw [← List.mem_singleton.mp hb, ← hab]; exact ha)⟩)

/-- The value that a key had, and the map without it. -/
def take (map : ArrivalMap κ α) (key : κ) : Option α × ArrivalMap κ α :=
  ((takeEntry key map.entries).1, ⟨(takeEntry key map.entries).2,
    List.Nodup.sublist (List.Sublist.map _ (Spot.take_sublist _ _)) map.distinct⟩)

/-- The number of entries. -/
def size (map : ArrivalMap κ α) : Nat :=
  map.entries.length

/-- Whether there are no entries. -/
def isEmpty (map : ArrivalMap κ α) : Bool :=
  map.entries.isEmpty

/-- The keys in order of arrival. -/
def keys (map : ArrivalMap κ α) : List κ :=
  map.entries.map Prod.fst

/-- The map of several entries, later ones replacing earlier ones. -/
def ofList (entries : List (κ × α)) : ArrivalMap κ α :=
  entries.foldl (fun map (k, v) => map.insert k v) empty

/-- The same keys with every value changed. -/
def mapValues {β : Type} (map : ArrivalMap κ α) (change : α → β) : ArrivalMap κ β :=
  ⟨map.entries.map fun (k, v) => (k, change v), by
    have h : (map.entries.map fun (k, v) => (k, change v)).map Prod.fst =
        map.entries.map Prod.fst := by simp [Function.comp_def]
    rw [h]
    exact map.distinct⟩

end ArrivalMap

end GridScript
