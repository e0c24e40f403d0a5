import GridScript.Store.Spot

/-!
# Sorted maps

A finite map kept as a list of entries with strictly ascending keys. Two sorted
maps with the same content are equal, and their order is the order of keys.
-/

namespace GridScript

namespace Entries

variable {κ α : Type} [Ord κ]

/-- Entries whose keys strictly ascend. -/
def Ascending (entries : List (κ × α)) : Prop :=
  entries.Pairwise fun left right => compare left.1 right.1 = .lt

/-- The value under a key. -/
def find? (key : κ) : List (κ × α) → Option α
  | [] => none
  | (k, v) :: rest => if compare key k = .eq then some v else find? key rest

/-- Entries with the value under a key set; a new key goes to its place. -/
def insert (key : κ) (value : α) : List (κ × α) → List (κ × α)
  | [] => [(key, value)]
  | (k, v) :: rest =>
    match compare key k with
    | .lt => (key, value) :: (k, v) :: rest
    | .eq => (k, value) :: rest
    | .gt => (k, v) :: insert key value rest

/-- Entries without a key. -/
def erase (key : κ) (entries : List (κ × α)) : List (κ × α) :=
  entries.filter fun entry => compare key entry.1 != .eq

/-- Entries with the value under a key changed, if there is one. -/
def modify (key : κ) (change : α → α) (entries : List (κ × α)) : List (κ × α) :=
  entries.map fun (k, v) => (k, if compare key k = .eq then change v else v)

/-- The spot of a key. Behind the first key that is not smaller there is no need to look. -/
def search (key : κ) : List (κ × α) → Spot
  | [] => .error 0
  | (k, _) :: rest =>
    match compare key k with
    | .lt => .error 0
    | .eq => .ok 0
    | .gt => (search key rest).behind

/-- The value that a key had, and the entries with another value under it. -/
def put (key : κ) (value : α) (entries : List (κ × α)) : Option α × List (κ × α) :=
  (search key entries).put key value entries

/-- The value that a key had, and the entries without it. -/
def take (key : κ) (entries : List (κ × α)) : Option α × List (κ × α) :=
  (search key entries).take entries

/-- Entries put in one after the other, later ones replacing earlier ones. -/
def ofList (entries : List (κ × α)) : List (κ × α) :=
  entries.foldl (fun done (k, v) => insert k v done) []

/-- Every key of the entries after an insertion was there before or is new. -/
theorem mem_insert {key : κ} {value : α} {entry : κ × α} {entries : List (κ × α)}
    (h : entry ∈ insert key value entries) :
    entry.1 = key ∨ ∃ other ∈ entries, other.1 = entry.1 := by
  induction entries with
  | nil =>
    simp only [insert, List.mem_singleton] at h
    exact .inl (by rw [h])
  | cons head rest ih =>
    obtain ⟨k, v⟩ := head
    simp only [insert] at h
    split at h
    · rcases List.mem_cons.mp h with h | h
      · exact .inl (by rw [h])
      · exact .inr ⟨entry, h, rfl⟩
    · rcases List.mem_cons.mp h with h | h
      · exact .inr ⟨(k, v), by simp, by rw [h]⟩
      · exact .inr ⟨entry, List.mem_cons_of_mem _ h, rfl⟩
    · rcases List.mem_cons.mp h with h | h
      · exact .inr ⟨(k, v), by simp, by rw [h]⟩
      · rcases ih h with h | ⟨other, hm, he⟩
        · exact .inl h
        · exact .inr ⟨other, List.mem_cons_of_mem _ hm, he⟩

/-- Insertion keeps keys ascending. -/
theorem ascending_insert [Std.TransOrd κ] (key : κ) (value : α) {entries : List (κ × α)}
    (h : Ascending entries) : Ascending (insert key value entries) := by
  induction entries with
  | nil => simp [insert, Ascending]
  | cons head rest ih =>
    obtain ⟨k, v⟩ := head
    have hrest : Ascending rest := (List.pairwise_cons.mp h).2
    have hhead := (List.pairwise_cons.mp h).1
    simp only [insert]
    split
    · rename_i hlt
      refine List.pairwise_cons.mpr ⟨fun entry hm => ?_, h⟩
      rcases List.mem_cons.mp hm with hm | hm
      · rw [hm]; exact hlt
      · exact Std.TransCmp.lt_trans hlt (hhead entry hm)
    · exact List.pairwise_cons.mpr ⟨hhead, hrest⟩
    · rename_i hgt
      refine List.pairwise_cons.mpr ⟨fun entry hm => ?_, ih hrest⟩
      rcases mem_insert hm with hk | ⟨other, ho, he⟩
      · rw [hk]; exact Std.OrientedCmp.gt_iff_lt.mp hgt
      · rw [← he]; exact hhead other ho

/-- Removal keeps keys ascending. -/
theorem ascending_erase (key : κ) {entries : List (κ × α)} (h : Ascending entries) :
    Ascending (erase key entries) :=
  List.Pairwise.filter _ h

/-- A value is put before the first entry, into it, or behind it. -/
theorem put_cons (key : κ) (value : α) (k : κ) (v : α) (rest : List (κ × α)) :
    put key value ((k, v) :: rest) =
      match compare key k with
      | .lt => (none, (key, value) :: (k, v) :: rest)
      | .eq => (some v, (k, value) :: rest)
      | .gt => ((put key value rest).1, (k, v) :: (put key value rest).2) := by
  unfold put
  rw [search]
  split
  · rfl
  · rfl
  · exact Spot.put_behind ..

/-- A value is taken from nowhere, from the first entry, or from behind it. -/
theorem take_cons (key : κ) (k : κ) (v : α) (rest : List (κ × α)) :
    take key ((k, v) :: rest) =
      match compare key k with
      | .lt => (none, (k, v) :: rest)
      | .eq => (some v, rest)
      | .gt => ((take key rest).1, (k, v) :: (take key rest).2) := by
  unfold take
  rw [search]
  split
  · rfl
  · rfl
  · exact Spot.take_behind ..

/-- Putting a value in leaves the same entries as an insertion. -/
theorem put_snd (key : κ) (value : α) (entries : List (κ × α)) :
    (put key value entries).2 = insert key value entries := by
  induction entries with
  | nil => rfl
  | cons head rest ih =>
    obtain ⟨k, v⟩ := head
    rw [put_cons, insert]
    split
    · rfl
    · rfl
    · rw [ih]

/-- Changing a value keeps keys ascending. -/
theorem ascending_modify (key : κ) (change : α → α) {entries : List (κ × α)}
    (h : Ascending entries) : Ascending (modify key change entries) :=
  List.pairwise_map.mpr (h.imp id)

end Entries

/-- A finite map in the order of its keys. -/
structure SortedMap (κ α : Type) [Ord κ] where
  /-- The entries, in ascending order of keys. -/
  entries : List (κ × α)
  /-- The keys strictly ascend. -/
  ascending : Entries.Ascending entries

namespace SortedMap

variable {κ α : Type} [Ord κ]

/-- The map without entries. -/
def empty : SortedMap κ α :=
  ⟨[], List.Pairwise.nil⟩

instance : Inhabited (SortedMap κ α) := ⟨empty⟩

instance [DecidableEq κ] [DecidableEq α] : DecidableEq (SortedMap κ α) := fun left right =>
  decidable_of_iff (left.entries = right.entries) <| by
    cases left; cases right; simp

/-- The value under a key. -/
def get? (map : SortedMap κ α) (key : κ) : Option α :=
  Entries.find? key map.entries

/-- Whether a key has a value. -/
def contains (map : SortedMap κ α) (key : κ) : Bool :=
  (map.get? key).isSome

/-- The map with the value under a key set. -/
def insert [Std.TransOrd κ] (map : SortedMap κ α) (key : κ) (value : α) : SortedMap κ α :=
  ⟨Entries.insert key value map.entries, Entries.ascending_insert key value map.ascending⟩

/-- The map without a key. -/
def erase (map : SortedMap κ α) (key : κ) : SortedMap κ α :=
  ⟨Entries.erase key map.entries, Entries.ascending_erase key map.ascending⟩

/-- The value that a key had, and the map with another value under it. -/
def put [Std.TransOrd κ] (map : SortedMap κ α) (key : κ) (value : α) :
    Option α × SortedMap κ α :=
  ((Entries.put key value map.entries).1, ⟨(Entries.put key value map.entries).2, by
    rw [Entries.put_snd]
    exact Entries.ascending_insert key value map.ascending⟩)

/-- The value that a key had, and the map without it. -/
def take (map : SortedMap κ α) (key : κ) : Option α × SortedMap κ α :=
  ((Entries.take key map.entries).1,
    ⟨(Entries.take key map.entries).2, map.ascending.sublist (Spot.take_sublist _ _)⟩)

/-- The map with the value under a key changed, if there is one. -/
def modify (map : SortedMap κ α) (key : κ) (change : α → α) : SortedMap κ α :=
  ⟨Entries.modify key change map.entries, Entries.ascending_modify key change map.ascending⟩

/-- The map without the entries that fail a test. -/
def filter (map : SortedMap κ α) (keep : κ → α → Bool) : SortedMap κ α :=
  ⟨map.entries.filter fun (k, v) => keep k v, List.Pairwise.filter _ map.ascending⟩

/-- The number of entries. -/
def size (map : SortedMap κ α) : Nat :=
  map.entries.length

/-- Whether there are no entries. -/
def isEmpty (map : SortedMap κ α) : Bool :=
  map.entries.isEmpty

/-- The keys in ascending order. -/
def keys (map : SortedMap κ α) : List κ :=
  map.entries.map Prod.fst

/-- The map of several entries, later ones replacing earlier ones. -/
def ofList [Std.TransOrd κ] (entries : List (κ × α)) : SortedMap κ α :=
  entries.foldl (fun map (k, v) => map.insert k v) empty

end SortedMap

end GridScript
