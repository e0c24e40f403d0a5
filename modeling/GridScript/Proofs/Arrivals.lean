import GridScript.Store.ArrivalMap
import Mathlib.Data.List.Basic
import Mathlib.Data.List.Induction
import Mathlib.Data.List.Nodup

/-!
# Maps in order of arrival

What a map in order of arrival holds after every operation, and in which order: a new
key goes behind all others, a removal leaves the others as they stand, and nothing else
moves a key.
-/

namespace GridScript.ArrivalMap

variable {κ α : Type}

/-- Maps in order of arrival with the same entries are the same. -/
theorem eq_of_entries_eq {left right : ArrivalMap κ α} (h : left.entries = right.entries) :
    left = right := by
  obtain ⟨entries, hleft⟩ := left
  obtain ⟨others, hright⟩ := right
  obtain rfl : entries = others := h
  rfl

variable [DecidableEq κ]

/-- A changed value is found under its key, and all others are as before. -/
theorem lookup_replace (key other : κ) (change : α → α) (entries : List (κ × α)) :
    (replace key change entries).lookup other =
      (entries.lookup other).map fun value => if key = other then change value else value := by
  induction entries with
  | nil => rfl
  | cons entry rest ih =>
    unfold replace at ih ⊢
    rw [List.map_cons, List.lookup_cons, List.lookup_cons, ih]
    cases hother : other == entry.1 with
    | false => rfl
    | true => rw [eq_of_beq hother, Option.map_some]

/-- What is no key has no value. -/
theorem lookup_of_not_mem {key : κ} {entries : List (κ × α)} (h : key ∉ entries.map Prod.fst) :
    entries.lookup key = none :=
  List.lookup_eq_none_iff.2 fun entry hm => by
    simpa using fun heq : key = entry.1 => h (heq ▸ List.mem_map_of_mem hm)

/-- A key has a value exactly if it is one of the keys. -/
theorem isSome_lookup {key : κ} {entries : List (κ × α)} :
    (entries.lookup key).isSome = true ↔ key ∈ entries.map Prod.fst := by
  induction entries with
  | nil => simp
  | cons entry rest ih =>
    rw [List.lookup_cons, List.map_cons, List.mem_cons, ← ih]
    by_cases hkey : key = entry.1
    · simp [hkey]
    · have hother : (key == entry.1) = false := by simpa using hkey
      simp only [hother, hkey, false_or]

/-- Different keys stand with their values. -/
theorem lookup_eq_some_iff {key : κ} {value : α} {entries : List (κ × α)}
    (h : (entries.map Prod.fst).Nodup) :
    entries.lookup key = some value ↔ (key, value) ∈ entries := by
  induction entries with
  | nil => simp
  | cons entry rest ih =>
    obtain ⟨k, v⟩ := entry
    rw [List.map_cons, List.nodup_cons] at h
    rw [List.lookup_cons, List.mem_cons]
    by_cases hkey : key = k
    · subst hkey
      have hrest : (key, value) ∉ rest := fun hm => h.1 (List.mem_map.2 ⟨_, hm, rfl⟩)
      simp [hrest, eq_comm]
    · have hother : (key == k) = false := by simpa using hkey
      simp only [hother, ih h.2, Prod.mk.injEq, hkey, false_and, false_or]

/-- A key has a value exactly if it is one of the keys. -/
theorem isSome_get? {map : ArrivalMap κ α} {key : κ} :
    (map.get? key).isSome = true ↔ key ∈ map.keys :=
  isSome_lookup

/-- What a map has under a key is the one entry with that key. -/
theorem get?_eq_some_iff {map : ArrivalMap κ α} {key : κ} {value : α} :
    map.get? key = some value ↔ (key, value) ∈ map.entries :=
  lookup_eq_some_iff map.distinct

/-- A key is contained exactly if it has a value. -/
theorem contains_eq (map : ArrivalMap κ α) (key : κ) :
    map.contains key = (map.get? key).isSome := by
  rw [Bool.eq_iff_iff, isSome_get?, contains, decide_eq_true_iff]
  rfl

/-- A changed value is found under its key, and all others are as before. -/
theorem get?_modify (map : ArrivalMap κ α) (key other : κ) (change : α → α) :
    (map.modify key change).get? other =
      if other = key then (map.get? other).map change else map.get? other := by
  rw [modify, get?, lookup_replace]
  by_cases heq : other = key
  · simp [heq, get?]
  · simp [heq, Ne.symm heq, get?]

/-- After an insertion the key has the new value and all others have theirs. -/
theorem get?_insert (map : ArrivalMap κ α) (key other : κ) (value : α) :
    (map.insert key value).get? other = if key = other then some value else map.get? other := by
  unfold insert
  split
  · rename_i hold
    rw [get?_modify]
    by_cases heq : other = key
    · subst heq
      obtain ⟨old, hfound⟩ := Option.isSome_iff_exists.1 (isSome_get?.2 hold)
      simp [hfound]
    · simp [heq, Ne.symm heq]
  · rename_i hnew
    rw [get?, List.lookup_append]
    by_cases heq : key = other
    · subst heq
      rw [lookup_of_not_mem hnew, List.lookup_cons_self, Option.none_or, if_pos rfl]
    · rw [List.lookup_cons, beq_false_of_ne (Ne.symm heq), List.lookup_nil, Option.or_none,
        if_neg heq, get?]

/-- After a removal the key has no value and all others have theirs. -/
theorem get?_erase (map : ArrivalMap κ α) (key other : κ) :
    (map.erase key).get? other = if other = key then none else map.get? other := by
  rw [Option.ext_iff]
  intro value
  rw [get?_eq_some_iff]
  split_ifs with heq
  · simp [erase, heq]
  · rw [get?_eq_some_iff]
    simp [erase, heq]

/-- A new key goes to the end. -/
theorem keys_insert (map : ArrivalMap κ α) (key : κ) (value : α) :
    (map.insert key value).keys = if key ∈ map.keys then map.keys else map.keys ++ [key] := by
  unfold insert keys
  split
  · exact keys_replace key (fun _ => value) map.entries
  · exact List.map_append

/-- Without a key the others stand as they stood. -/
theorem keys_erase (map : ArrivalMap κ α) (key : κ) :
    (map.erase key).keys = map.keys.filter fun other => other ≠ key := by
  rw [keys, keys, erase, List.filter_map]
  rfl

/-- Changing a value moves no key. -/
theorem keys_modify (map : ArrivalMap κ α) (key : κ) (change : α → α) :
    (map.modify key change).keys = map.keys :=
  keys_replace key change map.entries

/-- The value that is replaced is the one the key had. -/
theorem putEntry_eq (key : κ) (value : α) {entries : List (κ × α)}
    (h : (entries.map Prod.fst).Nodup) :
    putEntry key value entries = (entries.lookup key,
      if key ∈ entries.map Prod.fst then replace key (fun _ => value) entries
      else entries ++ [(key, value)]) := by
  induction entries with
  | nil => rfl
  | cons entry rest ih =>
    obtain ⟨k, v⟩ := entry
    rw [List.map_cons, List.nodup_cons] at h
    rw [putEntry_cons, ih h.2, List.lookup_cons]
    by_cases hkey : key = k
    · subst hkey
      have hrest : replace key (fun _ => value) rest = rest := by
        refine (List.map_congr_left fun other hm => ?_).trans (List.map_id rest)
        have hne : key ≠ other.1 := fun heq => h.1 (List.mem_map.2 ⟨other, hm, heq.symm⟩)
        simp [hne]
      have hall : replace key (fun _ => value) ((key, v) :: rest) = (key, value) :: rest := by
        simpa [replace] using hrest
      simp [hall]
    · rw [if_neg (Ne.symm hkey), beq_false_of_ne hkey]
      simp only [List.map_cons, List.mem_cons, hkey, false_or, replace, if_false]
      split <;> rfl

/-- The value that is taken out is the one the key had. -/
theorem takeEntry_eq (key : κ) {entries : List (κ × α)} (h : (entries.map Prod.fst).Nodup) :
    takeEntry key entries = (entries.lookup key, entries.filter fun entry => entry.1 ≠ key) := by
  induction entries with
  | nil => rfl
  | cons entry rest ih =>
    obtain ⟨k, v⟩ := entry
    rw [List.map_cons, List.nodup_cons] at h
    rw [takeEntry_cons, ih h.2, List.lookup_cons]
    by_cases hkey : key = k
    · subst hkey
      have hrest : (rest.filter fun entry => entry.1 ≠ key) = rest := by
        refine List.filter_eq_self.2 fun other hm => ?_
        have hne : other.1 ≠ key := fun heq => h.1 (List.mem_map.2 ⟨other, hm, heq⟩)
        simp [hne]
      rw [if_pos rfl, beq_self_eq_true, List.filter_cons_of_neg (by simp), hrest]
    · rw [if_neg (Ne.symm hkey), beq_false_of_ne hkey, List.filter_cons_of_pos (by simpa using Ne.symm hkey)]

/-- A value put in is inserted, and the one the key had comes back. -/
theorem put_eq (map : ArrivalMap κ α) (key : κ) (value : α) :
    map.put key value = (map.get? key, map.insert key value) := by
  have hput := putEntry_eq key value map.distinct
  have hentries : (map.put key value).2.entries = (map.insert key value).entries := by
    refine (congrArg Prod.snd hput).trans ?_
    rw [insert]
    split <;> rfl
  have hold : (map.put key value).1 = map.get? key := congrArg Prod.fst hput
  exact Prod.ext hold (eq_of_entries_eq hentries)

/-- A value taken out is removed, and comes back. -/
theorem take_eq (map : ArrivalMap κ α) (key : κ) :
    map.take key = (map.get? key, map.erase key) := by
  have htake := takeEntry_eq key map.distinct
  have hentries : (map.take key).2.entries = (map.erase key).entries := congrArg Prod.snd htake
  have hold : (map.take key).1 = map.get? key := congrArg Prod.fst htake
  exact Prod.ext hold (eq_of_entries_eq hentries)

end GridScript.ArrivalMap
