import GridScript.Proofs.Arrivals
import GridScript.Proofs.Counts
import Mathlib.Data.Set.Card

/-!
# Maps against their history

Both flavours of map answer as if they had kept a history of all that was asked of them: a
key has the value given to it last, unless it was removed since. They differ in the order of
their entries. One goes by keys. The other goes by the time at which a key arrived, which is
when it was first given a value since it was last removed.
-/

namespace GridScript

/-- Something that is asked of a map. -/
inductive MapRequest (κ α : Type) where
  /-- A value is given to a key. -/
  | insert (key : κ) (value : α)
  /-- A key is removed. -/
  | remove (key : κ)
  /-- The value of a key is changed. -/
  | modify (key : κ) (change : α → α)
  /-- The map is made anew of some entries. -/
  | construct (entries : List (κ × α))

namespace MapHistory

variable {κ α : Type} [DecidableEq κ]

/-- The value of a key by a history, whose first request is the latest one. -/
def valueOf (key : κ) : List (MapRequest κ α) → Option α
  | [] => none
  | .insert other value :: earlier => if key = other then some value else valueOf key earlier
  | .remove other :: earlier => if key = other then none else valueOf key earlier
  | .modify other change :: earlier =>
    if key = other then (valueOf key earlier).map change else valueOf key earlier
  | .construct entries :: _ => entries.reverse.lookup key

/-- When a key arrived, if it was not removed since: the number of requests that had been made
before, and the number of entries that had been put in before if that request made a new map. -/
def arrival (key : κ) : List (MapRequest κ α) → Option (Nat × Nat)
  | [] => none
  | .insert other _ :: earlier =>
    if key = other then (arrival key earlier).or (some (earlier.length, 0)) else arrival key earlier
  | .remove other :: earlier => if key = other then none else arrival key earlier
  | .modify _ _ :: earlier => arrival key earlier
  | .construct entries :: earlier =>
    if key ∈ entries.map Prod.fst then some (earlier.length, (entries.map Prod.fst).idxOf key)
    else none

/-- A key arrived before another one. -/
def Precedes (history : List (MapRequest κ α)) (first second : κ) : Prop :=
  ∃ earlier later, arrival first history = some earlier ∧ arrival second history = some later ∧
    Prod.Lex (· < ·) (· < ·) earlier later

end MapHistory

/-- What both flavours of map offer. -/
structure MapOperations (μ κ α : Type) where
  /-- The map of some entries. -/
  construct : List (κ × α) → μ
  /-- The value that a key had, and the map with another one. -/
  insert : μ → κ → α → Option α × μ
  /-- The value that a key had, and the map without it. -/
  remove : μ → κ → Option α × μ
  /-- The map with the value under a key changed. -/
  modify : μ → κ → (α → α) → μ
  /-- The value under a key. -/
  get? : μ → κ → Option α
  /-- Whether a key has a value. -/
  contains : μ → κ → Bool
  /-- The number of entries. -/
  size : μ → Nat
  /-- The entries in the order of the map. -/
  entries : μ → List (κ × α)

/-- The operations of sorted maps. -/
def SortedMap.operations (κ α : Type) [Ord κ] [Std.TransOrd κ] :
    MapOperations (SortedMap κ α) κ α :=
  ⟨ofList, put, take, modify, get?, contains, size, entries⟩

/-- The operations of maps in order of arrival. -/
def ArrivalMap.operations (κ α : Type) [DecidableEq κ] : MapOperations (ArrivalMap κ α) κ α :=
  ⟨ofList, put, take, modify, get?, contains, size, entries⟩

namespace MapOperations

variable {μ κ α : Type} (operations : MapOperations μ κ α)

/-- The map after a request. -/
def after (map : μ) : MapRequest κ α → μ
  | .insert key value => (operations.insert map key value).2
  | .remove key => (operations.remove map key).2
  | .modify key change => operations.modify map key change
  | .construct entries => operations.construct entries

/-- The map after a history, whose first request is the latest one. -/
def run : List (MapRequest κ α) → μ
  | [] => operations.construct []
  | request :: earlier => operations.after (run earlier) request

variable [DecidableEq κ]

/-- What the operations do to any one map. -/
structure Lawful : Prop where
  /-- Of several entries with one key the last one counts. -/
  get?_construct : ∀ entries key,
    operations.get? (operations.construct entries) key = entries.reverse.lookup key
  /-- The value that is replaced comes back. -/
  insert_fst : ∀ map key value, (operations.insert map key value).1 = operations.get? map key
  /-- A key that is given a value has it, and all others have theirs. -/
  get?_insert : ∀ map key value other, operations.get? (operations.insert map key value).2 other =
    if other = key then some value else operations.get? map other
  /-- The value that is removed comes back. -/
  remove_fst : ∀ map key, (operations.remove map key).1 = operations.get? map key
  /-- A key that is removed has no value, and all others have theirs. -/
  get?_remove : ∀ map key other, operations.get? (operations.remove map key).2 other =
    if other = key then none else operations.get? map other
  /-- A changed value is found under its key, and all others are as before. -/
  get?_modify : ∀ map key change other,
    operations.get? (operations.modify map key change) other =
      if other = key then (operations.get? map other).map change else operations.get? map other
  /-- A key is contained exactly if it has a value. -/
  contains_eq : ∀ map key, operations.contains map key = (operations.get? map key).isSome
  /-- The keys are different. -/
  distinct : ∀ map, ((operations.entries map).map Prod.fst).Nodup
  /-- The entries are the keys that have a value, with their values. -/
  mem_entries : ∀ map key value,
    (key, value) ∈ operations.entries map ↔ operations.get? map key = some value
  /-- The size is the number of entries. -/
  size_eq : ∀ map, operations.size map = (operations.entries map).length

/-- After every history a map answers as the history says. -/
structure Refines : Prop where
  /-- A key has the value it has by the history. -/
  get : ∀ history key, operations.get? (operations.run history) key =
    MapHistory.valueOf key history
  /-- The keys that are contained are those with a value. -/
  contains : ∀ history key, operations.contains (operations.run history) key =
    (MapHistory.valueOf key history).isSome
  /-- What an insertion replaces is the value of the key. -/
  replaced : ∀ history key value, (operations.insert (operations.run history) key value).1 =
    MapHistory.valueOf key history
  /-- What a removal removes is the value of the key. -/
  removed : ∀ history key, (operations.remove (operations.run history) key).1 =
    MapHistory.valueOf key history
  /-- The keys are pairwise different. -/
  distinct : ∀ history, ((operations.entries (operations.run history)).map Prod.fst).Nodup
  /-- The entries are the keys with a value, each with its value. -/
  entries : ∀ history key value, (key, value) ∈ operations.entries (operations.run history) ↔
    MapHistory.valueOf key history = some value
  /-- The size is the number of keys with a value. -/
  size : ∀ history, {key | (MapHistory.valueOf key history).isSome}.encard =
    operations.size (operations.run history)

variable {operations}

/-- Operations that do the right thing to any one map do so in every history. -/
theorem Lawful.refines (h : operations.Lawful) : operations.Refines := by
  have hget (history : List (MapRequest κ α)) (key : κ) :
      operations.get? (operations.run history) key = MapHistory.valueOf key history := by
    induction history with
    | nil => exact h.get?_construct [] key
    | cons request earlier ih =>
      cases request with
      | insert other value => rw [run, after, h.get?_insert, ih, MapHistory.valueOf]
      | remove other => rw [run, after, h.get?_remove, ih, MapHistory.valueOf]
      | modify other change => rw [run, after, h.get?_modify, ih, MapHistory.valueOf]
      | construct entries => rw [run, after, h.get?_construct, MapHistory.valueOf]
  refine ⟨hget, fun history key => ?_, fun history key value => ?_, fun history key => ?_,
    fun history => h.distinct _, fun history key value => ?_, fun history => ?_⟩
  · rw [h.contains_eq, hget]
  · rw [h.insert_fst, hget]
  · rw [h.remove_fst, hget]
  · rw [h.mem_entries, hget]
  · have hkeys : {key | (MapHistory.valueOf key history).isSome} =
        (((operations.entries (operations.run history)).map Prod.fst).toFinset : Set κ) := by
      ext key
      rw [Set.mem_ofPred_eq, ← hget, Finset.mem_coe, List.mem_toFinset, List.mem_map,
        Option.isSome_iff_exists]
      constructor
      · rintro ⟨value, hvalue⟩
        exact ⟨(key, value), (h.mem_entries _ _ _).2 hvalue, rfl⟩
      · rintro ⟨⟨key, value⟩, hm, rfl⟩
        exact ⟨value, (h.mem_entries _ _ _).1 hm⟩
    rw [hkeys, Set.encard_coe_eq_coe_finsetCard, List.toFinset_card_of_nodup (h.distinct _),
      List.length_map, h.size_eq]

end MapOperations

/-- Entries put in one after the other count from the last one on. -/
theorem get?_foldl_insert {μ κ α : Type} [DecidableEq κ] {get? : μ → κ → Option α}
    {insert : μ → κ → α → μ}
    (h : ∀ map key value other, get? (insert map key value) other =
      if other = key then some value else get? map other)
    (entries : List (κ × α)) (map : μ) (key : κ) :
    get? (entries.foldl (fun map entry => insert map entry.1 entry.2) map) key =
      (entries.reverse.lookup key).or (get? map key) := by
  induction entries generalizing map with
  | nil => rfl
  | cons entry rest ih =>
    rw [List.foldl_cons, ih, h, List.reverse_cons, List.lookup_append, Option.or_assoc,
      List.lookup_cons, List.lookup_nil]
    by_cases hkey : key = entry.1
    · simp [hkey]
    · simp [beq_false_of_ne hkey, hkey]

section

variable {κ α : Type} [DecidableEq κ]

namespace SortedMap

variable [Ord κ] [Std.TransOrd κ] [Std.LawfulEqOrd κ]

/-- The operations of sorted maps do the right thing to any one of them. -/
theorem operations_lawful : (operations κ α).Lawful := by
  have hcompare (map : SortedMap κ α) (key : κ) (value : α) (other : κ) :
      (map.insert key value).get? other = if other = key then some value else map.get? other := by
    simp only [get?_insert, Std.LawfulEqOrd.compare_eq_iff_eq]
  refine ⟨fun entries key => ?_, fun map key value => ?_, fun map key value other => ?_,
    fun map key => ?_, fun map key other => ?_, fun map key change other => ?_,
    fun map key => rfl, nodup_keys, fun map key value => get?_eq_some_iff.symm, fun map => rfl⟩
  · exact (get?_foldl_insert hcompare entries empty key).trans Option.or_none
  · exact congrArg Prod.fst (map.put_eq key value)
  · change (map.put key value).2.get? other = _
    rw [put_eq, hcompare]
    rfl
  · exact congrArg Prod.fst (map.take_eq key)
  · change (map.take key).2.get? other = _
    rw [take_eq, get?_erase]
    simp only [Std.LawfulEqOrd.compare_eq_iff_eq]
    rfl
  · refine (map.get?_modify key other change).trans ?_
    simp only [Std.LawfulEqOrd.compare_eq_iff_eq]
    rfl

end SortedMap

namespace ArrivalMap

/-- The operations of maps in order of arrival do the right thing to any one of them. -/
theorem operations_lawful : (operations κ α).Lawful := by
  have hinsert (map : ArrivalMap κ α) (key : κ) (value : α) (other : κ) :
      (map.insert key value).get? other = if other = key then some value else map.get? other := by
    rw [get?_insert]
    simp only [eq_comm]
  refine ⟨fun entries key => ?_, fun map key value => ?_, fun map key value other => ?_,
    fun map key => ?_, fun map key other => ?_, fun map key change other => ?_,
    contains_eq, fun map => map.distinct, fun map key value => get?_eq_some_iff.symm,
    fun map => rfl⟩
  · exact (get?_foldl_insert hinsert entries empty key).trans Option.or_none
  · exact congrArg Prod.fst (map.put_eq key value)
  · change (map.put key value).2.get? other = _
    rw [put_eq, hinsert]
    rfl
  · exact congrArg Prod.fst (map.take_eq key)
  · change (map.take key).2.get? other = _
    rw [take_eq, get?_erase]
    rfl
  · exact map.get?_modify key other change

end ArrivalMap

namespace MapHistory

/-- The keys that have arrived and were not removed since are those with a value. -/
theorem isSome_arrival (key : κ) (history : List (MapRequest κ α)) :
    (arrival key history).isSome = (valueOf key history).isSome := by
  induction history with
  | nil => rfl
  | cons request earlier ih =>
    cases request with
    | insert other value =>
      rw [arrival, valueOf]
      split
      · rw [Option.isSome_or, Option.isSome_some, Bool.or_true, Option.isSome_some]
      · exact ih
    | remove other =>
      rw [arrival, valueOf]
      split
      · rfl
      · exact ih
    | modify other change =>
      rw [arrival, valueOf, ih]
      split
      · rw [Option.isSome_map]
      · rfl
    | construct entries =>
      rw [arrival, valueOf, Bool.eq_iff_iff, ArrivalMap.isSome_lookup]
      split <;> simp_all

/-- Keys have arrived in the past. -/
theorem arrival_lt {key : κ} {history : List (MapRequest κ α)} {time : Nat × Nat}
    (h : arrival key history = some time) : time.1 < history.length := by
  induction history with
  | nil => cases h
  | cons request earlier ih =>
    have hearlier (hold : arrival key earlier = some time) : time.1 < (request :: earlier).length :=
      Nat.lt_succ_of_lt (ih hold)
    cases request with
    | insert other value =>
      rw [arrival] at h
      split at h
      · rcases Option.or_eq_some_iff.1 h with hold | ⟨-, hnew⟩
        · exact hearlier hold
        · obtain rfl := Option.some.inj hnew
          exact Nat.lt_succ_self _
      · exact hearlier h
    | remove other =>
      rw [arrival] at h
      split at h
      · cases h
      · exact hearlier h
    | modify other change => exact hearlier h
    | construct entries =>
      rw [arrival] at h
      split at h
      · obtain rfl := Option.some.inj h
        exact Nat.lt_succ_self _
      · cases h

end MapHistory

namespace ArrivalMap

open MapHistory

/-- The keys of a map made of entries are theirs. -/
theorem mem_keys_ofList {key : κ} {entries : List (κ × α)} :
    key ∈ (ofList entries).keys ↔ key ∈ entries.map Prod.fst := by
  rw [← isSome_get?]
  have hget := operations_lawful.get?_construct entries key
  change (ofList entries).get? key = _ at hget
  rw [hget, isSome_lookup]
  simp

/-- The keys of a map made of entries stand as they first occur among these. -/
theorem keys_ofList_pairwise (entries : List (κ × α)) :
    (ofList entries).keys.Pairwise fun first second =>
      (entries.map Prod.fst).idxOf first < (entries.map Prod.fst).idxOf second := by
  induction entries using List.reverseRecOn with
  | nil => exact List.Pairwise.nil
  | append_singleton rest entry ih =>
    have hsnoc : ofList (rest ++ [entry]) = (ofList rest).insert entry.1 entry.2 := by
      rw [ofList, List.foldl_append]
      rfl
    have hold : (ofList rest).keys.Pairwise fun first second =>
        ((rest ++ [entry]).map Prod.fst).idxOf first <
          ((rest ++ [entry]).map Prod.fst).idxOf second := by
      refine ih.imp_of_mem fun hfirst hsecond hlt => ?_
      rw [List.map_append, List.idxOf_append_of_mem (mem_keys_ofList.1 hfirst),
        List.idxOf_append_of_mem (mem_keys_ofList.1 hsecond)]
      exact hlt
    rw [hsnoc, keys_insert]
    split
    · exact hold
    · rename_i hnew
      rw [mem_keys_ofList] at hnew
      refine List.pairwise_append.2 ⟨hold, List.pairwise_singleton _ _,
        fun first hfirst last hlast => ?_⟩
      rw [List.mem_singleton.1 hlast, List.map_append,
        List.idxOf_append_of_mem (mem_keys_ofList.1 hfirst), List.idxOf_append_of_notMem hnew]
      exact Nat.lt_add_right _ (List.idxOf_lt_length_of_mem (mem_keys_ofList.1 hfirst))

/-- The keys of a map are those that have arrived and were not removed since. -/
theorem mem_keys_run {key : κ} {history : List (MapRequest κ α)} :
    key ∈ ((operations κ α).run history).keys ↔ (arrival key history).isSome = true := by
  have hget := operations_lawful.refines.get history key
  rw [isSome_arrival, ← hget]
  exact isSome_get?.symm

/-- The keys of a map stand in the order in which they arrived. -/
theorem keys_run_pairwise (history : List (MapRequest κ α)) :
    ((operations κ α).run history).keys.Pairwise (Precedes history) := by
  induction history with
  | nil => exact List.Pairwise.nil
  | cons request earlier ih =>
    cases request with
    | insert key value =>
      have hstays (other : κ) (time : Nat × Nat) (h : arrival other earlier = some time) :
          arrival other (.insert key value :: earlier) = some time := by
        rw [arrival, h, Option.some_or, ite_self]
      have hold := ih.imp fun ⟨first, second, hfirst, hsecond, hlex⟩ =>
        (⟨first, second, hstays _ _ hfirst, hstays _ _ hsecond, hlex⟩ :
          Precedes (.insert key value :: earlier) _ _)
      change (((operations κ α).run earlier).put key value).2.keys.Pairwise _
      rw [put_eq, keys_insert]
      split
      · exact hold
      · rename_i hnew
        refine List.pairwise_append.2 ⟨hold, List.pairwise_singleton _ _,
          fun first hfirst last hlast => ?_⟩
        obtain ⟨time, htime⟩ := Option.isSome_iff_exists.1 (mem_keys_run.1 hfirst)
        have hnone : arrival key earlier = none := by
          rwa [mem_keys_run, Bool.not_eq_true, Option.isSome_eq_false_iff,
            Option.isNone_iff_eq_none] at hnew
        rw [List.mem_singleton.1 hlast]
        refine ⟨time, (earlier.length, 0), hstays _ _ htime, ?_, .left _ _ (arrival_lt htime)⟩
        rw [arrival, if_pos rfl, hnone, Option.none_or]
    | remove key =>
      change (((operations κ α).run earlier).take key).2.keys.Pairwise _
      rw [take_eq, keys_erase]
      have hstays (other : κ) (h : other ≠ key) :
          arrival other (.remove key :: earlier) = arrival other earlier := by
        rw [arrival, if_neg h]
      refine (ih.filter _).imp_of_mem fun hfirst hsecond hprecedes => ?_
      have hne {other : κ}
          (hm : other ∈ ((operations κ α).run earlier).keys.filter fun other => other ≠ key) :
          other ≠ key := of_decide_eq_true (List.mem_filter.1 hm).2
      unfold Precedes
      rw [hstays _ (hne hfirst), hstays _ (hne hsecond)]
      exact hprecedes
    | modify key change =>
      exact (keys_modify ((operations κ α).run earlier) key change).symm ▸ ih
    | construct entries =>
      refine (keys_ofList_pairwise entries).imp_of_mem fun hfirst hsecond hlt => ?_
      have harrival {other : κ} (hm : other ∈ (ofList entries).keys) :
          arrival other (.construct entries :: earlier) =
            some (earlier.length, (entries.map Prod.fst).idxOf other) := by
        rw [arrival, if_pos (mem_keys_ofList.1 hm)]
      exact ⟨_, _, harrival hfirst, harrival hsecond, .right _ hlt⟩

end ArrivalMap

open MapHistory

/-- After every history both flavours of map answer as the history says. The keys of a sorted
map strictly ascend, and two sorted maps with the same content are equal. In the other flavour
the keys stand in the order in which they arrived, so that a replaced entry keeps its place. -/
theorem maps_refine_history [Ord κ] [Std.TransOrd κ] [Std.LawfulEqOrd κ] :
    ((SortedMap.operations κ α).Refines ∧
      (∀ history, Entries.Ascending ((SortedMap.operations κ α).run history).entries) ∧
      ∀ left right : List (MapRequest κ α), (∀ key, valueOf key left = valueOf key right) →
        (SortedMap.operations κ α).run left = (SortedMap.operations κ α).run right) ∧
    (ArrivalMap.operations κ α).Refines ∧
      ∀ history, ((ArrivalMap.operations κ α).run history).keys.Pairwise (Precedes history) := by
  have hsorted := (@SortedMap.operations_lawful κ α _ _ _ _).refines
  refine ⟨⟨hsorted, fun history => SortedMap.ascending _, fun left right h => ?_⟩,
    ArrivalMap.operations_lawful.refines, ArrivalMap.keys_run_pairwise⟩
  refine SortedMap.eq_of_get? fun key => ?_
  calc ((SortedMap.operations κ α).run left).get? key
      = valueOf key left := hsorted.get left key
    _ = valueOf key right := h key
    _ = ((SortedMap.operations κ α).run right).get? key := (hsorted.get right key).symm

/-- Two keys that are given values in either order lead to the same sorted map, but not to the
same map in order of arrival. -/
theorem maps_refine_history_of_two :
    (SortedMap.operations Nat Nat).run [.insert 56 6, .insert 45 12] =
        (SortedMap.operations Nat Nat).run [.insert 45 12, .insert 56 6] ∧
      (ArrivalMap.operations Nat Nat).run [.insert 56 6, .insert 45 12] ≠
        (ArrivalMap.operations Nat Nat).run [.insert 45 12, .insert 56 6] ∧
      Precedes [.insert 56 98, .insert 56 6, .insert 45 12] (45 : Nat) 56 := by
  have hrefines := @maps_refine_history Nat Nat _ _ _ _
  refine ⟨hrefines.1.2.2 _ _ fun key => ?_, by decide, ?_⟩
  · simp only [valueOf]
    split_ifs <;> simp_all
  · have hkeys := hrefines.2.2 [.insert 56 98, .insert 56 6, .insert 45 12]
    exact List.rel_of_pairwise_cons hkeys (List.mem_singleton.2 rfl)

end

end GridScript
