import GridScript.Ledger.Basic
import Mathlib.Data.List.Nodup

/-!
# Sorted maps and counts

What a sorted map holds after every operation, and from that what claiming and
giving back does to the numbers kept for actors. An entry that stands at zero and
no entry count alike.
-/

namespace GridScript

namespace Entries

variable {κ α : Type} [Ord κ] [Std.TransOrd κ]

/-- After an insertion the key has the new value and all others have theirs. -/
theorem find?_insert (key other : κ) (value : α) (entries : List (κ × α)) :
    find? other (insert key value entries) =
      if compare other key = .eq then some value else find? other entries := by
  induction entries with
  | nil => simp [insert, find?]
  | cons head rest ih =>
    obtain ⟨k, v⟩ := head
    simp only [insert]
    split
    · simp [find?]
    · rename_i he
      have hsame : compare other k = compare other key := (Std.TransCmp.congr_right he).symm
      by_cases ho : compare other key = .eq
      · simp [find?, hsame, ho]
      · simp [find?, hsame, ho]
    · rename_i hgt
      simp only [find?, ih]
      by_cases hk : compare other k = .eq
      · have ho : compare other key ≠ .eq := by
          intro ho
          have hkey : compare key k = .eq := by
            rw [← Std.TransCmp.congr_left ho]
            exact hk
          rw [hkey] at hgt
          cases hgt
        simp [hk, ho]
      · simp [hk]

/-- After a removal the key has no value and all others have theirs. -/
theorem find?_erase (key other : κ) (entries : List (κ × α)) :
    find? other (erase key entries) =
      if compare other key = .eq then none else find? other entries := by
  induction entries with
  | nil => simp [erase, find?]
  | cons head rest ih =>
    obtain ⟨k, v⟩ := head
    have hcons : erase key ((k, v) :: rest) =
        if compare key k = .eq then erase key rest else (k, v) :: erase key rest := by
      by_cases hk : compare key k = .eq
      · simp [erase, hk]
      · simp [erase, hk]
    rw [hcons]
    by_cases hk : compare key k = .eq
    · have hsame : compare other k = compare other key := (Std.TransCmp.congr_right hk).symm
      rw [if_pos hk, ih, find?, hsame]
      by_cases ho : compare other key = .eq
      · simp [ho]
      · simp [ho]
    · rw [if_neg hk]
      simp only [find?, ih]
      by_cases ho : compare other k = .eq
      · have hne : compare other key ≠ .eq := by
          intro he
          apply hk
          rw [← Std.TransCmp.congr_left he]
          exact ho
        simp [ho, hne]
      · simp [ho]

omit [Std.TransOrd κ] in
/-- A value that is found belongs to an entry whose key compares equal. -/
theorem exists_of_find? {key : κ} {value : α} {entries : List (κ × α)}
    (h : find? key entries = some value) :
    ∃ other, compare key other = .eq ∧ (other, value) ∈ entries := by
  induction entries with
  | nil => simp [find?] at h
  | cons head rest ih =>
    obtain ⟨k, v⟩ := head
    by_cases hk : compare key k = .eq
    · simp only [find?, hk, if_true, Option.some.injEq] at h
      exact ⟨k, hk, by simp [h]⟩
    · simp only [find?, hk, if_false] at h
      obtain ⟨other, he, hm⟩ := ih h
      exact ⟨other, he, List.mem_cons_of_mem _ hm⟩

/-- An entry of ascending ones is found by its key. -/
theorem find?_of_mem {key : κ} {value : α} {entries : List (κ × α)} (h : Ascending entries)
    (hm : (key, value) ∈ entries) : find? key entries = some value := by
  induction entries with
  | nil => cases hm
  | cons head rest ih =>
    obtain ⟨k, v⟩ := head
    obtain ⟨hhead, hrest⟩ := List.pairwise_cons.1 h
    rcases List.mem_cons.1 hm with hm | hm
    · cases hm
      simp [find?]
    · have hlt : compare key k = .gt := Std.OrientedCmp.gt_iff_lt.2 (hhead _ hm)
      rw [find?, if_neg (by rw [hlt]; decide)]
      exact ih hrest hm

omit [Std.TransOrd κ] in
/-- An entry after an insertion is the new one or has the value it had. -/
theorem value_mem_insert {key : κ} {value : α} {entry : κ × α} {entries : List (κ × α)}
    (h : entry ∈ insert key value entries) :
    entry.2 = value ∨ ∃ other ∈ entries, other.2 = entry.2 := by
  induction entries with
  | nil =>
    simp only [insert, List.mem_singleton] at h
    exact .inl (by rw [h])
  | cons head rest ih =>
    obtain ⟨k, v⟩ := head
    simp only [insert] at h
    split at h
    · rcases List.mem_cons.mp h with h | h
      · exact .inl (by rw [h])
      · exact .inr ⟨entry, h, rfl⟩
    · rcases List.mem_cons.mp h with h | h
      · exact .inl (by rw [h])
      · exact .inr ⟨entry, List.mem_cons_of_mem _ h, rfl⟩
    · rcases List.mem_cons.mp h with h | h
      · exact .inr ⟨(k, v), by simp, by rw [h]⟩
      · rcases ih h with h | ⟨other, hm, he⟩
        · exact .inl h
        · exact .inr ⟨other, List.mem_cons_of_mem _ hm, he⟩

omit [Std.TransOrd κ] in
/-- A new key adds its entry to those that were there. -/
theorem insert_perm {key : κ} (value : α) {entries : List (κ × α)}
    (h : ∀ entry ∈ entries, compare key entry.1 ≠ .eq) :
    (insert key value entries).Perm ((key, value) :: entries) := by
  induction entries with
  | nil => exact .refl _
  | cons head rest ih =>
    obtain ⟨k, v⟩ := head
    simp only [insert]
    split
    · exact .refl _
    · rename_i heq
      exact absurd heq (h (k, v) (by simp))
    · have hrest := ih fun entry hm => h entry (List.mem_cons_of_mem _ hm)
      exact (hrest.cons (k, v)).trans (.swap _ _ _)

omit [Std.TransOrd κ] in
/-- As many keys pass a test as before if the new one does not. -/
theorem countP_insert (test : κ → Bool) {key : κ} (value : α) (h : test key = false)
    (entries : List (κ × α)) :
    (insert key value entries).countP (fun entry => test entry.1) =
      entries.countP fun entry => test entry.1 := by
  induction entries with
  | nil => simp [insert, h]
  | cons head rest ih =>
    obtain ⟨k, v⟩ := head
    simp only [insert]
    split
    · rw [List.countP_cons_of_neg (by simp [h])]
    · simp only [List.countP_cons]
    · simp only [List.countP_cons, ih]

/-- Without its first key a map has the rest of its entries. -/
theorem erase_head {key : κ} {value : α} {rest : List (κ × α)}
    (h : Ascending ((key, value) :: rest)) : erase key ((key, value) :: rest) = rest := by
  have hrest := (List.pairwise_cons.1 h).1
  unfold erase
  rw [List.filter_cons_of_neg (by simp), List.filter_eq_self]
  intro entry hm
  simp [hrest entry hm]

omit [Std.TransOrd κ] in
/-- A key before all others has no value. -/
theorem find?_of_forall_lt {key : κ} {entries : List (κ × α)}
    (h : ∀ entry ∈ entries, compare key entry.1 = .lt) : find? key entries = none := by
  induction entries with
  | nil => rfl
  | cons entry rest ih =>
    obtain ⟨hentry, hrest⟩ := List.forall_mem_cons.1 h
    rw [find?, if_neg (by rw [hentry]; decide), ih hrest]

/-- What comes before the first of ascending keys comes before all of them. -/
theorem forall_lt_of_lt {key k : κ} {v : α} {rest : List (κ × α)}
    (h : Ascending ((k, v) :: rest)) (hlt : compare key k = .lt) :
    ∀ entry ∈ (k, v) :: rest, compare key entry.1 = .lt :=
  List.forall_mem_cons.2 ⟨hlt, fun entry hm =>
    Std.TransCmp.lt_trans hlt ((List.pairwise_cons.1 h).1 entry hm)⟩

/-- The value that is replaced is the one the key had. -/
theorem put_fst (key : κ) (value : α) {entries : List (κ × α)} (h : Ascending entries) :
    (put key value entries).1 = find? key entries := by
  induction entries with
  | nil => rfl
  | cons head rest ih =>
    obtain ⟨k, v⟩ := head
    rw [put_cons]
    split
    · rename_i hlt
      exact (find?_of_forall_lt (forall_lt_of_lt h hlt)).symm
    · rename_i heq
      simp [find?, heq]
    · rename_i hgt
      rw [find?, if_neg (by rw [hgt]; decide)]
      exact ih (List.pairwise_cons.1 h).2

/-- The value that is taken out is the one the key had. -/
theorem take_eq (key : κ) {entries : List (κ × α)} (h : Ascending entries) :
    take key entries = (find? key entries, erase key entries) := by
  induction entries with
  | nil => rfl
  | cons head rest ih =>
    obtain ⟨k, v⟩ := head
    rw [take_cons]
    split
    · rename_i hlt
      have hbefore := forall_lt_of_lt h hlt
      rw [find?_of_forall_lt hbefore, erase,
        List.filter_eq_self.2 fun entry hm => by simp [hbefore entry hm]]
    · rename_i heq
      have hrest : erase key rest = rest := by
        refine List.filter_eq_self.2 fun entry hm => ?_
        have hlt := (List.pairwise_cons.1 h).1 entry hm
        rw [← Std.TransCmp.congr_left heq] at hlt
        simp [hlt]
      rw [find?, if_pos heq, erase, List.filter_cons_of_neg (by simp [heq])]
      exact congrArg _ hrest.symm
    · rename_i hgt
      rw [ih (List.pairwise_cons.1 h).2, find?, if_neg (by rw [hgt]; decide), erase, erase,
        List.filter_cons_of_pos (by simp [hgt])]

/-- A changed value is found under its key, and all others are as before. -/
theorem find?_modify (key other : κ) (change : α → α) (entries : List (κ × α)) :
    find? other (modify key change entries) =
      if compare other key = .eq then (find? other entries).map change
      else find? other entries := by
  induction entries with
  | nil => simp [modify, find?]
  | cons head rest ih =>
    obtain ⟨k, v⟩ := head
    unfold modify at ih ⊢
    simp only [List.map_cons, find?, ih]
    by_cases hk : compare other k = .eq
    · have hsame : compare key k = .eq ↔ compare other key = .eq := by
        rw [← Std.TransCmp.congr_right hk, Std.OrientedCmp.eq_comm]
      by_cases ho : compare other key = .eq <;> simp [hk, ho, hsame]
    · simp [hk]

end Entries

namespace SortedMap

variable {κ α : Type} [Ord κ] [Std.TransOrd κ]

/-- After an insertion the key has the new value and all others have theirs. -/
theorem get?_insert (map : SortedMap κ α) (key other : κ) (value : α) :
    (map.insert key value).get? other =
      if compare other key = .eq then some value else map.get? other :=
  Entries.find?_insert key other value map.entries

/-- After a removal the key has no value and all others have theirs. -/
theorem get?_erase (map : SortedMap κ α) (key other : κ) :
    (map.erase key).get? other = if compare other key = .eq then none else map.get? other :=
  Entries.find?_erase key other map.entries

/-- What a map has under a key is the one entry with that key. -/
theorem get?_eq_some_iff [Std.LawfulEqOrd κ] {map : SortedMap κ α} {key : κ} {value : α} :
    map.get? key = some value ↔ (key, value) ∈ map.entries := by
  refine ⟨fun h => ?_, Entries.find?_of_mem map.ascending⟩
  obtain ⟨other, heq, hm⟩ := Entries.exists_of_find? h
  obtain rfl : key = other := Std.LawfulEqOrd.eq_of_compare heq
  exact hm

/-- Every value of a map made of entries is one of theirs. -/
theorem value_mem_ofList {entries : List (κ × α)} {entry : κ × α}
    (h : entry ∈ (ofList entries).entries) : ∃ given ∈ entries, given.2 = entry.2 := by
  have hfold : ∀ (rest : List (κ × α)) (map : SortedMap κ α),
      entry ∈ (rest.foldl (fun map given => map.insert given.1 given.2) map).entries →
      (∃ given ∈ rest, given.2 = entry.2) ∨ ∃ given ∈ map.entries, given.2 = entry.2 := by
    intro rest
    induction rest with
    | nil => exact fun map hm => .inr ⟨entry, hm, rfl⟩
    | cons head rest ih =>
      intro map hm
      rcases ih _ hm with ⟨given, hg, he⟩ | ⟨given, hg, he⟩
      · exact .inl ⟨given, List.mem_cons_of_mem _ hg, he⟩
      · rcases Entries.value_mem_insert hg with hv | ⟨other, ho, hv⟩
        · exact .inl ⟨head, by simp, by rw [← he, hv]⟩
        · exact .inr ⟨other, ho, by rw [hv, he]⟩
  rcases hfold entries empty h with hg | ⟨given, hg, -⟩
  · exact hg
  · simp [empty] at hg

omit [Std.TransOrd κ] in
/-- Sorted maps with the same entries are the same. -/
theorem eq_of_entries_eq {left right : SortedMap κ α} (h : left.entries = right.entries) :
    left = right := by
  obtain ⟨entries, hleft⟩ := left
  obtain ⟨others, hright⟩ := right
  obtain rfl : entries = others := h
  rfl

/-- A value put in is inserted, and the one the key had comes back. -/
theorem put_eq (map : SortedMap κ α) (key : κ) (value : α) :
    map.put key value = (map.get? key, map.insert key value) :=
  Prod.ext (Entries.put_fst key value map.ascending)
    (eq_of_entries_eq (Entries.put_snd key value map.entries))

/-- A value taken out is removed, and comes back. -/
theorem take_eq (map : SortedMap κ α) (key : κ) :
    map.take key = (map.get? key, map.erase key) := by
  have htake := Entries.take_eq key map.ascending
  have hentries : (map.take key).2.entries = (map.erase key).entries := congrArg Prod.snd htake
  have hold : (map.take key).1 = map.get? key := congrArg Prod.fst htake
  exact Prod.ext hold (eq_of_entries_eq hentries)

/-- A changed value is found under its key, and all others are as before. -/
theorem get?_modify (map : SortedMap κ α) (key other : κ) (change : α → α) :
    (map.modify key change).get? other =
      if compare other key = .eq then (map.get? other).map change else map.get? other :=
  Entries.find?_modify key other change map.entries

omit [Std.TransOrd κ] in
/-- The keys of a sorted map are different. -/
theorem nodup_keys [Std.ReflOrd κ] (map : SortedMap κ α) : map.keys.Nodup := by
  refine List.pairwise_map.2 (map.ascending.imp fun hlt heq => ?_)
  simp [heq] at hlt

/-- Sorted maps that have the same values are the same. -/
theorem eq_of_get? [Std.LawfulEqOrd κ] {left right : SortedMap κ α}
    (h : ∀ key, left.get? key = right.get? key) : left = right := by
  have hmem : ∀ entry, entry ∈ left.entries ↔ entry ∈ right.entries := by
    rintro ⟨key, value⟩
    rw [← get?_eq_some_iff, ← get?_eq_some_iff, h]
  have hperm : left.entries.Perm right.entries :=
    (List.perm_ext_iff_of_nodup left.nodup_keys.of_map right.nodup_keys.of_map).2 hmem
  refine eq_of_entries_eq (hperm.eq_of_pairwise (fun first second _ _ hlt hgt => ?_)
    left.ascending right.ascending)
  rw [Std.OrientedCmp.gt_iff_lt.2 hgt] at hlt
  cases hlt

end SortedMap

/-- Actors compare equal only to themselves. -/
instance : Std.LawfulEqOrd Actor where
  eq_of_compare {a b} h := by
    obtain ⟨a⟩ := a
    obtain ⟨b⟩ := b
    exact congrArg Actor.mk (Std.LawfulEqOrd.eq_of_compare h)

namespace ActorCounts

/-- Adding one moves the number of that actor and of no other. -/
theorem count_add (counts : ActorCounts) (actor other : Actor) :
    (counts.add actor).count other = counts.count other + if other = actor then 1 else 0 := by
  by_cases h : other = actor
  · simp [add, count, SortedMap.get?_insert, h]
  · simp [add, count, SortedMap.get?_insert, h]

/-- Making an entry leaves all numbers alone. -/
@[simp] theorem count_touch (counts : ActorCounts) (actor other : Actor) :
    (counts.touch actor).count other = counts.count other := by
  by_cases h : other = actor
  · simp [touch, count, SortedMap.get?_insert, h]
  · simp [touch, count, SortedMap.get?_insert, h]

/-- Giving one back moves the number of that actor, down to zero at least, and
of no other. -/
theorem count_remove (counts : ActorCounts) (actor other : Actor) :
    (counts.remove actor).count other = counts.count other - if other = actor then 1 else 0 := by
  unfold remove
  split
  · rename_i hn
    by_cases h : other = actor
    · simp [h, count, hn]
    · simp [h]
  · rename_i number hs
    by_cases h : other = actor
    · subst h
      split
      · simp [count, SortedMap.get?_erase, hs]
        omega
      · simp [count, SortedMap.get?_insert, hs]
    · split
      · simp [count, SortedMap.get?_erase, h]
      · simp [count, SortedMap.get?_insert, h]

/-- Removing an entry that stands at zero leaves all numbers alone. -/
@[simp] theorem count_prune (counts : ActorCounts) (actor other : Actor) :
    (counts.prune actor).count other = counts.count other := by
  unfold prune
  split
  · rename_i hz
    by_cases h : other = actor
    · subst h
      simp [count, SortedMap.get?_erase, hz]
    · simp [count, SortedMap.get?_erase, h]
  · rfl

end ActorCounts

end GridScript
