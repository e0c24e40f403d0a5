import GridScript.Store.SlotMap
import Mathlib.Algebra.Ring.Nat
import Mathlib.Data.List.Basic

/-!
# Slots and their keys

What a slot map says of a key after every operation, and how the sum of a weight
over the stored values moves. The vacant slots form a chain, each with a link to the
one that is taken after it, and the map counts the others.
-/

namespace GridScript.SlotMap

variable {α : Type}

/-- Following the links from a slot on goes through some vacant slots and then ends. -/
inductive Chain (slots : List (Slot α)) : Option Nat → List Nat → Prop where
  /-- There is no link to follow. -/
  | nil : Chain slots none []
  /-- A vacant slot has the link to the next one. -/
  | cons {index : Nat} {generation : UInt32} {next : Option Nat} {rest : List Nat}
    (vacant : slots[index]? = some (.vacant generation next)) (chain : Chain slots next rest) :
    Chain slots (some index) (index :: rest)

namespace Chain

variable {slots : List (Slot α)} {head : Option Nat} {free : List Nat}

/-- A chain goes through vacant slots only. -/
theorem exists_vacant (h : Chain slots head free) {index : Nat} (hm : index ∈ free) :
    ∃ generation next, slots[index]? = some (.vacant generation next) := by
  induction h with
  | nil => cases hm
  | cons vacant _ ih =>
    rcases List.mem_cons.1 hm with rfl | hm
    · exact ⟨_, _, vacant⟩
    · exact ih hm

/-- A slot with a value is not in a chain. -/
theorem not_mem (h : Chain slots head free) {index : Nat} {generation : UInt32} {value : α}
    (hs : slots[index]? = some (.occupied generation value)) : index ∉ free := by
  intro hm
  obtain ⟨_, _, hvacant⟩ := h.exists_vacant hm
  rw [hs] at hvacant
  cases hvacant

/-- There is one way to follow the links. -/
theorem unique (h : Chain slots head free) {other : List Nat} (ho : Chain slots head other) :
    free = other := by
  induction h generalizing other with
  | nil =>
    cases ho
    rfl
  | cons vacant _ ih =>
    cases ho with
    | cons found chain =>
      rw [vacant] at found
      cases found
      rw [ih chain]

/-- From a slot of a chain on the chain goes through no more slots. -/
theorem exists_from (h : Chain slots head free) {index : Nat} (hm : index ∈ free) :
    ∃ tail, Chain slots (some index) tail ∧ tail.length ≤ free.length := by
  induction h with
  | nil => cases hm
  | cons vacant chain ih =>
    rcases List.mem_cons.1 hm with rfl | hm
    · exact ⟨_, .cons vacant chain, Nat.le_refl _⟩
    · obtain ⟨tail, htail, hlength⟩ := ih hm
      exact ⟨tail, htail, Nat.le_succ_of_le hlength⟩

/-- A chain that ends goes through no slot twice. -/
theorem nodup (h : Chain slots head free) : free.Nodup := by
  induction h with
  | nil => exact List.nodup_nil
  | @cons index generation next rest vacant chain ih =>
    refine List.nodup_cons.2 ⟨fun hm => ?_, ih⟩
    obtain ⟨tail, htail, hlength⟩ := chain.exists_from hm
    rw [htail.unique (.cons vacant chain), List.length_cons] at hlength
    exact Nat.not_succ_le_self _ hlength

/-- A change elsewhere leaves a chain alone. -/
theorem set (h : Chain slots head free) {index : Nat} (hn : index ∉ free) (new : Slot α) :
    Chain (slots.set index new) head free := by
  induction h with
  | nil => exact .nil
  | cons vacant _ ih =>
    rw [List.mem_cons, not_or] at hn
    exact .cons (by rw [List.getElem?_set_ne hn.1, vacant]) (ih hn.2)

end Chain

/-- The vacant slots form a chain, and the count is right. -/
structure Tidy (map : SlotMap α) : Prop where
  /-- The links lead through all vacant slots. -/
  chained : ∃ free, Chain map.slots map.head free ∧
    ∀ index generation next, map.slots[index]? = some (.vacant generation next) → index ∈ free
  /-- The count is the number of stored values. -/
  counted : map.count = map.size

/-- The map without slots is tidy. -/
theorem tidy_empty : (empty : SlotMap α).Tidy :=
  ⟨⟨[], .nil, by simp [empty]⟩, rfl⟩

/-- A value that is stored in a tidy map takes the first vacant slot, or a new one if there is
none. -/
theorem Tidy.insert_cases {map : SlotMap α} (ht : map.Tidy) (value : α) :
    (map.head = none ∧ map.insert value =
      (⟨map.slots.length, 0⟩, ⟨map.slots ++ [.occupied 0 value], none, map.count + 1⟩)) ∨
    ∃ index generation next, map.head = some index ∧
      map.slots[index]? = some (.vacant generation next) ∧ map.insert value =
        (⟨index, generation⟩,
          ⟨map.slots.set index (.occupied generation value), next, map.count + 1⟩) := by
  obtain ⟨free, hchain, -⟩ := ht.chained
  unfold insert vacancy?
  cases hhead : map.head with
  | none => exact .inl ⟨rfl, rfl⟩
  | some index =>
    rw [hhead] at hchain
    cases hchain with
    | cons vacant => exact .inr ⟨index, _, _, rfl, vacant, by simp [vacant]⟩

/-- A key addresses a value exactly when its slot holds that value in its own
generation. -/
theorem get?_eq_some {map : SlotMap α} {key : SlotKey} {value : α} :
    map.get? key = some value ↔ map.slots[key.slot]? = some (.occupied key.generation value) := by
  unfold get?
  cases hs : map.slots[key.slot]? with
  | none => simp
  | some slot =>
    cases slot with
    | vacant generation next => simp
    | occupied generation content =>
      by_cases hg : generation = key.generation
      · simp [hg]
      · simp [hg]

/-- In a tidy map a new value is stored under a key that addressed nothing. -/
theorem get?_insert_key {map : SlotMap α} (ht : map.Tidy) (value : α) :
    map.get? (map.insert value).1 = none := by
  rcases ht.insert_cases value with ⟨-, h⟩ | ⟨index, generation, next, -, hs, h⟩
  · simp [h, get?]
  · simp [h, get?, hs]

/-- In a tidy map a new value is found under its key and nothing else changes. -/
theorem get?_insert {map : SlotMap α} (ht : map.Tidy) (value : α) (key : SlotKey) :
    (map.insert value).2.get? key =
      if key = (map.insert value).1 then some value else map.get? key := by
  obtain ⟨slot, generation⟩ := key
  rcases ht.insert_cases value with ⟨-, h⟩ | ⟨index, old, next, -, hs, h⟩
  · rw [h]
    by_cases hs : slot = map.slots.length
    · subst hs
      by_cases hg : generation = 0
      · simp [get?, hg]
      · simp [get?, hg, Ne.symm hg]
    · by_cases hl : slot < map.slots.length
      · simp [get?, hs, List.getElem?_append_left hl]
      · have hnew : (map.slots ++ [.occupied 0 value])[slot]? = none := by
          rw [List.getElem?_eq_none_iff, List.length_append, List.length_singleton]
          omega
        simp [get?, hs, hnew, List.getElem?_eq_none (Nat.le_of_not_lt hl)]
  · rw [h]
    have hl : index < map.slots.length := (List.getElem?_eq_some_iff.mp hs).1
    by_cases hi : slot = index
    · subst hi
      simp only [get?, hs, List.getElem?_set_self hl]
      by_cases hg : generation = old
      · simp [hg]
      · simp [hg, Ne.symm hg]
    · simp [get?, hi, List.getElem?_set_ne (Ne.symm hi)]

/-- A removed value is no longer found, and nothing else changes. -/
theorem get?_erase (map : SlotMap α) (key other : SlotKey) :
    (map.erase key).get? other = if other = key then none else map.get? other := by
  unfold erase
  cases hk : map.get? key with
  | none =>
    by_cases ho : other = key
    · simp [ho, hk]
    · simp [ho]
  | some value =>
    have hs := get?_eq_some.mp hk
    have hl : key.slot < map.slots.length := (List.getElem?_eq_some_iff.mp hs).1
    obtain ⟨slot, generation⟩ := other
    obtain ⟨index, current⟩ := key
    by_cases hi : slot = index
    · subst hi
      simp only [get?, hs, List.getElem?_set_self hl]
      by_cases hg : generation = current
      · simp [hg]
      · simp [hg, Ne.symm hg]
    · simp [get?, hi, List.getElem?_set_ne (Ne.symm hi)]

/-- A replaced value is found under its key, and nothing else changes. -/
theorem get?_set {map : SlotMap α} {key : SlotKey} {old : α} (hk : map.get? key = some old)
    (value : α) (other : SlotKey) :
    (map.set key value).get? other = if other = key then some value else map.get? other := by
  unfold set
  have hs := get?_eq_some.mp hk
  have hl : key.slot < map.slots.length := (List.getElem?_eq_some_iff.mp hs).1
  obtain ⟨slot, generation⟩ := other
  obtain ⟨index, current⟩ := key
  simp only [hk]
  by_cases hi : slot = index
  · subst hi
    simp only [get?, hs, List.getElem?_set_self hl]
    by_cases hg : generation = current
    · simp [hg]
    · simp [hg, Ne.symm hg]
  · simp [get?, hi, List.getElem?_set_ne (Ne.symm hi)]

/-- The generation of a slot; a slot that was never used has the first one. -/
def generation (map : SlotMap α) (index : Nat) : UInt32 :=
  (map.slots[index]?.map Slot.generation).getD 0

/-- A key that addresses a value is of the current generation of its slot. -/
theorem generation_of_get? {map : SlotMap α} {key : SlotKey} {value : α}
    (hk : map.get? key = some value) : key.generation = map.generation key.slot := by
  rw [generation, get?_eq_some.mp hk]
  rfl

/-- A new key is of the current generation of its slot. -/
theorem generation_insert_key {map : SlotMap α} (ht : map.Tidy) (value : α) :
    (map.insert value).1.generation = map.generation (map.insert value).1.slot := by
  rcases ht.insert_cases value with ⟨-, h⟩ | ⟨index, old, next, -, hs, h⟩
  · simp [h, generation]
  · simp [h, generation, hs, Slot.generation]

/-- Storing a value leaves all generations alone. -/
theorem generation_insert {map : SlotMap α} (ht : map.Tidy) (value : α) (index : Nat) :
    (map.insert value).2.generation index = map.generation index := by
  rcases ht.insert_cases value with ⟨-, h⟩ | ⟨slot, old, next, -, hs, h⟩
  · rw [h]
    by_cases hi : index < map.slots.length
    · simp [generation, List.getElem?_append_left hi]
    · by_cases he : index = map.slots.length
      · simp [generation, he, Slot.generation]
      · have hnew : (map.slots ++ [.occupied 0 value])[index]? = none := by
          rw [List.getElem?_eq_none_iff, List.length_append, List.length_singleton]
          omega
        simp [generation, hnew, List.getElem?_eq_none (Nat.le_of_not_lt hi)]
  · rw [h]
    have hl : slot < map.slots.length := (List.getElem?_eq_some_iff.mp hs).1
    by_cases hi : index = slot
    · subst hi
      simp only [generation, hs, List.getElem?_set_self hl]
      rfl
    · simp [generation, List.getElem?_set_ne (Ne.symm hi)]

/-- Removing a value starts the next generation of its slot and of no other. -/
theorem generation_erase {map : SlotMap α} {key : SlotKey} {value : α}
    (hk : map.get? key = some value) (index : Nat) :
    (map.erase key).generation index =
      if index = key.slot then map.generation index + 1 else map.generation index := by
  have hs := get?_eq_some.mp hk
  have hl : key.slot < map.slots.length := (List.getElem?_eq_some_iff.mp hs).1
  unfold erase
  simp only [hk]
  by_cases hi : index = key.slot
  · subst hi
    simp only [generation, hs, List.getElem?_set_self hl, Option.map_some, Option.getD_some,
      reduceIte, Slot.generation]
  · simp [generation, hi, List.getElem?_set_ne (Ne.symm hi)]

/-- Replacing a value leaves all generations alone. -/
theorem generation_set {map : SlotMap α} {key : SlotKey} {old : α}
    (hk : map.get? key = some old) (value : α) (index : Nat) :
    (map.set key value).generation index = map.generation index := by
  have hs := get?_eq_some.mp hk
  have hl : key.slot < map.slots.length := (List.getElem?_eq_some_iff.mp hs).1
  unfold set
  simp only [hk]
  by_cases hi : index = key.slot
  · subst hi
    simp only [generation, hs, List.getElem?_set_self hl, Option.map_some, Option.getD_some,
      Slot.generation]
  · simp [generation, List.getElem?_set_ne (Ne.symm hi)]

/-- A value that is replaced by itself stays. -/
theorem set_self {map : SlotMap α} {key : SlotKey} {value : α} (hk : map.get? key = some value) :
    map.set key value = map := by
  obtain ⟨hl, hv⟩ := List.getElem?_eq_some_iff.mp (get?_eq_some.mp hk)
  unfold set
  simp only [hk]
  rw [← hv, List.set_getElem_self]

/-- Of two replacements the second one stays. -/
theorem set_set {map : SlotMap α} {key : SlotKey} {old : α} (hk : map.get? key = some old)
    (first second : α) : (map.set key first).set key second = map.set key second := by
  have hfirst : (map.set key first).get? key = some first := by
    rw [get?_set hk, if_pos rfl]
  unfold set at hfirst ⊢
  simp only [hk] at hfirst ⊢
  simp only [hfirst, List.set_set]

/-- What is removed need not be replaced before. -/
theorem erase_set {map : SlotMap α} {key : SlotKey} {old : α} (hk : map.get? key = some old)
    (value : α) : (map.set key value).erase key = map.erase key := by
  have hset : (map.set key value).get? key = some value := by
    rw [get?_set hk, if_pos rfl]
  unfold set erase at *
  simp only [hk] at hset ⊢
  simp only [hset, List.set_set]

/-- The sum of a weight over the stored values. -/
def total (map : SlotMap α) (weight : α → Nat) : Nat :=
  (map.entries.map fun entry => weight entry.2).sum

/-- The weight of what a slot holds. -/
def slotWeight (weight : α → Nat) (slot : Slot α) : Nat :=
  (slot.value.map weight).getD 0

/-- The sum over the entries is the sum over the slots. -/
theorem sum_entriesFrom (weight : α → Nat) (slots : List (Slot α)) (start : Nat) :
    ((entriesFrom start slots).map fun entry => weight entry.2).sum =
      (slots.map (slotWeight weight)).sum := by
  induction slots generalizing start with
  | nil => rfl
  | cons slot rest ih => cases slot <;> simp [entriesFrom, slotWeight, Slot.value, ih]

/-- Replacing one slot moves the sum by the difference of the two weights. -/
theorem sum_set_slot (weight : α → Nat) {slots : List (Slot α)} {index : Nat} {old : Slot α}
    (hs : slots[index]? = some old) (new : Slot α) :
    ((slots.set index new).map (slotWeight weight)).sum + slotWeight weight old =
      (slots.map (slotWeight weight)).sum + slotWeight weight new := by
  induction slots generalizing index with
  | nil => simp at hs
  | cons slot rest ih =>
    cases index with
    | zero =>
      have he : slot = old := by simpa using hs
      subst he
      simp only [List.set_cons_zero, List.map_cons, List.sum_cons]
      omega
    | succ index =>
      have hrest := ih (by simpa using hs)
      simp only [List.set_cons_succ, List.map_cons, List.sum_cons]
      omega

/-- A stored value adds its weight. -/
theorem total_insert {map : SlotMap α} (ht : map.Tidy) (weight : α → Nat) (value : α) :
    (map.insert value).2.total weight = map.total weight + weight value := by
  unfold total entries
  simp only [sum_entriesFrom]
  rcases ht.insert_cases value with ⟨-, h⟩ | ⟨index, generation, next, -, hs, h⟩
  · simp [h, slotWeight, Slot.value]
  · rw [h]
    exact sum_set_slot weight hs (.occupied generation value)

/-- A removed value takes its weight along. -/
theorem total_erase {map : SlotMap α} {key : SlotKey} {value : α}
    (hk : map.get? key = some value) (weight : α → Nat) :
    (map.erase key).total weight + weight value = map.total weight := by
  unfold erase total entries
  simp only [sum_entriesFrom, hk]
  exact sum_set_slot weight (get?_eq_some.mp hk) (.vacant (key.generation + 1) map.head)

/-- A replaced value takes its weight along and the new one adds its own. -/
theorem total_set {map : SlotMap α} {key : SlotKey} {old : α} (hk : map.get? key = some old)
    (weight : α → Nat) (value : α) :
    (map.set key value).total weight + weight old = map.total weight + weight value := by
  unfold set total entries
  simp only [sum_entriesFrom, hk]
  exact sum_set_slot weight (get?_eq_some.mp hk) (.occupied key.generation value)

/-- The size of a map is the sum of ones. -/
theorem size_eq_total (map : SlotMap α) : map.size = map.total fun _ => 1 := by
  simp [size, total]

/-- A stored value weighs no more than all of them. -/
theorem le_total {map : SlotMap α} {key : SlotKey} {value : α}
    (hk : map.get? key = some value) (weight : α → Nat) : weight value ≤ map.total weight := by
  have h := total_erase hk weight
  omega

/-- Storing a value keeps a map tidy. -/
theorem tidy_insert {map : SlotMap α} (ht : map.Tidy) (value : α) :
    (map.insert value).2.Tidy := by
  have hcount : (map.insert value).2.size = map.count + 1 := by
    rw [size_eq_total, total_insert ht, ht.counted, size_eq_total]
  obtain ⟨free, hchain, hall⟩ := ht.chained
  rcases ht.insert_cases value with ⟨hhead, h⟩ | ⟨index, generation, next, hhead, hs, h⟩
  · rw [h] at hcount ⊢
    rw [hhead] at hchain
    cases hchain
    refine ⟨⟨[], .nil, fun index generation next hv => ?_⟩, hcount.symm⟩
    rw [List.getElem?_append] at hv
    split at hv
    · exact hall index generation next hv
    · rw [List.getElem?_singleton] at hv
      split at hv <;> simp at hv
  · rw [h] at hcount ⊢
    have hnodup := hchain.nodup
    rw [hhead] at hchain
    cases hchain with
    | cons vacant chain =>
      rw [hs] at vacant
      cases vacant
      refine ⟨⟨_, chain.set (List.nodup_cons.1 hnodup).1 _, fun other generation next hv => ?_⟩,
        hcount.symm⟩
      have hne : index ≠ other := by
        rintro rfl
        rw [List.getElem?_set_self (List.getElem?_eq_some_iff.1 hs).1] at hv
        cases hv
      rw [List.getElem?_set_ne hne] at hv
      exact List.mem_of_ne_of_mem (Ne.symm hne) (hall other generation next hv)

/-- Removing a value keeps a map tidy. -/
theorem tidy_erase {map : SlotMap α} (ht : map.Tidy) (key : SlotKey) :
    (map.erase key).Tidy := by
  cases hk : map.get? key with
  | none => rwa [show map.erase key = map by simp [erase, hk]]
  | some value =>
    have hs := get?_eq_some.mp hk
    have hl : key.slot < map.slots.length := (List.getElem?_eq_some_iff.mp hs).1
    have hcount : map.count - 1 = (map.erase key).size := by
      have htotal := total_erase hk fun _ => 1
      rw [ht.counted, size_eq_total, size_eq_total]
      omega
    obtain ⟨free, hchain, hall⟩ := ht.chained
    have herase : map.erase key = ⟨map.slots.set key.slot
        (.vacant (key.generation + 1) map.head), some key.slot, map.count - 1⟩ := by
      simp [erase, hk]
    rw [herase] at hcount ⊢
    refine ⟨⟨key.slot :: free,
      .cons (List.getElem?_set_self hl) (hchain.set (hchain.not_mem hs) _),
      fun other generation next hv => ?_⟩, hcount⟩
    by_cases he : key.slot = other
    · exact he ▸ List.mem_cons_self
    · rw [List.getElem?_set_ne he] at hv
      exact List.mem_cons_of_mem _ (hall other generation next hv)

/-- Replacing a value keeps a map tidy. -/
theorem tidy_set {map : SlotMap α} (ht : map.Tidy) (key : SlotKey) (value : α) :
    (map.set key value).Tidy := by
  cases hk : map.get? key with
  | none => rwa [show map.set key value = map by simp [set, hk]]
  | some old =>
    have hs := get?_eq_some.mp hk
    have hl : key.slot < map.slots.length := (List.getElem?_eq_some_iff.mp hs).1
    have hcount : map.count = (map.set key value).size := by
      have htotal := total_set hk (fun _ => 1) value
      rw [ht.counted, size_eq_total, size_eq_total]
      omega
    obtain ⟨free, hchain, hall⟩ := ht.chained
    have hset : map.set key value = { map with
        slots := map.slots.set key.slot (.occupied key.generation value) } := by
      simp [set, hk]
    rw [hset] at hcount ⊢
    refine ⟨⟨free, hchain.set (hchain.not_mem hs) _, fun other generation next hv => ?_⟩, hcount⟩
    have hne : key.slot ≠ other := by
      rintro rfl
      rw [List.getElem?_set_self hl] at hv
      cases hv
    rw [List.getElem?_set_ne hne] at hv
    exact hall other generation next hv

/-- The entries from a slot on are the values of the slots from there on. -/
theorem mem_entriesFrom {slots : List (Slot α)} {start : Nat} {key : SlotKey} {value : α} :
    (key, value) ∈ entriesFrom start slots ↔
      ∃ index, key.slot = start + index ∧
        slots[index]? = some (.occupied key.generation value) := by
  induction slots generalizing start with
  | nil => simp [entriesFrom]
  | cons slot rest ih =>
    have hrest : ((key, value) ∈ entriesFrom (start + 1) rest ↔
        ∃ index, key.slot = start + (index + 1) ∧
          rest[index]? = some (.occupied key.generation value)) := by
      rw [ih]
      simp only [Nat.add_assoc, Nat.add_comm 1]
    cases slot with
    | vacant generation next =>
      simp only [entriesFrom, hrest]
      constructor
      · rintro ⟨index, hi, hs⟩
        exact ⟨index + 1, hi, by simpa using hs⟩
      · rintro ⟨index, hi, hs⟩
        cases index with
        | zero => simp at hs
        | succ index => exact ⟨index, hi, by simpa using hs⟩
    | occupied generation content =>
      simp only [entriesFrom, List.mem_cons, hrest]
      constructor
      · rintro (he | ⟨index, hi, hs⟩)
        · cases he
          exact ⟨0, rfl, by simp⟩
        · exact ⟨index + 1, hi, by simpa using hs⟩
      · rintro ⟨index, hi, hs⟩
        cases index with
        | zero =>
          left
          obtain ⟨slot, current⟩ := key
          simp only [List.getElem?_cons_zero, Option.some.injEq, Slot.occupied.injEq] at hs
          simp_all
        | succ index => exact .inr ⟨index, hi, by simpa using hs⟩

/-- The entries are the keys that address a value, with that value. -/
theorem mem_entries {map : SlotMap α} {key : SlotKey} {value : α} :
    (key, value) ∈ map.entries ↔ map.get? key = some value := by
  rw [entries, mem_entriesFrom, get?_eq_some]
  simp

/-- The entries from a slot on are in the order of slots. -/
theorem pairwise_entriesFrom (slots : List (Slot α)) (start : Nat) :
    (entriesFrom start slots).Pairwise fun first second => first.1.slot < second.1.slot := by
  induction slots generalizing start with
  | nil => exact .nil
  | cons slot rest ih =>
    cases slot with
    | vacant generation next => exact ih (start + 1)
    | occupied generation value =>
      refine List.pairwise_cons.2 ⟨fun entry hm => ?_, ih (start + 1)⟩
      obtain ⟨index, hslot, -⟩ := mem_entriesFrom.1 hm
      dsimp only
      omega

/-- The entries from a slot on are under different keys. -/
theorem nodup_keysFrom (slots : List (Slot α)) (start : Nat) :
    ((entriesFrom start slots).map Prod.fst).Nodup := by
  refine List.pairwise_map.2 ((pairwise_entriesFrom slots start).imp fun hlt heq => ?_)
  rw [heq] at hlt
  exact Nat.lt_irrefl _ hlt

/-- The listed keys are those that address a value which passes the test. -/
theorem mem_keysWhere {map : SlotMap α} {test : α → Bool} {key : SlotKey} :
    key ∈ map.keysWhere test ↔ ∃ value, map.get? key = some value ∧ test value = true := by
  unfold keysWhere
  constructor
  · intro h
    obtain ⟨⟨other, value⟩, hm, he⟩ := List.mem_map.mp h
    obtain ⟨hm, ht⟩ := List.mem_filter.mp hm
    cases he
    exact ⟨value, mem_entries.mp hm, ht⟩
  · rintro ⟨value, hv, ht⟩
    exact List.mem_map.mpr
      ⟨(key, value), List.mem_filter.mpr ⟨mem_entries.mpr hv, ht⟩, rfl⟩

/-- A map in which no key addresses anything weighs nothing. -/
theorem total_eq_zero {map : SlotMap α} (hn : ∀ key, map.get? key = none) (weight : α → Nat) :
    map.total weight = 0 := by
  have he : map.entries = [] := by
    rw [List.eq_nil_iff_forall_not_mem]
    rintro ⟨key, value⟩ hm
    cases (hn key).symm.trans (mem_entries.mp hm)
  rw [total, he]
  rfl

/-- A total in which only some values weigh is one over those. -/
theorem total_ite (map : SlotMap α) (test : α → Bool) (weight : α → Nat) :
    (map.total fun value => if test value then weight value else 0) =
      ((map.entries.filter fun entry => test entry.2).map fun entry => weight entry.2).sum := by
  unfold total
  induction map.entries with
  | nil => rfl
  | cons entry rest ih =>
    cases ht : test entry.2 with
    | false => simpa [ht] using ih
    | true => simpa [ht] using ih

/-- The number of keys whose values pass a test. -/
theorem length_keysWhere (map : SlotMap α) (test : α → Bool) :
    (map.keysWhere test).length = map.total fun value => if test value then 1 else 0 := by
  rw [total_ite]
  simp [keysWhere]

end GridScript.SlotMap
