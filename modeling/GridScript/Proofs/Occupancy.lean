import GridScript.Proofs.Slots
import Mathlib.Data.List.Nodup
import Mathlib.Data.List.Perm.Basic

/-!
# Slot maps as maps with fresh keys

Whatever is stored, removed and replaced, with whatever keys, a slot map answers as if it had
kept a log of all that was done to it. A key that was given out is live or past: its slot has
been vacated more often since then. Generations have 32 bits, so a key can only come back after
its slot was vacated 2 ^ 32 times. The links between vacant slots never run in circles and miss
no vacant slot, so no slot is lost.
-/

namespace GridScript

/-- Something that is done to a slot map, with the key it is about. -/
inductive SlotEvent (α : Type) where
  /-- A value is stored and gets a key. -/
  | stored (key : SlotKey) (value : α)
  /-- The value of a key is to be removed. -/
  | removed (key : SlotKey)
  /-- The value of a key is to be replaced. -/
  | replaced (key : SlotKey) (value : α)

namespace SlotEvent

variable {α : Type}

/-- The key that is given out. -/
def issued? : SlotEvent α → Option SlotKey
  | .stored key _ => some key
  | _ => none

end SlotEvent

namespace SlotLog

variable {α : Type}

/-- The keys that were given out, latest first. -/
def issued (log : List (SlotEvent α)) : List SlotKey :=
  log.filterMap SlotEvent.issued?

/-- The value that was stored last under a key, if it was not removed since. The latest event is
the first one of the log. -/
def valueOf (key : SlotKey) : List (SlotEvent α) → Option α
  | [] => none
  | .stored other value :: earlier => if key = other then some value else valueOf key earlier
  | .removed other :: earlier => if key = other then none else valueOf key earlier
  | .replaced other value :: earlier =>
    if key = other then (valueOf key earlier).map fun _ => value else valueOf key earlier

/-- How often a slot was vacated: removals that find no value do not count. -/
def vacated (slot : Nat) : List (SlotEvent α) → Nat
  | [] => 0
  | .removed key :: earlier =>
    vacated slot earlier + if key.slot = slot ∧ (valueOf key earlier).isSome then 1 else 0
  | _ :: earlier => vacated slot earlier

/-- No slot was vacated so often that its generations repeat. -/
def Unworn (log : List (SlotEvent α)) : Prop :=
  ∀ slot, vacated slot log < 2 ^ 32

/-- The keys that were given out and have a value. -/
def live (log : List (SlotEvent α)) : List SlotKey :=
  (issued log).filter fun key => (valueOf key log).isSome

/-- The slot of a key has been vacated since the key was given out. -/
def Past (log : List (SlotEvent α)) (key : SlotKey) : Prop :=
  key.generation.toNat < vacated key.slot log

/-- More events vacate no fewer slots. -/
theorem vacated_le_cons (event : SlotEvent α) (log : List (SlotEvent α)) (slot : Nat) :
    vacated slot log ≤ vacated slot (event :: log) := by
  cases event with
  | stored | replaced => exact Nat.le_refl _
  | removed => exact Nat.le_add_right _ _

/-- What was not worn out later was not before. -/
theorem Unworn.of_cons {event : SlotEvent α} {log : List (SlotEvent α)}
    (h : Unworn (event :: log)) : Unworn log :=
  fun slot => Nat.lt_of_le_of_lt (vacated_le_cons event log slot) (h slot)

/-- No slot is vacated more often than there are events. -/
theorem vacated_le_length (slot : Nat) (log : List (SlotEvent α)) :
    vacated slot log ≤ log.length := by
  induction log with
  | nil => exact Nat.le_refl _
  | cons event earlier ih =>
    cases event with
    | stored | replaced => exact Nat.le_succ_of_le ih
    | removed key =>
      rw [vacated, List.length_cons]
      split_ifs <;> omega

/-- A short log wears no slot out. -/
theorem Unworn.of_length {log : List (SlotEvent α)} (h : log.length < 2 ^ 32) : Unworn log :=
  fun slot => Nat.lt_of_le_of_lt (vacated_le_length slot log) h

/-- A key with a value was given out. -/
theorem mem_issued_of_valueOf {key : SlotKey} {value : α} {log : List (SlotEvent α)}
    (h : valueOf key log = some value) : key ∈ issued log := by
  induction log generalizing value with
  | nil => cases h
  | cons event earlier ih =>
    cases event with
    | stored other given =>
      unfold valueOf at h
      split_ifs at h with heq
      · exact heq ▸ List.mem_cons_self
      · exact List.mem_cons_of_mem _ (ih h)
    | removed other =>
      unfold valueOf at h
      split_ifs at h
      exact ih h
    | replaced other given =>
      unfold valueOf at h
      split_ifs at h
      · obtain ⟨old, hold, -⟩ := Option.map_eq_some_iff.1 h
        exact ih hold
      · exact ih h

end SlotLog

namespace SlotMap

variable {α : Type}

/-- A map that was empty at first, together with all that was done to it, latest first. -/
inductive Logged : SlotMap α → List (SlotEvent α) → Prop where
  /-- Nothing was done. -/
  | empty : Logged .empty []
  /-- A value was stored. -/
  | insert {map : SlotMap α} {log : List (SlotEvent α)} (h : Logged map log) (value : α) :
    Logged (map.insert value).2 (.stored (map.insert value).1 value :: log)
  /-- A removal was asked for, with any key. -/
  | erase {map : SlotMap α} {log : List (SlotEvent α)} (h : Logged map log) (key : SlotKey) :
    Logged (map.erase key) (.removed key :: log)
  /-- A replacement was asked for, with any key. -/
  | set {map : SlotMap α} {log : List (SlotEvent α)} (h : Logged map log) (key : SlotKey)
    (value : α) : Logged (map.set key value) (.replaced key value :: log)

namespace Logged

variable {map : SlotMap α} {log : List (SlotEvent α)}

/-- A map with a log is tidy. -/
theorem tidy (h : Logged map log) : map.Tidy := by
  induction h with
  | empty => exact tidy_empty
  | insert _ value ih => exact tidy_insert ih value
  | erase _ key ih => exact tidy_erase ih key
  | set _ key value ih => exact tidy_set ih key value

/-- A key addresses the value it has by the log. -/
theorem get?_eq (h : Logged map log) (key : SlotKey) : map.get? key = SlotLog.valueOf key log := by
  induction h with
  | empty => rfl
  | insert h value ih => rw [get?_insert h.tidy, ih, SlotLog.valueOf]
  | erase _ other ih => rw [get?_erase, ih, SlotLog.valueOf]
  | @set map log _ other value ih =>
    rw [SlotLog.valueOf]
    cases hother : map.get? other with
    | none =>
      have hsame : map.set other value = map := by
        simp [SlotMap.set, hother]
      rw [hsame, ← ih]
      split_ifs with heq
      · rw [heq, hother]
        rfl
      · rfl
    | some old =>
      rw [get?_set hother, ← ih]
      split_ifs with heq
      · rw [heq, hother]
        rfl
      · rfl

/-- The generation of a slot is the number of times it was vacated, in 32 bits. -/
theorem generation_eq (h : Logged map log) (slot : Nat) :
    map.generation slot = UInt32.ofNat (SlotLog.vacated slot log) := by
  induction h with
  | empty => rfl
  | insert h value ih =>
    rw [generation_insert h.tidy, ih]
    rfl
  | @erase map log h key ih =>
    rw [SlotLog.vacated, ← h.get?_eq]
    cases hk : map.get? key with
    | none =>
      have hsame : map.erase key = map := by
        simp [SlotMap.erase, hk]
      rw [hsame, ih]
      simp
    | some value =>
      rw [generation_erase hk, ih]
      by_cases hslot : slot = key.slot
      · simp [hslot]
      · simp [hslot, Ne.symm hslot]
  | @set map log _ key value ih =>
    have hgeneration : (map.set key value).generation slot = map.generation slot := by
      cases hk : map.get? key with
      | none => simp [SlotMap.set, hk]
      | some old => rw [generation_set hk]
    rw [hgeneration, ih]
    rfl

/-- As long as no slot is worn out, a key of the current generation of its slot says how often
that was vacated. -/
theorem vacated_eq (h : Logged map log) (hu : SlotLog.Unworn log) {key : SlotKey}
    (hg : key.generation = map.generation key.slot) :
    SlotLog.vacated key.slot log = key.generation.toNat := by
  rw [hg, h.generation_eq, UInt32.toNat_ofNat_of_lt' (hu key.slot)]

/-- As long as no slot is worn out, a key that was given out has a value or is past. -/
theorem live_or_past (h : Logged map log) (hu : SlotLog.Unworn log) {key : SlotKey}
    (hm : key ∈ SlotLog.issued log) :
    (SlotLog.valueOf key log).isSome ∨ SlotLog.Past log key := by
  induction h with
  | empty => cases hm
  | insert h value ih =>
    rw [SlotLog.valueOf]
    split_ifs with heq
    · exact .inl rfl
    · exact ih hu.of_cons (List.mem_of_ne_of_mem heq hm)
  | @erase map log h other ih =>
    rw [SlotLog.valueOf]
    split_ifs with heq
    · subst heq
      right
      rw [SlotLog.Past, SlotLog.vacated]
      rcases ih hu.of_cons hm with hlive | hpast
      · obtain ⟨value, hvalue⟩ := Option.isSome_iff_exists.1 hlive
        have hg := generation_of_get? ((h.get?_eq key).trans hvalue)
        rw [h.vacated_eq hu.of_cons hg, if_pos ⟨rfl, hlive⟩]
        omega
      · exact Nat.lt_of_lt_of_le hpast (Nat.le_add_right _ _)
    · exact (ih hu.of_cons hm).imp_right fun hpast =>
        Nat.lt_of_lt_of_le hpast (SlotLog.vacated_le_cons _ _ _)
  | set h other value ih =>
    rw [SlotLog.valueOf]
    split_ifs with heq
    · rw [Option.isSome_map]
      exact ih hu.of_cons hm
    · exact ih hu.of_cons hm

/-- As long as no slot is worn out, a value is stored under a key that was never given out. -/
theorem insert_key_not_mem (h : Logged map log) (hu : SlotLog.Unworn log) (value : α) :
    (map.insert value).1 ∉ SlotLog.issued log := by
  intro hm
  rcases h.live_or_past hu hm with hlive | hpast
  · rw [← h.get?_eq, get?_insert_key h.tidy] at hlive
    cases hlive
  · have hvacated := h.vacated_eq hu (generation_insert_key h.tidy value)
    rw [SlotLog.Past, hvacated] at hpast
    exact Nat.lt_irrefl _ hpast

/-- As long as no slot is worn out, no key is given out twice. -/
theorem nodup_issued (h : Logged map log) (hu : SlotLog.Unworn log) :
    (SlotLog.issued log).Nodup := by
  induction h with
  | empty => exact List.nodup_nil
  | insert h value ih =>
    exact List.nodup_cons.2 ⟨h.insert_key_not_mem hu.of_cons value, ih hu.of_cons⟩
  | erase _ _ ih | set _ _ _ ih => exact ih hu.of_cons

end Logged

/-- A map answers as its log says. -/
structure Answers (map : SlotMap α) (log : List (SlotEvent α)) : Prop where
  /-- No key is given out twice. -/
  fresh : (SlotLog.issued log).Nodup
  /-- A key addresses the value stored last under it, until that is removed. -/
  get : ∀ key, map.get? key = SlotLog.valueOf key log
  /-- The count is the number of keys that have a value. -/
  count : map.count = (SlotLog.live log).length
  /-- The entries are the keys with a value, each with its value. -/
  entries : ∀ key value, (key, value) ∈ map.entries ↔ SlotLog.valueOf key log = some value
  /-- The entries are in the order of slots, one for a slot. -/
  ordered : map.entries.Pairwise fun first second => first.1.slot < second.1.slot
  /-- The links from the first vacant slot on lead through the vacant slots, through each of them
  once, and end. -/
  free : ∃ free, Chain map.slots map.head free ∧ free.Nodup ∧ ∀ index,
    index ∈ free ↔ ∃ generation next, map.slots[index]? = some (.vacant generation next)

/-- Whatever is stored, removed and replaced, a map answers as its log says, as long as no slot
is vacated so often that its generations repeat. -/
theorem Logged.answers_log {map : SlotMap α} {log : List (SlotEvent α)} (h : Logged map log)
    (hu : SlotLog.Unworn log) : map.Answers log where
  fresh := h.nodup_issued hu
  get := h.get?_eq
  count := by
    have hdistinct : (map.entries.map Prod.fst).Nodup := nodup_keysFrom map.slots 0
    have hsame : (map.entries.map Prod.fst).Perm (SlotLog.live log) := by
      refine (List.perm_ext_iff_of_nodup hdistinct ((h.nodup_issued hu).filter _)).2 fun key => ?_
      rw [List.mem_filter, ← h.get?_eq, List.mem_map]
      constructor
      · rintro ⟨⟨key, value⟩, hentry, rfl⟩
        have hvalue := mem_entries.1 hentry
        have hissued := SlotLog.mem_issued_of_valueOf ((h.get?_eq key).symm.trans hvalue)
        exact ⟨hissued, Option.isSome_of_eq_some hvalue⟩
      · rintro ⟨-, hlive⟩
        obtain ⟨value, hvalue⟩ := Option.isSome_iff_exists.1 hlive
        exact ⟨(key, value), mem_entries.2 hvalue, rfl⟩
    rw [h.tidy.counted, size, ← hsame.length_eq, List.length_map]
  entries key value := by rw [mem_entries, h.get?_eq]
  ordered := pairwise_entriesFrom map.slots 0
  free := by
    obtain ⟨free, hchain, hall⟩ := h.tidy.chained
    refine ⟨free, hchain, hchain.nodup, fun index => ⟨hchain.exists_vacant, ?_⟩⟩
    rintro ⟨generation, next, hslot⟩
    exact hall index generation next hslot

/-- A slot that is taken again gives out a new key; the old one removes nothing any more. -/
theorem Logged.answers_log_retaken : ∃ (map : SlotMap String) (log : List (SlotEvent String)),
    Logged map log ∧ SlotLog.Unworn log ∧ SlotLog.issued log = [⟨0, 1⟩, ⟨1, 0⟩, ⟨0, 0⟩] ∧
      map.entries = [(⟨0, 1⟩, "c"), (⟨1, 0⟩, "d")] ∧ map.Answers log := by
  have h := ((((((@Logged.empty String).insert "a").insert "b").erase ⟨0, 0⟩).insert "c").erase
    ⟨0, 0⟩).set ⟨1, 0⟩ "d"
  exact ⟨_, _, h, .of_length (by decide), rfl, rfl, h.answers_log (.of_length (by decide))⟩

end SlotMap

end GridScript
