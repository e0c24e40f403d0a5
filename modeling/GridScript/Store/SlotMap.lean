/-!
# Slot maps

Values stored in numbered slots and addressed by keys that carry the slot's
generation. Removing a value starts the next generation of its slot, so an old
key never reaches a value stored there later. Vacant slots are reused, the most
recently vacated first: each of them knows the one that was vacated before it.
-/

namespace GridScript

/-- The key of one stored value. -/
structure SlotKey where
  /-- Number of the slot. -/
  slot : Nat
  /-- Generation of the slot at which the value was stored. -/
  generation : UInt32
  deriving DecidableEq

/-- One slot. Its generation says how often it has been vacated, counted in 32 bits. -/
inductive Slot (α : Type) where
  /-- A value is stored. -/
  | occupied (generation : UInt32) (value : α)
  /-- Nothing is stored; `next` is the vacant slot to be taken after this one. -/
  | vacant (generation : UInt32) (next : Option Nat)

namespace Slot

variable {α : Type}

/-- The current generation of a slot. -/
def generation : Slot α → UInt32
  | .occupied generation _ | .vacant generation _ => generation

/-- The value a slot holds; a vacant slot has none. -/
def value : Slot α → Option α
  | .occupied _ value => some value
  | .vacant _ _ => none

end Slot

/-- Values addressed by keys with generations. -/
structure SlotMap (α : Type) where
  /-- All slots ever used. -/
  slots : List (Slot α)
  /-- The vacant slot to be taken first. -/
  head : Option Nat
  /-- The number of stored values, kept along. -/
  count : Nat

namespace SlotMap

variable {α : Type}

/-- A map without slots. -/
def empty : SlotMap α :=
  ⟨[], none, 0⟩

instance : Inhabited (SlotMap α) := ⟨empty⟩

/-- The value a key addresses, while it is stored. -/
def get? (map : SlotMap α) (key : SlotKey) : Option α :=
  match map.slots[key.slot]? with
  | some (.occupied generation value) => if generation = key.generation then some value else none
  | _ => none

/-- The vacant slot to be taken first, with its generation and the one to be taken after it. -/
def vacancy? (map : SlotMap α) : Option (Nat × UInt32 × Option Nat) := do
  let index ← map.head
  match map.slots[index]? with
  | some (.vacant generation next) => some (index, generation, next)
  | _ => none

/-- Store a value; the key for it comes with the new map. -/
def insert (map : SlotMap α) (value : α) : SlotKey × SlotMap α :=
  match map.vacancy? with
  | some (index, generation, next) =>
    (⟨index, generation⟩,
      ⟨map.slots.set index (.occupied generation value), next, map.count + 1⟩)
  | none => (⟨map.slots.length, 0⟩, ⟨map.slots ++ [.occupied 0 value], map.head, map.count + 1⟩)

/-- Remove the value a key addresses; nothing happens when there is none. -/
def erase (map : SlotMap α) (key : SlotKey) : SlotMap α :=
  match map.get? key with
  | none => map
  | some _ =>
    ⟨map.slots.set key.slot (.vacant (key.generation + 1) map.head), some key.slot, map.count - 1⟩

/-- Replace the value a key addresses; nothing happens when there is none. -/
def set (map : SlotMap α) (key : SlotKey) (value : α) : SlotMap α :=
  match map.get? key with
  | none => map
  | some _ => { map with slots := map.slots.set key.slot (.occupied key.generation value) }

/-- Stored values of slots from number `index` on, with their keys. -/
def entriesFrom (index : Nat) : List (Slot α) → List (SlotKey × α)
  | [] => []
  | .occupied generation value :: rest =>
    (⟨index, generation⟩, value) :: entriesFrom (index + 1) rest
  | .vacant _ _ :: rest => entriesFrom (index + 1) rest

/-- Stored values with their keys, in the order of slots. -/
def entries (map : SlotMap α) : List (SlotKey × α) :=
  entriesFrom 0 map.slots

/-- The number of stored values. -/
def size (map : SlotMap α) : Nat :=
  map.entries.length

/-- Whether nothing is stored. -/
def isEmpty (map : SlotMap α) : Bool :=
  map.count == 0

/-- The keys of the stored values that pass a test, in the order of slots. -/
def keysWhere (map : SlotMap α) (test : α → Bool) : List SlotKey :=
  (map.entries.filter fun entry => test entry.2).map Prod.fst

end SlotMap

end GridScript
