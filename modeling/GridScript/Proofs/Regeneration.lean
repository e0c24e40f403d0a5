import GridScript.Proofs.Layers
import Mathlib.Data.Set.Card
import Mathlib.Logic.Relation

/-!
# Functions that split themselves off

A function regenerates if it leads back to itself by calls of which one at least
stands in a loop that may be split off. The functions can be layered exactly if
none of them regenerates: the level of a function then counts the functions that
it leads to through such a loop, times the nesting of loops in one body.
-/

namespace GridScript

namespace Node

section Reaches

variable (registry : FunctionRegistry)

mutual

/-- A tree has a node that may be a call of a function. If `inside` is true, the node
has to stand in a loop of the tree that may be split off. -/
def Reaches (inside : Bool) (entry : FunctionEntry) : Node → Prop
  | .mk head children next =>
    (inside = false ∧ registry.MayCall head.alone entry) ∨
      ReachesAll (inside && !head.alone.maySplit) entry children ∨
      ReachesNext inside entry next

/-- One of several trees has such a node. -/
def ReachesAll (inside : Bool) (entry : FunctionEntry) : List Node → Prop
  | [] => False
  | node :: rest => Reaches inside entry node ∨ ReachesAll inside entry rest

/-- An optional tree has such a node. -/
def ReachesNext (inside : Bool) (entry : FunctionEntry) : Option Node → Prop
  | none => False
  | some node => Reaches inside entry node

end

end Reaches

variable {registry : FunctionRegistry} {level : FunctionEntry → Nat} {entry : FunctionEntry}

mutual

/-- A call in a loop is a call. -/
theorem Reaches.weaken {inside : Bool} :
    ∀ {node : Node}, Reaches registry inside entry node → Reaches registry false entry node
  | .mk head children next, h => by
    unfold Reaches at h ⊢
    rcases h with ⟨-, hcall⟩ | hchildren | hnext
    · exact .inl ⟨rfl, hcall⟩
    · exact .inr (.inl hchildren.weaken)
    · exact .inr (.inr hnext.weaken)

/-- The same for several trees. -/
theorem ReachesAll.weaken {inside : Bool} :
    ∀ {nodes : List Node}, ReachesAll registry inside entry nodes →
      ReachesAll registry false entry nodes
  | [], h => h
  | _ :: _, h => by
    unfold ReachesAll at h ⊢
    exact h.imp Reaches.weaken ReachesAll.weaken

/-- The same for an optional tree. -/
theorem ReachesNext.weaken {inside : Bool} :
    ∀ {next : Option Node}, ReachesNext registry inside entry next →
      ReachesNext registry false entry next
  | none, h => h
  | some _, h => Reaches.weaken h

end

mutual

/-- What a tree calls is registered. -/
theorem Reaches.registered {inside : Bool} :
    ∀ {node : Node}, Reaches registry inside entry node → entry ∈ registry.registered
  | .mk head children next, h => by
    unfold Reaches at h
    rcases h with ⟨-, name, caller, world, -, hlookup⟩ | hchildren | hnext
    · exact FunctionRegistry.mem_registered hlookup
    · exact hchildren.registered
    · exact hnext.registered

/-- The same for several trees. -/
theorem ReachesAll.registered {inside : Bool} :
    ∀ {nodes : List Node}, ReachesAll registry inside entry nodes → entry ∈ registry.registered
  | _ :: _, h => by
    unfold ReachesAll at h
    exact h.elim Reaches.registered ReachesAll.registered

/-- The same for an optional tree. -/
theorem ReachesNext.registered {inside : Bool} :
    ∀ {next : Option Node}, ReachesNext registry inside entry next →
      entry ∈ registry.registered
  | some _, h => Reaches.registered h

end

mutual

/-- What a tree calls has a level within the depth, and less in a loop that may be
split off. -/
theorem Reaches.level_le {inside : Bool} {depth : Nat} :
    ∀ {node : Node}, Reaches registry inside entry node → Fits registry level depth node →
      level entry + inside.toNat ≤ depth
  | .mk head children next, h, hfits => by
    unfold Reaches at h
    unfold Fits at hfits
    obtain ⟨hcalls, ⟨inner, hinner, hchildren⟩, hnext⟩ := hfits
    rcases h with ⟨rfl, hcall⟩ | hreaches | hreaches
    · exact hcalls entry hcall
    · have hlevel := hreaches.level_le hchildren
      cases inside <;> cases hsplit : head.alone.maySplit <;>
        simp only [hsplit, Bool.not_true, Bool.not_false, Bool.and_true, Bool.and_false,
          Bool.toNat_true, Bool.toNat_false] at hlevel hinner ⊢ <;> omega
    · exact hreaches.level_le hnext

/-- The same for several trees. -/
theorem ReachesAll.level_le {inside : Bool} {depth : Nat} :
    ∀ {nodes : List Node}, ReachesAll registry inside entry nodes →
      FitsAll registry level depth nodes → level entry + inside.toNat ≤ depth
  | _ :: _, h, hfits => by
    unfold ReachesAll at h
    unfold FitsAll at hfits
    exact h.elim (fun hnode => hnode.level_le hfits.1) fun hrest => hrest.level_le hfits.2

/-- The same for an optional tree. -/
theorem ReachesNext.level_le {inside : Bool} {depth : Nat} :
    ∀ {next : Option Node}, ReachesNext registry inside entry next →
      FitsNext registry level depth next → level entry + inside.toNat ≤ depth
  | some _, h, hfits => Reaches.level_le h hfits

end

mutual

/-- A tree whose loops are nested at most `nesting` deep fits into a depth that
leaves room for all calls, and for that nesting around those in a loop. -/
theorem Fits.raise {nesting depth : Nat} (hle : nesting ≤ depth) :
    ∀ {node : Node}, Fits registry (fun _ => 0) nesting node →
      (∀ entry, Reaches registry false entry node → level entry ≤ depth) →
      (∀ entry, Reaches registry true entry node → level entry + nesting ≤ depth) →
      Fits registry level depth node
  | .mk head children next, h, hcalls, hsplits => by
    unfold Reaches at hcalls hsplits
    unfold Fits at h ⊢
    obtain ⟨-, ⟨inner, hinner, hchildren⟩, hnext⟩ := h
    refine ⟨fun entry hcall => hcalls entry (.inl ⟨rfl, hcall⟩),
      ⟨depth - head.alone.maySplit.toNat, by omega, ?_⟩, ?_⟩
    · have hany (entry : FunctionEntry) (hr : ReachesAll registry false entry children) :
          level entry + head.alone.maySplit.toNat ≤ depth := by
        cases hsplit : head.alone.maySplit with
        | false => exact hcalls entry (.inr (.inl hr))
        | true =>
          have hroom := hsplits entry (.inr (.inl (by rw [hsplit]; exact hr)))
          rw [hsplit] at hinner
          simp only [Bool.toNat_true] at hinner ⊢
          omega
      have hdeep (entry : FunctionEntry) (hr : ReachesAll registry true entry children) :
          level entry + nesting ≤ depth := by
        refine hsplits entry (.inr (.inl ?_))
        cases head.alone.maySplit with
        | false => exact hr
        | true => exact hr.weaken
      refine hchildren.raise (by omega) (fun entry hr => ?_) fun entry hr => ?_
      · have := hany entry hr
        omega
      · have := hdeep entry hr
        omega
    · exact hnext.raise hle (fun entry hr => hcalls entry (.inr (.inr hr)))
        fun entry hr => hsplits entry (.inr (.inr hr))

/-- The same for several trees. -/
theorem FitsAll.raise {nesting depth : Nat} (hle : nesting ≤ depth) :
    ∀ {nodes : List Node}, FitsAll registry (fun _ => 0) nesting nodes →
      (∀ entry, ReachesAll registry false entry nodes → level entry ≤ depth) →
      (∀ entry, ReachesAll registry true entry nodes → level entry + nesting ≤ depth) →
      FitsAll registry level depth nodes
  | [], _, _, _ => trivial
  | _ :: _, h, hcalls, hsplits => by
    unfold ReachesAll at hcalls hsplits
    unfold FitsAll at h ⊢
    exact ⟨h.1.raise hle (fun entry hr => hcalls entry (.inl hr))
        fun entry hr => hsplits entry (.inl hr),
      h.2.raise hle (fun entry hr => hcalls entry (.inr hr))
        fun entry hr => hsplits entry (.inr hr)⟩

/-- The same for an optional tree. -/
theorem FitsNext.raise {nesting depth : Nat} (hle : nesting ≤ depth) :
    ∀ {next : Option Node}, FitsNext registry (fun _ => 0) nesting next →
      (∀ entry, ReachesNext registry false entry next → level entry ≤ depth) →
      (∀ entry, ReachesNext registry true entry next → level entry + nesting ≤ depth) →
      FitsNext registry level depth next
  | none, _, _, _ => trivial
  | some _, h, hcalls, hsplits => Fits.raise hle h hcalls hsplits

end

end Node

namespace FunctionRegistry

variable {registry : FunctionRegistry} {level : FunctionEntry → Nat}

/-- A function may call another one. -/
def Calls (registry : FunctionRegistry) (caller called : FunctionEntry) : Prop :=
  Node.ReachesNext registry false called caller.definition.body

/-- A function may call another one from a loop that may be split off. -/
def Splits (registry : FunctionRegistry) (caller called : FunctionEntry) : Prop :=
  Node.ReachesNext registry true called caller.definition.body

/-- A function leads to another one by calls of which one at least stands in a loop
that may be split off. -/
def Generates (registry : FunctionRegistry) (first last : FunctionEntry) : Prop :=
  ∃ caller called, Relation.ReflTransGen registry.Calls first caller ∧
    registry.Splits caller called ∧ Relation.ReflTransGen registry.Calls called last

/-- A function leads back to itself through a loop that may be split off. -/
def Regenerates (registry : FunctionRegistry) (entry : FunctionEntry) : Prop :=
  registry.Generates entry entry

/-- What leads from a called function leads from the caller. -/
theorem Generates.head {caller called last : FunctionEntry} (hc : registry.Calls caller called)
    (h : registry.Generates called last) : registry.Generates caller last := by
  obtain ⟨first, second, hfirst, hsplit, hlast⟩ := h
  exact ⟨first, second, .head hc hfirst, hsplit, hlast⟩

/-- Levels do not rise along calls. -/
theorem Layered.level_le (h : registry.Layered level) {first last : FunctionEntry}
    (hf : first ∈ registry.registered) (hc : Relation.ReflTransGen registry.Calls first last) :
    last ∈ registry.registered ∧ level last ≤ level first := by
  induction hc with
  | refl => exact ⟨hf, Nat.le_refl _⟩
  | tail _ hlast ih =>
    obtain ⟨hregistered, hlevel⟩ := ih
    have hstep := Node.ReachesNext.level_le hlast (h _ hregistered)
    exact ⟨hlast.registered, Nat.le_trans hstep hlevel⟩

/-- The level of a layered function is above those of the functions that it leads to
through a loop that may be split off. -/
theorem Layered.level_lt (h : registry.Layered level) {first last : FunctionEntry}
    (hf : first ∈ registry.registered) (hg : registry.Generates first last) :
    level last < level first := by
  obtain ⟨caller, called, hcaller, hsplit, hlast⟩ := hg
  obtain ⟨hregistered, hdown⟩ := h.level_le hf hcaller
  have hstep := Node.ReachesNext.level_le hsplit (h _ hregistered)
  obtain ⟨-, hrest⟩ := h.level_le hsplit.registered hlast
  simp only [Bool.toNat_true] at hstep
  omega

/-- The functions that a function leads to through a loop that may be split off. -/
def generated (registry : FunctionRegistry) (entry : FunctionEntry) : Set FunctionEntry :=
  {other | other ∈ registry.registered ∧ registry.Generates entry other}

/-- There are finitely many of them. -/
theorem finite_generated (registry : FunctionRegistry) (entry : FunctionEntry) :
    (registry.generated entry).Finite :=
  registry.registered.finite_toSet.subset fun _ h => h.1

/-- A call does not lead to more functions. -/
theorem ncard_generated_le {caller called : FunctionEntry} (h : registry.Calls caller called) :
    (registry.generated called).ncard ≤ (registry.generated caller).ncard := by
  refine Set.ncard_le_ncard (fun other ho => ?_) (registry.finite_generated caller)
  exact ⟨ho.1, ho.2.head h⟩

/-- A call from a loop that may be split off leads to fewer functions, unless it leads
back. -/
theorem ncard_generated_lt {caller called : FunctionEntry} (h : registry.Splits caller called)
    (hn : ¬registry.Regenerates called) :
    (registry.generated called).ncard < (registry.generated caller).ncard := by
  have hcalls : registry.Calls caller called := h.weaken
  refine Set.ncard_lt_ncard ?_ (registry.finite_generated caller)
  refine ⟨fun other ho => ⟨ho.1, ho.2.head hcalls⟩, fun hback => hn ?_⟩
  have hmem : called ∈ registry.generated caller :=
    ⟨h.registered, caller, called, .refl, h, .refl⟩
  exact (hback hmem).2

/-- Functions can be layered exactly if none of them leads back to itself through a
loop that may be split off. -/
theorem exists_layered_iff (registry : FunctionRegistry) :
    (∃ level, registry.Layered level) ↔
      ∀ entry ∈ registry.registered, ¬registry.Regenerates entry := by
  constructor
  · rintro ⟨level, h⟩ entry he hr
    exact Nat.lt_irrefl _ (h.level_lt he hr)
  · intro hn
    obtain ⟨nesting, hnesting⟩ : ∃ nesting, ∀ entry ∈ registry.registered,
        Node.FitsNext registry (fun _ => 0) nesting entry.definition.body := by
      refine exists_common (fun _ _ _ hle h => h.mono hle) registry.registered fun entry _ => ?_
      obtain ⟨depth, -, hfits⟩ := Node.exists_fitsNext registry
        (fun _ _ => Nat.le_refl 0) entry.definition.body
      exact ⟨depth, hfits⟩
    refine ⟨fun entry => nesting * (registry.generated entry).ncard + nesting, fun entry he => ?_⟩
    refine (hnesting entry he).raise (Nat.le_add_left _ _) (fun called hc => ?_) fun called hs => ?_
    · have hle := Nat.mul_le_mul_left nesting (ncard_generated_le hc)
      omega
    · have hlt := ncard_generated_lt hs (hn called hs.registered)
      have hle := Nat.mul_le_mul_left nesting (Nat.succ_le_of_lt hlt)
      rw [Nat.mul_succ] at hle
      omega

end FunctionRegistry

end GridScript
