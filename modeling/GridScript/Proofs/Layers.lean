import GridScript.Function.Registry
import GridScript.Proofs.Counts
import GridScript.Proofs.Linking
import GridScript.Value.Convert

/-!
# How deep programs split off runs

A loop that is split off becomes a run of its own, whose body may split off runs
again. Inside one tree that comes to an end with the nesting of loops. It need not
with calls: what a call in the body of such a loop leads to counts as inside the
loop. Functions are layered if each of them can be given a depth that its body
fits into, where a loop that may be split off leaves less of it for its children,
and a call takes as much as the called function has.

A parameter that is a formula can come out as anything, so a loop with one may be
split off, and a call with one may be of any function.
-/

namespace GridScript

/-- What holds of each of finitely many things from some number on holds of all of
them from some number on. -/
theorem exists_common {α : Type} {holds : α → Nat → Prop}
    (hm : ∀ item less more, less ≤ more → holds item less → holds item more) (items : List α)
    (h : ∀ item ∈ items, ∃ number, holds item number) :
    ∃ number, ∀ item ∈ items, holds item number := by
  induction items with
  | nil => exact ⟨0, fun _ hi => by cases hi⟩
  | cons item rest ih =>
    obtain ⟨⟨first, hfirst⟩, hrest⟩ := List.forall_mem_cons.1 h
    obtain ⟨second, hsecond⟩ := ih hrest
    refine ⟨first + second, List.forall_mem_cons.2 ⟨hm item first _ (by omega) hfirst, ?_⟩⟩
    exact fun other ho => hm other second _ (by omega) (hsecond other ho)

namespace Arg

/-- Whether a parameter may come out true. -/
def mayBeTrue : Arg → Bool
  | .const value => value.asBool.toOption == some true
  | .formula _ _ => true
  | .invalid _ _ => false

/-- Whether a parameter may come out as a text. -/
def MayRead (text : String) : Arg → Prop
  | .const value => value.toText = text
  | .formula _ _ => True
  | .invalid _ _ => False

end Arg

namespace Op

/-- Whether a node is a loop that may be split off. -/
def maySplit (op : Op) : Bool :=
  op.category == .loop && (op.args.get? "async").any Arg.mayBeTrue

/-- A node is a call that may be of a name. -/
def MayName (op : Op) (name : String) : Prop :=
  op.category = .call ∧ ∃ arg, op.args.get? "function" = some arg ∧ arg.MayRead name

end Op

namespace FunctionRegistry

/-- All functions that can be called. -/
def registered (registry : FunctionRegistry) : List FunctionEntry :=
  registry.functions.entries.map (·.2)

/-- A node may be a call of a function, for some actor in some world. -/
def MayCall (registry : FunctionRegistry) (op : Op) (entry : FunctionEntry) : Prop :=
  ∃ name caller world, op.MayName name ∧ registry.lookup? name caller world = some entry

/-- What a name stands for is one of the functions that can be called. -/
theorem mem_registered {registry : FunctionRegistry} {name : String} {caller : Actor}
    {world : String} {entry : FunctionEntry}
    (h : registry.lookup? name caller world = some entry) : entry ∈ registry.registered := by
  have hget {key : TierKey} (hk : registry.functions.get? key = some entry) :
      entry ∈ registry.registered := by
    obtain ⟨found, -, hm⟩ := Entries.exists_of_find? hk
    exact List.mem_map_of_mem hm
  unfold lookup? at h
  simp only [Option.or_eq_some_iff, Option.filter_eq_some_iff] at h
  rcases h with h | ⟨-, ⟨h, -⟩ | ⟨-, h | ⟨-, h⟩⟩⟩
  · exact hget h
  · exact hget h
  · exact hget h
  · exact hget h

/-- The same functions can be called if the same functions are registered. -/
theorem lookup?_congr {registry other : FunctionRegistry}
    (h : other.functions = registry.functions) (name : String) (caller : Actor)
    (world : String) : other.lookup? name caller world = registry.lookup? name caller world := by
  unfold lookup?
  rw [h]

end FunctionRegistry

namespace Node

section Fits

variable (registry : FunctionRegistry) (level : FunctionEntry → Nat)

mutual

/-- The runs that a tree splits off are nested at most `depth` deep, if functions
split off runs that are nested as deep as their levels say. -/
def Fits : (depth : Nat) → Node → Prop
  | depth, .mk head children next =>
    (∀ entry, registry.MayCall head.alone entry → level entry ≤ depth) ∧
      (∃ inner, inner + head.alone.maySplit.toNat ≤ depth ∧ FitsAll inner children) ∧
      FitsNext depth next

/-- The same for several trees. -/
def FitsAll : (depth : Nat) → List Node → Prop
  | _, [] => True
  | depth, node :: rest => Fits depth node ∧ FitsAll depth rest

/-- The same for an optional tree. -/
def FitsNext : (depth : Nat) → Option Node → Prop
  | _, none => True
  | depth, some node => Fits depth node

end

end Fits

variable {registry : FunctionRegistry} {level : FunctionEntry → Nat}

mutual

/-- What fits into a depth fits into a greater one. -/
theorem Fits.mono {depth more : Nat} (hle : depth ≤ more) :
    ∀ {node : Node}, Fits registry level depth node → Fits registry level more node
  | .mk head children next, h => by
    unfold Fits at h ⊢
    obtain ⟨hcalls, ⟨inner, hinner, hchildren⟩, hnext⟩ := h
    exact ⟨fun entry he => Nat.le_trans (hcalls entry he) hle,
      ⟨inner, Nat.le_trans hinner hle, hchildren⟩, FitsNext.mono hle hnext⟩

/-- The same for several trees. -/
theorem FitsAll.mono {depth more : Nat} (hle : depth ≤ more) :
    ∀ {nodes : List Node}, FitsAll registry level depth nodes → FitsAll registry level more nodes
  | [], _ => trivial
  | _ :: _, h => by
    unfold FitsAll at h ⊢
    exact ⟨Fits.mono hle h.1, FitsAll.mono hle h.2⟩

/-- The same for an optional tree. -/
theorem FitsNext.mono {depth more : Nat} (hle : depth ≤ more) :
    ∀ {next : Option Node}, FitsNext registry level depth next → FitsNext registry level more next
  | none, _ => trivial
  | some _, h => Fits.mono hle h

end

/-- Trees that fit with an optional tree in front of them. -/
theorem fitsAll_append {depth : Nat} {next : Option Node} {rest : List Node} :
    FitsAll registry level depth (next.toList ++ rest) ↔
      FitsNext registry level depth next ∧ FitsAll registry level depth rest := by
  cases next with
  | none => simp only [Option.toList, List.nil_append, FitsNext, true_and]
  | some node => simp only [Option.toList, List.cons_append, List.nil_append, FitsAll, FitsNext]

/-- An optional tree by itself. -/
theorem FitsNext.toList {depth : Nat} {next : Option Node}
    (h : FitsNext registry level depth next) : FitsAll registry level depth next.toList := by
  cases next with
  | none => trivial
  | some node => exact ⟨h, trivial⟩

mutual

/-- Every tree fits into some depth: there are only finitely many functions. -/
theorem exists_fits (registry : FunctionRegistry) {level : FunctionEntry → Nat} {bound : Nat}
    (hb : ∀ entry ∈ registry.registered, level entry ≤ bound) :
    ∀ node : Node, ∃ depth, bound ≤ depth ∧ Fits registry level depth node
  | .mk head children next => by
    obtain ⟨inner, hinner, hchildren⟩ := exists_fitsAll registry hb children
    obtain ⟨depth, hdepth, hnext⟩ := exists_fitsNext registry hb next
    refine ⟨inner + 1 + depth, by omega, ?_⟩
    unfold Fits
    refine ⟨fun entry he => ?_, ⟨inner, ?_, hchildren⟩, hnext.mono (by omega)⟩
    · obtain ⟨name, caller, world, -, hlookup⟩ := he
      have := hb entry (FunctionRegistry.mem_registered hlookup)
      omega
    · have := head.alone.maySplit.toNat_le
      omega

/-- Any number of trees fits into some depth. -/
theorem exists_fitsAll (registry : FunctionRegistry) {level : FunctionEntry → Nat} {bound : Nat}
    (hb : ∀ entry ∈ registry.registered, level entry ≤ bound) :
    ∀ nodes : List Node, ∃ depth, bound ≤ depth ∧ FitsAll registry level depth nodes
  | [] => ⟨bound, Nat.le_refl bound, trivial⟩
  | node :: rest => by
    obtain ⟨depth, hdepth, hnode⟩ := exists_fits registry hb node
    obtain ⟨more, hmore, hrest⟩ := exists_fitsAll registry hb rest
    refine ⟨depth + more, by omega, ?_⟩
    unfold FitsAll
    exact ⟨hnode.mono (by omega), hrest.mono (by omega)⟩

/-- An optional tree fits into some depth. -/
theorem exists_fitsNext (registry : FunctionRegistry) {level : FunctionEntry → Nat} {bound : Nat}
    (hb : ∀ entry ∈ registry.registered, level entry ≤ bound) :
    ∀ next : Option Node, ∃ depth, bound ≤ depth ∧ FitsNext registry level depth next
  | none => ⟨bound, Nat.le_refl bound, trivial⟩
  | some node => exists_fits registry hb node

end

end Node

/-- Every function that can be called has a level its body fits into. -/
def FunctionRegistry.Layered (registry : FunctionRegistry) (level : FunctionEntry → Nat) : Prop :=
  ∀ entry ∈ registry.registered,
    Node.FitsNext registry level (level entry) entry.definition.body

end GridScript
