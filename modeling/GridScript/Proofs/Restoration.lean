import GridScript.Proofs.Records
import GridScript.Proofs.Registration

/-!
# Snapshots that are restored

A snapshot lists the definitions of a registry in the order of their keys. When it
is restored, all functions are given up first and the definitions are registered
one by one. None of them is refused, because they are valid and their keys are all
different, and each goes behind the ones before it, so that the registry holds what
the snapshot was taken of, under the same keys and in the same order. Every function
gets a handle that was never given out, and with it statistics that start at zero.
-/

namespace GridScript.FunctionRegistry

/-- The definitions of a registry with the keys they stand under, in order. -/
def contents (registry : FunctionRegistry) : List (TierKey × FunctionDefinition) :=
  registry.functions.entries.map fun stored => (stored.1, stored.2.definition)

/-- Every function has a handle that was given out from a number on, and statistics
that say nothing yet. -/
def CountsFrom (registry : FunctionRegistry) (first : Nat) : Prop :=
  ∀ key entry, registry.functions.get? key = some entry →
    first ≤ entry.handle ∧ entry.handle < registry.tallies.size ∧
      registry.tally entry.handle = .zero

variable {registry : FunctionRegistry}

/-- The keys of the definitions ascend. -/
theorem ascending_contents (registry : FunctionRegistry) : Entries.Ascending registry.contents :=
  List.pairwise_map.2 registry.functions.ascending

/-- A snapshot is what the registry holds, without the keys. -/
theorem snapshot_eq (registry : FunctionRegistry) :
    registry.snapshot = registry.contents.map Prod.snd := by
  simp [snapshot, contents]

/-- The definition under a key is the one that is found among the contents. -/
theorem definition_get? (registry : FunctionRegistry) (key : TierKey) :
    (registry.functions.get? key).map (·.definition) = Entries.find? key registry.contents := by
  unfold SortedMap.get? contents
  induction registry.functions.entries with
  | nil => rfl
  | cons stored rest ih =>
    simp only [List.map_cons, Entries.find?]
    split
    · rfl
    · exact ih

/-- What a call finds is decided by the contents. -/
theorem definition_lookup? {other : FunctionRegistry} (h : other.contents = registry.contents)
    (name : String) (caller : Actor) (world : String) :
    (other.lookup? name caller world).map (·.definition) =
      (registry.lookup? name caller world).map (·.definition) := by
  have hget (key : TierKey) : (other.functions.get? key).map (·.definition) =
      (registry.functions.get? key).map (·.definition) := by
    rw [definition_get?, definition_get?, h]
  have hshared (found : Option FunctionEntry) :
      (found.filter (·.definition.isSharedWith caller)).map (·.definition) =
        (found.map (·.definition)).filter (·.isSharedWith caller) := by
    rw [Option.filter_map]
    rfl
  simp only [lookup?, Option.map_or, hshared, hget]

/-- In an orderly registry every key is that of the definition under it. -/
theorem Orderly.contents_eq (h : registry.Orderly) :
    registry.contents = registry.snapshot.map fun definition => (definition.key, definition) := by
  rw [snapshot, contents, List.map_map]
  refine List.map_congr_left fun stored hm => ?_
  rw [(h.admitted _ _ (SortedMap.get?_eq_some_iff.2 hm)).key]
  rfl

/-- A definition with a key behind all others is added behind all others. -/
theorem contents_add {definition : FunctionDefinition}
    (h : ∀ stored ∈ registry.contents, compare stored.1 definition.key = .lt) :
    (registry.add definition).contents =
      registry.contents ++ [(definition.key, definition)] := by
  have hbehind : ∀ stored ∈ registry.functions.entries,
      compare stored.1 definition.key = .lt := fun stored hm =>
    h (stored.1, stored.2.definition) (List.mem_map.2 ⟨stored, hm, rfl⟩)
  have hentries : (registry.add definition).functions.entries =
      registry.functions.entries ++ [(definition.key, registry.newEntry definition)] :=
    Entries.insert_of_forall_lt hbehind
  rw [contents, hentries, List.map_append]
  rfl

/-- A function that is added counts from zero under a handle of its own. -/
theorem CountsFrom.add {first : Nat} (h : registry.CountsFrom first)
    (hf : first ≤ registry.tallies.size) (definition : FunctionDefinition) :
    (registry.add definition).CountsFrom first := by
  have htallies : (registry.add definition).tallies = registry.tallies.push .zero := rfl
  intro key entry hk
  rw [get?_add] at hk
  unfold tally
  rw [htallies, Array.size_push]
  split at hk
  · cases hk
    refine ⟨hf, Nat.lt_succ_self _, ?_⟩
    simp [newEntry, Array.getD_eq_getD_getElem?]
  · obtain ⟨hfirst, hsize, hzero⟩ := h key entry hk
    refine ⟨hfirst, Nat.lt_succ_of_lt hsize, ?_⟩
    rw [← hzero]
    simp [tally, Array.getD_eq_getD_getElem?, Array.getElem?_push_lt hsize, hsize]

/-- Valid definitions whose keys ascend behind those of a registry are all
registered, each behind the ones before it. -/
theorem registerAll_of_ascending {definitions : List FunctionDefinition}
    (hv : ∀ definition ∈ definitions, definition.validate = .ok ())
    (ha : Entries.Ascending
      (registry.contents ++ definitions.map fun definition => (definition.key, definition)))
    {first : Nat} (hc : registry.CountsFrom first) (hf : first ≤ registry.tallies.size) :
    ∃ after, registry.registerAll definitions = (.ok (), after) ∧
      after.contents =
        registry.contents ++ definitions.map (fun definition => (definition.key, definition)) ∧
      after.CountsFrom first := by
  induction definitions generalizing registry with
  | nil => exact ⟨registry, rfl, (List.append_nil _).symm, hc⟩
  | cons definition rest ih =>
    obtain ⟨hvalid, hrest⟩ := List.forall_mem_cons.1 hv
    have hbehind : ∀ stored ∈ registry.contents, compare stored.1 definition.key = .lt :=
      fun stored hm => (List.pairwise_append.1 ha).2.2 stored hm _ List.mem_cons_self
    have hfree : registry.functions.get? definition.key = none := by
      refine Option.eq_none_iff_forall_ne_some.2 fun entry hg => ?_
      have hm : (definition.key, entry.definition) ∈ registry.contents :=
        List.mem_map.2 ⟨_, SortedMap.get?_eq_some_iff.1 hg, rfl⟩
      have hlt := hbehind _ hm
      rw [Std.LawfulEqOrd.compare_eq_iff_eq.2 rfl] at hlt
      cases hlt
    have hgranted : registry.register definition false =
        .ok (registry.newEntry definition, registry.add definition) :=
      register_eq_ok.2 ⟨hvalid, fun existing he => by simp [hfree] at he, rfl⟩
    have hadded := contents_add hbehind
    have hsize : first ≤ (registry.add definition).tallies.size := by
      simp only [add, Array.size_push]
      omega
    obtain ⟨after, hall, hcontents, hcounts⟩ := ih hrest
      (by rw [hadded, List.append_assoc]; exact ha) (hc.add hf definition) hsize
    refine ⟨after, ?_, ?_, hcounts⟩
    · rw [registerAll, hgranted]
      exact hall
    · rw [hcontents, hadded, List.append_assoc]
      rfl

/-- The snapshot of every registry that can be reached is restored by every registry,
whatever that held: afterwards it holds the same definitions under the same keys and
nothing else, calls find the same definitions, all statistics are zero and under
handles that no earlier function had, and its snapshot is the one it was restored
from. -/
theorem snapshot_restored {source : FunctionRegistry} (h : source.Reachable)
    (target : FunctionRegistry) :
    ∃ restored, target.restore source.snapshot = (.ok (), restored) ∧
      restored.contents = source.contents ∧
      (∀ name caller world, (restored.lookup? name caller world).map (·.definition) =
        (source.lookup? name caller world).map (·.definition)) ∧
      (∀ entry ∈ restored.registered,
        target.tallies.size ≤ entry.handle ∧ restored.tally entry.handle = .zero) ∧
      restored.snapshot = source.snapshot := by
  have horderly := h.orderly
  have hempty : target.clear.contents = [] := rfl
  have hvalid : ∀ definition ∈ source.snapshot, definition.validate = .ok () := by
    intro definition hm
    obtain ⟨stored, hstored, rfl⟩ := List.mem_map.1 hm
    exact (horderly.admitted _ _ (SortedMap.get?_eq_some_iff.2 hstored)).valid
  have hascending : Entries.Ascending (target.clear.contents ++
      source.snapshot.map fun definition => (definition.key, definition)) := by
    rw [hempty, List.nil_append, ← horderly.contents_eq]
    exact source.ascending_contents
  have hcounts : target.clear.CountsFrom target.tallies.size := fun key entry hk => by cases hk
  obtain ⟨restored, hrestored, hcontents, hzero⟩ :=
    registerAll_of_ascending hvalid hascending hcounts (Nat.le_refl _)
  rw [hempty, List.nil_append, ← horderly.contents_eq] at hcontents
  refine ⟨restored, hrestored, hcontents, definition_lookup? hcontents, fun entry hm => ?_, ?_⟩
  · obtain ⟨key, hk⟩ := mem_registered_iff.1 hm
    obtain ⟨hfirst, -, htally⟩ := hzero key entry hk
    exact ⟨hfirst, htally⟩
  · rw [snapshot_eq, snapshot_eq, hcontents]

/-- A registry with a function of another owner that was called. -/
def calledElsewhere : FunctionRegistry :=
  (empty.answerAll [.register (.plain "greet" ⟨"erin"⟩ .everyone none) false,
    .register (.plain "leave" ⟨"erin"⟩ .everyone none) false]).updateTally 0 Tally.start

/-- Three functions of one name take the place of two others, one of which had been
called: the name stands for the same functions as before, and nothing was counted. -/
theorem snapshot_restored_greetings :
    calledElsewhere.size = 2 ∧ (calledElsewhere.tally 0).calls = 1 ∧
      ∃ restored, calledElsewhere.restore (empty.answerAll greetings).snapshot =
          (.ok (), restored) ∧
        restored.size = 3 ∧
        ((restored.lookup? "greet" ⟨"dave"⟩ "plain").map (·.definition)) =
          ((empty.answerAll greetings).lookup? "greet" ⟨"dave"⟩ "plain").map (·.definition) ∧
        ∀ entry ∈ restored.registered, restored.tally entry.handle = .zero := by
  have hreachable := Reachable.empty.answerAll greetings
  have hsize : (empty.answerAll greetings).contents.length = 3 := by decide +kernel
  obtain ⟨restored, hrestored, hcontents, hlookup, hzero, -⟩ :=
    snapshot_restored hreachable calledElsewhere
  refine ⟨by decide +kernel, by decide +kernel, restored, hrestored, ?_, hlookup _ _ _,
    fun entry hm => (hzero entry hm).2⟩
  rw [← hcontents, contents, List.length_map] at hsize
  exact hsize

end GridScript.FunctionRegistry
