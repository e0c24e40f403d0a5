import GridScript.Proofs.Restoration

/-!
# Snapshots that are refused

To restore a snapshot, a registry first gives up all its functions and then registers
the definitions one by one. If one of them is refused, it stops there: what it held before
is lost by then, the definitions in front of the refused one stay registered, and those
behind it are not looked at. So the registry holds what the snapshot says exactly if all
its definitions are valid and no two of them have the same key; otherwise it holds neither
that nor what it held before.
-/

namespace GridScript

/-- Definitions that a registry can hold together: all are valid, and no two have the same
key. -/
structure FunctionDefinition.Compatible (definitions : List FunctionDefinition) : Prop where
  /-- All keep the rules. -/
  valid : ∀ definition ∈ definitions, definition.validate = .ok ()
  /-- All keys are different. -/
  distinct : (definitions.map (·.key)).Nodup

/-- Why a definition is refused after others were taken: it breaks a rule, or its key is
that of one of them, which is not to be replaced. -/
def FunctionDefinition.Unfit (taken : List FunctionDefinition) (definition : FunctionDefinition)
    (error : ValidationError) : Prop :=
  definition.validate = .error error ∨
    definition.validate = .ok () ∧ ∃ earlier ∈ taken, earlier.key = definition.key ∧
      FunctionRegistry.conflict? earlier definition false = some error

namespace FunctionRegistry

open FunctionDefinition

variable {registry : FunctionRegistry} {taken : List FunctionDefinition}

/-- The registry holds some definitions under their keys and nothing else. -/
def Holds (registry : FunctionRegistry) (definitions : List FunctionDefinition) : Prop :=
  registry.contents.Perm (definitions.map fun definition => (definition.key, definition))

/-- What stands under the key of a definition is one of those that the registry holds. -/
theorem Holds.get? (h : registry.Holds taken) {key : TierKey} {entry : FunctionEntry}
    (hk : registry.functions.get? key = some entry) :
    entry.definition ∈ taken ∧ entry.definition.key = key := by
  have hm : (key, entry.definition) ∈ registry.contents :=
    List.mem_map.2 ⟨(key, entry), SortedMap.get?_eq_some_iff.1 hk, rfl⟩
  obtain ⟨definition, htaken, heq⟩ := List.mem_map.1 (h.mem_iff.1 hm)
  cases heq
  exact ⟨htaken, rfl⟩

/-- A key under which nothing stands is that of no definition the registry holds. -/
theorem Holds.key_ne (h : registry.Holds taken) {key : TierKey}
    (hk : registry.functions.get? key = none) : ∀ earlier ∈ taken, earlier.key ≠ key := by
  intro earlier hm heq
  have hheld : (earlier.key, earlier) ∈ registry.contents :=
    h.mem_iff.2 (List.mem_map.2 ⟨earlier, hm, rfl⟩)
  obtain ⟨stored, hstored, hsame⟩ := List.mem_map.1 hheld
  have hfound : registry.functions.get? stored.1 = some stored.2 :=
    SortedMap.get?_eq_some_iff.2 hstored
  have hkey : stored.1 = key := (congrArg Prod.fst hsame).trans heq
  rw [hkey, hk] at hfound
  cases hfound

/-- A definition under a key of its own is added to what the registry holds. -/
theorem Holds.add (h : registry.Holds taken) {definition : FunctionDefinition}
    (hk : registry.functions.get? definition.key = none) :
    (registry.add definition).Holds (taken ++ [definition]) := by
  have hnew : ∀ stored ∈ registry.functions.entries, compare definition.key stored.1 ≠ .eq := by
    intro stored hm heq
    rw [Std.LawfulEqOrd.eq_of_compare heq, SortedMap.get?_eq_some_iff.2 hm] at hk
    cases hk
  have hentries : (registry.add definition).functions.entries.Perm
      ((definition.key, registry.newEntry definition) :: registry.functions.entries) :=
    Entries.insert_perm _ hnew
  have hcontents : (registry.add definition).contents.Perm
      ((definition.key, definition) :: registry.contents) := hentries.map _
  unfold Holds
  rw [List.map_append]
  exact (hcontents.trans (h.cons _)).trans (List.perm_append_singleton _ _).symm

/-- A definition is registered beside others exactly if it is fit. -/
theorem Holds.register_cases (h : registry.Holds taken) (hc : Compatible taken)
    (definition : FunctionDefinition) :
    (registry.register definition false =
        .ok (registry.newEntry definition, registry.add definition) ∧
      (registry.add definition).Holds (taken ++ [definition]) ∧
      Compatible (taken ++ [definition])) ∨
    ∃ error, registry.register definition false = .error error ∧ Unfit taken definition error := by
  cases hv : definition.validate with
  | error error => exact .inr ⟨error, by simp [register, hv, bind, Except.bind], .inl hv⟩
  | ok =>
    cases hg : registry.functions.get? definition.key with
    | none =>
      refine .inl ⟨register_eq_ok.2 ⟨hv, fun existing he => by simp [hg] at he, rfl⟩, h.add hg,
        ⟨?_, ?_⟩⟩
      · exact List.forall_mem_append.2 ⟨hc.valid, List.forall_mem_singleton.2 hv⟩
      · rw [List.map_append, List.nodup_append]
        refine ⟨hc.distinct, List.pairwise_singleton _ _, fun key hm other hother => ?_⟩
        obtain ⟨earlier, htaken, rfl⟩ := List.mem_map.1 hm
        cases List.mem_singleton.1 hother
        exact h.key_ne hg earlier htaken
    | some existing =>
      obtain ⟨htaken, hkey⟩ := h.get? hg
      have hconflict : ∃ error, conflict? existing.definition definition false = some error := by
        unfold conflict?
        split
        · split <;> exact ⟨_, rfl⟩
        · exact ⟨_, rfl⟩
      obtain ⟨error, herror⟩ := hconflict
      refine .inr ⟨error, ?_, .inr ⟨hv, existing.definition, htaken, hkey, herror⟩⟩
      simp [register, hv, hg, herror, bind, Except.bind]

/-- Definitions are registered beside others up to the first that is unfit, which is
where it ends. -/
theorem Holds.registerAll_cases (h : registry.Holds taken) (hc : Compatible taken)
    (definitions : List FunctionDefinition) :
    ∃ kept rest after, definitions = kept ++ rest ∧ after.Holds (taken ++ kept) ∧
      Compatible (taken ++ kept) ∧
      (rest = [] ∧ registry.registerAll definitions = (.ok (), after) ∨
        ∃ refused unread error, rest = refused :: unread ∧
          registry.registerAll definitions = (.error error, after) ∧
          Unfit (taken ++ kept) refused error) := by
  induction definitions generalizing registry taken with
  | nil =>
    refine ⟨[], [], registry, rfl, ?_, ?_, .inl ⟨rfl, rfl⟩⟩
    · rwa [List.append_nil]
    · rwa [List.append_nil]
  | cons definition rest ih =>
    obtain ⟨hregister, hheld, hboth⟩ | ⟨error, hregister, hunfit⟩ := h.register_cases hc definition
    · obtain ⟨kept, others, after, hsplit, hafter, hcompatible, hend⟩ := ih hheld hboth
      simp only [List.append_assoc, List.singleton_append] at hafter hcompatible hend
      refine ⟨definition :: kept, others, after, congrArg _ hsplit, hafter, hcompatible, ?_⟩
      rw [registerAll, hregister]
      exact hend
    · refine ⟨[], definition :: rest, registry, rfl, ?_, ?_,
        .inr ⟨definition, rest, error, rfl, ?_, ?_⟩⟩
      · rwa [List.append_nil]
      · rwa [List.append_nil]
      · rw [registerAll, hregister]
      · rwa [List.append_nil]

/-- Definitions with an unfit one among them are not compatible. -/
theorem not_compatible_of_unfit {kept unread : List FunctionDefinition}
    {refused : FunctionDefinition} {error : ValidationError} (h : Unfit kept refused error) :
    ¬ Compatible (kept ++ refused :: unread) := by
  intro hc
  rcases h with hinvalid | ⟨-, earlier, hm, hkey, -⟩
  · have hvalid := hc.valid refused (by simp)
    rw [hinvalid] at hvalid
    cases hvalid
  · have hdistinct := hc.distinct
    rw [List.map_append, List.nodup_append] at hdistinct
    exact hdistinct.2.2 earlier.key (List.mem_map_of_mem hm) refused.key (by simp) hkey

/-- Restoring a snapshot takes its definitions up to the first that is unfit. Afterwards
the registry holds exactly those, whatever it held before. It succeeds exactly if the
definitions are compatible, and then it holds all of them. -/
theorem restore_takes_fit_prefix (registry : FunctionRegistry)
    (definitions : List FunctionDefinition) :
    ((registry.restore definitions).1 = .ok () ↔ Compatible definitions) ∧
      ∃ kept rest after, definitions = kept ++ rest ∧ after.Holds kept ∧ Compatible kept ∧
        (rest = [] ∧ registry.restore definitions = (.ok (), after) ∨
          ∃ refused unread error, rest = refused :: unread ∧
            registry.restore definitions = (.error error, after) ∧ Unfit kept refused error) := by
  have hempty : registry.clear.Holds [] := .refl _
  have hnone : Compatible [] := ⟨List.forall_mem_nil _, List.nodup_nil⟩
  obtain ⟨kept, rest, after, hsplit, hheld, hcompatible, hend⟩ :=
    hempty.registerAll_cases hnone definitions
  rw [List.nil_append] at hheld hcompatible hend
  refine ⟨?_, kept, rest, after, hsplit, hheld, hcompatible, hend⟩
  have hrestore : registry.restore definitions = registry.clear.registerAll definitions := rfl
  rw [hrestore, hsplit]
  obtain ⟨rfl, hok⟩ | ⟨refused, unread, error, rfl, herror, hunfit⟩ := hend
  · rw [hsplit, List.append_nil] at hok
    simp [hok, hcompatible]
  · rw [hsplit] at herror
    simp [herror, not_compatible_of_unfit hunfit]

/-- A snapshot with a definition that has no name behind one that is valid. -/
def namelessSecond : List FunctionDefinition :=
  [.plain "wave" ⟨"erin"⟩ .everyone none, .plain "" ⟨"erin"⟩ .everyone none]

/-- Restoring is not all or nothing: of a snapshot that is refused the valid definition
stays, and the three functions that were registered are lost. -/
theorem restore_not_atomic : ¬ ∀ (registry : FunctionRegistry)
    (definitions : List FunctionDefinition),
    (∃ after, registry.restore definitions = (.ok (), after) ∧ after.Holds definitions) ∨
      ∃ error, registry.restore definitions = (.error error, registry) := by
  intro hclaim
  have hsizes : (empty.answerAll greetings).size = 3 ∧
      ((empty.answerAll greetings).restore namelessSecond).2.size = 1 := by decide +kernel
  have hrefused : (((empty.answerAll greetings).restore namelessSecond).1.toOption).isNone := by
    decide +kernel
  obtain ⟨after, hok, -⟩ | ⟨error, herror⟩ := hclaim (empty.answerAll greetings) namelessSecond
  · rw [hok] at hrefused
    cases hrefused
  · rw [herror] at hsizes
    exact absurd (hsizes.1.symm.trans hsizes.2) (by decide)

end FunctionRegistry

end GridScript
