import GridScript.Proofs.Counts
import GridScript.Proofs.Journal

/-!
# Who is awake and who sleeps

A run under way is either awake, because it is executing or in the queue, or
parked, and then exactly one sleeping entry leads to it. Sleeping entries of runs
that ended in the meantime are left behind and lead nowhere. The law holds as long
as no slot is worn out; each move of a run keeps it.
-/

namespace GridScript

open Journal

/-- Whether a run is parked, as a number that counts for its actor. -/
def Run.restsFor (actor : Actor) (run : Run) : Nat :=
  if run.actor = actor ∧ run.parked = true then 1 else 0

/-- A run that is not parked does not count. -/
theorem Run.restsFor_eq_zero {run : Run} (h : run.parked = false) (actor : Actor) :
    run.restsFor actor = 0 := by
  simp [restsFor, h]

/-- Every parked run holds a suspension of its actor, and no other run does. -/
def Rested (ledger : Ledger) (runs : SlotMap Run) : Prop :=
  ∀ actor, ledger.suspensionCount actor = runs.total (Run.restsFor actor)

/-- The runs that sleeping entries lead to, by when they are due. -/
def sleepers (sleeping : SortedMap Due RunKey) : List RunKey :=
  sleeping.entries.map Prod.snd

/-- The entry of a run that is parked with the next number is a new one. -/
theorem entries_insert_perm {sleeping : SortedMap Due RunKey} {sequence : Nat}
    (hf : ∀ entry ∈ sleeping.entries, entry.1.sequence < sequence) (tick : UInt64)
    (key : RunKey) : (sleeping.insert ⟨tick, sequence⟩ key).entries.Perm
      ((⟨tick, sequence⟩, key) :: sleeping.entries) := by
  refine Entries.insert_perm key fun entry hm heq => ?_
  have hlt := hf entry hm
  have hseq : compare sequence entry.1.sequence = .eq :=
    (Ordering.then_eq_eq.1 heq).2
  rw [Nat.compare_eq_eq] at hseq
  omega

/-- Without the first entry the others are left. -/
theorem entries_erase_head {sleeping : SortedMap Due RunKey} {due : Due} {key : RunKey}
    {rest : List (Due × RunKey)} (he : sleeping.entries = (due, key) :: rest) :
    (sleeping.erase due).entries = rest := by
  have hascending := sleeping.ascending
  change Entries.erase due sleeping.entries = rest
  rw [he] at hascending ⊢
  exact Entries.erase_head hascending

/-- Every run under way is either awake or has exactly one sleeping entry. -/
structure Scheduled (runs : SlotMap Run) (sleeping : SortedMap Due RunKey) (awake : List RunKey)
    (sequence : Nat) (journal : List RunEvent) : Prop where
  /-- No run is awake twice. -/
  distinct : awake.Nodup
  /-- The runs that are awake are those that are not parked. -/
  awake : ∀ key, key ∈ awake ↔ ∃ run, runs.get? key = some run ∧ run.parked = false
  /-- The runs that sleep are those that are parked. -/
  asleep : ∀ key run, runs.get? key = some run → (key ∈ sleepers sleeping ↔ run.parked = true)
  /-- All other sleeping entries are of runs that have ended. -/
  stale : ∀ key ∈ sleepers sleeping, Past journal key ∨ (runs.get? key).isSome
  /-- No run sleeps twice. -/
  alone : (sleepers sleeping).Nodup
  /-- Runs are parked in the order of their numbers. -/
  fresh : ∀ entry ∈ sleeping.entries, entry.1.sequence < sequence

namespace Scheduled

variable {runs : SlotMap Run} {sleeping : SortedMap Due RunKey} {awake : List RunKey}
  {sequence : Nat} {journal : List RunEvent}

/-- When no run is under way nobody is awake or asleep. -/
theorem of_none (hn : ∀ key, runs.get? key = none) :
    Scheduled runs .empty [] sequence journal where
  distinct := .nil
  awake key := by simp [hn]
  asleep key run hk := by
    rw [hn] at hk
    cases hk
  stale key hm := by cases hm
  alone := .nil
  fresh entry hm := by cases hm

/-- The order in which runs are awake does not matter. -/
theorem perm (h : Scheduled runs sleeping awake sequence journal) {other : List RunKey}
    (hp : other.Perm awake) : Scheduled runs sleeping other sequence journal :=
  { h with
    distinct := hp.nodup_iff.2 h.distinct
    awake := fun key => hp.mem_iff.trans (h.awake key) }

/-- Whatever else is written into the journal does not matter. -/
theorem append (h : Scheduled runs sleeping awake sequence journal) (news : List RunEvent) :
    Scheduled runs sleeping awake sequence (news ++ journal) :=
  { h with stale := fun key hm => (h.stale key hm).imp_left (Past.append · news) }

/-- A run that is started is awake. -/
theorem insert (h : Scheduled runs sleeping awake sequence journal) (ht : runs.Tidy)
    (hs : Stamped runs journal) (hu : Unworn journal) {run : Run} (hp : run.parked = false) :
    Scheduled (runs.insert run).2 sleeping ((runs.insert run).1 :: awake) sequence journal := by
  have hnone := SlotMap.get?_insert_key ht run
  have hnew : (runs.insert run).1 ∉ sleepers sleeping := by
    intro hm
    rcases h.stale _ hm with hpast | hlive
    · exact hs.not_past hu (SlotMap.generation_insert_key ht run) hpast
    · rw [hnone] at hlive
      cases hlive
  constructor
  · refine List.nodup_cons.2 ⟨fun hm => ?_, h.distinct⟩
    obtain ⟨other, ho, -⟩ := (h.awake _).1 hm
    rw [hnone] at ho
    cases ho
  · intro key
    rw [SlotMap.get?_insert ht, List.mem_cons]
    by_cases hk : key = (runs.insert run).1
    · simp [hk, hp]
    · simp only [hk, false_or, if_false]
      exact h.awake key
  · intro key other hk
    rw [SlotMap.get?_insert ht] at hk
    split at hk
    · rename_i heq
      cases hk
      simp [heq, hnew, hp]
    · exact h.asleep key other hk
  · intro key hm
    rw [SlotMap.get?_insert ht]
    split
    · exact .inr rfl
    · exact h.stale key hm
  · exact h.alone
  · exact h.fresh

/-- A run is put back as it was, awake or parked. -/
theorem set (h : Scheduled runs sleeping awake sequence journal) {key : RunKey} {run next : Run}
    (hk : runs.get? key = some run) (hp : next.parked = run.parked) :
    Scheduled (runs.set key next) sleeping awake sequence journal := by
  constructor
  · exact h.distinct
  · intro other
    rw [SlotMap.get?_set hk, h.awake other]
    by_cases ho : other = key
    · simp [ho, hk, hp]
    · simp [ho]
  · intro other found ho
    rw [SlotMap.get?_set hk] at ho
    split at ho
    · rename_i heq
      cases ho
      rw [heq, hp]
      exact h.asleep key run hk
    · exact h.asleep other found ho
  · intro other hm
    rw [SlotMap.get?_set hk]
    split
    · exact .inr rfl
    · exact h.stale other hm
  · exact h.alone
  · exact h.fresh

/-- A run that is awake goes to sleep. -/
theorem park {key : RunKey} (h : Scheduled runs sleeping (key :: awake) sequence journal)
    {next : Run} (hp : next.parked = true) (tick : UInt64) :
    Scheduled (runs.set key next) (sleeping.insert ⟨tick, sequence⟩ key) awake (sequence + 1)
      journal := by
  obtain ⟨run, hk, hawake⟩ := (h.awake key).1 (by simp)
  have hnotin : key ∉ sleepers sleeping := by
    rw [h.asleep key run hk, hawake]
    simp
  have hperm := entries_insert_perm h.fresh tick key
  have hsleepers : (sleepers (sleeping.insert ⟨tick, sequence⟩ key)).Perm
      (key :: sleepers sleeping) := hperm.map Prod.snd
  obtain ⟨hkey, hdistinct⟩ := List.nodup_cons.1 h.distinct
  constructor
  · exact hdistinct
  · intro other
    rw [SlotMap.get?_set hk]
    by_cases ho : other = key
    · simp [ho, hp, hkey]
    · simp only [ho, if_false]
      rw [← h.awake other]
      simp [ho]
  · intro other found ho
    rw [hsleepers.mem_iff, List.mem_cons]
    rw [SlotMap.get?_set hk] at ho
    split at ho
    · rename_i heq
      cases ho
      simp [heq, hp]
    · rename_i hne
      rw [← h.asleep other found ho]
      simp [hne]
  · intro other hm
    rw [SlotMap.get?_set hk]
    rcases List.mem_cons.1 (hsleepers.mem_iff.1 hm) with rfl | hm
    · simp
    · split
      · exact .inr rfl
      · exact h.stale other hm
  · exact hsleepers.nodup_iff.2 (List.nodup_cons.2 ⟨hnotin, h.alone⟩)
  · intro entry hm
    rcases List.mem_cons.1 (hperm.mem_iff.1 hm) with rfl | hm
    · exact Nat.lt_succ_self sequence
    · exact Nat.lt_succ_of_lt (h.fresh entry hm)

/-- The sleeping entries without the first one. -/
theorem sleepers_erase {due : Due} {key : RunKey} {rest : List (Due × RunKey)}
    (he : sleeping.entries = (due, key) :: rest) :
    sleepers sleeping = key :: sleepers (sleeping.erase due) ∧
      ∀ entry ∈ (sleeping.erase due).entries, entry ∈ sleeping.entries := by
  have hrest := entries_erase_head he
  constructor
  · rw [sleepers, sleepers, hrest, he]
    rfl
  · intro entry hm
    rw [he]
    exact List.mem_cons_of_mem _ (hrest ▸ hm)

/-- A parked run whose entry comes first wakes up. -/
theorem wake (h : Scheduled runs sleeping awake sequence journal) {due : Due} {key : RunKey}
    {rest : List (Due × RunKey)} (he : sleeping.entries = (due, key) :: rest) {run next : Run}
    (hk : runs.get? key = some run) (hp : next.parked = false) :
    Scheduled (runs.set key next) (sleeping.erase due) (key :: awake) sequence journal := by
  obtain ⟨hsleepers, hsub⟩ := sleepers_erase he
  have halone := h.alone
  rw [hsleepers] at halone
  obtain ⟨hgone, halone⟩ := List.nodup_cons.1 halone
  have hparked : run.parked = true := (h.asleep key run hk).1 (by simp [hsleepers])
  constructor
  · refine List.nodup_cons.2 ⟨fun hm => ?_, h.distinct⟩
    obtain ⟨other, ho, hf⟩ := (h.awake key).1 hm
    rw [hk] at ho
    cases ho
    rw [hparked] at hf
    cases hf
  · intro other
    rw [SlotMap.get?_set hk, List.mem_cons]
    by_cases ho : other = key
    · simp [ho, hp]
    · simp only [ho, false_or, if_false]
      exact h.awake other
  · intro other found ho
    rw [SlotMap.get?_set hk] at ho
    split at ho
    · rename_i heq
      cases ho
      simp [heq, hp, hgone]
    · rename_i hne
      rw [← h.asleep other found ho, hsleepers]
      simp [hne]
  · intro other hm
    rw [SlotMap.get?_set hk]
    split
    · exact .inr rfl
    · exact h.stale other (by simp [hsleepers, hm])
  · exact halone
  · exact fun entry hm => h.fresh entry (hsub entry hm)

/-- An entry that leads nowhere is dropped. -/
theorem drop (h : Scheduled runs sleeping awake sequence journal) {due : Due} {key : RunKey}
    {rest : List (Due × RunKey)} (he : sleeping.entries = (due, key) :: rest)
    (hk : runs.get? key = none) :
    Scheduled runs (sleeping.erase due) awake sequence journal := by
  obtain ⟨hsleepers, hsub⟩ := sleepers_erase he
  refine ⟨h.distinct, h.awake, ?_, ?_, ?_, ?_⟩
  · intro other run ho
    have hne : other ≠ key := by
      rintro rfl
      rw [hk] at ho
      cases ho
    rw [← h.asleep other run ho, hsleepers]
    simp [hne]
  · exact fun other hm => h.stale other (by simp [hsleepers, hm])
  · have halone := h.alone
    rw [hsleepers] at halone
    exact (List.nodup_cons.1 halone).2
  · exact fun entry hm => h.fresh entry (hsub entry hm)

/-- A run ends; if it was parked, its entry stays behind. -/
theorem erase (h : Scheduled runs sleeping awake sequence journal) (hs : Stamped runs journal)
    (hu : Unworn journal) {key : RunKey} {run : Run} (hk : runs.get? key = some run) :
    Scheduled (runs.erase key) sleeping (awake.erase key) sequence (.ended key :: journal) := by
  constructor
  · exact h.distinct.erase key
  · intro other
    rw [SlotMap.get?_erase, h.distinct.mem_erase_iff, h.awake other]
    by_cases ho : other = key
    · simp [ho]
    · simp [ho]
  · intro other found ho
    rw [SlotMap.get?_erase] at ho
    split at ho
    · cases ho
    · exact h.asleep other found ho
  · intro other hm
    rw [SlotMap.get?_erase]
    split
    · rename_i heq
      rw [heq]
      exact .inl (hs.past_ended hu hk)
    · exact (h.stale other hm).imp_left (Past.append · [.ended key])
  · exact h.alone
  · exact h.fresh

end Scheduled

namespace Rested

variable {ledger after : Ledger} {runs : SlotMap Run}

/-- Whatever leaves the suspensions alone keeps the law. -/
theorem of_counts (h : Rested ledger runs)
    (hc : ∀ actor, after.suspensionCount actor = ledger.suspensionCount actor) :
    Rested after runs :=
  fun actor => (hc actor).trans (h actor)

/-- A run that is started holds no suspension. -/
theorem insert (h : Rested ledger runs) (ht : runs.Tidy) {run : Run} (hp : run.parked = false) :
    Rested ledger (runs.insert run).2 := by
  intro actor
  rw [SlotMap.total_insert ht, h actor]
  simp [Run.restsFor, hp]

/-- A run that goes to sleep or wakes up takes a suspension or gives one back; one
that does neither keeps what it has. -/
theorem set (h : Rested ledger runs) {key : RunKey} {run next : Run}
    (hk : runs.get? key = some run)
    (hc : ∀ actor, after.suspensionCount actor + run.restsFor actor =
      ledger.suspensionCount actor + next.restsFor actor) :
    Rested after (runs.set key next) := by
  intro actor
  have hs := SlotMap.total_set hk (Run.restsFor actor) next
  have hl := h actor
  have := hc actor
  omega

/-- A run that ends gives back the suspension it holds. -/
theorem erase (h : Rested ledger runs) {key : RunKey} {run : Run} (hk : runs.get? key = some run)
    (hc : ∀ actor, after.suspensionCount actor + run.restsFor actor =
      ledger.suspensionCount actor) :
    Rested after (runs.erase key) := by
  intro actor
  have hs := SlotMap.total_erase hk (Run.restsFor actor)
  have hl := h actor
  have := hc actor
  omega

/-- A parked run gives its suspension back when it is resumed. -/
theorem resume (h : Rested ledger runs) {key : RunKey} {run : Run} (hk : runs.get? key = some run)
    (hp : run.parked = true) (actor : Actor) :
    (ledger.resume run.actor).suspensionCount actor + run.restsFor actor =
      ledger.suspensionCount actor := by
  have hcount : (ledger.resume run.actor).suspensionCount actor =
      ledger.suspensionCount actor - if actor = run.actor then 1 else 0 :=
    ActorCounts.count_remove ledger.suspensions run.actor actor
  have hle := SlotMap.le_total hk (Run.restsFor actor)
  have hl := h actor
  rw [hcount]
  by_cases ha : actor = run.actor
  · subst ha
    simp only [Run.restsFor, hp, and_self, if_true] at hle ⊢
    omega
  · simp [Run.restsFor, ha, Ne.symm ha]

end Rested

end GridScript
