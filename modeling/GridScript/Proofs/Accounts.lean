import GridScript.Engine.Basic
import GridScript.Proofs.Ownership
import GridScript.Proofs.Slots

/-!
# The accounts of an engine

The ledger of an engine is balanced when its counts are the sums of what the runs
hold: one for every run, and the calls on the stack of each. Starting a run, letting
it execute and ending it are three moves on ledger and runs together, and each
keeps the balance. A call that was accepted for a run that is yet to be started is
held in the meantime.
-/

namespace GridScript

open Ledger

/-- Noting how much was done changes no count. -/
theorem Ledger.recordSteps_eq (ledger : Ledger) (origin : Place) (steps : Nat) :
    ∃ loads, ledger.recordSteps origin steps = { ledger with loads } := by
  unfold recordSteps
  split
  · exact ⟨ledger.loads, rfl⟩
  · exact ⟨_, rfl⟩

/-- The calls a run holds as far as they count for an actor. -/
def Run.callsFor (actor : Actor) (run : Run) : Nat :=
  if run.actor = actor then run.machine.callDepth else 0

/-- The counts of the ledger are the sums over the runs, but for `held` calls of
one actor that belong to no run yet, and no limit is exceeded. -/
structure Balanced (ledger : Ledger) (runs : SlotMap Run) (actor : Actor) (held : Nat) : Prop where
  /-- The slots are in order. -/
  tidy : runs.Tidy
  /-- Every run has a machine of its own actor. -/
  owned : ∀ key run, runs.get? key = some run → run.machine.Owned run.actor
  /-- Every run counts once. -/
  activeRuns : ledger.activeRuns = runs.size
  /-- Every call counts once. -/
  activeCalls : ledger.activeCalls = runs.total (·.machine.callDepth) + held
  /-- Every call counts once for its actor. -/
  depth : ∀ other, ledger.callDepth other =
    runs.total (Run.callsFor other) + if other = actor then held else 0
  /-- There are no more calls than allowed. -/
  calls : ledger.activeCalls ≤ ledger.settings.maxActiveCalls
  /-- No actor has more suspensions than allowed. -/
  suspensions : ∀ other, ledger.suspensionCount other ≤ ledger.settings.maxSuspensionsPerActor

namespace Balanced

variable {ledger after : Ledger} {runs : SlotMap Run} {actor : Actor} {held : Nat}

/-- A new ledger is balanced when there are no runs. -/
theorem initial (settings : Settings) (actor : Actor) :
    Balanced (Ledger.initial settings) .empty actor 0 where
  tidy := SlotMap.tidy_empty
  owned key run h := by cases h
  activeRuns := rfl
  activeCalls := rfl
  depth other := by
    rw [ite_self]
    rfl
  calls := Nat.zero_le _
  suspensions other := Nat.zero_le _

/-- A balanced ledger covers what a run holds. -/
theorem covers (h : Balanced ledger runs actor held) {key : RunKey} {run : Run}
    (hk : runs.get? key = some run) : ledger.Covers run.actor run.machine.callDepth where
  calls := by
    have hle := SlotMap.le_total hk (·.machine.callDepth)
    have := h.activeCalls
    omega
  depth := by
    have hle := SlotMap.le_total hk (Run.callsFor run.actor)
    have hd := h.depth run.actor
    rw [Run.callsFor, if_pos rfl] at hle
    omega

/-- What nobody counts can change. -/
theorem of_counts (h : Balanced ledger runs actor held) (hs : after.settings = ledger.settings)
    (hr : after.activeRuns = ledger.activeRuns) (hc : after.activeCalls = ledger.activeCalls)
    (hd : ∀ other, after.callDepth other = ledger.callDepth other)
    (hp : ∀ other, after.suspensionCount other ≤ ledger.suspensionCount other) :
    Balanced after runs actor held where
  tidy := h.tidy
  owned := h.owned
  activeRuns := hr.trans h.activeRuns
  activeCalls := hc.trans h.activeCalls
  depth other := (hd other).trans (h.depth other)
  calls := by
    rw [hc, hs]
    exact h.calls
  suspensions other := by
    rw [hs]
    exact Nat.le_trans (hp other) (h.suspensions other)

/-- When nothing is held it does not matter for whom. -/
theorem anyone (h : Balanced ledger runs actor 0) (other : Actor) :
    Balanced ledger runs other 0 :=
  { h with
    depth := fun third => by
      have := h.depth third
      rw [ite_self] at this ⊢
      exact this }

/-- A call that is accepted is held, and a refused one is not. -/
theorem exchange (h : Balanced ledger runs actor 0) {kept : Nat}
    (hx : Exchange actor ledger 0 after kept) : Balanced after runs actor kept where
  tidy := h.tidy
  owned := h.owned
  activeRuns := hx.activeRuns.trans h.activeRuns
  activeCalls := by
    have := hx.calls
    have := h.activeCalls
    omega
  depth other := by
    have hd := h.depth other
    rw [ite_self] at hd
    by_cases ho : other = actor
    · subst ho
      have := hx.depth
      rw [if_pos rfl]
      omega
    · rw [if_neg ho, hx.others other ho, hd]
  calls := hx.limit h.calls
  suspensions other := by
    rw [hx.suspensions, hx.settings]
    exact h.suspensions other

/-- A run that is started takes over what was held for it. -/
theorem insert {run : Run} (h : Balanced ledger runs run.actor run.machine.callDepth)
    (ho : run.machine.Owned run.actor) :
    Balanced ledger.startRun (runs.insert run).2 actor 0 where
  tidy := SlotMap.tidy_insert h.tidy run
  owned key other hk := by
    rw [SlotMap.get?_insert h.tidy] at hk
    split at hk
    · cases hk
      exact ho
    · exact h.owned key other hk
  activeRuns := by
    have := h.activeRuns
    rw [SlotMap.size_eq_total] at this ⊢
    rw [SlotMap.total_insert h.tidy, ← this]
    rfl
  activeCalls := by
    rw [SlotMap.total_insert h.tidy]
    exact h.activeCalls
  depth other := by
    have hd := h.depth other
    rw [SlotMap.total_insert h.tidy, Run.callsFor, ite_self]
    simp only [eq_comm (a := run.actor)]
    exact hd
  calls := h.calls
  suspensions := h.suspensions

/-- A run that executed is put back with what it holds now. -/
theorem set (h : Balanced ledger runs actor held) {key : RunKey} {run next : Run}
    (hk : runs.get? key = some run) (ha : next.actor = run.actor)
    (ho : next.machine.Owned next.actor)
    (hx : Exchange run.actor ledger run.machine.callDepth
      { after with suspensions := ledger.suspensions } next.machine.callDepth)
    (hp : ∀ other, after.suspensionCount other ≤ ledger.settings.maxSuspensionsPerActor) :
    Balanced after (runs.set key next) actor held where
  tidy := SlotMap.tidy_set h.tidy key next
  owned other found hf := by
    rw [SlotMap.get?_set hk] at hf
    split at hf
    · cases hf
      exact ho
    · exact h.owned other found hf
  activeRuns := by
    have hr : after.activeRuns = ledger.activeRuns := hx.activeRuns
    have hs := SlotMap.total_set hk (fun _ => 1) next
    rw [hr, h.activeRuns, SlotMap.size_eq_total, SlotMap.size_eq_total]
    omega
  activeCalls := by
    have hc : after.activeCalls + run.machine.callDepth =
        ledger.activeCalls + next.machine.callDepth := hx.calls
    have hs := SlotMap.total_set hk (·.machine.callDepth) next
    have := h.activeCalls
    omega
  depth other := by
    have hs := SlotMap.total_set hk (Run.callsFor other) next
    have hd := h.depth other
    simp only [Run.callsFor, ha] at hs
    by_cases ho : other = run.actor
    · subst ho
      have hx : after.callDepth run.actor + run.machine.callDepth =
          ledger.callDepth run.actor + next.machine.callDepth := hx.depth
      rw [if_pos rfl, if_pos rfl] at hs
      change ledger.callDepth run.actor = runs.total (Run.callsFor run.actor) + _ at hd
      change (runs.set key next).total (Run.callsFor run.actor) + _ =
        runs.total (Run.callsFor run.actor) + _ at hs
      omega
    · have hx : after.callDepth other = ledger.callDepth other := hx.others other ho
      rw [if_neg (Ne.symm ho), if_neg (Ne.symm ho)] at hs
      change (runs.set key next).total (Run.callsFor other) + _ =
        runs.total (Run.callsFor other) + _ at hs
      omega
  calls := hx.limit h.calls
  suspensions other := by
    have hs : after.settings = ledger.settings := hx.settings
    rw [hs]
    exact hp other

/-- A suspension is given back, and the run is put back awake. -/
theorem unpark (h : Balanced ledger runs actor held) {key : RunKey} {run : Run}
    (hk : runs.get? key = some run) (resting : Actor) :
    Balanced (ledger.resume resting) (runs.set key { run with parked := false }) actor held := by
  refine h.set hk rfl (h.owned key run hk) ?_ ?_
  · exact ⟨rfl, rfl, rfl, fun _ => rfl, rfl, rfl, fun _ _ => rfl, id⟩
  · intro other
    have hcount : (ledger.resume resting).suspensionCount other =
        ledger.suspensionCount other - if other = resting then 1 else 0 :=
      ActorCounts.count_remove ledger.suspensions resting other
    rw [hcount]
    exact Nat.le_trans (Nat.sub_le _ _) (h.suspensions other)

/-- A run whose calls were all given back is put back without them. -/
theorem closed (h : Balanced ledger runs actor held) {key : RunKey} {run next : Run}
    (hk : runs.get? key = some run) (ha : next.actor = run.actor) (hn : next.machine.stack = [])
    (hx : Exchange run.actor ledger run.machine.callDepth after 0) :
    Balanced after (runs.set key next) actor held := by
  refine h.set hk ha (Machine.owned_of_empty hn) ?_ ?_
  · rw [Machine.callDepth_of_empty hn]
    exact { hx with suspensions := fun _ => rfl }
  · intro other
    rw [hx.suspensions]
    exact h.suspensions other

/-- A run that holds nothing can end. -/
theorem erase (h : Balanced ledger runs actor held) {key : RunKey} {run : Run}
    (hk : runs.get? key = some run) (hn : run.machine.stack = []) :
    Balanced ledger.endRun (runs.erase key) actor held where
  tidy := SlotMap.tidy_erase h.tidy key
  owned other found hf := by
    rw [SlotMap.get?_erase] at hf
    split at hf
    · cases hf
    · exact h.owned other found hf
  activeRuns := by
    have hs := SlotMap.total_erase hk (fun _ => 1)
    have hr := h.activeRuns
    rw [SlotMap.size_eq_total] at hr ⊢
    change ledger.activeRuns - 1 = _
    omega
  activeCalls := by
    have hs := SlotMap.total_erase hk (·.machine.callDepth)
    rw [Machine.callDepth_of_empty hn] at hs
    have hc : ledger.endRun.activeCalls = ledger.activeCalls := rfl
    have := h.activeCalls
    omega
  depth other := by
    have hs := SlotMap.total_erase hk (Run.callsFor other)
    rw [Run.callsFor, Machine.callDepth_of_empty hn, ite_self] at hs
    have hd : ledger.endRun.callDepth other = ledger.callDepth other := rfl
    have := h.depth other
    omega
  calls := h.calls
  suspensions := h.suspensions

end Balanced

end GridScript
