import GridScript.Proofs.Conservation

/-!
# Limits on calls and suspended runs

The ledger refuses a call or a suspension that would be one too many. It goes by what it
counts, and when it is given up it forgets what runs still hold. From then on more calls
can be active and more runs suspended than allowed, but never by more than was
forgotten: whatever the ledger has not forgotten it counts, up to the limit.
-/

namespace GridScript

open Incident Journal

/-- What is forgotten in one course of incidents and in another. -/
@[simp] theorem Incident.forgottenCalls_append (first second : List Incident) :
    forgottenCalls (first ++ second) = forgottenCalls first + forgottenCalls second := by
  simp [forgottenCalls]

@[simp] theorem Incident.forgottenSuspensions_append (actor : Actor)
    (first second : List Incident) :
    forgottenSuspensions actor (first ++ second) =
      forgottenSuspensions actor first + forgottenSuspensions actor second := by
  simp [forgottenSuspensions]

namespace Engine

variable {σ ρ : Type} {engine after : Engine σ ρ} {log incidents : List Incident}

/-- The ledger counts no more than allowed, and everything it has not forgotten. -/
structure Within (engine : Engine σ ρ) (log : List Incident) : Prop where
  /-- No more active calls are counted than allowed. -/
  counted : engine.ledger.activeCalls ≤ engine.ledger.settings.maxActiveCalls
  /-- Calls under way are counted or forgotten. -/
  calls : engine.liveCalls.length ≤ engine.ledger.activeCalls + forgottenCalls log
  /-- No more suspended runs of an actor are counted than allowed. -/
  claimed : ∀ actor,
    engine.ledger.suspensionCount actor ≤ engine.ledger.settings.maxSuspensionsPerActor
  /-- Parked runs of an actor are counted or forgotten. -/
  parked : Unworn engine.journal → ∀ actor, engine.runs.total (Run.restsFor actor) ≤
    engine.ledger.suspensionCount actor + forgottenSuspensions actor log

/-- A move keeps within the limits. -/
theorem Within.moved (h : engine.Within log) (ht : engine.runs.Tidy)
    (hm : Moved engine incidents after) : after.Within (log ++ incidents) where
  counted := by
    rw [hm.settings]
    exact hm.callLimit h.counted
  calls := by
    have hlength := (hm.perm_liveCalls ht).length_eq
    have hlive := h.calls
    have hcounted := hm.calls
    simp only [List.length_append] at hlength
    rw [forgottenCalls_append]
    omega
  claimed actor := by
    rw [hm.settings]
    exact hm.suspensionLimit actor (h.claimed actor)
  parked hu actor := by
    obtain ⟨news, hnews⟩ := hm.journal
    have hunworn : Unworn engine.journal := .of_append news (hnews ▸ hu)
    obtain ⟨old, new, hswap, -, -, hclaimed⟩ := hm.runs
    have htotal := hswap.total ht (Run.restsFor actor)
    have hparked := h.parked hunworn actor
    have hmoved := hclaimed actor hunworn
    rw [forgottenSuspensions_append]
    omega

end Engine

variable {σ ρ : Type} [Host σ] [RandomSource ρ]

/-- Every engine on record is within the limits. -/
theorem Recorded.within {engine : Engine σ ρ} {log : List Incident} (h : Recorded engine log) :
    engine.Within log := by
  induction h with
  | initial =>
    exact ⟨Nat.zero_le _, Nat.le_refl _, fun _ => Nat.zero_le _, fun _ _ => Nat.le_refl _⟩
  | move past moves ih => exact ih.moved past.proper.tidy (moves.moved past.proper.actions)

/-- The parked runs of an actor. -/
def Engine.parkedRuns (engine : Engine σ ρ) (actor : Actor) : List RunKey :=
  engine.runs.keysWhere fun run => run.actor == actor && run.parked

/-- Limits hold up to what was forgotten. Every career is on record with the ledgers that
were given up in it, and at every moment on record there are no more active calls and no
more parked runs of an actor than allowed and counted by those ledgers together. -/
theorem limits_hold_up_to_forgotten :
    (∀ (engine : Engine σ ρ) (cleared : List Ledger), Career engine cleared →
      ∃ log, Recorded engine log ∧ clearances log = cleared) ∧
    ∀ (engine : Engine σ ρ) (log : List Incident), Recorded engine log →
      engine.liveCalls.length ≤ engine.ledger.settings.maxActiveCalls +
        ((clearances log).map (·.activeCalls)).sum ∧
      (Unworn engine.journal → ∀ actor, (engine.parkedRuns actor).length ≤
        engine.ledger.settings.maxSuspensionsPerActor +
          ((clearances log).map (·.suspensionCount actor)).sum) := by
  refine ⟨fun engine cleared h => h.exists_recorded.1, fun engine log h => ?_⟩
  have hwithin := h.within
  refine ⟨?_, fun hu actor => ?_⟩
  · have hcalls := hwithin.calls
    have hcounted := hwithin.counted
    unfold forgottenCalls at hcalls
    omega
  · have hparked := hwithin.parked hu actor
    have hclaimed := hwithin.claimed actor
    have hlength : (engine.parkedRuns actor).length = engine.runs.total (Run.restsFor actor) := by
      rw [Engine.parkedRuns, SlotMap.length_keysWhere]
      simp only [Bool.and_eq_true, beq_iff_eq]
      rfl
    unfold forgottenSuspensions at hparked
    omega

/-- An engine that allows one active call and one suspended run of an actor. -/
def narrowEngine : Engine MinimalHost ReplaySource :=
  .initial ⟨⟨0⟩⟩ ⟨[], 0⟩ (.initial { (default : Settings) with
    maxActiveCalls := 1
    maxSuspensionsPerActor := 1 }) ⟨0, .empty, .empty⟩ ⟨default, 1, default, default, 10⟩

/-- A run that waits inside a call. -/
def oneResting : List (Operation MinimalHost) :=
  [.register History.restFunction false, .execute History.restProgram ⟨"alice"⟩ default]

/-- What an actor's runs and all calls come to: active calls and parked runs, and what
the ledger counts of them. -/
def Engine.usage (engine : Engine σ ρ) (actor : Actor) : List Nat :=
  [engine.liveCalls.length, (engine.parkedRuns actor).length, engine.ledger.activeCalls,
    engine.ledger.suspensionCount actor]

/-- A run that waits inside a call when the ledger is given up, and another one after
that: both are under way, and the ledger counts one of them. -/
theorem exists_narrow_career :
    ∃ engine first : Engine MinimalHost ReplaySource, Career engine [first.ledger] ∧
      Unworn engine.journal ∧ first.usage ⟨"alice"⟩ = [1, 1, 1, 1] ∧
      engine.usage ⟨"alice"⟩ = [2, 2, 1, 1] ∧
      engine.ledger.settings.maxActiveCalls = 1 ∧
      engine.ledger.settings.maxSuspensionsPerActor = 1 := by
  have hcounts : ((narrowEngine.performAll 3 [] oneResting).bind fun first =>
      ((first.2.mapLedger .shutdown).performAll 3 [] oneResting).map fun last =>
        (first.2.usage ⟨"alice"⟩, last.2.usage ⟨"alice"⟩,
          [last.2.ledger.settings.maxActiveCalls, last.2.ledger.settings.maxSuspensionsPerActor,
            last.2.journal.length])) =
      some ([1, 1, 1, 1], [2, 2, 1, 1], [1, 1, 6]) := by decide +kernel
  obtain ⟨⟨returned, first⟩, hfirst, hrest⟩ := Option.bind_eq_some_iff.1 hcounts
  obtain ⟨⟨reports, engine⟩, hlast, hend⟩ := Option.map_eq_some_iff.1 hrest
  simp only [Prod.mk.injEq, List.cons.injEq, and_true] at hend
  obtain ⟨hbefore, hafter, hcalls, hsuspensions, hlength⟩ := hend
  have hcareer : Career first [] := (Career.initial ..).performAll hfirst
  refine ⟨engine, first, hcareer.reset.performAll hlast, .of_length ?_, hbefore, hafter, hcalls,
    hsuspensions⟩
  rw [hlength]
  decide

/-- Neither limit holds if the ledger is given up while runs are under way. -/
theorem limits_exceeded_after_reset :
    ¬ (∀ (engine : Engine MinimalHost ReplaySource) (cleared : List Ledger),
      Career engine cleared →
        engine.liveCalls.length ≤ engine.ledger.settings.maxActiveCalls) ∧
    ¬ ∀ (engine : Engine MinimalHost ReplaySource) (cleared : List Ledger) (actor : Actor),
      Career engine cleared →
        (engine.parkedRuns actor).length ≤ engine.ledger.settings.maxSuspensionsPerActor := by
  obtain ⟨engine, first, hcareer, -, -, husage, hcalls, hsuspensions⟩ := exists_narrow_career
  simp only [Engine.usage, List.cons.injEq, and_true] at husage
  obtain ⟨hlive, hparked, -⟩ := husage
  refine ⟨fun hlimit => ?_, fun hlimit => ?_⟩
  · have hfew := hlimit engine _ hcareer
    omega
  · have hfew := hlimit engine _ ⟨"alice"⟩ hcareer
    omega

/-- The two runs are as many as one that is allowed and one that was forgotten. -/
theorem limits_hold_up_to_forgotten_narrow :
    ∃ (engine : Engine MinimalHost ReplaySource) (log : List Incident),
      Recorded engine log ∧ Unworn engine.journal ∧
      (clearances log).map (·.activeCalls) = [1] ∧
      (clearances log).map (·.suspensionCount ⟨"alice"⟩) = [1] ∧
      engine.liveCalls.length = 2 ∧ engine.liveCalls.length ≤ 1 + [1].sum ∧
      (engine.parkedRuns ⟨"alice"⟩).length = 2 ∧
      (engine.parkedRuns ⟨"alice"⟩).length ≤ 1 + [1].sum := by
  obtain ⟨hrecorded, hlimits⟩ := limits_hold_up_to_forgotten (σ := MinimalHost) (ρ := ReplaySource)
  obtain ⟨engine, first, hcareer, hunworn, hforgotten, husage, hcalls, hsuspensions⟩ :=
    exists_narrow_career
  obtain ⟨log, hlog, hcleared⟩ := hrecorded engine _ hcareer
  simp only [Engine.usage, List.cons.injEq, and_true] at hforgotten husage
  have hlostCalls : (clearances log).map (·.activeCalls) = [1] := by
    simp [hcleared, hforgotten]
  have hlostRuns : (clearances log).map (·.suspensionCount ⟨"alice"⟩) = [1] := by
    simp [hcleared, hforgotten]
  obtain ⟨hlive, hparked⟩ := hlimits engine log hlog
  rw [hcalls, hlostCalls] at hlive
  have hresting := hparked hunworn ⟨"alice"⟩
  rw [hsuspensions, hlostRuns] at hresting
  exact ⟨engine, log, hlog, hunworn, hlostCalls, hlostRuns, husage.1, hlive, husage.2.1, hresting⟩

end GridScript
