import GridScript.Host.Minimal
import GridScript.Proofs.Operations

/-!
# What holds after every history

Whatever operations are performed and in whatever order, the counts of the ledger
are those of the runs under way, and every run that was ever started is either
still under way or has exactly one report. Suspensions and reports are traced by
keys, so they are exact as long as no slot is vacated 2 ^ 32 times: after that a
sleeping entry left behind by a run that ended can lead to another run.
-/

namespace GridScript

open Journal

variable {σ ρ : Type} [Host σ] [RandomSource ρ]

/-- The counts of the ledger are those of the runs under way, within the limits. -/
structure Engine.Exact (engine : Engine σ ρ) : Prop where
  /-- The number of runs. -/
  activeRuns : engine.ledger.activeRuns = engine.runs.size
  /-- The number of calls on the stacks of all runs. -/
  activeCalls : engine.ledger.activeCalls =
    (engine.runs.entries.map fun entry => entry.2.machine.callDepth).sum
  /-- The number of calls on the stacks of the runs of an actor. -/
  callDepth : ∀ actor, engine.ledger.callDepth actor =
    ((engine.runs.entries.filter fun entry => entry.2.actor == actor).map
      fun entry => entry.2.machine.callDepth).sum
  /-- The number of parked runs of an actor. -/
  suspensions : Unworn engine.journal → ∀ actor, engine.ledger.suspensionCount actor =
    (engine.runs.keysWhere fun run => run.actor == actor && run.parked).length
  /-- There are no more calls than allowed. -/
  callLimit : engine.ledger.activeCalls ≤ engine.ledger.settings.maxActiveCalls
  /-- No actor has more parked runs than allowed. -/
  suspensionLimit : ∀ actor,
    engine.ledger.suspensionCount actor ≤ engine.ledger.settings.maxSuspensionsPerActor

/-- A sound engine has exact counts. -/
theorem Engine.Sound.exact {engine : Engine σ ρ} (h : engine.Sound []) : engine.Exact where
  activeRuns := (h.balanced default).activeRuns
  activeCalls := (h.balanced default).activeCalls
  callDepth actor := by
    have htotal := SlotMap.total_ite engine.runs (fun run => run.actor == actor)
      fun run => run.machine.callDepth
    rw [(h.balanced actor).depth actor, ite_self, Nat.add_zero, ← htotal]
    simp only [beq_iff_eq]
    rfl
  suspensions hu actor := by
    rw [h.rested hu actor, SlotMap.length_keysWhere]
    simp only [Bool.and_eq_true, beq_iff_eq]
    rfl
  callLimit := (h.balanced default).calls
  suspensionLimit := (h.balanced default).suspensions

/-- Performs several operations in a row; the reports are appended to the given
ones. -/
def Engine.performAll (fuel : Nat) (engine : Engine σ ρ) (returned : List RunReport) :
    List (Operation σ) → Option (List RunReport × Engine σ ρ)
  | [] => some (returned, engine)
  | operation :: rest => do
    let (reports, engine) ← engine.perform fuel operation
    engine.performAll fuel (returned ++ reports) rest

namespace History

/-- Operations in a row continue a history. -/
theorem performAll {fuel : Nat} {engine after : Engine σ ρ} {returned all : List RunReport}
    {operations : List (Operation σ)} (h : History engine returned)
    (hp : engine.performAll fuel returned operations = some (all, after)) : History after all := by
  induction operations generalizing engine returned with
  | nil =>
    cases hp
    exact h
  | cons operation rest ih =>
    simp only [Engine.performAll, Option.bind_eq_bind, Option.bind_eq_some_iff] at hp
    obtain ⟨⟨reports, next⟩, hone, hrest⟩ := hp
    exact ih (h.step hone) hrest

/-- After every history the counts of the ledger are exact, and they are all zero
once all runs were stopped. -/
theorem accounts_exact {engine : Engine σ ρ} {returned : List RunReport}
    (h : History engine returned) :
    engine.Exact ∧
      engine.shutdown.2.ledger.activeRuns = 0 ∧
      engine.shutdown.2.ledger.activeCalls = 0 ∧
      (∀ actor, engine.shutdown.2.ledger.callDepth actor = 0) ∧
      (Unworn engine.shutdown.2.journal →
        ∀ actor, engine.shutdown.2.ledger.suspensionCount actor = 0) := by
  have hstopped : engine.shutdown.2.Sound [] := (h.settled.1.accrues_shutdown h.settled.2.1).sound
  have hnone := engine.get?_shutdown
  refine ⟨h.settled.1.exact, ?_, ?_, fun actor => ?_, fun hu actor => ?_⟩
  · rw [(hstopped.balanced default).activeRuns, SlotMap.size_eq_total]
    exact SlotMap.total_eq_zero hnone _
  · rw [(hstopped.balanced default).activeCalls, Nat.add_zero]
    exact SlotMap.total_eq_zero hnone _
  · rw [(hstopped.balanced actor).depth actor, ite_self, Nat.add_zero]
    exact SlotMap.total_eq_zero hnone _
  · rw [hstopped.rested hu actor]
    exact SlotMap.total_eq_zero hnone _

/-- A function that waits for a tick. -/
def restFunction : FunctionDefinition :=
  .plain "rest" ⟨"alice"⟩ .everyone
    (some (.mk ⟨1, "wait", .control, some "wait", .empty, .plain, none⟩ [] none))

/-- A program that calls it. -/
def restProgram : Program where
  kind := .event "start"
  root := .mk ⟨2, "start", .event, none, .empty, .plain, none⟩ [] (some (.mk ⟨3, "call", .call,
    some "call", ArrivalMap.empty.insert "function" (.text "rest"), .plain, none⟩ [] none))
  origin := default
  catalogueVersion := 0

/-- An engine without runs on a host that has nothing but a clock. -/
def quietEngine : Engine MinimalHost ReplaySource :=
  .initial ⟨⟨0⟩⟩ ⟨[], 0⟩ (.initial default) ⟨0, .empty, .empty⟩ ⟨default, 1, default, default, 10⟩

/-- Two runs that wait inside a call. -/
def twoResting : List (Operation MinimalHost) :=
  [.register restFunction false, .execute restProgram ⟨"alice"⟩ default,
    .execute restProgram ⟨"alice"⟩ default]

/-- Two runs that wait inside a call are counted with their calls and suspensions. -/
theorem accounts_exact_twoResting : ∃ (engine : Engine MinimalHost ReplaySource) (returned : _),
    History engine returned ∧ engine.runs.size = 2 ∧ engine.ledger.activeCalls = 2 ∧
      engine.Exact := by
  have hcounts : ((quietEngine.performAll 3 [] twoResting).map fun last =>
      (last.2.runs.size, last.2.ledger.activeCalls)) = some (2, 2) := by decide +kernel
  obtain ⟨⟨returned, engine⟩, hlast, hend⟩ := Option.map_eq_some_iff.1 hcounts
  have h : History engine returned := (History.initial ..).performAll hlast
  obtain ⟨hsize, hcalls⟩ := Prod.ext_iff.1 hend
  exact ⟨engine, returned, h, hsize, hcalls, (accounts_exact h).1⟩

/-- After every history nothing is in the queue, every run that was started has one
report if it ended and none if it is under way, nothing is heard of a run after its
end, and reports that are pending are handed out by the next tick and by nothing
before it. -/
theorem runs_end_once {engine : Engine σ ρ} {returned : List RunReport}
    (h : History engine returned) (hu : Unworn engine.journal) :
    engine.ready = [] ∧
      (starts engine.journal).Nodup ∧
      (∀ key, (engine.runs.get? key).isSome → key ∈ starts engine.journal) ∧
      (∀ key ∈ starts engine.journal,
        (returned ++ engine.pending).countP (·.key = key) =
          if (engine.runs.get? key).isSome then 0 else 1) ∧
      (∀ report ∈ returned ++ engine.pending, report.key ∈ starts engine.journal) ∧
      (engine.journal.Pairwise fun later earlier =>
        ∀ key, earlier = .ended key → later.key ≠ key) ∧
      (∀ fuel reports after, engine.perform fuel .tick = some (reports, after) →
        engine.pending <+: reports ∧ after.pending = []) ∧
      (∀ fuel operation reports after, operation ≠ .tick →
        engine.perform fuel operation = some (reports, after) →
        engine.pending <+: after.pending) := by
  obtain ⟨hsound, hready, hreports⟩ := h.settled
  have horderly := hsound.chronicle.orderly hu
  have hcount (key : RunKey) : (returned ++ engine.pending).countP (·.key = key) =
      (endings engine.journal).count key := by
    rw [← hreports.count_eq, List.count, List.countP_map]
    rfl
  refine ⟨hready, horderly.starts, fun key hlive => ?_, fun key hm => ?_, fun report hm => ?_,
    horderly.final, fun fuel reports after hp => ?_, fun fuel operation reports after ht hp => ?_⟩
  · obtain ⟨run, hk⟩ := Option.isSome_iff_exists.1 hlive
    exact hsound.chronicle.listed key run hk
  · rw [hcount]
    split
    · rename_i hlive
      obtain ⟨run, hk⟩ := Option.isSome_iff_exists.1 hlive
      refine List.count_eq_zero.2 fun hended => ?_
      exact hsound.chronicle.stamped.not_past_of_get? hu hk (horderly.past key hended)
    · rename_i hgone
      rw [horderly.endings.count, if_pos]
      exact (hsound.chronicle.traced key hm).resolve_left hgone
  · refine hsound.chronicle.begun report.key (hreports.mem_iff.1 ?_)
    exact List.mem_map_of_mem hm
  · obtain ⟨-, -, hpending, more, hmore, -⟩ := hsound.nextTick hp
    exact ⟨⟨more, hmore.symm⟩, hpending⟩
  · exact (hsound.accrues_perform hready ht hp).pending

/-- A program that splits off a loop over one item. -/
def splitProgram : Program where
  kind := .event "start"
  root := .mk ⟨4, "start", .event, none, .empty, .plain, none⟩ [] (some (.mk ⟨5, "loop", .loop,
    some "for_each", (ArrivalMap.empty.insert "list" (.list [.bool true])).insert "async"
      (.bool true), .plain, none⟩ [] none))
  origin := default
  catalogueVersion := 0

/-- One run waits and is stopped, with its key used twice; another one ends after
it split off a third. -/
def stoppedAndSplit : List (Operation MinimalHost) :=
  [.register restFunction false, .execute restProgram ⟨"alice"⟩ default,
    .execute splitProgram ⟨"alice"⟩ default, .stop ⟨0, 0⟩, .stop ⟨0, 0⟩]

/-- The three runs have one report each, of which one is pending. -/
theorem runs_end_once_stoppedAndSplit : ∃ (engine : Engine MinimalHost ReplaySource)
    (returned : List RunReport), History engine returned ∧ Unworn engine.journal ∧
      returned.map (·.key) = [⟨1, 0⟩, ⟨0, 0⟩] ∧ engine.pending.map (·.key) = [⟨2, 0⟩] ∧
      ∀ key ∈ starts engine.journal, (returned ++ engine.pending).countP (·.key = key) =
        if (engine.runs.get? key).isSome then 0 else 1 := by
  have hkeys : ((quietEngine.performAll 3 [] stoppedAndSplit).map fun last =>
      (last.1.map (·.key), last.2.pending.map (·.key), last.2.journal.length)) =
      some ([⟨1, 0⟩, ⟨0, 0⟩], [⟨2, 0⟩], 10) := by decide +kernel
  obtain ⟨⟨returned, engine⟩, hlast, hend⟩ := Option.map_eq_some_iff.1 hkeys
  have h : History engine returned := (History.initial ..).performAll hlast
  simp only [Prod.mk.injEq] at hend
  obtain ⟨hreturned, hpending, hlength⟩ := hend
  have hu : Unworn engine.journal := .of_length (by rw [hlength]; decide)
  exact ⟨engine, returned, h, hu, hreturned, hpending, (runs_end_once h hu).2.2.2.1⟩

end History

end GridScript
