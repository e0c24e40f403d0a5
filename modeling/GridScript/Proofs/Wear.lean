import GridScript.Proofs.Budget
import Mathlib

/-!
# Worn slots

A run that ends as soon as it was started leaves an engine as it was, but for one slot, which has
been vacated once more. Such runs can follow each other any number of times. The generation of the
slot is counted in 32 bits, so it comes to every number again: keys that were given out before are
given out again, and an entry of a run that was stopped may still wait for its tick under such a
key. If a run that was split off in that tick has got the key, the entry takes it up before it has
had its turn. It gives a suspension back that nobody gave it, and if it waits, it does not wait
long, since its turn is yet to come in the same tick.
-/

namespace GridScript

open Journal

namespace SlotMap

variable {α : Type} {map : SlotMap α} {index : Nat} {generation : UInt32} {next : Option Nat}

/-- The map after the slot that is taken first was taken and vacated again. -/
def wear (map : SlotMap α) : SlotMap α :=
  match map.vacancy? with
  | none => map
  | some (index, generation, next) =>
    { map with slots := map.slots.set index (.vacant (generation + 1) next) }

/-- The slot that is taken first comes first and is vacant. -/
theorem vacancy?_eq_some : map.vacancy? = some (index, generation, next) ↔
    map.head = some index ∧ map.slots[index]? = some (.vacant generation next) := by
  unfold vacancy?
  constructor
  · intro h
    obtain ⟨found, hhead, h⟩ := Option.bind_eq_some_iff.1 h
    split at h
    · rename_i hslot
      cases h
      exact ⟨hhead, hslot⟩
    · cases h
  · rintro ⟨hhead, hslot⟩
    rw [hhead]
    simp only [Option.bind_eq_bind, Option.bind_some, hslot]

/-- A slot that holds something already stays as it is when that is put into it. -/
theorem set_slot_self {slot : Slot α} (h : map.slots[index]? = some slot) :
    map.slots.set index slot = map.slots := by
  obtain ⟨hlt, rfl⟩ := List.getElem?_eq_some_iff.1 h
  exact List.set_getElem_self hlt

/-- What is stored in a vacant slot is found there. -/
theorem get?_insert_vacancy (h : map.vacancy? = some (index, generation, next)) (value : α) :
    (map.insert value).2.get? (map.insert value).1 = some value := by
  obtain ⟨-, hslot⟩ := vacancy?_eq_some.1 h
  have hlt : index < map.slots.length := (List.getElem?_eq_some_iff.1 hslot).1
  unfold insert
  rw [h]
  exact get?_eq_some.2 (List.getElem?_set_self hlt)

/-- What is stored in a vacant slot and removed wears the slot. -/
theorem erase_insert (h : map.vacancy? = some (index, generation, next)) (value : α) :
    (map.insert value).2.erase (map.insert value).1 = map.wear := by
  obtain ⟨hhead, -⟩ := vacancy?_eq_some.1 h
  have hstored := get?_insert_vacancy h value
  unfold insert at hstored ⊢
  unfold wear
  rw [h] at hstored ⊢
  dsimp only at hstored ⊢
  unfold erase
  rw [hstored, hhead]
  dsimp only
  rw [List.set_set, Nat.add_sub_cancel]

/-- A worn slot is still the one that is taken first. -/
theorem vacancy?_wear (h : map.vacancy? = some (index, generation, next)) :
    map.wear.vacancy? = some (index, generation + 1, next) := by
  obtain ⟨hhead, hslot⟩ := vacancy?_eq_some.1 h
  have hlt : index < map.slots.length := (List.getElem?_eq_some_iff.1 hslot).1
  unfold wear
  rw [h]
  exact vacancy?_eq_some.2 ⟨hhead, List.getElem?_set_self hlt⟩

/-- However often it is worn, the slot is the one that is taken first. -/
theorem vacancy?_iterate_wear (h : map.vacancy? = some (index, generation, next)) (count : Nat) :
    (wear^[count] map).vacancy? = some (index, generation + UInt32.ofNat count, next) := by
  induction count with
  | zero => exact h.trans (congrArg (fun g => some (index, g, next)) (UInt32.add_zero _).symm)
  | succ count ih =>
    rw [Function.iterate_succ_apply', vacancy?_wear ih, UInt32.ofNat_add, ← UInt32.add_assoc]
    rfl

/-- A slot that is worn any number of times has its generation counted up as often. -/
theorem iterate_wear (h : map.vacancy? = some (index, generation, next)) (count : Nat) :
    wear^[count] map =
      { map with
        slots := map.slots.set index (.vacant (generation + UInt32.ofNat count) next) } := by
  induction count generalizing map generation with
  | zero =>
    obtain ⟨-, hslot⟩ := vacancy?_eq_some.1 h
    have hzero : generation + UInt32.ofNat 0 = generation := UInt32.add_zero generation
    rw [hzero, set_slot_self hslot]
    rfl
  | succ count ih =>
    have hcount : generation + 1 + UInt32.ofNat count = generation + UInt32.ofNat (count + 1) := by
      rw [UInt32.ofNat_add, UInt32.add_assoc, UInt32.add_comm 1]
      rfl
    rw [Function.iterate_succ_apply, ih (vacancy?_wear h), hcount]
    unfold wear
    rw [h, List.set_set]

end SlotMap

variable {σ ρ : Type} [Host σ] [RandomSource ρ]

/-- A program with nothing behind its entry ends with its second step. -/
theorem Machine.slice_of_next_eq_none {program : Program} (hp : program.root.next = none)
    (table : ActionTable σ ρ) (actor : Actor) (origin : Place) (limit budget : Nat)
    (around : Surroundings σ ρ) :
    (Machine.ofScript (.ofProgram program) (.start actor origin .empty)).slice table actor limit
        (budget + 2) around [] =
      ⟨.done (.ok none), ⟨[], some .empty⟩, around, [], limit - budget⟩ := by
  have hscript : Script.ofProgram program = ⟨program.kind.name, program.origin, #[], none⟩ := by
    rw [Script.ofProgram, hp]
    rfl
  rw [hscript]
  rfl

namespace Engine

/-- A run that ends with its first slice and splits nothing off is over as soon as it was
started. -/
theorem start_of_runSlice {engine after : Engine σ ρ} {machine : Machine} {actor : Actor}
    {origin : Place} {report : RunReport}
    (h : (engine.spawn machine actor origin).2.runSlice (engine.spawn machine actor origin).1 =
      (some report, after)) (hr : after.ready = []) (fuel : Nat) :
    engine.start fuel machine actor origin = some (.finished report, after) := by
  have hdrained : after.drain fuel [] = some ([], after) := by
    cases fuel with
    | zero => rw [drain, hr]; rfl
    | succ fuel => rw [drain, hr]
  have hpending : { after with pending := after.pending ++ [] } = after := by
    rw [List.append_nil]
  unfold start
  dsimp only
  rw [h]
  dsimp only
  rw [hdrained]
  dsimp only [Option.bind_eq_bind, Option.bind_some]
  rw [hpending]
  rfl

/-- A run whose first slice ends it without anything else is over, and only the journal tells. -/
theorem runSlice_of_sliceOf {engine : Engine σ ρ} {key : RunKey} {run : Run} {machine : Machine}
    {value : Option Value} {steps : Nat} (hk : engine.runs.get? key = some run)
    (hslice : engine.sliceOf run = ⟨.done (.ok value), machine, engine.around, [], steps⟩)
    (hb : steps < engine.ledger.settings.bottleneckSteps) :
    ∃ report, engine.runSlice key = (some report, { engine.mapLedger (·.endRun) with
      runs := engine.runs.erase key
      journal := .ended key :: .executed key engine.tick steps :: engine.journal }) := by
  let done : Run := { run with machine, steps := run.steps + steps }
  have hdone : (engine.runs.set key done).get? key = some done := by
    rw [SlotMap.get?_set hk, if_pos rfl]
  have hexecuted : engine.afterSlice key run
        ⟨.done (.ok value), machine, engine.around, [], steps⟩ =
      { engine with
        runs := engine.runs.set key done
        journal := .executed key engine.tick steps :: engine.journal } := by
    have hload : engine.around.ledger.recordSteps run.origin steps = engine.around.ledger :=
      if_pos hb
    unfold afterSlice mapLedger
    dsimp only
    rw [hload]
    rfl
  refine ⟨report key done (.ok value), ?_⟩
  unfold runSlice
  rw [hk]
  dsimp only
  unfold conclude
  rw [hslice, hexecuted]
  dsimp only
  unfold adopt finish
  dsimp only
  rw [hdone, SlotMap.erase_set hk]
  rfl

/-- A program with nothing behind its entry leaves an engine as it was, but for a slot that is
worn. -/
theorem execute_of_next_eq_none {engine : Engine σ ρ} {program : Program} {index : Nat}
    {generation : UInt32} {next : Option Nat} (hp : program.root.next = none)
    (hv : engine.runs.vacancy? = some (index, generation, next)) (hr : engine.ready = [])
    (hs : 2 ≤ engine.ledger.settings.maxStepsPerTick)
    (hb : 2 < engine.ledger.settings.bottleneckSteps) (fuel : Nat) (actor : Actor)
    (origin : Place) :
    ∃ report events, engine.execute fuel program actor origin =
      some (.finished report, { engine with
        runs := engine.runs.wear
        journal := events ++ engine.journal }) := by
  let machine : Machine := .ofScript (.ofProgram program) (.start actor origin .empty)
  let run : Run := ⟨machine, actor, origin, 0, false⟩
  let key := (engine.spawn machine actor origin).1
  let started := (engine.spawn machine actor origin).2
  have hrun : started.runs.get? key = some run := SlotMap.get?_insert_vacancy hv run
  have hworn : started.runs.erase key = engine.runs.wear := SlotMap.erase_insert hv run
  obtain ⟨budget, hbudget⟩ : ∃ budget, engine.ledger.settings.maxStepsPerTick = budget + 2 :=
    ⟨_, (Nat.sub_add_cancel hs).symm⟩
  have hslice : started.sliceOf run =
      ⟨.done (.ok none), ⟨[], some .empty⟩, started.around, [], 2⟩ := by
    have hsteps := Machine.slice_of_next_eq_none hp started.actions actor origin (budget + 2)
      budget started.around
    rw [Nat.add_sub_cancel_left] at hsteps
    have hlimit : started.ledger.settings.maxStepsPerTick = budget + 2 := hbudget
    unfold sliceOf
    rw [hlimit]
    exact hsteps
  obtain ⟨told, hended⟩ := runSlice_of_sliceOf hrun hslice hb
  rw [hworn] at hended
  exact ⟨told, [.ended key, .executed key engine.tick 2, .started key],
    start_of_runSlice hended hr fuel⟩

end Engine

/-- A program with nothing behind its entry. -/
def idleProgram : Program where
  kind := .event "start"
  root := .mk ⟨10, "start", .event, none, .empty, .plain, none⟩ [] none
  origin := default
  catalogueVersion := 0

/-- Any slot that is taken first can be worn any number of times while nothing else changes. -/
theorem History.wear {engine : Engine σ ρ} {returned : List RunReport}
    (h : History engine returned) {index : Nat} {generation : UInt32} {next : Option Nat}
    (hv : engine.runs.vacancy? = some (index, generation, next))
    (hs : 2 ≤ engine.ledger.settings.maxStepsPerTick)
    (hb : 2 < engine.ledger.settings.bottleneckSteps) (count : Nat) :
    ∃ reports journal, History
      { engine with runs := SlotMap.wear^[count] engine.runs, journal } (returned ++ reports) := by
  induction count with
  | zero => exact ⟨[], engine.journal, (List.append_nil returned).symm ▸ h⟩
  | succ count ih =>
    obtain ⟨reports, journal, hworn⟩ := ih
    have hvacant := SlotMap.vacancy?_iterate_wear hv count
    have hidle : idleProgram.root.next = none := rfl
    obtain ⟨report, events, hexecute⟩ := Engine.execute_of_next_eq_none hidle hvacant
      hworn.settled.2.1 hs hb 0 ⟨"alice"⟩ default
    have hperform : Engine.perform 0 _ (.execute idleProgram ⟨"alice"⟩ default) = _ :=
      congrArg (·.bind fun last => some (last.1.report?.toList, last.2)) hexecute
    rw [Function.iterate_succ_apply']
    exact ⟨reports ++ [report], _, List.append_assoc .. ▸ hworn.step hperform⟩

namespace History

/-- A program that waits for a tick and then splits off a loop over one item, in which it waits
again and sets a variable. -/
def splitLaterProgram : Program where
  kind := .event "start"
  root := .mk ⟨11, "start", .event, none, .empty, .plain, none⟩ []
    (some (.mk ⟨12, "wait", .control, some "wait", .empty, .plain, none⟩ []
      (some (.mk ⟨13, "loop", .loop, some "for_each",
        (ArrivalMap.empty.insert "list" (.list [.bool true])).insert "async" (.bool true), .plain,
        none⟩ [.mk ⟨14, "wait", .control, some "wait", .empty, .plain, none⟩ [] none,
          .mk ⟨15, "set", .assignment, some "set",
            (ArrivalMap.empty.insert "name" (.text "x")).insert "value" (.bool true), .plain,
            none⟩ [] none] none))))
  origin := default
  catalogueVersion := 0

/-- The program is run twice, and the second run is stopped, which leaves an entry behind. -/
def oneStopped : List (Operation MinimalHost) :=
  [.execute splitLaterProgram ⟨"alice"⟩ default, .execute splitLaterProgram ⟨"alice"⟩ default,
    .stop ⟨1, 0⟩]

/-- The engine with the first run and the entry of the second. -/
def staleEngine : Engine MinimalHost ReplaySource :=
  ((quietEngine.performAll 1 [] oneStopped).getD ([], quietEngine)).2

/-- The engine whose slot of the stopped run has come to its first generation again. -/
def reissuing (journal : List RunEvent) : Engine MinimalHost ReplaySource :=
  { staleEngine with
    runs := { staleEngine.runs with slots := staleEngine.runs.slots.set 1 (.vacant 0 none) }
    journal }

/-- Programs that end at once lead to such an engine. There are 2 ^ 32 - 1 of them. -/
theorem exists_reissuing : ∃ returned journal, History (reissuing journal) returned := by
  have hcounts : ((quietEngine.performAll 1 [] oneStopped).map fun last =>
      last.2.runs.vacancy?) = some (some (1, 1, none)) := by decide +kernel
  obtain ⟨⟨returned, engine⟩, hlast, hvacancy⟩ := Option.map_eq_some_iff.1 hcounts
  have hengine : staleEngine = engine := by rw [staleEngine, hlast]; rfl
  have h : History staleEngine returned := hengine ▸ (History.initial ..).performAll hlast
  have hstale : staleEngine.runs.vacancy? = some (1, 1, none) := hengine ▸ hvacancy
  have hlimits : 2 ≤ staleEngine.ledger.settings.maxStepsPerTick ∧
      2 < staleEngine.ledger.settings.bottleneckSteps := by decide +kernel
  obtain ⟨reports, journal, hworn⟩ := h.wear hstale hlimits.1 hlimits.2 (2 ^ 32 - 1)
  have hwrap : (1 : UInt32) + UInt32.ofNat (2 ^ 32 - 1) = 0 := by decide
  rw [SlotMap.iterate_wear hstale, hwrap] at hworn
  exact ⟨_, journal, hworn⟩

/-- The engine after the next tick has begun and the first run has split its loop off. -/
def reissued (journal : List RunEvent) : Engine MinimalHost ReplaySource :=
  ((reissuing journal).carryOut .advance).carryOut (.wake ⟨1, 0⟩ ⟨0, 0⟩)

/-- The engine after the entry of the stopped run has taken up the loop that was split off. -/
def mistaken (journal : List RunEvent) : Engine MinimalHost ReplaySource :=
  (reissued journal).carryOut (.wake ⟨1, 1⟩ ⟨1, 0⟩)

/-- The engine after the tick. -/
def revenant (journal : List RunEvent) : Engine MinimalHost ReplaySource :=
  (mistaken journal).carryOut (.serve ⟨1, 0⟩)

/-- What happens in the tick, latest first: the loop that was split off is taken up, waits for a
tick, and goes on to its end in the same tick. -/
def revenantEvents : List RunEvent :=
  [.ended ⟨1, 0⟩, .executed ⟨1, 0⟩ 1 4, .suspended ⟨1, 0⟩ ⟨2, 2⟩, .executed ⟨1, 0⟩ 1 2,
    .resumed ⟨1, 0⟩ 1, .ended ⟨0, 0⟩, .started ⟨1, 0⟩, .executed ⟨0, 0⟩ 1 3, .resumed ⟨0, 0⟩ 1]

/-- The tick gives the reports of both runs; the loop has set its variable. -/
theorem perform_reissuing (journal : List RunEvent) : ((reissuing journal).perform 3 .tick).map
    (fun last => (last.1.map fun told => (told.key, (told.locals.get? "x").isSome), last.2)) =
      some ([(⟨0, 0⟩, false), (⟨1, 0⟩, true)], revenant journal) := by
  cbv

/-- When the loop was split off, the entry of the stopped run is due under its key, and takes it
up for a slice in which it waits for a tick. -/
theorem due_reissued (journal : List RunEvent) :
    ((reissued journal).firstDue?, ((reissued journal).runs.get? ⟨1, 0⟩).isSome,
      (reissued journal).parked? (.wake ⟨1, 1⟩ ⟨1, 0⟩), (reissued journal).tick) =
      (some (⟨1, 1⟩, ⟨1, 0⟩), true, some (⟨1, 0⟩, 1), 1) := by
  cbv

/-- The loop is still in the queue after that, and nothing else is due. -/
theorem ready_mistaken (journal : List RunEvent) :
    ((mistaken journal).firstDue?, (mistaken journal).ready.head?) = (none, some ⟨1, 0⟩) := by
  cbv

/-- The events of the tick are in the journal when it is over. No run is left then, but a
suspension is. -/
theorem journal_revenant (journal : List RunEvent) :
    ((revenant journal).journal, (revenant journal).tick, (revenant journal).runs.size,
      ((revenant journal).runs.keysWhere fun run => run.actor == ⟨"alice"⟩ && run.parked).length,
      (revenant journal).ledger.suspensionCount ⟨"alice"⟩,
      (revenant journal).shutdown.2.ledger.suspensionCount ⟨"alice"⟩) =
      (revenantEvents ++ journal, 1, 0, 0, 1, 1) := by
  cbv

/-- The first deeds of the tick. -/
theorem course_reissuing (journal : List RunEvent) :
    Course (reissuing journal) [.advance, .wake ⟨1, 0⟩ ⟨0, 0⟩] (reissued journal) := by
  have hdue : ((reissuing journal).carryOut .advance).firstDue? = some (⟨1, 0⟩, ⟨0, 0⟩) := by cbv
  have hwaits : (((reissuing journal).carryOut .advance).runs.get? ⟨0, 0⟩).isSome := by cbv
  exact .next trivial (.single ⟨hdue, hwaits⟩)

/-- The deeds of the tick. -/
theorem tickCourse_reissuing (journal : List RunEvent) : TickCourse (reissuing journal) []
    [.wake ⟨1, 0⟩ ⟨0, 0⟩, .wake ⟨1, 1⟩ ⟨1, 0⟩] [.serve ⟨1, 0⟩] (mistaken journal)
    (revenant journal) where
  expire := nofun
  takeUp := by simp [Deed.due?]
  serve := by simp [Deed.served?]
  begins := by
    obtain ⟨hdue, hfacts⟩ := Prod.mk.inj (due_reissued journal)
    exact (course_reissuing journal).append (.single ⟨hdue, (Prod.mk.inj hfacts).1⟩)
  exhausted := (Prod.mk.inj (ready_mistaken journal)).1
  ends := .single (Prod.mk.inj (ready_mistaken journal)).2

/-- The tick ends a history. -/
theorem exists_revenant : ∃ returned reports journal,
    History (reissuing journal) returned ∧ History (revenant journal) (returned ++ reports) ∧
      (reissuing journal).perform 3 .tick = some (reports, revenant journal) ∧
      reports.map (fun told => (told.key, (told.locals.get? "x").isSome)) =
        [(⟨0, 0⟩, false), (⟨1, 0⟩, true)] := by
  obtain ⟨returned, journal, h⟩ := exists_reissuing
  obtain ⟨⟨reports, after⟩, hperform, hlast⟩ :=
    Option.map_eq_some_iff.1 (perform_reissuing journal)
  simp only [Prod.mk.injEq] at hlast
  rw [hlast.2] at hperform
  exact ⟨returned, reports, journal, h, h.step hperform, hperform, hlast.1⟩

/-- A run that was stopped leaves an entry behind, and its key is given out again in the tick of
that entry, to a loop that is split off. The entry takes the loop up, which waits and comes to its
end nevertheless, so that a suspension is left though no run is parked, or under way at all. -/
theorem suspensions_exceed_parked_runs :
    (∃ (engine : Engine MinimalHost ReplaySource) (returned : List RunReport),
      History engine returned ∧ engine.runs.size = 0 ∧
      engine.ledger.suspensionCount ⟨"alice"⟩ = 1 ∧
      engine.shutdown.2.ledger.suspensionCount ⟨"alice"⟩ = 1) ∧
    ¬ ∀ (engine : Engine MinimalHost ReplaySource) (returned : List RunReport),
      History engine returned → ∀ actor, engine.ledger.suspensionCount actor =
        (engine.runs.keysWhere fun run => run.actor == actor && run.parked).length := by
  obtain ⟨returned, reports, journal, -, h, -, -⟩ := exists_revenant
  have hlast := journal_revenant journal
  simp only [Prod.mk.injEq] at hlast
  obtain ⟨-, -, hruns, hparked, hcount, hstopped⟩ := hlast
  refine ⟨⟨_, _, h, hruns, hcount, hstopped⟩, fun hexact => ?_⟩
  have hequal := hexact _ _ h ⟨"alice"⟩
  rw [hcount, hparked] at hequal
  cases hequal

/-- The loop waits for a tick, but it is served and sets its variable in the tick in which it was
parked. -/
theorem parked_run_served_at_once :
    (∃ (start now engine : Engine MinimalHost ReplaySource)
        (earlier : List (Deed MinimalHost ReplaySource)) (reports : List RunReport),
      Timeline start (earlier ++ [.wake ⟨1, 1⟩ ⟨1, 0⟩, .serve ⟨1, 0⟩]) engine ∧
      Course start earlier now ∧ now.parked? (.wake ⟨1, 1⟩ ⟨1, 0⟩) = some (⟨1, 0⟩, 1) ∧
      now.tick = 1 ∧ engine.tick = 1 ∧
      reports.map (fun told => (told.key, (told.locals.get? "x").isSome)) =
        [(⟨0, 0⟩, false), (⟨1, 0⟩, true)]) ∧
    ¬ ∀ (start engine now : Engine MinimalHost ReplaySource)
        (earlier later : List (Deed MinimalHost ReplaySource))
        (deed : Deed MinimalHost ReplaySource) (key : RunKey) (ticks : Nat),
      Timeline start (earlier ++ deed :: later) engine → Course start earlier now →
      now.parked? deed = some (key, ticks) → now.tick.toNat + ticks < 2 ^ 64 →
        Awaited ⟨.ofNat (now.tick.toNat + ticks), (start.suspended earlier).length⟩ key ticks
          later := by
  obtain ⟨returned, reports, journal, h, -, hperform, htold⟩ := exists_revenant
  obtain ⟨start, deeds, htimeline⟩ := h.exists_timeline
  have hall : Timeline start (deeds ++ [.advance, .wake ⟨1, 0⟩ ⟨0, 0⟩] ++
      [.wake ⟨1, 1⟩ ⟨1, 0⟩, .serve ⟨1, 0⟩]) (revenant journal) := by
    rw [List.append_assoc]
    exact htimeline.step hperform (tickCourse_reissuing journal).performs
  have hearlier := htimeline.course.append (course_reissuing journal)
  have hdue := due_reissued journal
  have hlast := journal_revenant journal
  simp only [Prod.mk.injEq] at hdue hlast
  obtain ⟨-, -, hparked, hnow⟩ := hdue
  refine ⟨⟨_, _, _, _, reports, hall, hearlier, hparked, hnow, hlast.2.1, htold⟩,
    fun hawaits => ?_⟩
  have hawaited := hawaits _ _ _ _ _ _ _ _ hall hearlier hparked (by rw [hnow]; decide)
  cases hawaited with
  | other about => exact about rfl

/-- The loop executes two slices in one tick, between its start and its end. -/
theorem two_slices_in_one_tick :
    (∃ (engine : Engine MinimalHost ReplaySource) (returned : List RunReport)
        (journal : List RunEvent),
      History engine returned ∧ engine.journal = revenantEvents ++ journal) ∧
    ¬ ∀ (engine : Engine MinimalHost ReplaySource) (returned : List RunReport),
      History engine returned → ∀ (key : RunKey) (tick : UInt64) (later since earlier : _),
        tick.toNat + 1 < 2 ^ 64 → engine.journal = later ++ since ++ .started key :: earlier →
        .started key ∉ since → .ended key ∉ since →
          (stints since).countP (fun stint => stint.key = key ∧ stint.tick = tick) ≤ 1 := by
  obtain ⟨returned, reports, journal, -, h, -, -⟩ := exists_revenant
  have hjournal := (Prod.mk.inj (journal_revenant journal)).1
  refine ⟨⟨_, _, journal, h, hjournal⟩, fun honce => ?_⟩
  have hslices := honce _ _ h ⟨1, 0⟩ 1 [.ended ⟨1, 0⟩]
    [.executed ⟨1, 0⟩ 1 4, .suspended ⟨1, 0⟩ ⟨2, 2⟩, .executed ⟨1, 0⟩ 1 2, .resumed ⟨1, 0⟩ 1,
      .ended ⟨0, 0⟩]
    (.executed ⟨0, 0⟩ 1 3 :: .resumed ⟨0, 0⟩ 1 :: journal) (by decide) hjournal (by decide)
    (by decide)
  revert hslices
  decide

end History

end GridScript
