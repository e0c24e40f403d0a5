import GridScript.Proofs.Courses
import GridScript.Proofs.Refusals

/-!
# Stints

A run that is started, served or taken up executes a slice: it makes steps as long as
it goes on after each of them and has not made as many as it may in one tick. The
journal has every slice with the tick and the number of steps. This module ties that
number to the steps that were really made, and says for every deed which slice is
executed in it and whether a run fails for the number of its steps.
-/

namespace GridScript

open Journal

variable {σ ρ : Type} [Host σ] [RandomSource ρ]

/-- Whether a machine goes on after a step that came to this. -/
def Step.goesOn : Except RunError Step → Bool
  | .ok .normal | .ok (.fork _) => true
  | _ => false

namespace Machine

/-- A machine goes on after every step, as many times as the limit says. -/
def Exhausts (table : ActionTable σ ρ) (limit : Nat) (machine : Machine)
    (around : Surroundings σ ρ) : Prop :=
  ∃ last after forks, Underway table machine around limit last after forks

/-- A machine makes a number of steps in a slice. -/
inductive Makes (table : ActionTable σ ρ) (limit : Nat) (machine : Machine)
    (around : Surroundings σ ρ) : Nat → Prop where
  /-- It makes as many steps as the limit says, and goes on after every one of them. -/
  | all (exhausts : machine.Exhausts table limit around) : Makes table limit machine around limit
  /-- It does not go on after the last of its steps. -/
  | halt {steps : Nat} {last : Machine} {after : Surroundings σ ρ} {forks : List Machine}
    (past : Underway table machine around steps last after forks) (room : steps < limit)
    (halts : Step.goesOn (last.step table after).outcome = false) :
    Makes table limit machine around (steps + 1)

variable {table : ActionTable σ ρ} {limit steps : Nat} {machine last : Machine}
  {around after : Surroundings σ ρ} {forks : List Machine}

/-- A step does not fail because too many steps were made. -/
theorem step_ne_steps (table : ActionTable σ ρ) (machine : Machine) (around : Surroundings σ ρ)
    (limit : Nat) : (machine.step table around).outcome ≠ .error (.limit (.steps limit)) := by
  intro h
  by_cases hp : ∀ call ∈ machine.calls, call.isLate around.now = false
  · obtain ⟨asked, hmeets⟩ := exists_meetsRefusal hp h
    obtain ⟨top, callers, request, -, -, hrefuses⟩ := hmeets.refused
    cases hrefuses
  · unfold step at h
    split at h
    · cases h
    · rename_i hstack
      cases hlate : machine.outermostLate? around.now with
      | none =>
        refine hp fun call hm => ?_
        have hnone := List.find?_eq_none.1 hlate call (List.mem_reverse.2 hm)
        exact Bool.eq_false_iff.2 hnone
      | some late =>
        obtain ⟨after, hcheck, -⟩ := checkDeadlines_of_some hlate
        rw [hcheck] at h
        cases h

omit [RandomSource ρ] in
/-- A machine that may not wait does not fail because too many steps were made. -/
theorem pause_ne_steps (machine : Machine) (actor : Actor) (ticks : Nat)
    (around : Surroundings σ ρ) (limit : Nat) :
    (machine.pause actor ticks around).1 ≠ .done (.error (.limit (.steps limit))) := by
  unfold pause Ledger.suspend
  dsimp only
  split_ifs
  · nofun
  · nofun

/-- A slice whose machine always goes on ends when the steps are used up. -/
theorem Underway.slice_of_all (h : Underway table machine around limit last after forks)
    (actor : Actor) :
    (machine.slice table actor limit limit around []).steps = limit ∧
      (machine.slice table actor limit limit around []).ending =
        .done (.error (.limit (.steps limit))) := by
  rw [h.slice_eq (Nat.le_refl limit) actor, Nat.sub_self]
  exact ⟨rfl, rfl⟩

/-- A slice ends with a step after which the machine does not go on. -/
theorem Underway.slice_of_halt (h : Underway table machine around steps last after forks)
    (hs : steps < limit) (hh : Step.goesOn (last.step table after).outcome = false)
    (actor : Actor) :
    (machine.slice table actor limit limit around []).steps = steps + 1 ∧
      ∀ number, (machine.slice table actor limit limit around []).ending ≠
        .done (.error (.limit (.steps number))) := by
  have hleft : limit - steps = limit - (steps + 1) + 1 := by omega
  have htaken : limit - (limit - (steps + 1)) = steps + 1 := by omega
  rw [h.slice_eq hs.le actor, hleft, slice]
  dsimp only
  rw [htaken]
  cases houtcome : (last.step table after).outcome with
  | error error =>
    refine ⟨rfl, fun number heq => step_ne_steps table last after number ?_⟩
    rw [houtcome]
    cases heq
    rfl
  | ok step =>
    rw [houtcome] at hh
    cases step with
    | normal | fork => cases hh
    | idle | terminate => exact ⟨rfl, fun _ heq => by cases heq⟩
    | suspend ticks => exact ⟨rfl, pause_ne_steps _ _ _ _⟩

/-- A machine goes on after any number of steps, or halts before that. -/
theorem underway_or_halts (table : ActionTable σ ρ) (machine : Machine)
    (around : Surroundings σ ρ) (limit : Nat) :
    machine.Exhausts table limit around ∨ ∃ steps last after forks,
      Underway table machine around steps last after forks ∧ steps < limit ∧
        Step.goesOn (last.step table after).outcome = false := by
  induction limit with
  | zero => exact .inl ⟨machine, around, [], .start⟩
  | succ limit ih =>
    obtain ⟨last, after, forks, hunderway⟩ | ⟨steps, last, after, forks, hunderway, hs, hh⟩ := ih
    · cases hgoes : Step.goesOn (last.step table after).outcome with
      | false => exact .inr ⟨limit, last, after, forks, hunderway, Nat.lt_succ_self _, hgoes⟩
      | true =>
        left
        unfold Step.goesOn at hgoes
        split at hgoes
        · rename_i hnormal
          exact ⟨_, _, _, hunderway.step hnormal⟩
        · rename_i child hfork
          exact ⟨_, _, _, hunderway.fork hfork⟩
        · cases hgoes
    · exact .inr ⟨steps, last, after, forks, hunderway, Nat.lt_succ_of_lt hs, hh⟩

/-- The number of steps of a slice is the number of steps that the machine makes. -/
theorem makes_iff (table : ActionTable σ ρ) (actor : Actor) (limit : Nat) (machine : Machine)
    (around : Surroundings σ ρ) (number : Nat) : machine.Makes table limit around number ↔
      (machine.slice table actor limit limit around []).steps = number := by
  constructor
  · rintro (⟨last, after, forks, hall⟩ | ⟨hpast, hroom, hhalts⟩)
    · exact (hall.slice_of_all actor).1
    · exact (hpast.slice_of_halt hroom hhalts actor).1
  · rintro rfl
    obtain hall | ⟨steps, last, after, forks, hpast, hroom, hhalts⟩ :=
      underway_or_halts table machine around limit
    · obtain ⟨last, after, forks, hunderway⟩ := id hall
      rw [(hunderway.slice_of_all actor).1]
      exact .all hall
    · rw [(hpast.slice_of_halt hroom hhalts actor).1]
      exact .halt hpast hroom hhalts

/-- A slice fails for the number of its steps exactly if the machine has gone on after
every one of as many steps as it may make. -/
theorem slice_ending_iff (table : ActionTable σ ρ) (actor : Actor) (limit : Nat)
    (machine : Machine) (around : Surroundings σ ρ) (number : Nat) :
    (machine.slice table actor limit limit around []).ending =
        .done (.error (.limit (.steps number))) ↔
      limit = number ∧ machine.Exhausts table limit around := by
  constructor
  · intro h
    obtain hall | ⟨steps, last, after, forks, hpast, hroom, hhalts⟩ :=
      underway_or_halts table machine around limit
    · obtain ⟨last, after, forks, hunderway⟩ := id hall
      rw [(hunderway.slice_of_all actor).2] at h
      cases h
      exact ⟨rfl, hall⟩
    · exact absurd h ((hpast.slice_of_halt hroom hhalts actor).2 number)
  · rintro ⟨rfl, last, after, forks, hunderway⟩
    exact (hunderway.slice_of_all actor).2

end Machine

/-- A slice as the journal has it. -/
structure Stint where
  /-- The run. -/
  key : RunKey
  /-- The tick. -/
  tick : UInt64
  /-- The number of steps. -/
  steps : Nat
  deriving DecidableEq

/-- The slice that an event is about. -/
def RunEvent.stint? : RunEvent → Option Stint
  | .executed key tick steps => some ⟨key, tick, steps⟩
  | _ => none

namespace Journal

/-- The slices that were executed, latest first. -/
def stints (journal : List RunEvent) : List Stint :=
  journal.filterMap RunEvent.stint?

/-- How many steps a run has made in some slices. -/
def spent (key : RunKey) (stints : List Stint) : Nat :=
  ((stints.filter (·.key = key)).map (·.steps)).sum

/-- The steps of all slices are those of some and those of the others. -/
theorem spent_append (key : RunKey) (new old : List Stint) :
    spent key (new ++ old) = spent key new + spent key old := by
  simp [spent]

/-- Slices of other runs do not count. -/
theorem spent_eq_zero {key : RunKey} {stints : List Stint}
    (h : ∀ stint ∈ stints, stint.key ≠ key) : spent key stints = 0 := by
  have hnone : stints.filter (·.key = key) = [] :=
    List.filter_eq_nil_iff.2 fun stint hm => by simpa using h stint hm
  rw [spent, hnone]
  rfl

end Journal

/-- A run that is about to execute a slice. -/
structure Staging (σ ρ : Type) where
  /-- Its key. -/
  key : RunKey
  /-- The engine right before the slice. -/
  engine : Engine σ ρ
  /-- The run. -/
  run : Run

namespace Staging

/-- How many steps the run may make. -/
def limit (staging : Staging σ ρ) : Nat :=
  staging.engine.ledger.settings.maxStepsPerTick

/-- The slice. -/
def slice (staging : Staging σ ρ) : Slice σ ρ :=
  staging.engine.sliceOf staging.run

/-- The slice as the journal has it. -/
def stint (staging : Staging σ ρ) : Stint :=
  ⟨staging.key, staging.engine.tick, staging.slice.steps⟩

/-- The machine of the run makes a number of steps. -/
def Makes (staging : Staging σ ρ) (steps : Nat) : Prop :=
  staging.run.machine.Makes staging.engine.actions staging.limit staging.engine.around steps

/-- The machine of the run goes on after every one of as many steps as it may make. -/
def Exhausts (staging : Staging σ ρ) : Prop :=
  staging.run.machine.Exhausts staging.engine.actions staging.limit staging.engine.around

/-- The slice has the steps that the machine makes. -/
theorem makes_iff (staging : Staging σ ρ) (steps : Nat) :
    staging.Makes steps ↔ staging.stint.steps = steps :=
  Machine.makes_iff ..

/-- There are no more of them than allowed. -/
theorem steps_le (staging : Staging σ ρ) : staging.stint.steps ≤ staging.limit :=
  Machine.slice_steps_le

end Staging

namespace Engine

/-- The run that executes a slice in a deed, if there is one. -/
def stagingOf? (engine : Engine σ ρ) (deed : Deed σ ρ) : Option (Staging σ ρ) :=
  (engine.staging? deed).bind fun (key, staged) =>
    (staged.runs.get? key).map fun run => ⟨key, staged, run⟩

/-- The slices that are executed in some deeds in a row, in order. -/
def stagings (engine : Engine σ ρ) (deeds : List (Deed σ ρ)) : List (Staging σ ρ) :=
  engine.gather stagingOf? deeds

/-- What a deed does to the slices that were executed. -/
structure Traced (before : Engine σ ρ) (staging : Option (Staging σ ρ))
    (report : Option RunReport) (after : Engine σ ρ) : Prop where
  /-- The journal has the slice. -/
  listed : stints after.journal =
    (staging.map Staging.stint).toList ++ stints before.journal
  /-- A run fails for the number of its steps exactly if it has used up those that it
  may make. -/
  failed : ∀ key limit,
    (∃ told, report = some told ∧ told.key = key ∧
      told.result = .error (.limit (.steps limit))) ↔
    ∃ stage, staging = some stage ∧ stage.key = key ∧ stage.limit = limit ∧ stage.Exhausts

section

variable {engine middle : Engine σ ρ} {key : RunKey} {run : Run}
  {result : Except RunError (Option Value)}

omit [Host σ] [RandomSource ρ] in
/-- Splitting off runs is no slice. -/
theorem stints_adopt (engine : Engine σ ρ) (forks : List Machine) :
    stints (engine.adopt forks).journal = stints engine.journal := by
  induction forks generalizing engine with
  | nil => rfl
  | cons machine rest ih =>
    unfold adopt
    split
    · exact ih engine
    · exact ih _

omit [Host σ] [RandomSource ρ] in
/-- The end of a run is no slice. -/
theorem stints_finish (engine : Engine σ ρ) (key : RunKey)
    (result : Except RunError (Option Value)) :
    stints (engine.finish key result).2.journal = stints engine.journal := by
  cases hk : engine.runs.get? key with
  | none =>
    unfold finish
    rw [hk]
  | some run =>
    obtain ⟨-, -, hjournal, -⟩ := finish_of_get? hk result
    rw [hjournal]
    rfl

omit [Host σ] [RandomSource ρ] in
/-- A run that ends is reported with its result. -/
theorem finish_told {told : RunReport} (h : (engine.finish key result).1 = some told) :
    told.key = key ∧ told.result = result := by
  cases hk : engine.runs.get? key with
  | none =>
    unfold finish at h
    rw [hk] at h
    cases h
  | some run =>
    obtain ⟨hreport, -⟩ := finish_of_get? hk result
    obtain rfl := Option.some.inj (hreport.symm.trans h)
    exact ⟨rfl, rfl⟩

namespace Traced

/-- No run ends, and none has used up its steps. -/
theorem unreported {staging : Option (Staging σ ρ)}
    (h : stints middle.journal = (staging.map Staging.stint).toList ++ stints engine.journal)
    (hleft : ∀ stage, staging = some stage → ¬ stage.Exhausts) :
    Traced engine staging none middle where
  listed := h
  failed _ _ := ⟨fun ⟨_, htold, _⟩ => (nomatch htold),
    fun ⟨stage, hstage, _, _, hall⟩ => absurd hall (hleft stage hstage)⟩

/-- A run ends. If a slice was executed it is that of the run, and the run fails for the number
of its steps exactly if it has used them up. -/
theorem finish {staging : Option (Staging σ ρ)}
    (h : stints middle.journal = (staging.map Staging.stint).toList ++ stints engine.journal)
    (hr : ∀ limit, result = .error (.limit (.steps limit)) ↔
      ∃ stage, staging = some stage ∧ stage.limit = limit ∧ stage.Exhausts)
    (hown : ∀ stage, staging = some stage → stage.key = key ∧ (middle.runs.get? key).isSome) :
    Traced engine staging (middle.finish key result).1 (middle.finish key result).2 := by
  refine ⟨(stints_finish middle key result).trans h, fun other limit => ⟨?_, ?_⟩⟩
  · rintro ⟨told, ht, rfl, hresult⟩
    obtain ⟨hkey, rfl⟩ := finish_told ht
    obtain ⟨stage, hstage, hlimit, hall⟩ := (hr limit).1 hresult
    exact ⟨stage, hstage, (hown stage hstage).1.trans hkey.symm, hlimit, hall⟩
  · rintro ⟨stage, hstage, rfl, hlimit, hall⟩
    obtain ⟨hkey, hthere⟩ := hown stage hstage
    obtain ⟨run, hrun⟩ := Option.isSome_iff_exists.1 hthere
    exact ⟨_, (finish_of_get? hrun result).1, hkey.symm,
      (hr limit).2 ⟨stage, hstage, hlimit, hall⟩⟩

/-- No slice is executed, and no run ends. -/
theorem idle (h : stints middle.journal = stints engine.journal) :
    Traced engine none none middle :=
  unreported h nofun

/-- No slice is executed, and a run ends for another reason than the number of its steps. -/
theorem dismiss (h : stints middle.journal = stints engine.journal) (key : RunKey)
    (hr : ∀ limit, result ≠ .error (.limit (.steps limit))) :
    Traced engine none (middle.finish key result).1 (middle.finish key result).2 :=
  finish h (fun limit => ⟨fun heq => absurd heq (hr limit), fun ⟨_, hstage, _⟩ => (nomatch hstage)⟩)
    nofun

/-- What led up to the slice does not matter. -/
theorem of_idle {after : Engine σ ρ} {staging : Option (Staging σ ρ)} {report : Option RunReport}
    (h : Traced middle staging report after) (hi : stints middle.journal = stints engine.journal) :
    Traced engine staging report after where
  listed := hi ▸ h.listed
  failed := h.failed

end Traced

/-- What a slice leads to. -/
theorem traced_conclude (ht : engine.runs.Tidy) (hk : engine.runs.get? key = some run) :
    Traced engine (some ⟨key, engine, run⟩) (engine.conclude key run (engine.sliceOf run)).1
      (engine.conclude key run (engine.sliceOf run)).2 := by
  have hending (limit : Nat) :
      (engine.sliceOf run).ending = .done (.error (.limit (.steps limit))) ↔
        engine.ledger.settings.maxStepsPerTick = limit ∧
          Staging.Exhausts (⟨key, engine, run⟩ : Staging σ ρ) :=
    Machine.slice_ending_iff ..
  have hstints : stints (engine.afterSlice key run (engine.sliceOf run)).journal =
      (⟨key, engine.tick, (engine.sliceOf run).steps⟩ : Stint) :: stints engine.journal := rfl
  have hput : (engine.afterSlice key run (engine.sliceOf run)).runs.get? key =
      some (run.afterSlice (engine.sliceOf run)) := (SlotMap.get?_set hk _ key).trans (if_pos rfl)
  have htidy : (engine.afterSlice key run (engine.sliceOf run)).runs.Tidy :=
    SlotMap.tidy_set ht _ _
  unfold conclude
  dsimp only
  generalize engine.afterSlice key run (engine.sliceOf run) = served at *
  cases hend : (engine.sliceOf run).ending with
  | parked ticks =>
    refine .unreported ((stints_adopt ..).trans hstints) fun stage hstage hall => ?_
    cases hstage
    have hfailed := (hending _).2 ⟨rfl, hall⟩
    rw [hend] at hfailed
    cases hfailed
  | done result =>
    have hfound := (adopted_adopt (engine.sliceOf run).forks htidy).kept key _ hput
    rw [hend] at hending
    refine .finish ((stints_adopt ..).trans hstints) (fun limit => ⟨?_, ?_⟩) fun stage hstage => ?_
    · rintro rfl
      exact ⟨_, rfl, (hending limit).1 rfl⟩
    · rintro ⟨_, hstage, hlimit, hall⟩
      cases hstage
      exact SliceEnd.done.inj ((hending limit).2 ⟨hlimit, hall⟩)
    · cases hstage
      exact ⟨rfl, Option.isSome_iff_exists.2 ⟨_, hfound⟩⟩

/-- What serving a run leads to. -/
theorem traced_runSlice (ht : engine.runs.Tidy) (key : RunKey) :
    Traced engine ((engine.runs.get? key).map fun run => ⟨key, engine, run⟩)
      (engine.runSlice key).1 (engine.runSlice key).2 := by
  unfold runSlice
  cases hk : engine.runs.get? key with
  | none => exact .idle rfl
  | some run => exact traced_conclude ht hk

/-- A run that is cancelled executes no slice. -/
theorem traced_cancel (engine : Engine σ ρ) (key : RunKey) (reason : CancelReason) :
    Traced engine none (engine.cancel key reason).1 (engine.cancel key reason).2 := by
  unfold Engine.cancel
  cases hk : engine.runs.get? key with
  | none => exact .idle rfl
  | some run =>
    dsimp only
    split
    · refine .dismiss ?_ key ?_
      · rfl
      · nofun
    · refine .dismiss ?_ key ?_
      · rfl
      · nofun

/-- Neither does a run that fails because it is late. -/
theorem traced_expire (engine : Engine σ ρ) (key : RunKey) :
    Traced engine none (engine.expire key).1 (engine.expire key).2 := by
  unfold expire
  cases hk : engine.runs.get? key with
  | none => exact .idle rfl
  | some run =>
    dsimp only
    cases hlate : run.machine.outermostLate? engine.around.now with
    | none =>
      rw [Machine.checkDeadlines_of_none hlate]
      exact .idle rfl
    | some late =>
      obtain ⟨around, hcheck, -⟩ := Machine.checkDeadlines_of_some hlate
      rw [hcheck]
      refine .dismiss ?_ key ?_
      · rfl
      · nofun

/-- What each deed does to the slices that were executed. -/
theorem InOrder.traced {deed : Deed σ ρ} (h : engine.InOrder []) (ha : engine.Admits deed) :
    Traced engine (engine.stagingOf? deed) (engine.reportOf? deed) (engine.carryOut deed) := by
  cases deed with
  | launch key machine actor origin =>
    have htidy : (engine.spawn machine actor origin).2.runs.Tidy := SlotMap.tidy_insert h.tidy _
    exact (traced_runSlice htidy key).of_idle rfl
  | serve key =>
    have htidy : ({ engine with ready := engine.ready.tail } : Engine σ ρ).runs.Tidy := h.tidy
    exact (traced_runSlice htidy key).of_idle rfl
  | wake due key =>
    obtain ⟨run, hk⟩ := Option.isSome_iff_exists.1 ha.2
    have htidy : ((({ engine with sleeping := engine.sleeping.erase due } : Engine σ ρ).unpark
        key run).record (.resumed key engine.tick)).runs.Tidy := SlotMap.tidy_set h.tidy _ _
    unfold stagingOf? staging? reportOf? carryOut takeUp
    dsimp only
    rw [hk]
    dsimp only
    rw [Option.bind_some]
    split
    · exact (traced_runSlice htidy key).of_idle rfl
    · exact (traced_cancel _ key _).of_idle rfl
  | discard | advance | forget | adjust => exact .idle rfl
  | expire key => exact traced_expire engine key
  | cancel key reason => exact traced_cancel engine key reason

end

end Engine

end GridScript
