import GridScript.Proofs.Expiry
import GridScript.Proofs.Limits
import GridScript.Proofs.Termination

/-!
# Refused calls leave no trace

A call that is asked for from outside and refused leaves the engine as it was: only the
function that was asked for counts the refusal, if there is such a function. A call that
is refused inside of a run ends the run with the error of the refusal before anything of
the function was executed. All calls that were under way in the run end as failed and are
given back.
-/

namespace GridScript

open Incident Surroundings

namespace Surroundings

variable {σ ρ : Type} {around other : Surroundings σ ρ} {context : Context}
  {request : CallRequest} {error : RunError} {asked : Option FunctionEntry}

/-- The function that was asked for is the one that the name stands for. -/
theorem Refuses.asked_eq (h : around.Refuses context request error asked) :
    asked = around.ledger.registry.lookup? request.function context.actor
      context.origin.world := by
  cases h with
  | unknown missing => exact missing.symm
  | unfit found _ => exact found.symm
  | tooDeep found _ _ => exact found.symm
  | tooMany found _ _ _ => exact found.symm

/-- Only the ledger decides, and neither the host nor the random source. -/
theorem Refuses.of_ledger (h : around.Refuses context request error asked)
    (hl : other.ledger = around.ledger) : other.Refuses context request error asked := by
  obtain ⟨host, random, ledger, notices⟩ := other
  subst hl
  cases h with
  | unknown missing => exact .unknown missing
  | unfit found unbound => exact .unfit found unbound
  | tooDeep found bound deep => exact .tooDeep found bound deep
  | tooMany found bound room many => exact .tooMany found bound room many

/-- A run that ends with a refusal has failed. -/
theorem Refuses.state (h : around.Refuses context request error asked) :
    RunState.ofResult (.error error : Except RunError (Option Value)) = .failed := by
  cases h <;> rfl

/-- The refusal is entered in the statistics. -/
theorem Spares.registry_eq {after : Surroundings σ ρ} (h : around.Spares asked after) :
    after.ledger.registry =
      around.ledger.registry.enterAll (asked.toList.map Incident.refused) := by
  rw [h.registry]
  cases asked <;> rfl

/-- Calls that end are no longer counted for their actors. -/
theorem callDepth_releaseAll [Host σ] (around : Surroundings σ ρ) (outcome : CallOutcome)
    (activations : List Activation) (actor : Actor) :
    (around.releaseAll outcome activations).ledger.callDepth actor =
      around.ledger.callDepth actor - (callsIn activations).countP (·.actor == actor) := by
  induction activations generalizing around with
  | nil => rfl
  | cons activation outer ih =>
    unfold releaseAll callsIn
    cases hcall : activation.call with
    | none =>
      rw [List.filterMap_cons_none (by simp [hcall])]
      exact ih around
    | some pending =>
      rw [List.filterMap_cons_some (b := pending.call) (by simp [hcall])]
      have hone : (around.release pending.call outcome).ledger.callDepth actor =
          around.ledger.callDepth actor - if pending.call.actor == actor then 1 else 0 := by
        refine (around.ledger.depths.count_remove pending.call.actor actor).trans ?_
        simp only [beq_iff_eq, @eq_comm _ actor]
        rfl
      refine (ih _).trans ?_
      rw [hone, List.countP_cons, Nat.sub_sub, Nat.add_comm]
      rfl

end Surroundings

namespace Engine

variable {σ ρ : Type} [Host σ] [RandomSource ρ] {engine after : Engine σ ρ} {fuel : Nat}
  {name : String} {actor : Actor} {origin : Place} {args : ArrivalMap String Value}
  {error : RunError}

/-- A call from outside that is granted has a run of its own, and one that is refused has
none. -/
theorem callFunction_eq (fuel : Nat) (engine : Engine σ ρ) (name : String) (actor : Actor)
    (origin : Place) (args : ArrivalMap String Value) :
    engine.callFunction fuel name actor origin args =
      match engine.around.grant (.start actor origin .empty) ⟨name, none, args, []⟩ with
      | (.error error, around) => some (.error error, { engine with around })
      | (.ok (call, locals), around) =>
        ({ engine with around }.start fuel (.ofCall call (.start actor origin locals)) actor
          origin).map fun (result : Execution × Engine σ ρ) => (.ok result.1, result.2) := by
  unfold callFunction grant
  have hsame : engine.ledger = engine.around.ledger := rfl
  dsimp only [Context.start]
  rw [hsame]
  cases engine.around.ledger.registry.lookup? name actor origin.world with
  | none => rfl
  | some entry =>
    dsimp only
    cases entry.definition.bindArgs args [] with
    | error error => rfl
    | ok locals =>
      dsimp only
      generalize engine.around.acquire entry actor = claim
      obtain ⟨answer, around⟩ := claim
      cases answer with
      | error error => rfl
      | ok call => exact Option.map_eq_bind.symm

/-- A call from outside for which there is a reason is refused for it. -/
theorem callFunction_of_refuses {asked : Option FunctionEntry}
    (h : engine.around.Refuses (.start actor origin .empty) ⟨name, none, args, []⟩ error asked) :
    ∃ around, ∀ fuel, engine.callFunction fuel name actor origin args =
      some (.error error, { engine with around }) := by
  obtain ⟨around, hgrant, -⟩ := grant_of_refuses h
  refine ⟨around, fun fuel => ?_⟩
  rw [callFunction_eq, hgrant]

/-- A call from outside that is refused has a reason, and nothing changes but what runs
share. -/
theorem refuses_of_callFunction
    (h : engine.callFunction fuel name actor origin args = some (.error error, after)) :
    ∃ asked, engine.around.Refuses (.start actor origin .empty) ⟨name, none, args, []⟩ error
        asked ∧
      engine.around.Spares asked after.around ∧ after = { engine with around := after.around } := by
  rw [callFunction_eq] at h
  split at h
  · rename_i refusal around hgrant
    cases h
    obtain ⟨asked, hrefuses, hspares⟩ := refuses_of_grant hgrant
    exact ⟨asked, hrefuses, hspares, rfl⟩
  · obtain ⟨result, -, hresult⟩ := Option.map_eq_some_iff.1 h
    cases hresult

end Engine

/-- The function that was asked for counts the refusal, and no other function counts
anything. -/
theorem Recorded.tally_of_spares {σ ρ : Type} [Host σ] [RandomSource ρ] {engine after : Engine σ ρ}
    {log : List Incident} {asked : Option FunctionEntry} (hrec : Recorded engine log)
    (hask : ∀ entry, asked = some entry → entry ∈ engine.ledger.registry.registered)
    (h : engine.around.Spares asked after.around) (handle : Nat) :
    after.ledger.registry.tally handle =
      if asked.any (·.handle == handle) then (engine.ledger.registry.tally handle).reject
      else engine.ledger.registry.tally handle := by
  have hregistry : after.ledger.registry = _ := h.registry
  rw [hregistry]
  cases asked with
  | none => rfl
  | some entry =>
    have hnumbered := hrec.books.numbered entry (.inl (hask entry rfl))
    refine (FunctionRegistry.tally_updateTally engine.ledger.registry Tally.reject
      fun heq => heq ▸ hnumbered).trans ?_
    simp only [Option.any_some, beq_iff_eq]

/-- The node that comes next in an activation is that of a call, and this is what it asks
for. -/
def Activation.Asks {σ ρ : Type} [RandomSource ρ] (activation : Activation)
    (around : Surroundings σ ρ) (request : CallRequest) : Prop :=
  ∃ chain outer index op, activation.Facing chain outer index op ∧ op.category = .call ∧
    op.action.isSome ∧
    (Stage.callRequest op ⟨activation.context, around.host, around.random⟩).1 = .ok request

/-- The next step of a machine executes the node of a call that is refused. -/
structure Machine.MeetsRefusal {σ ρ : Type} [Host σ] [RandomSource ρ] (machine : Machine)
    (around : Surroundings σ ρ) (error : RunError) (asked : Option FunctionEntry) : Prop where
  /-- No call is late, so that the next node is executed. -/
  punctual : ∀ call ∈ machine.calls, call.isLate around.now = false
  /-- It asks for a call, and there is a reason to refuse it. -/
  refused : ∃ top callers request, machine.stack = top :: callers ∧ top.Asks around request ∧
    around.Refuses top.context request error asked

section

variable {σ ρ : Type} [Host σ] [RandomSource ρ] {table : ActionTable σ ρ}
  {around : Surroundings σ ρ} {error : RunError} {asked : Option FunctionEntry}

/-- The node of a call hands over what it asks for. Nothing changes but the place in the
program and the random source. -/
theorem Stage.advance_of_asks {top : Activation} {request : CallRequest}
    (h : top.Asks around request) (table : ActionTable σ ρ) :
    ∃ frames random, Stage.advance table ⟨top, around⟩ =
      (.call request, ⟨{ top with frames }, { around with random }⟩) := by
  obtain ⟨chain, outer, index, op, hfacing, hcategory, hacts, hasked⟩ := h
  obtain ⟨action, haction⟩ := Option.isSome_iff_exists.1 hacts
  have hplain : isPlainElse op = false := by simp [isPlainElse, hcategory]
  obtain ⟨random, hrun, hstage⟩ := run_of_reads (reads_callRequest op)
    (⟨{ top with frames := .block ⟨op.next, chain.kind, false⟩ :: outer }, around⟩ : Stage σ ρ)
  dsimp only at hrun
  rw [hrun] at hasked
  have hresult : Stage.run _ (callRequest op) = (.ok request, _) := Prod.ext hasked hstage
  refine ⟨.block ⟨op.next, chain.kind, false⟩ :: outer, random, ?_⟩
  unfold advance
  rw [hfacing.frames]
  dsimp only
  rw [hfacing.next]
  dsimp only
  rw [hfacing.node]
  dsimp only [exec, Option.bind_some, mapActivation]
  rw [hplain, haction]
  dsimp only [execAction]
  rw [hcategory]
  dsimp only [requestCall]
  rw [hresult]
  rfl

namespace Machine

variable {machine : Machine}

omit [Host σ] [RandomSource ρ] in
/-- The place in the program does not matter when a machine ends. -/
theorem ended_of_frames {top : Activation} {callers : List Activation}
    (hs : machine.stack = top :: callers) (frames : List Frame) :
    ended { machine with stack := { top with frames } :: callers } = machine.ended := by
  unfold ended locals?
  rw [hs]
  cases callers with
  | nil => rfl
  | cons caller outer => rfl

/-- A refused call ends the machine. All its calls have failed. -/
theorem MeetsRefusal.step_eq (h : machine.MeetsRefusal around error asked)
    (table : ActionTable σ ρ) :
    ∃ random spared, Spares { around with random } asked spared ∧
      machine.step table around =
        ⟨.error error, machine.ended, spared.releaseAll .failure machine.stack⟩ := by
  obtain ⟨top, callers, request, hs, hasks, hrefuses⟩ := h.refused
  obtain ⟨frames, random, hadvance⟩ := Stage.advance_of_asks hasks table
  have hstill : Refuses { around with random } top.context request error asked :=
    hrefuses.of_ledger rfl
  obtain ⟨spared, hgrant, hspares⟩ := grant_of_refuses hstill
  have hunfinished : top.frames.isEmpty = false := by
    obtain ⟨chain, outer, index, op, hfacing, -⟩ := hasks
    rw [hfacing.frames]
    rfl
  refine ⟨random, spared, hspares, ?_⟩
  rw [step_eq_advance h.punctual, ← ended_of_frames hs frames, hs]
  unfold advance
  rw [hs]
  dsimp only
  rw [hunfinished, hadvance]
  dsimp only
  rw [call_eq, hgrant]
  rfl

/-- If no call is late, a step fails only because a call is refused. -/
theorem exists_meetsRefusal (hp : ∀ call ∈ machine.calls, call.isLate around.now = false)
    (h : (machine.step table around).outcome = .error error) :
    ∃ asked, machine.MeetsRefusal around error asked := by
  rw [step_eq_advance hp] at h
  unfold advance at h
  cases hs : machine.stack with
  | nil =>
    rw [hs] at h
    cases h
  | cons top callers =>
    rw [hs] at h
    dsimp only at h
    split at h
    · unfold finish at h
      split at h
      · cases h
      · cases callers <;> cases h
    · rcases hadvance : Stage.advance table ⟨top, around⟩ with ⟨effect, stage⟩
      rw [hadvance] at h
      cases effect with
      | normal => cases h
      | suspend ticks => cases h
      | fork child => cases h
      | stop => cases h
      | call request =>
        obtain ⟨chain, outer, index, op, random, hfacing, hcategory, hacts, hasked, rfl⟩ :=
          Stage.advance_eq_call hadvance
        dsimp only at h
        rw [call_eq] at h
        rcases refuses_or_grants { around with random } top.context request with
          ⟨_, asked, hrefuses⟩ | ⟨_, _, _, hgrant, -⟩
        · obtain ⟨after, hgrant, -⟩ := grant_of_refuses hrefuses
          rw [hgrant] at h
          cases h
          refine ⟨asked, hp, top, callers, request, hs, ?_, hrefuses.of_ledger rfl⟩
          exact ⟨chain, outer, index, op, hfacing, hcategory, hacts, by rw [hasked]⟩
        · rw [hgrant] at h
          cases h

/-- What happens to calls when one that a machine asks for is refused: the refusal itself,
and the ends of all calls of the machine. -/
def collapse (machine : Machine) (asked : Option FunctionEntry) (now : UInt64) : List Incident :=
  asked.toList.map .refused ++ endings .failure now machine.calls

/-- Of these the refusal and the ends of calls of a function count for it. -/
theorem countP_collapse (machine : Machine) (asked : Option FunctionEntry) (now : UInt64)
    (handle : Nat) :
    (machine.collapse asked now).countP (accepts handle) = 0 ∧
      (machine.collapse asked now).countP (refuses handle) =
        (if asked.any (·.handle == handle) then 1 else 0) ∧
      ∀ outcome, (machine.collapse asked now).countP (ends handle outcome) =
        if outcome = .failure then machine.calls.countP (·.entry.handle == handle) else 0 := by
  have hrefused (test : Incident → Bool) : (asked.toList.map .refused).countP test =
      if asked.any fun entry => test (.refused entry) then 1 else 0 := by
    cases asked with
    | none => rfl
    | some entry => exact List.countP_singleton
  have hended {test : Incident → Bool} (ht : ∀ call, test (.ended call .failure now) = false) :
      (endings .failure now machine.calls).countP test = 0 := by
    rw [endings, List.countP_map]
    exact List.countP_eq_zero.2 fun call _ => by simp [ht]
  unfold collapse
  refine ⟨?_, ?_, fun outcome => ?_⟩
  · rw [List.countP_append, hrefused, hended fun _ => rfl]
    simp [accepts]
  · rw [List.countP_append, hrefused, hended fun _ => rfl]
    rfl
  · rw [List.countP_append, hrefused, countP_endings]
    simp [ends, eq_comm]

/-- What a refused call makes of a machine and of what surrounds it. -/
structure Collapses (machine : Machine) (around : Surroundings σ ρ) (error : RunError)
    (asked : Option FunctionEntry) (stepped : Stepped σ ρ) : Prop where
  /-- The error is that of the refusal. -/
  outcome : stepped.outcome = .error error
  /-- No activation is left, and there is none of the function that was asked for. -/
  ended : stepped.machine = machine.ended
  /-- The host is the same. -/
  host : stepped.around.host = around.host
  /-- The refusal is counted for the function, and for every call that it failed. -/
  registry : stepped.around.ledger.registry =
    around.ledger.registry.enterAll (machine.collapse asked around.now)
  /-- All calls are given back. -/
  activeCalls : stepped.around.ledger.activeCalls =
    around.ledger.activeCalls - machine.calls.length
  /-- They are given back to their actors. -/
  callDepth : ∀ actor, stepped.around.ledger.callDepth actor =
    around.ledger.callDepth actor - machine.calls.countP (·.actor == actor)
  /-- The numbers of suspended runs are the same. -/
  suspensions : ∀ actor,
    stepped.around.ledger.suspensionCount actor = around.ledger.suspensionCount actor

/-- This is what a refused call makes of them. -/
theorem MeetsRefusal.collapses (h : machine.MeetsRefusal around error asked)
    (table : ActionTable σ ρ) :
    machine.Collapses around error asked (machine.step table around) := by
  obtain ⟨random, spared, hspares, hstep⟩ := h.step_eq table
  rw [hstep]
  have hnow : spared.now = around.now := congrArg Host.now hspares.host
  have henters := enters_releaseAll .failure machine.stack spared
  rw [hnow] at henters
  refine ⟨rfl, rfl, ?_, ?_, ?_, fun actor => ?_, fun actor => ?_⟩
  · obtain ⟨ledger, hledger⟩ := spared.releaseAll_eq .failure machine.stack
    dsimp only
    rw [hledger]
    exact hspares.host
  · rw [henters.registry, hspares.registry_eq]
    exact (List.foldl_append ..).symm
  · have hcalls := henters.calls
    rw [admissions_endings, departures_endings, hspares.activeCalls] at hcalls
    exact hcalls
  · refine (spared.callDepth_releaseAll .failure machine.stack actor).trans ?_
    rw [hspares.callDepth]
    rfl
  · refine (henters.suspensions actor).trans ?_
    rw [Ledger.suspensionCount, hspares.suspensions]
    rfl

end Machine

/-- What becomes of the statistics of a function: calls of it were refused, others failed,
and nothing else happened. -/
structure Tally.Charged (before : Tally) (refusals failures : Nat) (after : Tally) : Prop where
  /-- No call was accepted. -/
  calls : after.calls = before.calls
  /-- The refused calls are counted. -/
  rejections : after.rejections = before.rejections + refusals
  /-- The calls that ended have failed. -/
  ended : ∀ outcome, after.ended outcome =
    before.ended outcome + if outcome = .failure then failures else 0

/-- A call that is refused in a run is counted for the function that was asked for, and
every call of the run is counted as failed. -/
theorem Recorded.charged_of_refusal {engine : Engine σ ρ} {log : List Incident}
    (h : Recorded engine log) {key : RunKey} {run : Run}
    (hk : engine.runs.get? key = some run)
    (hr : run.machine.MeetsRefusal engine.around error asked) (handle : Nat) :
    (engine.ledger.registry.tally handle).Charged
      (if asked.any (·.handle == handle) then 1 else 0)
      (run.machine.calls.countP (·.entry.handle == handle))
      ((run.machine.step engine.actions engine.around).around.ledger.registry.tally handle) := by
  have hbooks := h.books
  have hlive : ∀ call ∈ run.machine.calls, call ∈ admissions log := fun call hm =>
    hbooks.calls.mem_iff.2 (List.mem_append_right _
      (List.mem_flatMap.2 ⟨(key, run), SlotMap.mem_entries.2 hk, hm⟩))
  have hknown : ∀ incident ∈ run.machine.collapse asked engine.around.now, ∀ entry,
      incident.about? = some entry → entry.handle < engine.ledger.registry.tallies.size := by
    intro incident hm entry habout
    refine hbooks.numbered entry ?_
    rcases List.mem_append.1 hm with hm | hm
    · obtain ⟨found, hfound, rfl⟩ := List.mem_map.1 hm
      cases habout
      obtain ⟨top, callers, request, -, -, hrefuses⟩ := hr.refused
      have hlookup := hrefuses.asked_eq
      rw [Option.mem_toList.1 hfound] at hlookup
      exact .inl (FunctionRegistry.mem_registered hlookup.symm)
    · obtain ⟨call, hcall, rfl⟩ := List.mem_map.1 hm
      cases habout
      exact Engine.Books.knows_of_admitted (hlive call hcall)
  have hbefore := hbooks.tallies handle
  have hafter := FunctionRegistry.counts_enterAll hbefore hknown
  obtain ⟨haccepts, hrefuses, hends⟩ :=
    run.machine.countP_collapse asked engine.around.now handle
  rw [(hr.collapses engine.actions).registry]
  refine ⟨?_, ?_, fun outcome => ?_⟩
  · have hcalls := hafter.calls
    rw [List.countP_append, haccepts, ← hbefore.calls] at hcalls
    exact hcalls
  · rw [hbefore.rejections, ← hrefuses, ← List.countP_append]
    exact hafter.rejections
  · rw [hbefore.ended, ← hends, ← List.countP_append]
    exact hafter.ended outcome

/-- A machine and what surrounds it in the middle of a slice, with the number of steps that
were taken and the machines that were split off. -/
inductive Machine.Underway (table : ActionTable σ ρ) (first : Machine)
    (before : Surroundings σ ρ) : Nat → Machine → Surroundings σ ρ → List Machine → Prop where
  /-- The slice begins. -/
  | start : Underway table first before 0 first before []
  /-- One more step. -/
  | step {steps : Nat} {machine : Machine} {around : Surroundings σ ρ} {forks : List Machine}
    (past : Underway table first before steps machine around forks)
    (went : (machine.step table around).outcome = .ok .normal) :
    Underway table first before (steps + 1) (machine.step table around).machine
      (machine.step table around).around forks
  /-- One more step, in which a loop is split off. -/
  | fork {steps : Nat} {machine child : Machine} {around : Surroundings σ ρ}
    {forks : List Machine} (past : Underway table first before steps machine around forks)
    (split : (machine.step table around).outcome = .ok (.fork child)) :
    Underway table first before (steps + 1) (machine.step table around).machine
      (machine.step table around).around (forks ++ [child])

namespace Machine.Underway

variable {first machine : Machine} {before : Surroundings σ ρ} {steps : Nat}
  {forks : List Machine}

/-- The slice goes on from there with the steps that are left. -/
theorem slice_eq (h : Underway table first before steps machine around forks) {limit : Nat}
    (hs : steps ≤ limit) (actor : Actor) :
    first.slice table actor limit limit before [] =
      machine.slice table actor limit (limit - steps) around forks := by
  induction h with
  | start => rfl
  | @step steps machine around forks past went ih =>
    have hleft : limit - steps = limit - (steps + 1) + 1 := by omega
    have hstep : machine.step table around =
        ⟨.ok .normal, (machine.step table around).machine, (machine.step table around).around⟩ := by
      rw [← went]
    rw [ih (by omega), hleft]
    exact slice_normal hstep
  | @fork steps machine child around forks past split ih =>
    have hleft : limit - steps = limit - (steps + 1) + 1 := by omega
    have hstep : machine.step table around = ⟨.ok (.fork child),
        (machine.step table around).machine, (machine.step table around).around⟩ := by
      rw [← split]
    rw [ih (by omega), hleft]
    exact slice_fork hstep

/-- A slice in which a step fails ends with it. -/
theorem slice_of_error (h : Underway table first before steps machine around forks)
    {limit : Nat} (hs : steps < limit) (actor : Actor)
    (he : (machine.step table around).outcome = .error error) :
    first.slice table actor limit limit before [] =
      ⟨.done (.error error), (machine.step table around).machine,
        (machine.step table around).around, forks, steps + 1⟩ := by
  have hleft : limit - steps = limit - (steps + 1) + 1 := by omega
  have htaken : limit - (limit - (steps + 1)) = steps + 1 := by omega
  rw [h.slice_eq hs.le actor, hleft, slice]
  dsimp only
  rw [he, htaken]

/-- An engine in the middle of a slice is on record. -/
theorem exists_recorded {engine : Engine σ ρ} {log : List Incident} {key : RunKey} {run : Run}
    (h : Underway engine.actions run.machine engine.around steps machine around forks)
    (hk : engine.runs.get? key = some run) (hr : Recorded engine log) :
    ∃ log, Recorded (engine.midway key run machine around) log := by
  have hgoes : engine.Goes IsCall (engine.midway key run machine around) := by
    induction h with
    | start =>
      unfold Engine.midway
      rw [SlotMap.set_self hk]
      exact .refl engine IsCall
    | step past went ih => exact ih.trans (Engine.goes_step hk _ _)
    | fork past split ih => exact ih.trans (Engine.goes_step hk _ _)
  obtain ⟨incidents, hproceeds, -⟩ := hgoes
  exact ⟨log ++ incidents, hr.proceed hproceeds⟩

end Machine.Underway

namespace Engine

omit [Host σ] [RandomSource ρ] in
/-- Machines that were split off only change the number of runs in what is shared. -/
theorem around_adopt (engine : Engine σ ρ) (forks : List Machine) :
    ∃ activeRuns, (engine.adopt forks).around =
      { engine.around with ledger := { engine.around.ledger with activeRuns } } := by
  induction forks generalizing engine with
  | nil => exact ⟨_, rfl⟩
  | cons machine rest ih =>
    unfold adopt
    split
    · exact ih engine
    · obtain ⟨activeRuns, haround⟩ := ih _
      exact ⟨activeRuns, haround⟩

/-- A run whose step fails in a slice is reported with the error and gone. In what is shared
only the numbers of runs and the loads change after the step. -/
theorem runSlice_of_error {engine : Engine σ ρ} {key : RunKey} {run : Run}
    (ht : engine.runs.Tidy) (hk : engine.runs.get? key = some run) {steps : Nat}
    {machine : Machine} {forks : List Machine}
    (hu : Machine.Underway engine.actions run.machine engine.around steps machine around forks)
    (hs : steps < engine.ledger.settings.maxStepsPerTick)
    (he : (machine.step engine.actions around).outcome = .error error) :
    (engine.runSlice key).1 = some (report key
        { run with
          machine := (machine.step engine.actions around).machine
          steps := run.steps + (steps + 1) } (.error error)) ∧
      (engine.runSlice key).2.runs.get? key = none ∧
      (engine.runSlice key).2.around.host = (machine.step engine.actions around).around.host ∧
      ∃ activeRuns loads, (engine.runSlice key).2.ledger =
        { (machine.step engine.actions around).around.ledger with activeRuns, loads } := by
  have hslice : engine.sliceOf run = _ := hu.slice_of_error hs run.actor he
  generalize machine.step engine.actions around = stepped at hslice ⊢
  unfold runSlice
  rw [hk]
  dsimp only
  rw [hslice]
  unfold conclude
  dsimp only
  generalize hafter : engine.afterSlice key run
    ⟨.done (.error error), stepped.machine, stepped.around, forks, steps + 1⟩ = after
  have htidy : after.runs.Tidy := by
    rw [← hafter]
    exact SlotMap.tidy_set ht key _
  have hput : after.runs.get? key = some { run with
      machine := stepped.machine
      steps := run.steps + (steps + 1) } := by
    rw [← hafter]
    exact (SlotMap.get?_set hk _ key).trans (if_pos rfl)
  have haround : ∃ loads, after.around =
      { stepped.around with ledger := { stepped.around.ledger with loads } } := by
    obtain ⟨loads, hloads⟩ := stepped.around.ledger.recordSteps_eq run.origin (steps + 1)
    refine ⟨loads, ?_⟩
    rw [← hafter, ← hloads]
    rfl
  obtain ⟨loads, hloads⟩ := haround
  obtain ⟨activeRuns, hadopted⟩ := after.around_adopt forks
  have hfound := (adopted_adopt forks htidy).kept key _ hput
  unfold finish
  rw [hfound]
  refine ⟨rfl, (SlotMap.get?_erase ..).trans (if_pos rfl), ?_, activeRuns - 1, loads, ?_⟩
  · have hhost := congrArg Surroundings.host hadopted
    rw [hloads] at hhost
    exact hhost
  · have hledger : ((after.adopt forks).ledger).endRun = { after.around.ledger with
        activeRuns := activeRuns - 1 } := by
      rw [Engine.ledger, hadopted]
      rfl
    rw [hloads] at hledger
    exact hledger

end Engine

end

/-- Refused calls leave no trace. Every career is on record. A call from outside that is
refused had a reason that lies in the ledger, so with any other host it would have been
refused the same way. Nothing of the engine changes but what runs share, and of that only
the count of refusals of the function that was asked for, which is one more if there is
such a function. If the node of a call is refused in the course of a slice, the step does
nothing but end the machine with that error. The function that was asked for counts the
refusal, all calls of the machine are given back and counted as failed, and the slice ends
with the report that the run failed with the error. -/
theorem refused_calls_leave_no_trace {σ ρ : Type} [Host σ] [RandomSource ρ] :
    (∀ (engine : Engine σ ρ) (cleared : List Ledger), Career engine cleared →
      ∃ log, Recorded engine log) ∧
    (∀ (engine after : Engine σ ρ) (fuel : Nat) (name : String) (actor : Actor) (origin : Place)
      (args : ArrivalMap String Value) (error : RunError),
      engine.callFunction fuel name actor origin args = some (.error error, after) →
      let asked := engine.ledger.registry.lookup? name actor origin.world
      engine.around.Refuses (.start actor origin .empty) ⟨name, none, args, []⟩ error asked ∧
      after = { engine with around := after.around } ∧
      engine.around.Spares asked after.around ∧
      (∀ log, Recorded engine log → ∀ handle, after.ledger.registry.tally handle =
        if asked.any (·.handle == handle) then (engine.ledger.registry.tally handle).reject
        else engine.ledger.registry.tally handle) ∧
      ∀ host, ∃ last, ({ engine with around := { engine.around with host } } :
        Engine σ ρ).callFunction fuel name actor origin args = some (.error error, last)) ∧
    ∀ (engine : Engine σ ρ) (log : List Incident) (key : RunKey) (run : Run) (steps : Nat)
      (machine : Machine) (around : Surroundings σ ρ) (forks : List Machine) (error : RunError)
      (asked : Option FunctionEntry), Recorded engine log → engine.runs.get? key = some run →
      Machine.Underway engine.actions run.machine engine.around steps machine around forks →
      steps < engine.ledger.settings.maxStepsPerTick →
      machine.MeetsRefusal around error asked →
      let stepped := machine.step engine.actions around
      machine.Collapses around error asked stepped ∧
      (∀ handle, (around.ledger.registry.tally handle).Charged
        (if asked.any (·.handle == handle) then 1 else 0)
        (machine.calls.countP (·.entry.handle == handle))
        (stepped.around.ledger.registry.tally handle)) ∧
      (engine.runSlice key).1 = some
        { key, actor := run.actor, origin := run.origin, state := .failed, result := .error error
          locals := machine.locals?.getD .empty, steps := run.steps + (steps + 1) } ∧
      (engine.runSlice key).2.runs.get? key = none ∧
      (engine.runSlice key).2.around.host = around.host ∧
      ∃ activeRuns loads, (engine.runSlice key).2.ledger =
        { stepped.around.ledger with activeRuns, loads } := by
  refine ⟨fun engine cleared h => ?_, fun engine after fuel name actor origin args error h => ?_,
    fun engine log key run steps machine around forks error asked hrec hk hu hs hr => ?_⟩
  · obtain ⟨log, hlog, -⟩ := h.exists_recorded.1
    exact ⟨log, hlog⟩
  · obtain ⟨asked, hrefuses, hspares, hsame⟩ := Engine.refuses_of_callFunction h
    obtain rfl : asked = engine.ledger.registry.lookup? name actor origin.world :=
      hrefuses.asked_eq
    refine ⟨hrefuses, hsame, hspares, fun log hrec handle => ?_, fun host => ?_⟩
    · exact hrec.tally_of_spares (fun _ => FunctionRegistry.mem_registered) hspares handle
    · have hother : ({ engine with around := { engine.around with host } } :
          Engine σ ρ).around.Refuses (.start actor origin .empty) ⟨name, none, args, []⟩ error _ :=
        hrefuses.of_ledger rfl
      obtain ⟨around, hcall⟩ := Engine.callFunction_of_refuses hother
      exact ⟨_, hcall fuel⟩
  · obtain ⟨earlier, hmidway⟩ := hu.exists_recorded hk hrec
    have hcollapses := hr.collapses engine.actions
    obtain ⟨hreport, hgone, hhost, hledger⟩ :=
      Engine.runSlice_of_error hrec.proper.tidy hk hu hs hcollapses.outcome
    refine ⟨hcollapses, fun handle => ?_, hreport.trans ?_, hgone, hhost.trans hcollapses.host,
      hledger⟩
    · exact hmidway.charged_of_refusal (Engine.get?_midway hk machine around) hr handle
    · obtain ⟨_, _, _, -, -, hrefuses⟩ := hr.refused
      unfold Engine.report
      rw [hrefuses.state, hcollapses.ended]
      rfl

/-- The error of a result that is one. -/
def failure? {α : Type} : Except RunError α → Option RunError
  | .error error => some error
  | .ok _ => none

/-- A result with an error is that error. -/
theorem eq_of_failure? {α : Type} {result : Except RunError α} {error : RunError}
    (h : failure? result = some error) : result = .error error := by
  cases result with
  | error found => exact congrArg Except.error (Option.some.inj h)
  | ok value => cases h

/-- An engine in which only one call may be under way. It is that of a function that calls
another one first. -/
def crowdedEngine? : Option (Engine MinimalHost ReplaySource) :=
  (narrowEngine.performAll 3 []
    [.register hurriedFunction false, .register History.restFunction false]).map fun last =>
      last.2.invoke "hurried" ⟨"alice"⟩ default .empty

/-- Another call from outside is refused, and so is the one that the function makes. The
first refusal leaves the run alone, and the second one ends it. -/
theorem refused_calls_leave_no_trace_crowded :
    ∃ (engine after : Engine MinimalHost ReplaySource) (log : List Incident) (run : Run)
      (asked : Option FunctionEntry) (report : RunReport),
      crowdedEngine? = some engine ∧ Recorded engine log ∧
      engine.runs.get? ⟨0, 0⟩ = some run ∧
      engine.callFunction 3 "rest" ⟨"bob"⟩ default .empty =
        some (.error (.limit (.concurrency 1)), after) ∧
      after.runs = engine.runs ∧ after.ledger.activeCalls = 1 ∧
      (after.ledger.registry.tally 1).rejections = 1 ∧
      run.machine.MeetsRefusal engine.around (.limit (.concurrency 1)) asked ∧
      (engine.runSlice ⟨0, 0⟩).1 = some report ∧ report.state = .failed ∧
      report.result = .error (.limit (.concurrency 1)) ∧
      (engine.runSlice ⟨0, 0⟩).2.runs.get? ⟨0, 0⟩ = none ∧
      (engine.runSlice ⟨0, 0⟩).2.ledger.activeCalls = 0 ∧
      ((engine.runSlice ⟨0, 0⟩).2.ledger.registry.tally 0).failures = 1 := by
  have hfacts : (crowdedEngine?.bind fun engine => (engine.runs.get? ⟨0, 0⟩).map fun run =>
      (run.machine.calls.map (·.entry.handle),
        run.machine.calls.any (·.isLate engine.around.now),
        failure? (run.machine.step engine.actions engine.around).outcome)) =
      some ([0], false, some (.limit (.concurrency 1))) := by decide +kernel
  have hcounts : (crowdedEngine?.map fun engine =>
      (engine.ledger.activeCalls, engine.ledger.settings.maxStepsPerTick,
        engine.ledger.registry.tally 0, engine.ledger.registry.tally 1)) =
      some (1, 10000, ⟨1, 0, 0, 0, 0, 0, 0⟩, .zero) := by decide +kernel
  have hcall : (crowdedEngine?.bind fun engine =>
      (engine.callFunction 3 "rest" ⟨"bob"⟩ default .empty).map fun result =>
        (failure? result.1, (engine.ledger.registry.lookup? "rest" ⟨"bob"⟩
          (default : Place).world).any (·.handle == 1))) =
      some (some (.limit (.concurrency 1)), true) := by decide +kernel
  obtain ⟨engine, hengine, hrest⟩ := Option.bind_eq_some_iff.1 hfacts
  obtain ⟨run, hrun, hend⟩ := Option.map_eq_some_iff.1 hrest
  simp only [Prod.mk.injEq] at hend
  obtain ⟨hhandles, hlate, hfailed⟩ := hend
  rw [hengine, Option.map_some] at hcounts
  rw [hengine, Option.bind_some] at hcall
  simp only [Option.some.injEq, Prod.mk.injEq] at hcounts
  obtain ⟨hactive, hsteps, hfirst, hsecond⟩ := hcounts
  obtain ⟨⟨result, after⟩, hcalled, hrefused⟩ := Option.map_eq_some_iff.1 hcall
  obtain ⟨hrefusal, hasked⟩ := Prod.ext_iff.1 hrefused
  obtain rfl := eq_of_failure? hrefusal
  obtain ⟨hcareers, hcalls, hslices⟩ :=
    refused_calls_leave_no_trace (σ := MinimalHost) (ρ := ReplaySource)
  obtain ⟨⟨returned, quiet⟩, hperformed, hinvoked⟩ := Option.map_eq_some_iff.1 hengine
  have hcareer : Career quiet [] := (Career.initial ..).performAll hperformed
  obtain ⟨log, hlog⟩ := hcareers quiet [] hcareer
  have hrec := hlog.move (.call quiet "hurried" ⟨"alice"⟩ default .empty)
  rw [hinvoked] at hrec
  obtain ⟨-, hsame, hspares, htally, -⟩ := hcalls engine after 3 "rest" _ _ _ _ hcalled
  have hone := htally _ hrec 1
  rw [if_pos hasked, hsecond] at hone
  have hpunctual : ∀ call ∈ run.machine.calls, call.isLate engine.around.now = false :=
    fun call hm => Bool.eq_false_iff.2 (List.any_eq_false.1 hlate call hm)
  obtain ⟨asked, hmeets⟩ := Machine.exists_meetsRefusal hpunctual (eq_of_failure? hfailed)
  obtain ⟨hcollapses, hcharged, hreport, hgone, -, activeRuns, loads, hledger⟩ :=
    hslices engine _ ⟨0, 0⟩ run 0 run.machine engine.around [] _ asked hrec hrun .start
      (by rw [hsteps]; decide) hmeets
  have hruns := congrArg Engine.runs hsame
  refine ⟨engine, after, _, run, asked, _, hengine, hrec, hrun, hcalled, hruns,
    hspares.activeCalls.trans hactive, congrArg Tally.rejections hone, hmeets, hreport, rfl, rfl,
    hgone, ?_, ?_⟩
  · have hlength : run.machine.calls.length = 1 := by
      rw [← List.length_map (·.entry.handle), hhandles]
      rfl
    rw [hledger]
    refine hcollapses.activeCalls.trans ?_
    rw [hlength]
    exact congrArg (· - 1) hactive
  · have hcount : run.machine.calls.countP (·.entry.handle == 0) = 1 := by
      have hmapped : (run.machine.calls.map (·.entry.handle)).countP (· == 0) = 1 := by
        rw [hhandles]
        rfl
      rwa [List.countP_map] at hmapped
    have hfailures := (hcharged 0).ended .failure
    rw [hcount] at hfailures
    rw [hledger]
    refine hfailures.trans ?_
    rw [show engine.around.ledger.registry.tally 0 = _ from hfirst]
    rfl

end GridScript
