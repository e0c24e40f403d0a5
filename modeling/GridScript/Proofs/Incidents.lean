import GridScript.Proofs.Layers
import GridScript.Proofs.Ownership

/-!
# What happens to calls

A call is accepted or refused when it is asked for, and a call that was accepted
ends once, when it leaves the stack. This module says which of this happens in a
step of a machine, from the node it executes and from the stacks before and after
it, and that the ledger and the statistics of functions follow suit: nothing is
entered that did not happen, and nothing that happened is left out.
-/

namespace GridScript

/-- Something that happens to calls. -/
inductive Incident where
  /-- A call is accepted. -/
  | accepted (call : ActiveCall)
  /-- A call of a function is refused. -/
  | refused (entry : FunctionEntry)
  /-- A call that was accepted ends with an outcome at some moment. -/
  | ended (call : ActiveCall) (outcome : CallOutcome) (now : UInt64)
  /-- A ledger is given up with everything it counts. -/
  | cleared (ledger : Ledger)

namespace Incident

/-- The call that is accepted. -/
def accepted? : Incident → Option ActiveCall
  | .accepted call => some call
  | _ => none

/-- The call that ends. -/
def ended? : Incident → Option ActiveCall
  | .ended call _ _ => some call
  | _ => none

/-- The function that a call is asked for of. -/
def asked? : Incident → Option FunctionEntry
  | .accepted call => some call.entry
  | .refused entry => some entry
  | _ => none

/-- The ledger that is given up. -/
def cleared? : Incident → Option Ledger
  | .cleared ledger => some ledger
  | _ => none

/-- Whether a call is what an incident happens to. -/
def IsCall (incident : Incident) : Prop :=
  incident.cleared? = none

/-- Whether a call is cancelled. -/
def IsCancellation : Incident → Prop
  | .ended _ outcome _ => outcome = .cancelled
  | _ => False

/-- The calls that are accepted in the course of some incidents, in order. -/
def admissions (incidents : List Incident) : List ActiveCall :=
  incidents.filterMap accepted?

/-- The calls that end in the course of some incidents, in order. -/
def departures (incidents : List Incident) : List ActiveCall :=
  incidents.filterMap ended?

/-- The ledgers that are given up in the course of some incidents, in order. -/
def clearances (incidents : List Incident) : List Ledger :=
  incidents.filterMap cleared?

/-- Calls that end at one moment with one outcome. -/
def endings (outcome : CallOutcome) (now : UInt64) (calls : List ActiveCall) : List Incident :=
  calls.map (.ended · outcome now)

@[simp] theorem admissions_nil : admissions [] = [] :=
  rfl

@[simp] theorem departures_nil : departures [] = [] :=
  rfl

@[simp] theorem admissions_append (first second : List Incident) :
    admissions (first ++ second) = admissions first ++ admissions second :=
  List.filterMap_append

@[simp] theorem departures_append (first second : List Incident) :
    departures (first ++ second) = departures first ++ departures second :=
  List.filterMap_append

@[simp] theorem clearances_append (first second : List Incident) :
    clearances (first ++ second) = clearances first ++ clearances second :=
  List.filterMap_append

/-- No ledger is given up if calls are all that things happen to. -/
theorem clearances_of_calls {incidents : List Incident}
    (h : ∀ incident ∈ incidents, incident.IsCall) : clearances incidents = [] :=
  List.filterMap_eq_nil_iff.2 h

/-- What is cancelled is a call. -/
theorem IsCancellation.isCall {incident : Incident} (h : incident.IsCancellation) :
    incident.IsCall := by
  cases incident with
  | cleared => cases h
  | _ => rfl

/-- What is asked for is a call. -/
theorem isCall_of_asked {incident : Incident} {entry : FunctionEntry}
    (h : incident.asked? = some entry) : incident.IsCall := by
  cases incident with
  | cleared => cases h
  | _ => rfl

/-- What ends is a call. -/
theorem isCall_of_endings {outcome : CallOutcome} {now : UInt64} {calls : List ActiveCall}
    {incident : Incident} (h : incident ∈ endings outcome now calls) : incident.IsCall := by
  obtain ⟨call, -, rfl⟩ := List.mem_map.1 h
  rfl

@[simp] theorem admissions_endings (outcome : CallOutcome) (now : UInt64)
    (calls : List ActiveCall) : admissions (endings outcome now calls) = [] := by
  simp [admissions, endings, accepted?, List.filterMap_map]

@[simp] theorem departures_endings (outcome : CallOutcome) (now : UInt64)
    (calls : List ActiveCall) : departures (endings outcome now calls) = calls := by
  simp [departures, endings, ended?, List.filterMap_map, Function.comp_def]

/-- When calls end none is asked for. -/
theorem asked?_endings {outcome : CallOutcome} {now : UInt64} {calls : List ActiveCall}
    {incident : Incident} (h : incident ∈ endings outcome now calls) :
    incident.asked? = none := by
  obtain ⟨call, -, rfl⟩ := List.mem_map.1 h
  rfl

end Incident

open Incident

namespace FunctionRegistry

/-- The registry with an incident entered. -/
def enter (registry : FunctionRegistry) : Incident → FunctionRegistry
  | .accepted call => registry.updateTally call.entry.handle Tally.start
  | .refused entry => registry.updateTally entry.handle Tally.reject
  | .ended call outcome now =>
    registry.updateTally call.entry.handle (·.finish outcome (call.latencyMs now))
  | .cleared _ => registry.clear

/-- The registry with incidents entered one by one. -/
def enterAll (registry : FunctionRegistry) (incidents : List Incident) : FunctionRegistry :=
  incidents.foldl enter registry

end FunctionRegistry

namespace Ledger

/-- The ledger follows the incidents: they are entered in the statistics, active
calls are counted down to zero at least, and a call is accepted only below the
limit. Nothing else of what is counted changes. -/
structure Enters (before : Ledger) (incidents : List Incident) (after : Ledger) : Prop where
  /-- The limits are the same. -/
  settings : after.settings = before.settings
  /-- The statistics are those of the incidents. -/
  registry : after.registry = before.registry.enterAll incidents
  /-- The numbers of suspended runs are the same. -/
  suspensions : ∀ actor, after.suspensionCount actor = before.suspensionCount actor
  /-- The number of active calls moves along. -/
  calls : after.activeCalls =
    before.activeCalls + (admissions incidents).length - (departures incidents).length
  /-- A call is accepted only if there is room for it. -/
  room : admissions incidents ≠ [] → after.activeCalls ≤ after.settings.maxActiveCalls

namespace Enters

/-- Nothing happens. -/
theorem refl (ledger : Ledger) : Enters ledger [] ledger :=
  ⟨rfl, rfl, fun _ => rfl, rfl, fun h => absurd rfl h⟩

/-- Incidents that are followed by endings. -/
theorem append {first second third : Ledger} {incidents more : List Incident}
    (h₁ : Enters first incidents second) (h₂ : Enters second more third)
    (hn : admissions more = []) : Enters first (incidents ++ more) third where
  settings := h₂.settings.trans h₁.settings
  registry := by
    rw [h₂.registry, h₁.registry, FunctionRegistry.enterAll, FunctionRegistry.enterAll,
      FunctionRegistry.enterAll, List.foldl_append]
  suspensions actor := (h₂.suspensions actor).trans (h₁.suspensions actor)
  calls := by
    have hfirst := h₁.calls
    have hsecond := h₂.calls
    rw [hn] at hsecond
    simp only [admissions_append, departures_append, hn, List.append_nil, List.length_append,
      List.length_nil] at hsecond ⊢
    omega
  room ha := by
    have hsecond := h₂.calls
    rw [hn] at hsecond
    rw [admissions_append, hn, List.append_nil] at ha
    have hroom := h₁.room ha
    rw [h₂.settings]
    simp only [List.length_nil] at hsecond
    omega

end Enters

/-- A call that is asked for is entered as accepted, with the function it is a call
of, or as refused. -/
theorem enters_acquire (ledger : Ledger) (entry : FunctionEntry) (actor : Actor) (now : UInt64) :
    match ledger.acquire entry actor now with
    | (.ok call, after) => call.entry = entry ∧ ledger.Enters [.accepted call] after
    | (.error _, after) => ledger.Enters [.refused entry] after := by
  unfold acquire enterCall
  dsimp only
  generalize (entry.definition.maxDepth.map UInt64.toNat).getD ledger.settings.maxCallDepth
    = maxDepth
  by_cases hd : maxDepth ≤ ledger.callDepth actor
  · simp only [hd, if_true]
    exact ⟨rfl, rfl, fun _ => rfl, rfl, fun ha => absurd rfl ha⟩
  · simp only [hd, if_false]
    by_cases hl : ledger.settings.maxActiveCalls ≤ ledger.activeCalls
    · simp only [hl, if_true]
      exact ⟨rfl, rfl, fun _ => rfl, rfl, fun ha => absurd rfl ha⟩
    · simp only [hl, if_false]
      exact ⟨trivial, rfl, rfl, fun _ => rfl, rfl, fun _ => Nat.lt_of_not_le hl⟩

end Ledger

namespace Surroundings

open Ledger

variable {σ ρ : Type} [Host σ]

/-- The calls among some activations, innermost first. -/
def callsIn (activations : List Activation) : List ActiveCall :=
  activations.filterMap fun activation => activation.call.map (·.call)

/-- Calls that end are entered with their outcome. -/
theorem enters_releaseAll (outcome : CallOutcome) (activations : List Activation)
    (around : Surroundings σ ρ) :
    around.ledger.Enters (endings outcome around.now (callsIn activations))
      (around.releaseAll outcome activations).ledger := by
  induction activations generalizing around with
  | nil => exact .refl _
  | cons activation outer ih =>
    unfold releaseAll callsIn
    cases hcall : activation.call with
    | none =>
      rw [List.filterMap_cons_none (by simp [hcall])]
      exact ih around
    | some pending =>
      rw [List.filterMap_cons_some (b := pending.call) (by simp [hcall])]
      have hone : around.ledger.Enters [.ended pending.call outcome around.now]
          (around.release pending.call outcome).ledger :=
        ⟨rfl, rfl, fun _ => rfl, rfl, fun h => absurd rfl h⟩
      have hrest := ih (around.release pending.call outcome)
      exact hone.append hrest (admissions_endings ..)

/-- Ending calls does not touch the clock. -/
theorem now_releaseAll (outcome : CallOutcome) (activations : List Activation)
    (around : Surroundings σ ρ) : (around.releaseAll outcome activations).now = around.now := by
  induction activations generalizing around with
  | nil => rfl
  | cons activation outer ih =>
    unfold releaseAll
    split
    · exact ih _
    · exact ih _

/-- What comes of a call that an actor asks for: nothing if there is no such
function, and else it is accepted, or refused because of its arguments or a limit. -/
def attempt (around : Surroundings σ ρ) (context : Context) (request : CallRequest) :
    List Incident :=
  match around.ledger.registry.lookup? request.function context.actor context.origin.world with
  | none => []
  | some entry =>
    match entry.definition.bindArgs request.named request.positional with
    | .error _ => [.refused entry]
    | .ok _ =>
      match (around.acquire entry context.actor).1 with
      | .error _ => [.refused entry]
      | .ok call => [.accepted call]

omit [Host σ] in
/-- A refused call is entered as such. -/
theorem enters_reject (around : Surroundings σ ρ) (entry : FunctionEntry) :
    around.ledger.Enters [.refused entry] (around.reject entry).ledger :=
  ⟨rfl, rfl, fun _ => rfl, rfl, fun h => absurd rfl h⟩

/-- A call that is asked for is entered as accepted, with the function it is a call
of, or as refused. The clock is not touched. -/
theorem enters_acquire (around : Surroundings σ ρ) (entry : FunctionEntry) (actor : Actor) :
    match around.acquire entry actor with
    | (.ok call, after) =>
      after.now = around.now ∧ call.entry = entry ∧
        around.ledger.Enters [.accepted call] after.ledger
    | (.error _, after) =>
      after.now = around.now ∧ around.ledger.Enters [.refused entry] after.ledger := by
  have hentered := around.ledger.enters_acquire entry actor around.now
  unfold Surroundings.acquire
  generalize around.ledger.acquire entry actor around.now = claim at hentered ⊢
  obtain ⟨answer, ledger⟩ := claim
  cases answer with
  | error error => exact ⟨rfl, hentered⟩
  | ok call => exact ⟨rfl, hentered⟩

/-- A call that is asked for is one of a registered function. -/
theorem exists_asked {around : Surroundings σ ρ} {context : Context} {request : CallRequest}
    {incident : Incident} (h : incident ∈ around.attempt context request) :
    ∃ entry ∈ around.ledger.registry.registered, incident.asked? = some entry := by
  unfold attempt at h
  split at h
  · cases h
  · rename_i found hfound
    refine ⟨found, FunctionRegistry.mem_registered hfound, ?_⟩
    split at h
    · cases List.mem_singleton.1 h
      rfl
    · have hacquired := enters_acquire around found context.actor
      generalize around.acquire found context.actor = claim at hacquired h
      obtain ⟨answer, after⟩ := claim
      cases answer with
      | error error =>
        cases List.mem_singleton.1 h
        rfl
      | ok call =>
        cases List.mem_singleton.1 h
        exact congrArg some hacquired.2.1

end Surroundings

open Surroundings

/-- How calls end that leave the stack in a step which came to this. -/
def CallOutcome.ofStep : Except RunError Step → CallOutcome
  | .ok _ => .success
  | .error _ => .failure

/-- The calls of a machine, innermost first. -/
def Machine.calls (machine : Machine) : List ActiveCall :=
  callsIn machine.stack

/-- The ends of those calls that are not on the stack any more after a step. -/
def Stepped.exits {σ ρ : Type} [Host σ] (stepped : Stepped σ ρ) (calls : List ActiveCall) :
    List Incident :=
  endings (.ofStep stepped.outcome) stepped.around.now
    (calls.take (calls.length - stepped.machine.calls.length))

namespace Machine

variable {σ ρ : Type} [Host σ]

/-- The ends of the calls of a machine with a late call: the outermost such call and
those inside it have timed out, and those outside of it have failed. -/
def lateEndings (machine : Machine) (now : UInt64) : List Incident :=
  endings .timeout now (callsIn (machine.splitLate now).2.reverse) ++
    endings .failure now (callsIn (machine.splitLate now).1.reverse)

/-- What comes of the call that the next node asks for, if it does. -/
def attempt [RandomSource ρ] (table : ActionTable σ ρ) (machine : Machine)
    (around : Surroundings σ ρ) : List Incident :=
  match machine.stack with
  | [] => []
  | top :: _ =>
    if top.frames.isEmpty then []
    else
      match Stage.advance table ⟨top, around⟩ with
      | (.call request, stage) => stage.around.attempt stage.activation.context request
      | _ => []

/-- What happens to calls in a step of a machine. -/
def incidents [RandomSource ρ] (table : ActionTable σ ρ) (machine : Machine)
    (around : Surroundings σ ρ) : List Incident :=
  if (machine.lateCall? around.now).isSome then machine.lateEndings around.now
  else machine.attempt table around ++ (machine.step table around).exits machine.calls

end Machine

/-- A step in the course of which some things happen to calls: the ledger follows,
and the calls on the stack are those that were there or were accepted, without those
that ended. -/
structure Stepped.Tells {σ ρ : Type} (stepped : Stepped σ ρ) (calls : List ActiveCall)
    (before : Ledger) (incidents : List Incident) : Prop where
  /-- The ledger follows. -/
  ledger : before.Enters incidents stepped.around.ledger
  /-- The stack does, too. -/
  stack : admissions incidents ++ calls = departures incidents ++ stepped.machine.calls

namespace Stepped

variable {σ ρ : Type} [Host σ] {stepped : Stepped σ ρ} {calls : List ActiveCall}

/-- The calls that leave the stack are those from the top. -/
theorem exits_eq {gone : List ActiveCall} (h : calls = gone ++ stepped.machine.calls) :
    stepped.exits calls = endings (.ofStep stepped.outcome) stepped.around.now gone := by
  have hlength : calls.length - stepped.machine.calls.length = gone.length := by
    rw [h, List.length_append]
    omega
  unfold exits
  rw [hlength, h, List.take_left']
  rfl

/-- No call leaves a stack that does not get smaller. -/
theorem exits_eq_nil (h : calls.length ≤ stepped.machine.calls.length) :
    stepped.exits calls = [] := by
  unfold exits
  rw [Nat.sub_eq_zero_of_le h, List.take_zero]
  rfl

/-- A step in which calls leave the stack and nothing else happens to calls. -/
theorem tells_of_gone {before : Ledger} (gone : List ActiveCall)
    (hc : calls = gone ++ stepped.machine.calls)
    (hl : before.Enters (endings (.ofStep stepped.outcome) stepped.around.now gone)
      stepped.around.ledger) : stepped.Tells calls before (stepped.exits calls) := by
  rw [exits_eq hc]
  exact ⟨hl, by rw [admissions_endings, departures_endings, List.nil_append, hc]⟩

/-- A step in which nothing happens to calls. -/
theorem tells_of_same {before : Ledger} (hc : stepped.machine.calls = calls)
    (hl : stepped.around.ledger = before) : stepped.Tells calls before (stepped.exits calls) :=
  tells_of_gone [] hc.symm (hl ▸ .refl _)

end Stepped

namespace Machine

variable {σ ρ : Type} [Host σ]

/-- A machine that has ended holds no calls. -/
theorem calls_of_empty {machine : Machine} (h : machine.stack = []) : machine.calls = [] := by
  rw [calls, h]
  rfl

/-- The calls of a stack with one more activation. -/
theorem calls_cons (top : Activation) (callers : List Activation) (locals : Option Locals) :
    calls ⟨top :: callers, locals⟩ =
      (top.call.map (·.call)).toList ++ calls ⟨callers, locals⟩ := by
  cases hcall : top.call <;> simp [calls, callsIn, hcall]

/-- The ends of all calls of a machine that ends are entered. -/
theorem enters_close (machine : Machine) (outcome : CallOutcome) (around : Surroundings σ ρ) :
    around.ledger.Enters (endings outcome (machine.close outcome around).2.now machine.calls)
      (machine.close outcome around).2.ledger := by
  have hnow : (machine.close outcome around).2.now = around.now :=
    now_releaseAll outcome machine.stack around
  rw [hnow]
  exact enters_releaseAll outcome machine.stack around

/-- All calls of a machine that fails leave the stack. -/
theorem tells_failWith (machine : Machine) (error : RunError) (around : Surroundings σ ρ) :
    (machine.failWith error around).Tells machine.calls around.ledger
      ((machine.failWith error around).exits machine.calls) :=
  Stepped.tells_of_gone _ (List.append_nil _).symm (machine.enters_close .failure around)

/-- The call of an activation that is finished leaves the stack. -/
theorem tells_finish {machine : Machine} {top : Activation} {callers : List Activation}
    (hs : machine.stack = top :: callers) (around : Surroundings σ ρ) :
    (machine.finish top callers around).Tells machine.calls around.ledger
      ((machine.finish top callers around).exits machine.calls) := by
  obtain ⟨stack, locals⟩ := machine
  subst hs
  cases htop : top.call with
  | none =>
    simp only [finish, htop]
    refine Stepped.tells_of_same ?_ rfl
    rw [calls_cons, htop]
    rfl
  | some pending =>
    have hledger := returned_ledger pending.call (top.context.locals.get? Stage.returnName) around
    simp only [finish, htop]
    generalize returned pending.call (top.context.locals.get? Stage.returnName) around = result
      at hledger ⊢
    obtain ⟨value, around'⟩ := result
    dsimp only at hledger ⊢
    have hone : around.ledger.Enters [.ended pending.call .success around'.now]
        (around'.release pending.call .success).ledger := by
      rw [← hledger]
      exact ⟨rfl, rfl, fun _ => rfl, rfl, fun h => absurd rfl h⟩
    cases callers with
    | nil =>
      refine Stepped.tells_of_gone [pending.call] ?_ hone
      rw [calls_cons, htop]
      rfl
    | cons caller outer =>
      have hsame := (receive_same caller pending.result value).2
      refine Stepped.tells_of_gone [pending.call] ?_ hone
      rw [calls_cons, calls_cons, calls_cons, htop, hsame]
      rfl

/-- A call that is accepted is pushed; with a refused one all others leave the
stack. -/
theorem tells_call (machine : Machine) (context : Context) (request : CallRequest)
    (around : Surroundings σ ρ) :
    (machine.call context request around).Tells machine.calls around.ledger
      (around.attempt context request ++
        (machine.call context request around).exits machine.calls) := by
  have hrefused {refused : Surroundings σ ρ} (entry : FunctionEntry) (error : RunError)
      (he : around.ledger.Enters [.refused entry] refused.ledger) :
      (machine.failWith error refused).Tells machine.calls around.ledger
        ([.refused entry] ++ (machine.failWith error refused).exits machine.calls) := by
    obtain ⟨hledger, hstack⟩ := machine.tells_failWith error refused
    exact ⟨he.append hledger (admissions_endings ..), hstack⟩
  unfold call Surroundings.attempt
  cases hfound : around.ledger.registry.lookup? request.function context.actor
      context.origin.world with
  | none => exact machine.tells_failWith _ around
  | some entry =>
    dsimp only
    cases hargs : entry.definition.bindArgs request.named request.positional with
    | error error => exact hrefused entry _ (enters_reject around entry)
    | ok locals =>
      dsimp only
      have hacquired := enters_acquire around entry context.actor
      generalize around.acquire entry context.actor = claim at hacquired ⊢
      obtain ⟨answer, after⟩ := claim
      cases answer with
      | error error => exact hrefused entry _ hacquired.2
      | ok accepted =>
        have hcalls : calls ⟨Activation.start entry.script
            (.start context.actor context.origin locals) (some ⟨accepted, request.result⟩) ::
              machine.stack, machine.finalLocals⟩ = accepted :: machine.calls := by
          rw [calls_cons]
          rfl
        dsimp only
        rw [Stepped.exits_eq_nil (by simp [hcalls]), List.append_nil]
        exact ⟨hacquired.2.2, hcalls.symm⟩

/-- The calls that end because one of them is late are all calls of the machine. -/
theorem departures_lateEndings (machine : Machine) (now : UInt64) :
    departures (machine.lateEndings now) = machine.calls := by
  have hstack : (machine.splitLate now).2.reverse ++ (machine.splitLate now).1.reverse =
      machine.stack := by
    rw [← List.reverse_append, splitLate_append, List.reverse_reverse]
  unfold lateEndings calls callsIn
  rw [departures_append, departures_endings, departures_endings, ← List.filterMap_append, hstack]

/-- A machine with a late call ends, and so do all its calls. -/
theorem enters_checkDeadlines {machine after : Machine} {around last : Surroundings σ ρ}
    {error : LimitError} (h : machine.checkDeadlines around = (.error error, after, last)) :
    (machine.lateCall? around.now).isSome ∧
      around.ledger.Enters (machine.lateEndings around.now) last.ledger := by
  unfold checkDeadlines at h
  dsimp only at h
  split at h
  · cases h
  · rename_i late hlate
    cases h
    refine ⟨by rw [hlate]; rfl, ?_⟩
    have hinside := enters_releaseAll .timeout (machine.splitLate around.now).2.reverse
      (around.note .callTimedOut)
    have houtside := enters_releaseAll .failure (machine.splitLate around.now).1.reverse
      ((around.note .callTimedOut).releaseAll .timeout (machine.splitLate around.now).2.reverse)
    rw [now_releaseAll] at houtside
    exact hinside.append houtside (admissions_endings ..)

variable [RandomSource ρ] {table : ActionTable σ ρ}

/-- What happens to calls when a node or a transition is executed. -/
theorem tells_advance (ht : table.Keeps) (machine : Machine) (around : Surroundings σ ρ) :
    (machine.advance table around).Tells machine.calls around.ledger
      (machine.attempt table around ++ (machine.advance table around).exits machine.calls) := by
  unfold advance attempt
  cases hs : machine.stack with
  | nil => exact Stepped.tells_of_same rfl rfl
  | cons top callers =>
    dsimp only
    split
    · exact tells_finish hs around
    · obtain ⟨stack, locals⟩ := machine
      dsimp only at hs
      subst hs
      have hl := Stage.local_advance ht ⟨top, around⟩
      generalize Stage.advance table ⟨top, around⟩ = result at hl ⊢
      obtain ⟨effect, stage⟩ := result
      dsimp only at hl ⊢
      have hcalls : calls ⟨stage.activation :: callers, locals⟩ =
          calls ⟨top :: callers, locals⟩ := by
        rw [calls_cons, calls_cons, hl.call]
      have hledger : stage.around.ledger = around.ledger := hl.ledger
      rw [← hcalls, ← hledger]
      cases effect with
      | normal => exact Stepped.tells_of_same rfl rfl
      | suspend ticks => exact Stepped.tells_of_same rfl rfl
      | fork child => exact Stepped.tells_of_same rfl rfl
      | stop =>
        exact Stepped.tells_of_gone _ (List.append_nil _).symm
          (enters_close _ .success stage.around)
      | call request => exact tells_call _ _ request _

/-- What happens to calls in a step is what the ledger and the stack show. -/
theorem tells_step (ht : table.Keeps) (machine : Machine) (around : Surroundings σ ρ) :
    (machine.step table around).Tells machine.calls around.ledger
      (machine.incidents table around) := by
  unfold incidents
  rcases step_cases table machine around with ⟨hs, he⟩ | ⟨error, after, last, hd, he⟩ | ⟨hn, he⟩
  · have hlate : machine.lateCall? around.now = none := by simp [lateCall?, splitLate, hs]
    have hattempt : machine.attempt table around = [] := by simp [attempt, hs]
    rw [hlate, hattempt, he]
    exact Stepped.tells_of_same rfl rfl
  · obtain ⟨hlate, henters⟩ := enters_checkDeadlines hd
    rw [he, if_pos hlate]
    refine ⟨henters, ?_⟩
    rw [departures_lateEndings, calls_of_empty (stack_of_checkDeadlines hd), List.append_nil]
    simp [lateEndings]
  · rw [hn, he]
    exact tells_advance ht machine around

/-- Whatever comes of the call that the next node asks for, it comes of one that the
stage asks for. -/
theorem mem_attempt {machine : Machine} {around : Surroundings σ ρ} {incident : Incident}
    (h : incident ∈ machine.attempt table around) :
    ∃ top request stage, Stage.advance table ⟨top, around⟩ = (.call request, stage) ∧
      incident ∈ stage.around.attempt stage.activation.context request := by
  unfold attempt at h
  split at h
  · cases h
  · rename_i top callers hs
    split at h
    · cases h
    · split at h
      · rename_i request stage hadvance
        exact ⟨top, request, stage, hadvance, h⟩
      · cases h

/-- In a step things happen to calls only. -/
theorem isCall_incidents {machine : Machine} {around : Surroundings σ ρ} {incident : Incident}
    (h : incident ∈ machine.incidents table around) : incident.IsCall := by
  unfold incidents at h
  split at h
  · rcases List.mem_append.1 h with hm | hm
    · exact isCall_of_endings hm
    · exact isCall_of_endings hm
  · rcases List.mem_append.1 h with hm | hm
    · obtain ⟨_, _, _, -, hattempt⟩ := mem_attempt hm
      obtain ⟨_, -, hasked⟩ := exists_asked hattempt
      exact isCall_of_asked hasked
    · exact isCall_of_endings hm

/-- A call that is asked for in a step is one of a registered function. -/
theorem asked_incidents (ht : table.Keeps) {machine : Machine} {around : Surroundings σ ρ}
    {incident : Incident} {entry : FunctionEntry} (h : incident ∈ machine.incidents table around)
    (ha : incident.asked? = some entry) : entry ∈ around.ledger.registry.registered := by
  have hendings {outcome : CallOutcome} {now : UInt64} {calls : List ActiveCall}
      (hm : incident ∈ endings outcome now calls) : False := by
    rw [asked?_endings hm] at ha
    cases ha
  unfold incidents at h
  split at h
  · rcases List.mem_append.1 h with hm | hm
    · exact (hendings hm).elim
    · exact (hendings hm).elim
  · rcases List.mem_append.1 h with hm | hm
    · obtain ⟨top, request, stage, hadvance, hattempt⟩ := mem_attempt hm
      obtain ⟨found, hregistered, hasked⟩ := exists_asked hattempt
      have hl := (Stage.local_advance ht ⟨top, around⟩).ledger
      rw [hadvance] at hl
      cases hasked.symm.trans ha
      exact hl ▸ hregistered
    · exact (hendings hm).elim

end Machine

end GridScript
