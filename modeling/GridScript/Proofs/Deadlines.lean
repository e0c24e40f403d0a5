import GridScript.Proofs.Conservation
import Mathlib.Data.List.TakeWhile

/-!
# Calls past their deadline

A machine looks for late calls from the outermost one on, and the first it finds ends
it. That call is the one the error names. It is charged with a timeout, and so are all
calls that were under way inside of it, in time or not; those outside of it have
failed. One call alone is charged with the timeout only if nothing was called from
within it.
-/

namespace GridScript

open Incident Surroundings

namespace FunctionRegistry

/-- An incident is counted under its outcome if it is the end of a call of the
function. -/
theorem ended_enter (registry : FunctionRegistry) {handle : Nat}
    (h : handle < registry.tallies.size) (incident : Incident) (outcome : CallOutcome) :
    ((registry.enter incident).tally handle).ended outcome =
      (registry.tally handle).ended outcome + if ends handle outcome incident then 1 else 0 := by
  cases incident with
  | accepted call =>
    rw [enter, tally_updateTally _ _ fun _ => h]
    split <;> cases outcome <;> rfl
  | refused entry =>
    rw [enter, tally_updateTally _ _ fun _ => h]
    split <;> cases outcome <;> rfl
  | cleared => rfl
  | ended call found now =>
    rw [enter, tally_updateTally _ _ fun _ => h]
    split
    · rename_i hown
      simp only [ends, hown, beq_self_eq_true, Bool.true_and]
      cases found <;> cases outcome <;> rfl
    · rename_i hother
      simp [ends, hother]

/-- Incidents are counted under their outcomes, and nothing else is. -/
theorem ended_enterAll (registry : FunctionRegistry) {handle : Nat}
    (h : handle < registry.tallies.size) (incidents : List Incident) (outcome : CallOutcome) :
    ((registry.enterAll incidents).tally handle).ended outcome =
      (registry.tally handle).ended outcome + incidents.countP (ends handle outcome) := by
  induction incidents generalizing registry with
  | nil => rfl
  | cons incident rest ih =>
    have hrest := ih (registry.enter incident) (by rw [size_enter]; exact h)
    rw [ended_enter registry h] at hrest
    rw [List.countP_cons, ← Nat.add_assoc, Nat.add_right_comm, ← hrest]
    rfl

end FunctionRegistry

/-- The ends of calls with one outcome count for that outcome and for no other. -/
theorem Incident.countP_endings (handle : Nat) (outcome found : CallOutcome) (now : UInt64)
    (calls : List ActiveCall) :
    (endings found now calls).countP (ends handle outcome) =
      if found = outcome then calls.countP (·.entry.handle == handle) else 0 := by
  unfold endings
  rw [List.countP_map]
  split
  · rename_i hsame
    refine List.countP_congr fun call _ => ?_
    simp [ends, hsame]
  · rename_i hother
    refine List.countP_eq_zero.2 fun call _ => ?_
    simp [ends, hother]

namespace Machine

variable {σ ρ : Type}

/-- A machine with a late call is split at the outermost one: the activations outside
of it are not late. -/
theorem splitLate_of_late {machine : Machine} {now : UInt64}
    (h : ∃ call ∈ machine.calls, call.isLate now = true) :
    ∃ activation pending inner, (machine.splitLate now).2 = activation :: inner ∧
      activation.call = some pending ∧ pending.call.isLate now = true ∧
      ∀ other ∈ (machine.splitLate now).1, other.isLate now = false := by
  obtain ⟨call, hcall, hlate⟩ := h
  obtain ⟨activation, hmem, hpending⟩ := List.mem_filterMap.1 hcall
  obtain ⟨pending, hcalled, rfl⟩ := Option.map_eq_some_iff.1 hpending
  have hfound : activation.isLate now = true := by
    rw [Activation.isLate, hcalled]
    exact hlate
  unfold splitLate
  rw [List.span_eq_takeWhile_dropWhile]
  cases hdrop : machine.stack.reverse.dropWhile (!·.isLate now) with
  | nil =>
    have hnone := List.dropWhile_eq_nil_iff.1 hdrop activation (List.mem_reverse.2 hmem)
    simp [hfound] at hnone
  | cons first inner =>
    have hfirst : first.isLate now = true := by
      have hhead := List.head_dropWhile_not (fun activation : Activation => !activation.isLate now)
        (l := machine.stack.reverse) (by rw [hdrop]; exact List.cons_ne_nil _ _)
      simpa [hdrop] using hhead
    unfold Activation.isLate at hfirst
    split at hfirst
    · rename_i own hown
      refine ⟨first, own, inner, rfl, hown, hfirst, fun other hm => ?_⟩
      simpa using List.mem_takeWhile_imp hm
    · cases hfirst

/-- The calls of a machine with a late call, split at the outermost one. -/
theorem calls_of_late {machine : Machine} {now : UInt64}
    (h : ∃ call ∈ machine.calls, call.isLate now = true) :
    ∃ inside late outside, machine.calls = inside ++ late :: outside ∧
      late.isLate now = true ∧ (∀ call ∈ outside, call.isLate now = false) ∧
      machine.lateCall? now = some late ∧
      machine.lateEndings now =
        endings .timeout now (inside ++ [late]) ++ endings .failure now outside := by
  obtain ⟨activation, pending, inner, hsplit, hcall, hlate, houter⟩ := splitLate_of_late h
  have hinside : callsIn (machine.splitLate now).2.reverse =
      callsIn inner.reverse ++ [pending.call] := by
    simp [hsplit, callsIn, hcall]
  have hstack : machine.stack =
      (machine.splitLate now).2.reverse ++ (machine.splitLate now).1.reverse := by
    rw [← List.reverse_append, splitLate_append, List.reverse_reverse]
  refine ⟨callsIn inner.reverse, pending.call, callsIn (machine.splitLate now).1.reverse, ?_,
    hlate, fun call hm => ?_, ?_, ?_⟩
  · rw [calls, hstack, callsIn, List.filterMap_append, ← callsIn, ← callsIn, hinside,
      List.append_assoc]
    rfl
  · obtain ⟨other, hother, hown⟩ := List.mem_filterMap.1 hm
    obtain ⟨own, hcalled, rfl⟩ := Option.map_eq_some_iff.1 hown
    have hpunctual := houter other (List.mem_reverse.1 hother)
    rwa [Activation.isLate, hcalled] at hpunctual
  · simp [lateCall?, hsplit, hcall]
  · rw [lateEndings, hinside]

variable [Host σ]

/-- A machine with a late call ends with the error that names the outermost one. That
call and all calls inside of it are recorded as timed out, those outside of it as
failed, and no call in any other way. -/
theorem late_call_charged (machine : Machine) (around : Surroundings σ ρ)
    (h : ∃ call ∈ machine.calls, call.isLate around.now = true) :
    ∃ inside late outside after,
      machine.calls = inside ++ late :: outside ∧ late.isLate around.now = true ∧
      (∀ call ∈ outside, call.isLate around.now = false) ∧
      machine.checkDeadlines around =
        (.error (.timeout late.entry.definition.name late.timeLimitMs), machine.ended, after) ∧
      ∀ handle < around.ledger.registry.tallies.size, ∀ outcome,
        (after.ledger.registry.tally handle).ended outcome =
          (around.ledger.registry.tally handle).ended outcome +
            match outcome with
            | .timeout => (inside ++ [late]).countP (·.entry.handle == handle)
            | .failure => outside.countP (·.entry.handle == handle)
            | .success | .cancelled => 0 := by
  obtain ⟨inside, late, outside, hcalls, hlate, hpunctual, hfound, hendings⟩ := calls_of_late h
  have hcheck : ∃ after, machine.checkDeadlines around =
      (.error (.timeout late.entry.definition.name late.timeLimitMs), machine.ended, after) := by
    unfold checkDeadlines
    dsimp only
    rw [hfound]
    exact ⟨_, rfl⟩
  obtain ⟨after, hafter⟩ := hcheck
  refine ⟨inside, late, outside, after, hcalls, hlate, hpunctual, hafter, fun handle hh outcome => ?_⟩
  rw [(enters_checkDeadlines hafter).2.registry, FunctionRegistry.ended_enterAll _ hh, hendings,
    List.countP_append, countP_endings, countP_endings]
  cases outcome <;> simp

end Machine

/-- A function with a time limit that calls another one. -/
def hurriedFunction : FunctionDefinition :=
  { FunctionDefinition.plain "hurried" ⟨"alice"⟩ .everyone (some (.mk ⟨1, "call", .call,
      some "call", ArrivalMap.empty.insert "function" (.text "rest"), .plain, none⟩ [] none)) with
    maxTimeMs := some 100 }

/-- A program that calls it. -/
def hurriedProgram : Program where
  kind := .event "start"
  root := .mk ⟨2, "start", .event, none, .empty, .plain, none⟩ [] (some (.mk ⟨3, "call", .call,
    some "call", ArrivalMap.empty.insert "function" (.text "hurried"), .plain, none⟩ [] none))
  origin := default
  catalogueVersion := 0

/-- A run that waits in a call made by a call with a time limit, and the time runs
out. -/
def restedTooLong : List (Operation MinimalHost) :=
  [.register hurriedFunction false, .register History.restFunction false,
    .execute hurriedProgram ⟨"alice"⟩ default, .host fun host => ⟨host.clock.advance 500⟩]

/-- That run and what surrounds it. -/
def overdue? : Option (Machine × Surroundings MinimalHost ReplaySource) := do
  let (_, engine) ← History.quietEngine.performAll 3 [] restedTooLong
  let run ← engine.runs.get? ⟨0, 0⟩
  return (run.machine, engine.around)

/-- The call that made the other one is late, it is the only one, and ending the run
charges the other one with a timeout. -/
theorem overdue_calls : ∃ machine around, overdue? = some (machine, around) ∧
    (∃ call ∈ machine.calls, call.isLate around.now = true) ∧
    (∀ call ∈ machine.calls, call.isLate around.now = true → call.entry.handle = 0) ∧
    around.ledger.registry.tallies.size = 2 ∧
    (around.ledger.registry.tally 1).ended .timeout = 0 ∧
    ((machine.checkDeadlines around).2.2.ledger.registry.tally 1).ended .timeout = 1 := by
  have hfacts : (overdue?.map fun (machine, around) => decide
      ((∃ call ∈ machine.calls, call.isLate around.now = true) ∧
        (∀ call ∈ machine.calls, call.isLate around.now = true → call.entry.handle = 0) ∧
        around.ledger.registry.tallies.size = 2 ∧
        (around.ledger.registry.tally 1).ended .timeout = 0 ∧
        ((machine.checkDeadlines around).2.2.ledger.registry.tally 1).ended .timeout = 1)) =
      some true := by decide +kernel
  obtain ⟨⟨machine, around⟩, hfound, hall⟩ := Option.map_eq_some_iff.1 hfacts
  exact ⟨machine, around, hfound, of_decide_eq_true hall⟩

/-- The call that is late is named by the error, and there are two timeouts, one of
either function. -/
theorem late_call_charged_overdue : ∃ machine around inside late outside after,
    overdue? = some (machine, around) ∧ machine.calls = inside ++ late :: outside ∧
      machine.checkDeadlines around =
        (.error (.timeout late.entry.definition.name late.timeLimitMs), machine.ended, after) ∧
      ∀ handle < 2, (after.ledger.registry.tally handle).ended .timeout =
        (around.ledger.registry.tally handle).ended .timeout +
          (inside ++ [late]).countP (·.entry.handle == handle) := by
  obtain ⟨machine, around, hfound, hlate, -, hsize, -⟩ := overdue_calls
  obtain ⟨inside, late, outside, after, hsplit, -, -, hcheck, htally⟩ :=
    Machine.late_call_charged machine around hlate
  refine ⟨machine, around, inside, late, outside, after, hfound, hsplit, hcheck,
    fun handle hh => ?_⟩
  exact htally handle (by rw [hsize]; exact hh) .timeout

/-- It is not only the late call that is charged with a timeout: the call it made is
charged with one as well, and not with a failure. -/
theorem inner_call_charged : ¬ ∀ (machine : Machine)
    (around : Surroundings MinimalHost ReplaySource),
    (∃ call ∈ machine.calls, call.isLate around.now = true) →
    ∃ inside late outside after,
      machine.calls = inside ++ late :: outside ∧ late.isLate around.now = true ∧
      (∀ call ∈ outside, call.isLate around.now = false) ∧
      machine.checkDeadlines around =
        (.error (.timeout late.entry.definition.name late.timeLimitMs), machine.ended, after) ∧
      ∀ handle < around.ledger.registry.tallies.size, ∀ outcome,
        (after.ledger.registry.tally handle).ended outcome =
          (around.ledger.registry.tally handle).ended outcome +
            match outcome with
            | .timeout => [late].countP (·.entry.handle == handle)
            | .failure => (inside ++ outside).countP (·.entry.handle == handle)
            | .success | .cancelled => 0 := by
  intro hclaim
  obtain ⟨machine, around, -, hlate, hfirst, hsize, hbefore, hafter⟩ := overdue_calls
  obtain ⟨inside, late, outside, after, hsplit, hown, -, hcheck, htally⟩ :=
    hclaim machine around hlate
  have hhandle : late.entry.handle = 0 := hfirst late (by rw [hsplit]; simp) hown
  have hcount := htally 1 (by rw [hsize]; decide) .timeout
  rw [hcheck] at hafter
  rw [hbefore, hafter] at hcount
  simp [hhandle] at hcount

end GridScript
