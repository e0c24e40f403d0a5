import GridScript.Proofs.Careers

/-!
# Conservation of calls

The statistics of a function say exactly what happened to its calls: at every moment
every call that was accepted is on the stack of some run or has ended, and each of the
counters is the number of incidents of its kind. The books are kept by handles, and no
two functions ever share one, so what is counted for a function is not mixed up with
what is counted for the one it replaced.
-/

namespace GridScript

open Incident

namespace Incident

/-- Whether a call of the function with a handle is accepted. -/
def accepts (handle : Nat) : Incident → Bool
  | .accepted call => call.entry.handle == handle
  | _ => false

/-- Whether a call of the function with a handle is refused. -/
def refuses (handle : Nat) : Incident → Bool
  | .refused entry => entry.handle == handle
  | _ => false

/-- Whether a call of the function with a handle ends with an outcome. -/
def ends (handle : Nat) (outcome : CallOutcome) : Incident → Bool
  | .ended call found _ => call.entry.handle == handle && found == outcome
  | _ => false

/-- The function whose statistics an incident is entered in. -/
def about? : Incident → Option FunctionEntry
  | .accepted call | .ended call _ _ => some call.entry
  | .refused entry => some entry
  | .cleared _ => none

/-- What is accepted are the calls that are accepted. -/
theorem countP_accepts (handle : Nat) (incidents : List Incident) :
    incidents.countP (accepts handle) =
      (admissions incidents).countP (·.entry.handle == handle) := by
  rw [admissions, List.countP_filterMap]
  refine List.countP_congr fun incident _ => ?_
  cases incident <;> simp [accepts, accepted?]

/-- What ends are the calls that end, each with one outcome. -/
theorem countP_ends (handle : Nat) (incidents : List Incident) :
    incidents.countP (ends handle .success) + incidents.countP (ends handle .failure) +
        incidents.countP (ends handle .timeout) + incidents.countP (ends handle .cancelled) =
      (departures incidents).countP (·.entry.handle == handle) := by
  induction incidents with
  | nil => rfl
  | cons incident rest ih =>
    have hdepartures : departures (incident :: rest) =
        incident.ended?.toList ++ departures rest := by
      unfold departures
      cases hended : incident.ended? <;> simp [hended]
    rw [hdepartures, List.countP_append, ← ih]
    cases incident with
    | accepted | refused | cleared => simp [ends, ended?]
    | ended call outcome now =>
      cases outcome <;> simp [List.countP_cons, ends, ended?] <;> omega

end Incident

/-- The number of calls that ended with an outcome. -/
def Tally.ended (tally : Tally) : CallOutcome → Nat
  | .success => tally.successes
  | .failure => tally.failures
  | .timeout => tally.timeouts
  | .cancelled => tally.cancellations

/-- Statistics that count what happened to the calls of the function with a handle. -/
structure Tally.Counts (tally : Tally) (handle : Nat) (log : List Incident) : Prop where
  /-- The calls that were accepted. -/
  calls : tally.calls = log.countP (accepts handle)
  /-- The calls that were refused. -/
  rejections : tally.rejections = log.countP (refuses handle)
  /-- The calls that ended, by outcome. -/
  ended : ∀ outcome, tally.ended outcome = log.countP (ends handle outcome)

/-- One more incident is counted by the counter that is for it. -/
theorem Tally.Counts.append {tally after : Tally} {handle : Nat} {log : List Incident}
    {incident : Incident} (h : tally.Counts handle log)
    (hc : after.calls = tally.calls + if accepts handle incident then 1 else 0)
    (hr : after.rejections = tally.rejections + if refuses handle incident then 1 else 0)
    (he : ∀ outcome, after.ended outcome =
      tally.ended outcome + if ends handle outcome incident then 1 else 0) :
    after.Counts handle (log ++ [incident]) := by
  refine ⟨?_, ?_, fun outcome => ?_⟩
  · rw [hc, h.calls, List.countP_append, List.countP_singleton]
  · rw [hr, h.rejections, List.countP_append, List.countP_singleton]
  · rw [he, h.ended, List.countP_append, List.countP_singleton]

namespace FunctionRegistry

variable {registry : FunctionRegistry}

/-- The statistics under a handle after those under another one were changed. -/
theorem tally_updateTally (registry : FunctionRegistry) {changed handle : Nat}
    (change : Tally → Tally) (h : changed = handle → handle < registry.tallies.size) :
    (registry.updateTally changed change).tally handle =
      if changed = handle then change (registry.tally handle) else registry.tally handle := by
  unfold tally updateTally
  simp only [Array.getD_eq_getD_getElem?, Array.getElem?_modify]
  split
  · rename_i heq
    simp [h heq]
  · rfl

/-- Entering an incident leaves the number of handles alone. -/
theorem size_enter (registry : FunctionRegistry) (incident : Incident) :
    (registry.enter incident).tallies.size = registry.tallies.size := by
  cases incident <;> simp [enter, updateTally, clear]

/-- An incident that is entered is counted, and nothing else is. -/
theorem counts_enter {handle : Nat} {log : List Incident} {incident : Incident}
    (h : (registry.tally handle).Counts handle log)
    (hi : ∀ entry, incident.about? = some entry → entry.handle < registry.tallies.size) :
    ((registry.enter incident).tally handle).Counts handle (log ++ [incident]) := by
  cases incident with
  | accepted call =>
    rw [enter, tally_updateTally _ _ fun heq => heq ▸ hi call.entry rfl]
    split
    · rename_i hown
      refine h.append ?_ rfl fun outcome => ?_
      · simp [Tally.start, accepts, hown]
      · cases outcome <;> rfl
    · rename_i hother
      exact h.append (by simp [accepts, hother]) rfl fun _ => rfl
  | refused entry =>
    rw [enter, tally_updateTally _ _ fun heq => heq ▸ hi entry rfl]
    split
    · rename_i hown
      refine h.append rfl ?_ fun outcome => ?_
      · simp [Tally.reject, refuses, hown]
      · cases outcome <;> rfl
    · rename_i hother
      exact h.append rfl (by simp [refuses, hother]) fun _ => rfl
  | ended call found now =>
    rw [enter, tally_updateTally _ _ fun heq => heq ▸ hi call.entry rfl]
    split
    · rename_i hown
      refine h.append (Tally.calls_finish ..) ?_ fun outcome => ?_
      · cases found <;> rfl
      · simp only [ends, hown, beq_self_eq_true, Bool.true_and]
        cases found <;> cases outcome <;> rfl
    · rename_i hother
      exact h.append rfl rfl fun outcome => by simp [ends, hother]
  | cleared => exact h.append rfl rfl fun _ => rfl

/-- Incidents that are entered one by one are counted, and nothing else is. -/
theorem counts_enterAll {handle : Nat} {log incidents : List Incident}
    (h : (registry.tally handle).Counts handle log)
    (hi : ∀ incident ∈ incidents, ∀ entry, incident.about? = some entry →
      entry.handle < registry.tallies.size) :
    ((registry.enterAll incidents).tally handle).Counts handle (log ++ incidents) := by
  induction incidents generalizing registry log with
  | nil =>
    rw [List.append_nil]
    exact h
  | cons incident rest ih =>
    obtain ⟨hfirst, hrest⟩ := List.forall_mem_cons.1 hi
    have hone := counts_enter h hfirst
    rw [← size_enter registry incident] at hrest
    have hall := ih hone hrest
    rw [List.append_assoc] at hall
    exact hall

/-- One function at most is new, with the next handle, and no statistics get lost. -/
structure Grows (before after : FunctionRegistry) : Prop where
  /-- No handle gets lost. -/
  size : before.tallies.size ≤ after.tallies.size
  /-- Registered functions were registered before, but for one with a handle of its
  own. -/
  registered : ∃ fresh : Option FunctionEntry,
    (∀ entry, fresh = some entry →
      entry.handle = before.tallies.size ∧ entry.handle < after.tallies.size) ∧
    ∀ entry ∈ after.registered, entry ∈ before.registered ∨ fresh = some entry

/-- Functions that are registered were so before. -/
theorem Grows.of_subset {before after : FunctionRegistry}
    (hs : after.tallies.size = before.tallies.size)
    (hf : ∀ key entry, after.functions.get? key = some entry →
      before.functions.get? key = some entry) : before.Grows after := by
  refine ⟨Nat.le_of_eq hs.symm, none, fun entry he => ?_, fun entry hm => .inl ?_⟩
  · cases he
  · obtain ⟨key, hk⟩ := mem_registered_iff.1 hm
    exact mem_registered_iff.2 ⟨key, hf key entry hk⟩

/-- Nothing is registered any more. -/
theorem grows_clear (registry : FunctionRegistry) : registry.Grows registry.clear :=
  .of_subset rfl fun _ _ => nofun

/-- An answer to a request brings one new function at most, and leaves all statistics as
they are. -/
theorem grows_answer (registry : FunctionRegistry) (request : Request) :
    registry.Grows (registry.answer request).2 ∧
      ∀ handle, (registry.answer request).2.tally handle = registry.tally handle := by
  rcases registry.answer_cases request with ⟨definition, replace, -, -, -, ha⟩ |
    ⟨name, scope, owner, found, -, -, -, ha⟩ | ⟨-, ha⟩
  · rw [ha]
    have hsize : (registry.add definition).tallies.size = registry.tallies.size + 1 := by
      simp [add]
    dsimp only
    refine ⟨⟨by omega, some (registry.newEntry definition), fun entry he => ?_,
      fun entry hm => ?_⟩, fun handle => ?_⟩
    · cases he
      refine ⟨rfl, ?_⟩
      simp only [newEntry]
      omega
    · obtain ⟨key, hk⟩ := mem_registered_iff.1 hm
      rw [get?_add] at hk
      split at hk
      · exact .inr hk
      · exact .inl (mem_registered_iff.2 ⟨key, hk⟩)
    · simp only [tally, add, Array.getD_eq_getD_getElem?, Array.getElem?_push]
      split
      · rename_i heq
        simp [heq]
      · rfl
  · rw [ha]
    refine ⟨.of_subset rfl fun key entry hk => ?_, fun _ => rfl⟩
    simp only [SortedMap.get?_erase] at hk
    split at hk
    · cases hk
    · exact hk
  · rw [ha]
    exact ⟨.of_subset rfl fun _ _ hk => hk, fun _ => rfl⟩

/-- Entering incidents brings no new function. -/
theorem grows_enterAll (registry : FunctionRegistry) (incidents : List Incident) :
    registry.Grows (registry.enterAll incidents) := by
  have hsame : (registry.enterAll incidents).tallies.size = registry.tallies.size ∧
      ∀ key entry, (registry.enterAll incidents).functions.get? key = some entry →
        registry.functions.get? key = some entry := by
    induction incidents generalizing registry with
    | nil => exact ⟨rfl, fun _ _ hk => hk⟩
    | cons incident rest ih =>
      obtain ⟨hsize, hfunctions⟩ := ih (registry.enter incident)
      refine ⟨hsize.trans (registry.size_enter incident), fun key entry hk => ?_⟩
      have hone := hfunctions key entry hk
      cases incident with
      | accepted | refused | ended => exact hone
      | cleared => cases hone
  exact .of_subset hsame.1 hsame.2

end FunctionRegistry

namespace Engine

variable {σ ρ : Type}

/-- The calls on the stacks of all runs. -/
def liveCalls (engine : Engine σ ρ) : List ActiveCall :=
  engine.runs.entries.flatMap fun entry => entry.2.machine.calls

/-- Calls under way are counted run by run. -/
theorem countP_liveCalls (engine : Engine σ ρ) (test : ActiveCall → Bool) :
    engine.liveCalls.countP test = engine.runs.total fun run => run.machine.calls.countP test := by
  rw [liveCalls, List.countP_flatMap]
  rfl

/-- The functions that are registered and those that a call was ever asked for of. -/
def Knows (engine : Engine σ ρ) (log : List Incident) (entry : FunctionEntry) : Prop :=
  entry ∈ engine.ledger.registry.registered ∨ ∃ incident ∈ log, incident.asked? = some entry

/-- The books of an engine agree with what has happened to calls. -/
structure Books (engine : Engine σ ρ) (log : List Incident) : Prop where
  /-- Every call that was accepted has ended or is under way. -/
  calls : (admissions log).Perm (departures log ++ engine.liveCalls)
  /-- The statistics under every handle count what happened. -/
  tallies : ∀ handle, (engine.ledger.registry.tally handle).Counts handle log
  /-- Functions have handles under which there are statistics. -/
  numbered : ∀ entry, engine.Knows log entry →
    entry.handle < engine.ledger.registry.tallies.size
  /-- No two functions have the same handle. -/
  distinct : ∀ first second, engine.Knows log first → engine.Knows log second →
    first.handle = second.handle → first = second

variable {engine after : Engine σ ρ} {log incidents : List Incident}

/-- A move takes the calls along that are accepted and leaves those behind that end. -/
theorem Moved.perm_liveCalls (h : Moved engine incidents after) (ht : engine.runs.Tidy) :
    (admissions incidents ++ engine.liveCalls).Perm (departures incidents ++ after.liveCalls) := by
  classical
  obtain ⟨old, new, hswap, -, hcalls, -⟩ := h.runs
  rw [List.perm_iff_count]
  intro call
  have htotal := hswap.total ht fun run => run.machine.calls.countP (· == call)
  rw [← countP_liveCalls, ← countP_liveCalls] at htotal
  have hcount := congrArg (List.count call) hcalls
  have hold : (old.map fun run => run.machine.calls.countP (· == call)).getD 0 =
      ((old.map (·.machine.calls)).getD []).count call := by cases old <;> rfl
  have hnew : (new.map fun run => run.machine.calls.countP (· == call)).getD 0 =
      ((new.map (·.machine.calls)).getD []).count call := by cases new <;> rfl
  rw [hold, hnew] at htotal
  simp only [List.count_append] at hcount ⊢
  have hbefore : engine.liveCalls.count call = engine.liveCalls.countP (· == call) := rfl
  have hafter : after.liveCalls.count call = after.liveCalls.countP (· == call) := rfl
  omega

namespace Moved

/-- A move brings one new function at most. -/
theorem grows (h : Moved engine incidents after) :
    engine.ledger.registry.Grows after.ledger.registry := by
  rcases h.registry with hentered | ⟨-, ⟨request, hanswered⟩ | hcleared⟩
  · rw [hentered]
    exact FunctionRegistry.grows_enterAll _ _
  · rw [hanswered]
    exact (FunctionRegistry.grows_answer _ request).1
  · rw [hcleared]
    exact FunctionRegistry.grows_clear _

/-- A function that is known after a move was known before or is a new one. -/
theorem exists_fresh (h : Moved engine incidents after) (log : List Incident) :
    ∃ fresh : Option FunctionEntry,
    (∀ entry, fresh = some entry → entry.handle = engine.ledger.registry.tallies.size ∧
      entry.handle < after.ledger.registry.tallies.size) ∧
    ∀ entry, after.Knows (log ++ incidents) entry →
      engine.Knows log entry ∨ fresh = some entry := by
  obtain ⟨fresh, hfresh, hregistered⟩ := h.grows.registered
  refine ⟨fresh, hfresh, fun entry hknown => ?_⟩
  rcases hknown with hm | ⟨incident, hm, hasked⟩
  · exact (hregistered entry hm).imp_left .inl
  · rcases List.mem_append.1 hm with hold | hnew
    · exact .inl (.inr ⟨incident, hold, hasked⟩)
    · exact .inl (.inl (h.asked incident hnew entry hasked))

end Moved

/-- Of the calls of every function some are cancelled, and nothing else happens to them. -/
def Cancels (engine after : Engine σ ρ) : Prop :=
  ∀ handle,
    let old := engine.ledger.registry.tally handle
    let new := after.ledger.registry.tally handle
    new.calls = old.calls ∧ new.rejections = old.rejections ∧
      (∀ outcome, outcome ≠ .cancelled → new.ended outcome = old.ended outcome) ∧
      new.cancellations + after.liveCalls.countP (·.entry.handle == handle) =
        old.cancellations + engine.liveCalls.countP (·.entry.handle == handle)

namespace Books

/-- The function of a call that was accepted is known. -/
theorem knows_of_admitted {call : ActiveCall} (hm : call ∈ admissions log) :
    engine.Knows log call.entry := by
  obtain ⟨incident, hincident, haccepted⟩ := List.mem_filterMap.1 hm
  refine .inr ⟨incident, hincident, ?_⟩
  cases incident with
  | accepted found =>
    cases haccepted
    rfl
  | _ => cases haccepted

/-- Incidents of a move are about functions that are known. -/
theorem knows_of_moved (h : engine.Books log) (ht : engine.runs.Tidy)
    (hm : Moved engine incidents after) {incident : Incident} (hi : incident ∈ incidents)
    {entry : FunctionEntry} (ha : incident.about? = some entry) : engine.Knows log entry := by
  cases incident with
  | accepted call => exact .inl (hm.asked _ hi entry ha)
  | refused found => exact .inl (hm.asked _ hi entry ha)
  | cleared => cases ha
  | ended call outcome now =>
    cases ha
    have hdeparted : call ∈ departures incidents := List.mem_filterMap.2 ⟨_, hi, rfl⟩
    have heither := (hm.perm_liveCalls ht).mem_iff.2 (List.mem_append_left _ hdeparted)
    rcases List.mem_append.1 heither with hadmitted | hlive
    · obtain ⟨other, hother, haccepted⟩ := List.mem_filterMap.1 hadmitted
      cases other with
      | accepted found =>
        cases haccepted
        exact .inl (hm.asked _ hother _ rfl)
      | _ => cases haccepted
    · exact knows_of_admitted (h.calls.mem_iff.2 (List.mem_append_right _ hlive))

/-- The books of an engine without runs. -/
theorem initial [Host σ] [RandomSource ρ] (host : σ) (random : ρ) (settings : Settings)
    (catalogue : Catalogue) (layout : Layout) :
    (Engine.initial host random (Ledger.initial settings) catalogue layout).Books [] := by
  have hnone (entry : FunctionEntry) :
      ¬ (Engine.initial host random (Ledger.initial settings) catalogue layout).Knows [] entry := by
    rintro (hm | ⟨incident, hm, -⟩)
    · cases hm
    · cases hm
  have hzero (handle : Nat) : FunctionRegistry.empty.tally handle = .zero := by
    simp [FunctionRegistry.tally, FunctionRegistry.empty]
  refine ⟨.refl _, fun handle => ?_, fun entry hk => absurd hk (hnone entry),
    fun first _ hk => absurd hk (hnone first)⟩
  change (FunctionRegistry.empty.tally handle).Counts handle []
  rw [hzero]
  exact ⟨rfl, rfl, fun outcome => by cases outcome <;> rfl⟩

/-- A move keeps the books. -/
theorem moved (h : engine.Books log) (ht : engine.runs.Tidy) (hm : Moved engine incidents after) :
    after.Books (log ++ incidents) := by
  obtain ⟨fresh, hfresh, hknown⟩ := hm.exists_fresh log
  have hsize := hm.grows.size
  refine ⟨?_, fun handle => ?_, fun entry hk => ?_, fun first second h₁ h₂ heq => ?_⟩
  · rw [admissions_append, departures_append, List.append_assoc]
    have hmove := (hm.perm_liveCalls ht).append_left (departures log)
    refine ((h.calls.append_right _).trans ?_).trans hmove
    rw [List.append_assoc]
    exact List.perm_append_comm.append_left _
  · rcases hm.registry with hentered | ⟨rfl, hchanged⟩
    · rw [hentered]
      exact FunctionRegistry.counts_enterAll (h.tallies handle) fun incident hi entry ha =>
        h.numbered entry (h.knows_of_moved ht hm hi ha)
    · rw [List.append_nil]
      rcases hchanged with ⟨request, hanswered⟩ | hcleared
      · rw [hanswered, (FunctionRegistry.grows_answer _ request).2]
        exact h.tallies handle
      · rw [hcleared]
        exact h.tallies handle
  · rcases hknown entry hk with hold | hnew
    · exact Nat.lt_of_lt_of_le (h.numbered entry hold) hsize
    · exact (hfresh entry hnew).2
  · rcases hknown first h₁ with hfirst | hfirst
    · rcases hknown second h₂ with hsecond | hsecond
      · exact h.distinct first second hfirst hsecond heq
      · have hlt := h.numbered first hfirst
        have hnext := (hfresh second hsecond).1
        omega
    · rcases hknown second h₂ with hsecond | hsecond
      · have hlt := h.numbered second hsecond
        have hnext := (hfresh first hfirst).1
        omega
      · exact Option.some.inj (hfirst.symm.trans hsecond)

/-- In good books the calls of every function add up. -/
theorem balance (h : engine.Books log) (handle : Nat) :
    (engine.ledger.registry.tally handle).calls =
      (engine.ledger.registry.tally handle).completed +
        engine.liveCalls.countP (·.entry.handle == handle) := by
  have htally := h.tallies handle
  have hends := countP_ends handle log
  have hperm := h.calls.countP_eq (·.entry.handle == handle)
  rw [List.countP_append, ← hends, ← countP_accepts, ← htally.calls, ← htally.ended,
    ← htally.ended, ← htally.ended, ← htally.ended] at hperm
  exact hperm

/-- If calls are only cancelled, the statistics show that. -/
theorem cancels (h₁ : engine.Books log) (h₂ : after.Books (log ++ incidents))
    (hi : ∀ incident ∈ incidents, incident.IsCancellation) : engine.Cancels after := by
  intro handle
  have hnone (test : Incident → Bool)
      (ht : ∀ incident, incident.IsCancellation → test incident = false) :
      (log ++ incidents).countP test = log.countP test := by
    have hzero : incidents.countP test = 0 := by
      rw [List.countP_eq_zero]
      intro incident hm
      simp [ht incident (hi incident hm)]
    rw [List.countP_append, hzero, Nat.add_zero]
  have hold := h₁.tallies handle
  have hnew := h₂.tallies handle
  have hcalls : (after.ledger.registry.tally handle).calls =
      (engine.ledger.registry.tally handle).calls := by
    rw [hnew.calls, hold.calls]
    refine hnone _ fun incident hc => ?_
    cases incident with
    | ended => rfl
    | _ => cases hc
  have hrejections : (after.ledger.registry.tally handle).rejections =
      (engine.ledger.registry.tally handle).rejections := by
    rw [hnew.rejections, hold.rejections]
    refine hnone _ fun incident hc => ?_
    cases incident with
    | ended => rfl
    | _ => cases hc
  have hended (outcome : CallOutcome) (ho : outcome ≠ .cancelled) :
      (after.ledger.registry.tally handle).ended outcome =
        (engine.ledger.registry.tally handle).ended outcome := by
    rw [hnew.ended, hold.ended]
    refine hnone _ fun incident hc => ?_
    cases incident with
    | ended call found now =>
      cases hc
      simp [ends, Ne.symm ho]
    | _ => cases hc
  refine ⟨hcalls, hrejections, hended, ?_⟩
  have hbefore := h₁.balance handle
  have hafter := h₂.balance handle
  have hsuccesses := hended .success (by decide)
  have hfailures := hended .failure (by decide)
  have htimeouts := hended .timeout (by decide)
  simp only [Tally.ended] at hsuccesses hfailures htimeouts
  unfold Tally.completed at hbefore hafter
  omega

end Books

end Engine

variable {σ ρ : Type} [Host σ] [RandomSource ρ]

/-- The books of every engine on record are kept. -/
theorem Recorded.books {engine : Engine σ ρ} {log : List Incident} (h : Recorded engine log) :
    engine.Books log := by
  induction h with
  | initial => exact .initial ..
  | move past moves ih => exact ih.moved past.proper.tidy (moves.moved past.proper.actions)

/-- A call that leaves the stack in a step has not been cancelled, and has ended well
exactly if the step did not fail. -/
theorem Machine.outcome_of_ended {table : ActionTable σ ρ} {machine : Machine}
    {around : Surroundings σ ρ} {call : ActiveCall} {outcome : CallOutcome} {now : UInt64}
    (h : .ended call outcome now ∈ machine.incidents table around) :
    outcome ≠ .cancelled ∧
      (outcome = .success ↔ ∃ step, (machine.step table around).outcome = .ok step) := by
  have hendings {found : CallOutcome} {moment : UInt64} {calls : List ActiveCall}
      (hm : .ended call outcome now ∈ endings found moment calls) : outcome = found := by
    obtain ⟨other, -, heq⟩ := List.mem_map.1 hm
    cases heq
    rfl
  unfold incidents at h
  split at h
  · rename_i hlate
    have hfailed : ¬ ∃ step, (machine.step table around).outcome = .ok step := by
      rcases step_cases table machine around with ⟨hs, -⟩ | ⟨_, _, _, -, he⟩ | ⟨hn, -⟩
      · simp [lateCall?, splitLate, hs] at hlate
      · simp [he]
      · simp [hn] at hlate
    rcases List.mem_append.1 h with hm | hm
    · simp [hendings hm, hfailed]
    · simp [hendings hm, hfailed]
  · rcases List.mem_append.1 h with hm | hm
    · obtain ⟨_, _, _, -, hattempt⟩ := mem_attempt hm
      obtain ⟨_, -, hasked⟩ := Surroundings.exists_asked hattempt
      cases hasked
    · rw [hendings hm]
      cases (machine.step table around).outcome with
      | ok step => simp [CallOutcome.ofStep]
      | error error => simp [CallOutcome.ofStep]

/-- Calls are conserved. Every career is on record; at every moment on record the calls
that were accepted are those that have ended and those under way, the statistics of every
function count exactly what happened to its calls, and no two functions share theirs. In a
move exactly the calls that end leave the stacks. In a step they end well exactly if the
step does not fail, and in operations that stop runs they are cancelled. -/
theorem statistics_conserve_calls :
    (∀ (engine : Engine σ ρ) (cleared : List Ledger), Career engine cleared →
      ∃ log, Recorded engine log ∧ clearances log = cleared) ∧
    (∀ (engine : Engine σ ρ) (log : List Incident), Recorded engine log →
      engine.Books log ∧
      (∀ handle,
        let tally := engine.ledger.registry.tally handle
        tally.calls = tally.successes + tally.failures + tally.timeouts + tally.cancellations +
          engine.liveCalls.countP (·.entry.handle == handle)) ∧
      ∀ incidents after, engine.Moves incidents after →
        (admissions incidents ++ engine.liveCalls).Perm
          (departures incidents ++ after.liveCalls)) ∧
    (∀ (table : ActionTable σ ρ) (machine : Machine) (around : Surroundings σ ρ) (call : ActiveCall)
      (outcome : CallOutcome) (now : UInt64),
      .ended call outcome now ∈ machine.incidents table around →
      outcome ≠ .cancelled ∧
        (outcome = .success ↔ ∃ step, (machine.step table around).outcome = .ok step)) ∧
    ∀ (engine after : Engine σ ρ) (cleared : List Ledger) (fuel : Nat) (operation : Operation σ)
      (reports : List RunReport), Career engine cleared → operation.isStop →
      engine.perform fuel operation = some (reports, after) → engine.Cancels after := by
  refine ⟨fun engine cleared h => h.exists_recorded.1,
    fun engine log h => ⟨h.books, fun handle => ?_, fun incidents after hmoves => ?_⟩,
    fun table machine around call outcome now h => Machine.outcome_of_ended h, ?_⟩
  · exact h.books.balance handle
  · exact (hmoves.moved h.proper.actions).perm_liveCalls h.proper.tidy
  · intro engine after cleared fuel operation reports hcareer hstop hperform
    obtain ⟨log, hlog, -⟩ := hcareer.exists_recorded.1
    obtain ⟨incidents, hcancelled, hafter⟩ := hcareer.exists_cancelled hstop hperform
    exact hlog.books.cancels (hafter log hlog).books hcancelled

/-- Two runs are inside a call of a function when it is replaced; before that a call of it
is refused, and afterwards one of the runs is stopped. -/
def restReplaced : List (Operation MinimalHost) :=
  [.register History.restFunction false, .execute History.restProgram ⟨"alice"⟩ default,
    .call "rest" ⟨"bob"⟩ default .empty,
    .call "rest" ⟨"bob"⟩ default (ArrivalMap.empty.insert "pace" (.bool true)),
    .register History.restFunction true, .stop ⟨0, 0⟩]

/-- Of the two calls one is cancelled and one is under way, and the refused one is counted
apart; nothing is counted for the function that took the place. -/
theorem statistics_conserve_calls_restReplaced :
    ∃ (engine : Engine MinimalHost ReplaySource) (log : List Incident),
      Career engine [] ∧ Recorded engine log ∧
      engine.ledger.registry.tally 0 = ⟨2, 0, 0, 0, 1, 1, 0⟩ ∧
      engine.ledger.registry.tally 1 = .zero ∧
      log.countP (accepts 0) = 2 ∧ log.countP (refuses 0) = 1 ∧
      log.countP (ends 0 .cancelled) = 1 ∧
      engine.liveCalls.countP (·.entry.handle == 0) = 1 := by
  have hcounts : ((History.quietEngine.performAll 3 [] restReplaced).map fun last =>
      (last.2.ledger.registry.tally 0, last.2.ledger.registry.tally 1)) =
      some (⟨2, 0, 0, 0, 1, 1, 0⟩, .zero) := by decide +kernel
  obtain ⟨⟨reports, engine⟩, hlast, hend⟩ := Option.map_eq_some_iff.1 hcounts
  obtain ⟨hfirst, hsecond⟩ := Prod.ext_iff.1 hend
  dsimp only at hfirst hsecond
  obtain ⟨hrecorded, hconserved, -, -⟩ :=
    statistics_conserve_calls (σ := MinimalHost) (ρ := ReplaySource)
  have hcareer : Career engine [] := (Career.initial ..).performAll hlast
  obtain ⟨log, hlog, -⟩ := hrecorded engine [] hcareer
  obtain ⟨hbooks, hbalance, -⟩ := hconserved engine log hlog
  have hcounted := hbooks.tallies 0
  have hlive := hbalance 0
  rw [hfirst] at hcounted hlive
  dsimp only at hlive
  refine ⟨engine, log, hcareer, hlog, hfirst, hsecond, hcounted.calls.symm,
    hcounted.rejections.symm, (hcounted.ended .cancelled).symm, ?_⟩
  omega

end GridScript
