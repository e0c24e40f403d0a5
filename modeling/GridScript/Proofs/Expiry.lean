import GridScript.Proofs.Deadlines
import GridScript.Proofs.Requests

/-!
# Late calls never run again

A call that is past its deadline is found in one of two ways. If its run is being
executed, the next step of the run finds it and does nothing but end the run. If its
run is parked, the sweep at the beginning of the next tick finds it, whether the run is
due or not. Both end the run with the error that names the outermost late call. The
sweep gives the suspensions of the runs it ends back and touches no other run.
-/

namespace GridScript

open Incident Surroundings

/-- The error of a call that is past its deadline. -/
def ActiveCall.timeoutError (call : ActiveCall) : LimitError :=
  .timeout call.entry.definition.name call.timeLimitMs

/-- A call is late when its time limit has run out since it started. Past the end of
time no call is late. -/
theorem ActiveCall.isLate_iff (call : ActiveCall) (now : UInt64) :
    call.isLate now = true ↔
      min (call.startedMs.toNat + call.timeLimitMs.toNat) (UInt64.size - 1) < now.toNat := by
  have hsmall : min (call.startedMs.toNat + call.timeLimitMs.toNat) (UInt64.size - 1) <
      UInt64.size := by
    have hpos : 0 < UInt64.size := by decide
    omega
  rw [isLate, decide_eq_true_iff, UInt64.lt_iff_toNat_lt, deadlineMs,
    UInt64.toNat_ofNat_of_lt' hsmall]

namespace Machine

/-- The outermost of the calls of a machine that are past their deadline. -/
def outermostLate? (machine : Machine) (now : UInt64) : Option ActiveCall :=
  machine.calls.reverse.find? (·.isLate now)

/-- The activations are searched for the outermost late call. -/
theorem lateCall?_eq (machine : Machine) (now : UInt64) :
    machine.lateCall? now = machine.outermostLate? now := by
  have hlate (activation : Activation) :
      (activation.call.map (·.call)).any (·.isLate now) = activation.isLate now := by
    unfold Activation.isLate
    cases activation.call <;> rfl
  rw [lateCall?, splitLate, List.span_eq_takeWhile_dropWhile, ← List.find?_eq_head?_dropWhile_not,
    outermostLate?, calls, callsIn, ← List.filterMap_reverse, List.find?_filterMap]
  simp only [hlate]
  cases machine.stack.reverse.find? (·.isLate now) <;> rfl

/-- A machine that holds a late call has an outermost one. -/
theorem isSome_outermostLate? (machine : Machine) (now : UInt64) :
    (machine.outermostLate? now).isSome = machine.calls.any (·.isLate now) := by
  rw [Bool.eq_iff_iff, outermostLate?, List.find?_isSome, List.any_eq_true]
  simp only [List.mem_reverse]

/-- The outermost late call is one of the calls, and late. -/
theorem late_of_outermostLate? {machine : Machine} {now : UInt64} {late : ActiveCall}
    (h : machine.outermostLate? now = some late) :
    late ∈ machine.calls ∧ late.isLate now = true := by
  unfold outermostLate? at h
  have hlate := List.find?_some h
  exact ⟨List.mem_reverse.1 (List.mem_of_find?_eq_some h), hlate⟩

end Machine

section

variable {σ ρ : Type} [Host σ]

/-- Ending calls touches nothing but the ledger. -/
theorem Surroundings.releaseAll_eq (around : Surroundings σ ρ) (outcome : CallOutcome)
    (activations : List Activation) :
    ∃ ledger, around.releaseAll outcome activations = { around with ledger } := by
  induction activations generalizing around with
  | nil => exact ⟨_, rfl⟩
  | cons activation outer ih =>
    unfold releaseAll
    split
    · obtain ⟨ledger, hledger⟩ := ih (around.release _ outcome)
      exact ⟨ledger, hledger⟩
    · exact ih around

namespace Machine

/-- A machine without a late call is left alone. -/
theorem checkDeadlines_of_none {machine : Machine} {around : Surroundings σ ρ}
    (h : machine.outermostLate? around.now = none) :
    machine.checkDeadlines around = (.ok (), machine, around) := by
  unfold checkDeadlines
  dsimp only
  rw [lateCall?_eq, h]

/-- A machine without a late call executes its next node. -/
theorem step_eq_advance [RandomSource ρ] {machine : Machine} {around : Surroundings σ ρ}
    (h : ∀ call ∈ machine.calls, call.isLate around.now = false) (table : ActionTable σ ρ) :
    machine.step table around = machine.advance table around := by
  have hnone : machine.outermostLate? around.now = none := by
    refine List.find?_eq_none.2 fun call hm => ?_
    simp [h call (List.mem_reverse.1 hm)]
  unfold step
  cases hs : machine.stack with
  | nil =>
    unfold advance
    rw [hs]
  | cons top callers =>
    dsimp only
    rw [checkDeadlines_of_none hnone]

/-- A machine with a late call is ended. Nothing is touched but the ledger and the
notices, and in the ledger no suspension. -/
theorem checkDeadlines_of_some {machine : Machine} {around : Surroundings σ ρ} {late : ActiveCall}
    (h : machine.outermostLate? around.now = some late) :
    ∃ after, machine.checkDeadlines around = (.error late.timeoutError, machine.ended, after) ∧
      after.host = around.host ∧ after.random = around.random ∧
      ∀ actor, after.ledger.suspensionCount actor = around.ledger.suspensionCount actor := by
  obtain ⟨first, hinside⟩ := (around.note .callTimedOut).releaseAll_eq .timeout
    (machine.splitLate around.now).2.reverse
  obtain ⟨second, houtside⟩ := releaseAll_eq { around.note .callTimedOut with ledger := first }
    .failure (machine.splitLate around.now).1.reverse
  have hcheck : machine.checkDeadlines around = (.error late.timeoutError, machine.ended,
      { around.note .callTimedOut with ledger := second }) := by
    unfold checkDeadlines
    dsimp only
    rw [lateCall?_eq, h]
    dsimp only
    rw [hinside, houtside]
    rfl
  exact ⟨_, hcheck, rfl, rfl, (enters_checkDeadlines hcheck).2.suspensions⟩

end Machine

/-- A call that is accepted may take the time that its function may. -/
theorem Surroundings.timeLimit_of_attempt {around : Surroundings σ ρ} {context : Context}
    {request : CallRequest} {call : ActiveCall}
    (h : .accepted call ∈ around.attempt context request) :
    call.timeLimitMs = around.ledger.timeLimit call.entry := by
  unfold attempt at h
  split at h
  · cases h
  · rename_i entry hfound
    split at h
    · cases List.mem_singleton.1 h
    · split at h
      · cases List.mem_singleton.1 h
      · rename_i accepted hclaim
        cases List.mem_singleton.1 h
        rw [fst_acquire] at hclaim
        rw [Ledger.acquire_eq_ok hclaim]

variable [RandomSource ρ]

/-- The same holds for a call that is accepted in a move. -/
theorem Engine.Moves.timeLimit {engine after : Engine σ ρ} {incidents : List Incident}
    (h : engine.Moves incidents after) (ht : engine.actions.Keeps) {call : ActiveCall}
    (hm : .accepted call ∈ incidents) : call.timeLimitMs = engine.ledger.timeLimit call.entry := by
  have hendings {outcome : CallOutcome} {now : UInt64} {calls : List ActiveCall}
      (he : .accepted call ∈ endings outcome now calls) : False := by
    obtain ⟨other, -, heq⟩ := List.mem_map.1 he
    cases heq
  cases h with
  | step found =>
    unfold Machine.incidents at hm
    split at hm
    · rcases List.mem_append.1 hm with he | he
      · exact (hendings he).elim
      · exact (hendings he).elim
    · rcases List.mem_append.1 hm with ha | he
      · obtain ⟨top, request, stage, hadvance, hattempt⟩ := Machine.mem_attempt ha
        have hledger := (Stage.local_advance ht ⟨top, engine.around⟩).ledger
        rw [hadvance] at hledger
        rw [timeLimit_of_attempt hattempt, hledger]
        rfl
      · exact (hendings he).elim
  | close => exact (hendings hm).elim
  | call => exact timeLimit_of_attempt hm
  | reset => cases List.mem_singleton.1 hm
  | spawn | finish | suspend | unpark | count | request | clear | idle => cases hm

/-- Every call that was ever accepted may take the time that its function may. -/
theorem Recorded.timeLimit {engine : Engine σ ρ} {log : List Incident} (h : Recorded engine log)
    {call : ActiveCall} (hm : call ∈ admissions log) :
    call.timeLimitMs = engine.ledger.timeLimit call.entry := by
  induction h with
  | initial => cases hm
  | @move engine after log incidents past moves ih =>
    have hsame : after.ledger.timeLimit call.entry = engine.ledger.timeLimit call.entry := by
      unfold Ledger.timeLimit
      rw [(moves.moved past.proper.actions).settings]
    rw [hsame]
    rw [admissions_append] at hm
    rcases List.mem_append.1 hm with hearlier | hnow
    · exact ih hearlier
    · obtain ⟨incident, hincident, haccepted⟩ := List.mem_filterMap.1 hnow
      cases incident with
      | accepted found =>
        cases haccepted
        exact moves.timeLimit past.proper.actions hincident
      | _ => cases haccepted

/-- A call under way is late when the time it may take has run out. -/
theorem Recorded.isLate_iff {engine : Engine σ ρ} {log : List Incident} (h : Recorded engine log)
    {call : ActiveCall} (hm : call ∈ engine.liveCalls) (now : UInt64) :
    call.isLate now = true ↔
      min (call.startedMs.toNat + (engine.ledger.timeLimit call.entry).toNat) (UInt64.size - 1) <
        now.toNat := by
  have hadmitted : call ∈ admissions log :=
    h.books.calls.mem_iff.2 (List.mem_append_right _ hm)
  rw [call.isLate_iff, h.timeLimit hadmitted]

end

section

variable {σ ρ : Type}

/-- The report of a run that ends because of a late call. -/
def Run.expired (run : Run) (key : RunKey) (late : ActiveCall) : RunReport where
  key := key
  actor := run.actor
  origin := run.origin
  state := .failed
  result := .error (.limit late.timeoutError)
  locals := run.machine.locals?.getD .empty
  steps := run.steps

/-- The report of a run under a key if it has a late call. -/
def Run.expiry? (now : UInt64) (entry : RunKey × Run) : Option RunReport :=
  (entry.2.machine.outermostLate? now).map (entry.2.expired entry.1)

/-- Whether a run is parked and holds a late call. -/
def Run.isOverdue (run : Run) (now : UInt64) : Bool :=
  run.parked && run.machine.calls.any (·.isLate now)

namespace Engine

/-- The runs of the reports were taken away and gave their suspensions back, and nothing
else was touched. -/
structure Swept (before : Engine σ ρ) (reports : List RunReport) (after : Engine σ ρ) : Prop where
  /-- The runs of the reports are gone, and the others are as they were. -/
  runs : ∀ key, after.runs.get? key =
    if key ∈ reports.map (·.key) then none else before.runs.get? key
  /-- Every report stands for a suspension that was given back. -/
  suspensions : ∀ actor, after.ledger.suspensionCount actor =
    before.ledger.suspensionCount actor - reports.countP (·.actor == actor)
  /-- Sleeping entries, queue, pending reports and tick are the same. -/
  undisturbed : Undisturbed before after
  /-- The host is the same. -/
  host : after.around.host = before.around.host
  /-- The random source is the same. -/
  random : after.around.random = before.around.random

namespace Swept

/-- Nothing is swept. -/
theorem refl (engine : Engine σ ρ) : Swept engine [] engine :=
  ⟨fun _ => rfl, fun _ => rfl, ⟨rfl, rfl, rfl, rfl, rfl, rfl⟩, rfl, rfl⟩

/-- One sweep after another is a sweep. -/
theorem trans {first second third : Engine σ ρ} {reports more : List RunReport}
    (h₁ : Swept first reports second) (h₂ : Swept second more third) :
    Swept first (reports ++ more) third where
  runs key := by
    rw [h₂.runs, h₁.runs]
    simp only [List.map_append, List.mem_append]
    by_cases hfirst : key ∈ reports.map (·.key)
    · simp [hfirst]
    · simp [hfirst]
  suspensions actor := by
    rw [h₂.suspensions, h₁.suspensions, List.countP_append, Nat.sub_sub]
  undisturbed := by
    have hfirst := h₁.undisturbed
    have hsecond := h₂.undisturbed
    exact ⟨hsecond.sleeping.trans hfirst.sleeping, hsecond.ready.trans hfirst.ready,
      hsecond.pending.trans hfirst.pending, hsecond.sequence.trans hfirst.sequence,
      hsecond.tick.trans hfirst.tick, hsecond.actions.trans hfirst.actions⟩
  host := h₂.host.trans h₁.host
  random := h₂.random.trans h₁.random

end Swept

variable [Host σ]

/-- A run without a late call is left alone. -/
theorem expire_of_none {engine : Engine σ ρ} {key : RunKey} {run : Run}
    (hk : engine.runs.get? key = some run)
    (h : run.machine.outermostLate? engine.around.now = none) :
    engine.expire key = (none, engine) := by
  unfold expire
  rw [hk]
  dsimp only
  rw [Machine.checkDeadlines_of_none h]

/-- A run with a late call is taken away, with a report that names the outermost one. -/
theorem expire_of_some {engine : Engine σ ρ} {key : RunKey} {run : Run} {late : ActiveCall}
    (hk : engine.runs.get? key = some run)
    (h : run.machine.outermostLate? engine.around.now = some late) :
    (engine.expire key).1 = some (run.expired key late) ∧
      Swept engine [run.expired key late] (engine.expire key).2 := by
  obtain ⟨around, hcheck, hhost, hrandom, hsuspensions⟩ := Machine.checkDeadlines_of_some h
  unfold expire
  rw [hk]
  dsimp only
  rw [hcheck]
  dsimp only
  have hput : (({ engine with around } : Engine σ ρ).unpark key
      { run with machine := run.machine.ended }).runs.get? key =
      some { run with machine := run.machine.ended, parked := false } :=
    (SlotMap.get?_set hk _ key).trans (if_pos rfl)
  unfold finish
  rw [hput]
  refine ⟨rfl, ⟨fun other => ?_, fun actor => ?_, ⟨rfl, rfl, rfl, rfl, rfl, rfl⟩, hhost, hrandom⟩⟩
  · have hset := SlotMap.get?_set hk { run with machine := run.machine.ended, parked := false }
      other
    refine (SlotMap.get?_erase _ key other).trans ?_
    simp only [Run.expired, List.map_cons, List.map_nil, List.mem_singleton]
    split
    · rfl
    · rename_i hother
      exact hset.trans (if_neg hother)
  · have hremoved := around.ledger.suspensions.count_remove run.actor actor
    have hsame : around.ledger.suspensions.count actor = engine.ledger.suspensionCount actor :=
      hsuspensions actor
    refine hremoved.trans ?_
    rw [hsame]
    by_cases hown : actor = run.actor
    · simp [Run.expired, hown]
    · simp [Run.expired, hown, Ne.symm hown]

/-- Of some runs under different keys those are taken away that have a late call. -/
theorem swept_expireAll {entries : List (RunKey × Run)} {engine : Engine σ ρ}
    (hn : (entries.map Prod.fst).Nodup)
    (hk : ∀ entry ∈ entries, engine.runs.get? entry.1 = some entry.2) :
    (engine.expireAll (entries.map Prod.fst)).1 =
        entries.filterMap (Run.expiry? engine.around.now) ∧
      Swept engine (entries.filterMap (Run.expiry? engine.around.now))
        (engine.expireAll (entries.map Prod.fst)).2 := by
  induction entries generalizing engine with
  | nil => exact ⟨rfl, .refl engine⟩
  | cons entry rest ih =>
    obtain ⟨key, run⟩ := entry
    obtain ⟨hnew, hdistinct⟩ := List.nodup_cons.1 hn
    have hown : engine.runs.get? key = some run := hk (key, run) (List.mem_cons_self ..)
    have hothers : ∀ entry ∈ rest, engine.runs.get? entry.1 = some entry.2 :=
      fun entry hm => hk entry (List.mem_cons_of_mem _ hm)
    simp only [List.map_cons, expireAll]
    cases hlate : run.machine.outermostLate? engine.around.now with
    | none =>
      rw [expire_of_none hown hlate, List.filterMap_cons_none (by simp [Run.expiry?, hlate])]
      exact ih hdistinct hothers
    | some late =>
      obtain ⟨hreport, hswept⟩ := expire_of_some hown hlate
      rw [List.filterMap_cons_some (b := run.expired key late) (by simp [Run.expiry?, hlate]),
        hreport]
      have hkept : ∀ entry ∈ rest, (engine.expire key).2.runs.get? entry.1 = some entry.2 := by
        intro entry hm
        have hother : entry.1 ≠ key :=
          fun heq => hnew (List.mem_map.2 ⟨entry, hm, heq⟩)
        rw [hswept.runs, if_neg (by simpa [Run.expired] using hother)]
        exact hothers entry hm
      have hnow : (engine.expire key).2.around.now = engine.around.now :=
        congrArg Host.now hswept.host
      obtain ⟨hreports, hrest⟩ := ih hdistinct hkept
      rw [hnow] at hreports hrest
      exact ⟨congrArg _ hreports, hswept.trans hrest⟩

/-- What a tick begins with: the parked runs are looked through for late calls. -/
def sweep (engine : Engine σ ρ) : List RunReport × Engine σ ρ :=
  { engine with tick := engine.tick + 1, pending := [] }.expireAll
    (engine.runs.keysWhere (·.parked))

/-- The sweep takes the overdue runs away. -/
theorem swept_sweep (engine : Engine σ ρ) :
    engine.sweep.1 = (engine.runs.entries.filter (·.2.parked)).filterMap
        (Run.expiry? engine.around.now) ∧
      Swept { engine with tick := engine.tick + 1, pending := [] } engine.sweep.1
        engine.sweep.2 := by
  have hdistinct : ((engine.runs.entries.filter (·.2.parked)).map Prod.fst).Nodup :=
    (List.filter_sublist.map Prod.fst).nodup (SlotMap.nodup_keysFrom _ _)
  have hfound : ∀ entry ∈ engine.runs.entries.filter (·.2.parked),
      ({ engine with tick := engine.tick + 1, pending := [] } : Engine σ ρ).runs.get? entry.1 =
        some entry.2 :=
    fun entry hm => SlotMap.mem_entries.1 (List.mem_of_mem_filter hm)
  obtain ⟨hreports, hswept⟩ := swept_expireAll hdistinct hfound
  have hall : engine.sweep.1 = _ := hreports
  refine ⟨hall, ?_⟩
  rw [hall]
  exact hswept

/-- The reports of the sweep are those of the overdue runs. -/
theorem mem_keys_sweep {engine : Engine σ ρ} {key : RunKey} :
    key ∈ engine.sweep.1.map (·.key) ↔
      ∃ run, engine.runs.get? key = some run ∧ run.isOverdue engine.around.now = true := by
  rw [engine.swept_sweep.1, List.mem_map]
  constructor
  · rintro ⟨report, hm, rfl⟩
    obtain ⟨⟨own, run⟩, hentry, hreport⟩ := List.mem_filterMap.1 hm
    obtain ⟨hrun, hparked⟩ := List.mem_filter.1 hentry
    obtain ⟨late, hlate, rfl⟩ := Option.map_eq_some_iff.1 hreport
    refine ⟨run, SlotMap.mem_entries.1 hrun, ?_⟩
    rw [Run.isOverdue, hparked, ← Machine.isSome_outermostLate?, hlate]
    rfl
  · rintro ⟨run, hrun, hoverdue⟩
    rw [Run.isOverdue, ← Machine.isSome_outermostLate?, Bool.and_eq_true] at hoverdue
    obtain ⟨late, hlate⟩ := Option.isSome_iff_exists.1 hoverdue.2
    refine ⟨run.expired key late, List.mem_filterMap.2 ⟨(key, run), ?_, ?_⟩, rfl⟩
    · exact List.mem_filter.2 ⟨SlotMap.mem_entries.2 hrun, hoverdue.1⟩
    · rw [Run.expiry?, hlate]
      rfl

/-- After the sweep the overdue runs are gone, and the others are as they were. -/
theorem get?_sweep (engine : Engine σ ρ) (key : RunKey) :
    engine.sweep.2.runs.get? key =
      (engine.runs.get? key).filter (!·.isOverdue engine.around.now) := by
  refine (engine.swept_sweep.2.runs key).trans ?_
  dsimp only
  cases hk : engine.runs.get? key with
  | none => exact ite_self _
  | some run =>
    cases hoverdue : run.isOverdue engine.around.now with
    | true =>
      rw [if_pos (mem_keys_sweep.2 ⟨run, hk, hoverdue⟩),
        Option.filter_some_neg (by simp [hoverdue])]
    | false =>
      rw [if_neg, Option.filter_some_pos (by simp [hoverdue])]
      · intro hm
        obtain ⟨found, hfound, hlate⟩ := mem_keys_sweep.1 hm
        rw [hk] at hfound
        cases hfound
        rw [hoverdue] at hlate
        cases hlate

/-- The sweep gives a suspension back for every overdue run. -/
theorem suspensionCount_sweep (engine : Engine σ ρ) (actor : Actor) :
    engine.sweep.2.ledger.suspensionCount actor = engine.ledger.suspensionCount actor -
      (engine.runs.keysWhere fun run =>
        run.actor == actor && run.isOverdue engine.around.now).length := by
  have hcount : engine.sweep.1.countP (·.actor == actor) = (engine.runs.keysWhere fun run =>
      run.actor == actor && run.isOverdue engine.around.now).length := by
    rw [engine.swept_sweep.1, List.countP_filterMap, List.countP_filter, SlotMap.keysWhere,
      List.length_map, ← List.countP_eq_length_filter]
    refine List.countP_congr fun entry _ => ?_
    rw [Run.isOverdue, ← Machine.isSome_outermostLate?, Run.expiry?]
    cases entry.2.machine.outermostLate? engine.around.now with
    | none => simp
    | some late => simp [Run.expired]
  rw [engine.swept_sweep.2.suspensions, hcount]
  rfl

variable [RandomSource ρ]

/-- Serving the queue adds to the reports. -/
theorem drain_extends {fuel : Nat} {engine after : Engine σ ρ} {reports all : List RunReport}
    (h : engine.drain fuel reports = some (all, after)) : reports <+: all := by
  induction fuel generalizing engine reports with
  | zero =>
    unfold drain at h
    split at h
    · cases h
      exact List.prefix_rfl
    · cases h
  | succ fuel ih =>
    unfold drain at h
    split at h
    · cases h
      exact List.prefix_rfl
    · exact (List.prefix_append _ _).trans (ih h)

/-- Taking up runs adds to the reports. -/
theorem resumeDue_extends {fuel : Nat} {engine after : Engine σ ρ} {reports all : List RunReport}
    (h : engine.resumeDue fuel reports = some (all, after)) : reports <+: all := by
  induction fuel generalizing engine reports with
  | zero =>
    unfold resumeDue at h
    split at h
    · cases h
      exact List.prefix_rfl
    · cases h
  | succ fuel ih =>
    unfold resumeDue at h
    split at h
    · cases h
      exact List.prefix_rfl
    · exact (List.prefix_append _ _).trans (ih h)

/-- A tick sweeps before it takes up runs and serves the queue. -/
theorem nextTick_eq (fuel : Nat) (engine : Engine σ ρ) : engine.nextTick fuel =
    (engine.sweep.2.resumeDue fuel (engine.pending ++ engine.sweep.1)).bind
      fun result => result.2.drain fuel result.1 :=
  rfl

/-- The reports of the sweep are among those of the tick. -/
theorem nextTick_extends {fuel : Nat} {engine after : Engine σ ρ} {reports : List RunReport}
    (h : engine.nextTick fuel = some (reports, after)) :
    engine.pending ++ engine.sweep.1 <+: reports := by
  rw [nextTick_eq, Option.bind_eq_some_iff] at h
  obtain ⟨⟨resumed, awake⟩, hresume, hdrain⟩ := h
  exact (resumeDue_extends hresume).trans (drain_extends hdrain)

/-- After a history no run is swept that has no suspension to give back. -/
theorem suspensionCount_sweep_of_history {engine : Engine σ ρ} {returned : List RunReport}
    (h : History engine returned) (hu : Journal.Unworn engine.journal) (actor : Actor) :
    engine.sweep.2.ledger.suspensionCount actor + (engine.runs.keysWhere fun run =>
        run.actor == actor && run.isOverdue engine.around.now).length =
      engine.ledger.suspensionCount actor := by
  have hle : (engine.runs.keysWhere fun run =>
      run.actor == actor && run.isOverdue engine.around.now).length ≤
      engine.ledger.suspensionCount actor := by
    rw [h.settled.1.exact.suspensions hu actor]
    simp only [SlotMap.keysWhere, List.length_map, ← List.countP_eq_length_filter]
    refine List.countP_mono_left fun entry _ hoverdue => ?_
    simp only [Run.isOverdue, Bool.and_eq_true] at hoverdue ⊢
    exact ⟨hoverdue.1, hoverdue.2.1⟩
  rw [suspensionCount_sweep]
  omega

end Engine

/-- Late calls never run again. Every career is on record, and at every moment on record a
call is late if the time that its function may take has run out since the call started. A
machine that holds a late call does nothing in its next step, whatever the actions are,
but end with the error of the outermost one; the host is not called. A tick begins with a
sweep, in which every parked run that holds a late call is reported as failed with the
error of the outermost one and gives its suspension back. The sweep leaves all other runs
and what they wait for alone. -/
theorem late_calls_never_run {σ ρ : Type} [Host σ] [RandomSource ρ] :
    (∀ (engine : Engine σ ρ) (cleared : List Ledger), Career engine cleared →
      ∃ log, Recorded engine log) ∧
    (∀ (engine : Engine σ ρ) (log : List Incident), Recorded engine log →
      ∀ call ∈ engine.liveCalls, ∀ now, call.isLate now = true ↔
        min (call.startedMs.toNat + (call.entry.definition.maxTimeMs.getD
          engine.ledger.settings.callTimeoutMs).toNat) (UInt64.size - 1) < now.toNat) ∧
    (∀ (machine : Machine) (around : Surroundings σ ρ),
      (∃ call ∈ machine.calls, call.isLate around.now = true) →
      ∃ late after, machine.outermostLate? around.now = some late ∧
        (∀ table, machine.step table around =
          ⟨.error (.limit (.timeout late.entry.definition.name late.timeLimitMs)),
            ⟨[], machine.locals?⟩, after⟩) ∧
        after.host = around.host ∧ after.random = around.random) ∧
    ∀ engine : Engine σ ρ,
      (∀ fuel, engine.nextTick fuel =
        (engine.sweep.2.resumeDue fuel (engine.pending ++ engine.sweep.1)).bind
          fun result => result.2.drain fuel result.1) ∧
      (∀ fuel reports after, engine.nextTick fuel = some (reports, after) →
        engine.pending ++ engine.sweep.1 <+: reports) ∧
      engine.sweep.1 = (engine.runs.entries.filter (·.2.parked)).filterMap
        (Run.expiry? engine.around.now) ∧
      (∀ key, engine.sweep.2.runs.get? key =
        (engine.runs.get? key).filter (!·.isOverdue engine.around.now)) ∧
      (∀ actor, engine.sweep.2.ledger.suspensionCount actor =
        engine.ledger.suspensionCount actor - (engine.runs.keysWhere fun run =>
          run.actor == actor && run.isOverdue engine.around.now).length) ∧
      (∀ returned, History engine returned → Journal.Unworn engine.journal → ∀ actor,
        engine.sweep.2.ledger.suspensionCount actor + (engine.runs.keysWhere fun run =>
            run.actor == actor && run.isOverdue engine.around.now).length =
          engine.ledger.suspensionCount actor) ∧
      Engine.Undisturbed { engine with tick := engine.tick + 1, pending := [] } engine.sweep.2 ∧
      engine.sweep.2.around.host = engine.around.host ∧
      engine.sweep.2.around.random = engine.around.random := by
  refine ⟨fun engine cleared h => ?_, fun engine log h call hm now => h.isLate_iff hm now,
    fun machine around h => ?_, fun engine => ?_⟩
  · obtain ⟨log, hlog, -⟩ := h.exists_recorded.1
    exact ⟨log, hlog⟩
  · have hany : machine.calls.any (·.isLate around.now) = true := List.any_eq_true.2 h
    rw [← Machine.isSome_outermostLate?] at hany
    obtain ⟨late, hlate⟩ := Option.isSome_iff_exists.1 hany
    obtain ⟨after, hcheck, hhost, hrandom, -⟩ := Machine.checkDeadlines_of_some hlate
    exact ⟨late, after, hlate, Machine.step_of_checkDeadlines hcheck, hhost, hrandom⟩
  · obtain ⟨hreports, hswept⟩ := engine.swept_sweep
    exact ⟨fun fuel => engine.nextTick_eq fuel, fun _ _ _ => Engine.nextTick_extends, hreports,
      engine.get?_sweep, engine.suspensionCount_sweep,
      fun _ h hu actor => Engine.suspensionCount_sweep_of_history h hu actor,
      hswept.undisturbed, hswept.host, hswept.random⟩

end

/-- Two runs of one actor wait for a later tick. In one of them a call is late, in the
other one it is not. -/
def lateAndPunctual : List (Operation MinimalHost) :=
  restedTooLong ++ [.execute History.restProgram ⟨"alice"⟩ default]

/-- The run with the late call is ended, by a step as well as by the sweep, and the other
one stays. Of the two suspensions one is given back. -/
theorem late_calls_never_run_lateAndPunctual :
    ∃ (engine : Engine MinimalHost ReplaySource) (run : Run) (late : ActiveCall)
      (after : Surroundings MinimalHost ReplaySource),
      Career engine [] ∧ engine.runs.get? ⟨0, 0⟩ = some run ∧
      run.machine.outermostLate? engine.around.now = some late ∧
      min (late.startedMs.toNat + (late.entry.definition.maxTimeMs.getD
        engine.ledger.settings.callTimeoutMs).toNat) (UInt64.size - 1) <
          engine.around.now.toNat ∧
      (∀ table, run.machine.step table engine.around =
        ⟨.error (.limit (.timeout late.entry.definition.name late.timeLimitMs)),
          ⟨[], run.machine.locals?⟩, after⟩) ∧
      engine.sweep.1.map (fun report => (report.key, report.state)) = [(⟨0, 0⟩, .failed)] ∧
      engine.sweep.2.runs.get? ⟨0, 0⟩ = none ∧
      (engine.sweep.2.runs.get? ⟨1, 0⟩).isSome ∧
      engine.ledger.suspensionCount ⟨"alice"⟩ = 2 ∧
      engine.sweep.2.ledger.suspensionCount ⟨"alice"⟩ = 1 := by
  have hfacts : ((History.quietEngine.performAll 3 [] lateAndPunctual).map fun last =>
      ((last.2.runs.get? ⟨0, 0⟩).map (·.isOverdue last.2.around.now),
        (last.2.runs.get? ⟨1, 0⟩).map (·.isOverdue last.2.around.now),
        last.2.sweep.1.map fun report => (report.key, report.state))) =
      some (some true, some false, [(⟨0, 0⟩, .failed)]) := by decide +kernel
  have hcounts : ((History.quietEngine.performAll 3 [] lateAndPunctual).map fun last =>
      (last.2.ledger.suspensionCount ⟨"alice"⟩, last.2.journal.length,
        (last.2.runs.keysWhere fun run =>
          run.actor == ⟨"alice"⟩ && run.isOverdue last.2.around.now).length)) =
      some (2, 6, 1) := by decide +kernel
  obtain ⟨⟨returned, engine⟩, hlast, hend⟩ := Option.map_eq_some_iff.1 hfacts
  rw [hlast] at hcounts
  simp only [Option.map_some, Option.some.injEq, Prod.mk.injEq] at hend hcounts
  obtain ⟨hfirst, hsecond, hreports⟩ := hend
  obtain ⟨hsuspended, hlength, hoverdue⟩ := hcounts
  obtain ⟨run, hrun, hlate⟩ := Option.map_eq_some_iff.1 hfirst
  obtain ⟨other, hother, hpunctual⟩ := Option.map_eq_some_iff.1 hsecond
  have hcareer : Career engine [] := (Career.initial ..).performAll hlast
  have hhistory : History engine returned := (History.initial ..).performAll hlast
  have hu : Journal.Unworn engine.journal := .of_length (by rw [hlength]; decide)
  obtain ⟨hrecorded, hdeadline, hstep, hsweep⟩ :=
    late_calls_never_run (σ := MinimalHost) (ρ := ReplaySource)
  obtain ⟨log, hlog⟩ := hrecorded engine [] hcareer
  have hheld : ∃ call ∈ run.machine.calls, call.isLate engine.around.now = true := by
    rw [Run.isOverdue, Bool.and_eq_true] at hlate
    exact List.any_eq_true.1 hlate.2
  obtain ⟨late, after, hfound, hended, -, -⟩ := hstep run.machine engine.around hheld
  obtain ⟨hmember, hpast⟩ := Machine.late_of_outermostLate? hfound
  have hlive : late ∈ engine.liveCalls :=
    List.mem_flatMap.2 ⟨(⟨0, 0⟩, run), SlotMap.mem_entries.2 hrun, hmember⟩
  obtain ⟨-, -, -, hruns, -, hsuspensions, -⟩ := hsweep engine
  refine ⟨engine, run, late, after, hcareer, hrun, hfound, ?_, hended, hreports, ?_, ?_,
    hsuspended, ?_⟩
  · exact (hdeadline engine log hlog late hlive _).1 hpast
  · rw [hruns, hrun, Option.filter_some_neg (by simp [hlate])]
  · rw [hruns, hother, Option.filter_some_pos (by simp [hpunctual])]
    rfl
  · have hone := hsuspensions returned hhistory hu ⟨"alice"⟩
    rw [hsuspended, hoverdue] at hone
    omega

end GridScript
