import GridScript.Proofs.Moves

/-!
# Moves in a row

Slices and deeds taken apart into moves. A slice is a row of steps, with the run that
executes seen midway after each of them, and ends when the run is suspended or holds no
calls any more. In a deed runs get slices, fail because they are late, or are
cancelled; in the last case nothing happens to calls but that some are cancelled.
-/

namespace GridScript

open Incident Journal

namespace Machine

/-- The calls of a machine are those that it counts. -/
theorem length_calls (machine : Machine) : machine.calls.length = machine.callDepth := by
  unfold calls Surroundings.callsIn callDepth
  rw [List.length_filterMap_eq_countP]
  simp

/-- A machine that counts no calls holds none. -/
theorem calls_of_callDepth {machine : Machine} (h : machine.callDepth = 0) :
    machine.calls = [] :=
  List.eq_nil_of_length_eq_zero (machine.length_calls.trans h)

/-- A machine with a late call fails in its next step. -/
theorem step_of_checkDeadlines {σ ρ : Type} [Host σ] [RandomSource ρ] {machine after : Machine}
    {around last : Surroundings σ ρ} {error : LimitError}
    (h : machine.checkDeadlines around = (.error error, after, last)) (table : ActionTable σ ρ) :
    machine.step table around = ⟨.error (.limit error), after, last⟩ := by
  have hlate := (enters_checkDeadlines h).1
  rcases step_cases table machine around with ⟨hs, -⟩ | ⟨_, _, _, hd, he⟩ | ⟨hn, -⟩
  · simp [lateCall?, splitLate, hs] at hlate
  · cases h.symm.trans hd
    exact he
  · rw [hn] at hlate
    cases hlate

end Machine

/-- A suspension that is refused leaves all numbers as they are. -/
theorem Ledger.suspend_eq_error {ledger after : Ledger} {actor : Actor} {error : LimitError}
    (h : ledger.suspend actor = (.error error, after)) :
    after = { ledger with suspensions := ledger.suspensions.touch actor } := by
  unfold suspend at h
  dsimp only at h
  split at h
  · cases h
    rfl
  · cases h

namespace Engine

variable {σ ρ : Type} [Host σ] [RandomSource ρ]

/-- Every run belongs to its actor, and actions stay in their invocation. -/
structure Proper (engine : Engine σ ρ) : Prop where
  /-- The slots are in order. -/
  tidy : engine.runs.Tidy
  /-- A run belongs to its actor. -/
  owned : ∀ key run, engine.runs.get? key = some run → run.machine.Owned run.actor
  /-- Actions stay in their invocation. -/
  actions : engine.actions.Keeps

/-- What a move does leaves every run with its actor. -/
theorem Moved.proper {before after : Engine σ ρ} {incidents : List Incident}
    (h : Moved before incidents after) (hp : before.Proper) : after.Proper := by
  obtain ⟨old, new, hswap, howned, -, -⟩ := h.runs
  refine ⟨hswap.tidy hp.tidy, fun key run hk => ?_, h.actions ▸ hp.actions⟩
  rcases hswap.kept hp.tidy key run hk with hbefore | hnew
  · exact hp.owned key run hbefore
  · refine howned (fun found hfound => ?_) run hnew
    obtain ⟨other, ho⟩ := hswap.held found hfound
    exact hp.owned other found ho

/-- Moves one after the other, with everything that happens to calls in them. -/
inductive Proceeds : Engine σ ρ → List Incident → Engine σ ρ → Prop where
  /-- No move is made. -/
  | stay (engine : Engine σ ρ) : Proceeds engine [] engine
  /-- One more move. -/
  | move {engine middle after : Engine σ ρ} {incidents more : List Incident}
    (past : Proceeds engine incidents middle) (moves : Moves middle more after) :
    Proceeds engine (incidents ++ more) after

namespace Proceeds

variable {engine middle after : Engine σ ρ} {incidents more : List Incident}

/-- One row of moves and then another. -/
theorem trans (h₁ : Proceeds engine incidents middle) (h₂ : Proceeds middle more after) :
    Proceeds engine (incidents ++ more) after := by
  induction h₂ with
  | stay =>
    rw [List.append_nil]
    exact h₁
  | move _ moves ih =>
    rw [← List.append_assoc]
    exact ih.move moves

/-- Moves leave every run with its actor. -/
theorem proper (h : Proceeds engine incidents after) (hp : engine.Proper) : after.Proper := by
  induction h with
  | stay => exact hp
  | move _ moves ih => exact (moves.moved ih.actions).proper ih

end Proceeds

/-- An engine gets from one state to another by moves in which only such things happen
to calls. -/
def Goes (engine : Engine σ ρ) (kind : Incident → Prop) (after : Engine σ ρ) : Prop :=
  ∃ incidents, Proceeds engine incidents after ∧ ∀ incident ∈ incidents, kind incident

namespace Goes

variable {engine middle after : Engine σ ρ} {kind other : Incident → Prop}

/-- No move is made. -/
theorem refl (engine : Engine σ ρ) (kind : Incident → Prop) : engine.Goes kind engine :=
  ⟨[], .stay engine, by simp⟩

/-- One move is made. -/
theorem of_moves {incidents : List Incident} (h : Moves engine incidents after)
    (hk : ∀ incident ∈ incidents, kind incident) : engine.Goes kind after :=
  ⟨[] ++ incidents, (Proceeds.stay engine).move h, hk⟩

/-- One move is made in which nothing happens to calls. -/
theorem of_quiet (h : Moves engine [] after) : engine.Goes kind after :=
  of_moves h (by simp)

/-- Nothing happens that concerns calls, functions or suspended runs. -/
theorem of_idle (h : engine.Idles after) : engine.Goes kind after :=
  of_quiet (.idle h)

/-- What shows neither in the ledger nor in the runs concerns no calls. -/
theorem of_same (hl : after.ledger = engine.ledger) (hr : after.runs = engine.runs)
    (ha : after.actions = engine.actions) (hj : engine.journal <:+ after.journal) :
    engine.Goes kind after :=
  of_idle ⟨by rw [hl], by rw [hl], by rw [hl], fun _ => by rw [hl], hr, ha, hj⟩

/-- Some moves are made and then others. -/
theorem trans (h₁ : engine.Goes kind middle) (h₂ : middle.Goes kind after) :
    engine.Goes kind after := by
  obtain ⟨incidents, hfirst, hkind⟩ := h₁
  obtain ⟨more, hsecond, hmore⟩ := h₂
  exact ⟨incidents ++ more, hfirst.trans hsecond, List.forall_mem_append.2 ⟨hkind, hmore⟩⟩

/-- What happens is of a wider kind, too. -/
theorem mono (h : engine.Goes kind after) (hk : ∀ incident, kind incident → other incident) :
    engine.Goes other after := by
  obtain ⟨incidents, hproceeds, hkind⟩ := h
  exact ⟨incidents, hproceeds, fun incident hm => hk incident (hkind incident hm)⟩

/-- Moves leave every run with its actor. -/
theorem proper (h : engine.Goes kind after) (hp : engine.Proper) : after.Proper := by
  obtain ⟨incidents, hproceeds, -⟩ := h
  exact hproceeds.proper hp

end Goes

variable {engine after : Engine σ ρ} {key : RunKey} {run : Run}

omit [Host σ] [RandomSource ρ] in
/-- The run that executes is found midway. -/
theorem get?_midway (hk : engine.runs.get? key = some run) (machine : Machine)
    (around : Surroundings σ ρ) :
    (engine.midway key run machine around).runs.get? key = some { run with machine } := by
  rw [midway, SlotMap.get?_set hk, if_pos rfl]

omit [Host σ] [RandomSource ρ] in
/-- What is reached later on in a slice takes the place of what was reached before. -/
theorem midway_midway (hk : engine.runs.get? key = some run) (first second : Machine)
    (earlier later : Surroundings σ ρ) :
    (engine.midway key run first earlier).midway key { run with machine := first } second later =
      engine.midway key run second later := by
  unfold midway
  dsimp only
  rw [SlotMap.set_set hk]

/-- The engine at the end of a slice: the run is suspended if it waits. -/
def sliced (engine : Engine σ ρ) (key : RunKey) (run : Run) (slice : Slice σ ρ) : Engine σ ρ :=
  { engine with
    around := slice.around
    runs := engine.runs.set key { run with
      machine := slice.machine
      parked := run.parked || slice.ending.isParked } }

omit [Host σ] [RandomSource ρ] in
/-- A run that does not wait is not suspended. -/
theorem sliced_of_done {slice : Slice σ ρ} {result : Except RunError (Option Value)}
    (h : slice.ending = .done result) :
    engine.sliced key run slice = engine.midway key run slice.machine slice.around := by
  simp [sliced, midway, h, SliceEnd.isParked]

/-- A step of a slice is a move. -/
theorem goes_step (hk : engine.runs.get? key = some run) (machine : Machine)
    (around : Surroundings σ ρ) :
    (engine.midway key run machine around).Goes IsCall
      (engine.midway key run (machine.step engine.actions around).machine
        (machine.step engine.actions around).around) := by
  have hmoves := Moves.step (get?_midway hk machine around)
  have hlast := midway_midway hk machine (machine.step engine.actions around).machine around
    (machine.step engine.actions around).around
  exact hlast ▸ .of_moves hmoves fun _ => Machine.isCall_incidents

/-- A run that fails with all its calls. -/
theorem goes_fail (hk : engine.runs.get? key = some run) (machine : Machine)
    (around : Surroundings σ ρ) :
    (engine.midway key run machine around).Goes IsCall
      (engine.midway key run (machine.close .failure around).1
        (machine.close .failure around).2) := by
  have hmoves := Moves.close (get?_midway hk machine around) (.inl rfl)
  have hlast := midway_midway hk machine (machine.close .failure around).1 around
    (machine.close .failure around).2
  exact hlast ▸ .of_moves hmoves fun _ => isCall_of_endings

/-- A run that wants to wait is suspended, or ends because it may not. -/
theorem goes_pause (hk : engine.runs.get? key = some run) (machine : Machine) (ticks : Nat)
    (around : Surroundings σ ρ) (forks : List Machine) (steps : Nat) :
    let paused := machine.pause run.actor ticks around
    (engine.midway key run machine around).Goes IsCall
      (engine.sliced key run ⟨paused.1, paused.2.1, paused.2.2, forks, steps⟩) := by
  have hfound := get?_midway hk machine around
  unfold Machine.pause
  cases hclaim : around.ledger.suspend run.actor with
  | mk claim ledger =>
    cases claim with
    | ok =>
      have hmoves := Moves.suspend hfound hclaim
      have hlast : ({ engine.midway key run machine around with
          around := { around with ledger }
          runs := (engine.midway key run machine around).runs.set key
            { run with machine, parked := true } } : Engine σ ρ) =
          engine.sliced key run ⟨.parked ticks, machine, { around with ledger }, forks, steps⟩ := by
        unfold midway sliced
        dsimp only
        rw [SlotMap.set_set hk, SliceEnd.isParked, Bool.or_true]
      dsimp only
      exact hlast ▸ .of_quiet hmoves
    | error error =>
      have hidle : (engine.midway key run machine around).Idles
          (engine.midway key run machine { around with ledger }) := by
        rw [Ledger.suspend_eq_error hclaim]
        exact ⟨rfl, rfl, rfl, fun actor => ActorCounts.count_touch _ _ actor, rfl, rfl,
          List.suffix_rfl⟩
      dsimp only
      rw [sliced_of_done rfl]
      exact .trans (.of_idle hidle) (goes_fail hk machine _)

/-- A slice is made of moves. -/
theorem goes_slice (hk : engine.runs.get? key = some run) (limit budget : Nat)
    (machine : Machine) (around : Surroundings σ ρ) (forks : List Machine) :
    (engine.midway key run machine around).Goes IsCall (engine.sliced key run
      (machine.slice engine.actions run.actor limit budget around forks)) := by
  induction budget generalizing machine around forks with
  | zero =>
    unfold Machine.slice
    dsimp only
    rw [sliced_of_done rfl]
    exact goes_fail hk machine around
  | succ budget ih =>
    have hstep := goes_step hk machine around
    unfold Machine.slice
    generalize machine.step engine.actions around = stepped at hstep ⊢
    obtain ⟨outcome, next, last⟩ := stepped
    dsimp only at hstep ⊢
    cases outcome with
    | error error =>
      rw [sliced_of_done rfl]
      exact hstep
    | ok step =>
      cases step with
      | idle =>
        rw [sliced_of_done rfl]
        exact hstep
      | terminate result =>
        rw [sliced_of_done rfl]
        exact hstep
      | normal => exact hstep.trans (ih next last forks)
      | fork child => exact hstep.trans (ih next last (forks ++ [child]))
      | suspend ticks => exact hstep.trans (goes_pause hk next ticks last forks _)

/-- Machines that were split off become runs, and the others stay. -/
theorem goes_adopt {actor : Actor} {forks : List Machine} (ht : engine.runs.Tidy)
    (hf : ∀ child ∈ forks, child.IsChild actor) :
    engine.Goes IsCall (engine.adopt forks) ∧
      ∀ key run, engine.runs.get? key = some run →
        (engine.adopt forks).runs.get? key = some run := by
  induction forks generalizing engine with
  | nil => exact ⟨.refl engine IsCall, fun _ _ => id⟩
  | cons child rest ih =>
    obtain ⟨⟨howned, hdepth, -⟩, hrest⟩ := List.forall_mem_cons.1 hf
    unfold adopt
    cases hcontext : child.context? with
    | none => exact ih ht hrest
    | some context =>
      obtain ⟨top, htop, rfl⟩ := Option.map_eq_some_iff.1 hcontext
      have hactor : top.context.actor = actor := howned.contexts top (List.mem_of_head? htop)
      have hspawned : engine.Goes IsCall
          (engine.spawn child top.context.actor top.context.origin).2 :=
        .of_quiet (.spawn _ (hactor ▸ howned) (Machine.calls_of_callDepth hdepth))
      have hkept := get?_spawn ht child top.context.actor top.context.origin
      have htidy : (engine.spawn child top.context.actor top.context.origin).2.runs.Tidy :=
        SlotMap.tidy_insert ht _
      dsimp only
      generalize engine.spawn child top.context.actor top.context.origin = spawned
        at hspawned hkept htidy ⊢
      obtain ⟨key, next⟩ := spawned
      have hqueued : next.Goes IsCall { next with ready := next.ready ++ [key] } :=
        .of_same rfl rfl rfl List.suffix_rfl
      obtain ⟨hothers, hstill⟩ := @ih { next with ready := next.ready ++ [key] } htidy hrest
      exact ⟨hspawned.trans (hqueued.trans hothers),
        fun other found ho => hstill other found (hkept other found ho)⟩

/-- The steps of a slice are counted when the run is put back. -/
theorem goes_afterSlice (hk : engine.runs.get? key = some run) (slice : Slice σ ρ) (next : Run)
    (hn : next = { run.afterSlice slice with parked := run.parked || slice.ending.isParked })
    (hr : after.runs = engine.runs.set key next)
    (hl : after.ledger = slice.around.ledger.recordSteps run.origin slice.steps)
    (ha : after.actions = engine.actions) (hj : engine.journal <:+ after.journal) :
    (engine.sliced key run slice).Goes IsCall after := by
  have hfound : (engine.sliced key run slice).runs.get? key = some { run with
      machine := slice.machine
      parked := run.parked || slice.ending.isParked } := by
    rw [sliced, SlotMap.get?_set hk, if_pos rfl]
  obtain ⟨loads, hloads⟩ := slice.around.ledger.recordSteps_eq run.origin slice.steps
  rw [hloads] at hl
  refine .trans (.of_quiet (.count hfound (run.steps + slice.steps))) (.of_idle ?_)
  refine ⟨by rw [hl]; rfl, by rw [hl]; rfl, by rw [hl]; rfl, fun actor => by rw [hl]; rfl, ?_, ha,
    hj⟩
  rw [hr, hn]
  exact (SlotMap.set_set hk _ _).symm

/-- What a slice leads to is made of moves. -/
theorem goes_conclude (hp : engine.Proper) (hk : engine.runs.get? key = some run) :
    engine.Goes IsCall (engine.conclude key run (engine.sliceOf run)).2 := by
  have hstart : engine.midway key run run.machine engine.around = engine := by
    unfold midway
    rw [SlotMap.set_self hk]
  have hslice : (engine.midway key run run.machine engine.around).Goes IsCall
      (engine.sliced key run (engine.sliceOf run)) := goes_slice hk _ _ run.machine engine.around []
  have hsettled : (engine.sliceOf run).Settled run.actor :=
    Machine.settled_slice hp.actions _ _ (hp.owned key run hk) engine.around (by simp)
  rw [hstart] at hslice
  generalize engine.sliceOf run = slice at hslice hsettled ⊢
  unfold conclude
  dsimp only
  cases hending : slice.ending with
  | parked ticks =>
    have hparked : (engine.sliced key run slice).Goes IsCall
        ((engine.afterSlice key run slice).park key (run.afterSlice slice) ticks) := by
      refine goes_afterSlice hk slice { run.afterSlice slice with parked := true } ?_
        (SlotMap.set_set hk _ _) rfl rfl ((List.suffix_cons _ _).trans (List.suffix_cons _ _))
      rw [hending, SliceEnd.isParked, Bool.or_true]
    have hreached := hslice.trans hparked
    exact hreached.trans (goes_adopt (hreached.proper hp).tidy hsettled.forks).1
  | done result =>
    have hput : (engine.sliced key run slice).Goes IsCall (engine.afterSlice key run slice) := by
      refine goes_afterSlice hk slice (run.afterSlice slice) ?_ rfl rfl rfl (List.suffix_cons _ _)
      rw [hending, SliceEnd.isParked, Bool.or_false]
      rfl
    have hreached := hslice.trans hput
    obtain ⟨hadopted, hkept⟩ := goes_adopt (hreached.proper hp).tidy hsettled.forks
    have hfound := hkept key (run.afterSlice slice)
      ((SlotMap.get?_set hk _ key).trans (if_pos rfl))
    have hfree : (run.afterSlice slice).machine.calls = [] :=
      Machine.calls_of_empty (hsettled.settles (by rw [hending]; rfl))
    exact (hreached.trans hadopted).trans (.of_quiet (.finish hfound hfree result))

/-- A run that is given its slice makes moves. -/
theorem goes_runSlice (hp : engine.Proper) (key : RunKey) :
    engine.Goes IsCall (engine.runSlice key).2 := by
  unfold runSlice
  cases hk : engine.runs.get? key with
  | none => exact .refl engine _
  | some run => exact goes_conclude hp hk

omit [RandomSource ρ] in
/-- What cancelling a run comes to: it gives its suspension back if it has one, and then
it ends with all its calls. -/
theorem cancel_eq (hk : engine.runs.get? key = some run) (reason : CancelReason) :
    let awake := if run.parked then engine.unpark key run else engine
    awake.runs.get? key = some { run with parked := false } ∧
      engine.cancel key reason =
        (awake.midway key { run with parked := false }
          (run.machine.close .cancelled awake.around).1
          (run.machine.close .cancelled awake.around).2).finish key (.error (.cancelled reason)) := by
  obtain ⟨machine, actor, origin, steps, parked⟩ := run
  unfold cancel
  rw [hk]
  cases parked with
  | true =>
    refine ⟨?_, rfl⟩
    exact (SlotMap.get?_set hk _ key).trans (if_pos rfl)
  | false => exact ⟨hk, rfl⟩

/-- A run that is cancelled. -/
theorem goes_cancel (engine : Engine σ ρ) (key : RunKey) (reason : CancelReason) :
    engine.Goes IsCancellation (engine.cancel key reason).2 := by
  cases hk : engine.runs.get? key with
  | none =>
    unfold cancel
    rw [hk]
    exact .refl engine _
  | some run =>
    obtain ⟨hfound, hcancel⟩ := cancel_eq hk reason
    rw [hcancel]
    have hawake : engine.Goes IsCancellation
        (if run.parked then engine.unpark key run else engine) := by
      split
      · rename_i hparked
        exact .of_quiet (.unpark hk fun _ => hparked)
      · exact .refl engine _
    generalize (if run.parked then engine.unpark key run else engine) = awake at hfound hawake ⊢
    have hclosed := Moves.close hfound (.inr rfl)
    have hended := Moves.finish (get?_midway hfound (run.machine.close .cancelled awake.around).1
      (run.machine.close .cancelled awake.around).2) (Machine.calls_of_empty rfl)
        (.error (.cancelled reason))
    refine (hawake.trans (.of_moves hclosed fun incident hm => ?_)).trans (.of_quiet hended)
    obtain ⟨call, -, rfl⟩ := List.mem_map.1 hm
    rfl

/-- A run that fails because it is late: its calls end in a step, and it gives its
suspension back. -/
theorem goes_expire (hp : Unworn engine.journal →
    ∀ run, engine.runs.get? key = some run → run.parked = true) :
    engine.Goes IsCall (engine.expire key).2 := by
  unfold expire
  cases hk : engine.runs.get? key with
  | none => exact .refl engine _
  | some run =>
    dsimp only
    split
    · exact .refl engine _
    · rename_i error machine around hlate
      have hstep : run.machine.step engine.actions engine.around =
          ⟨.error (.limit error), machine, around⟩ := Machine.step_of_checkDeadlines hlate _
      have hmoves := Moves.step hk
      rw [hstep] at hmoves
      have hfound := get?_midway hk machine around
      have hwoken := Moves.unpark hfound fun hu => hp hu run hk
      have hsame : (engine.midway key run machine around).unpark key { run with machine } =
          ({ engine with around } : Engine σ ρ).unpark key { run with machine } := by
        unfold midway unpark mapLedger
        dsimp only
        rw [SlotMap.set_set hk]
      rw [hsame] at hwoken
      have hput : (({ engine with around } : Engine σ ρ).unpark key
          { run with machine }).runs.get? key = some { run with machine, parked := false } :=
        (SlotMap.get?_set hk _ key).trans (if_pos rfl)
      have hfree : machine.calls = [] :=
        Machine.calls_of_empty (Machine.stack_of_checkDeadlines hlate)
      exact (Goes.of_moves hmoves fun _ => Machine.isCall_incidents).trans
        ((Goes.of_quiet hwoken).trans (.of_quiet (.finish hput hfree _)))

/-- A run that is due is taken up. -/
theorem goes_takeUp (hp : engine.Proper) (hu : Unworn engine.journal →
    ∀ run, engine.runs.get? key = some run → run.parked = true) :
    engine.Goes IsCall (engine.takeUp key).2 := by
  unfold takeUp
  cases hk : engine.runs.get? key with
  | none => exact .refl engine _
  | some run =>
    have hwoken : engine.Goes IsCall (engine.unpark key run) :=
      .of_quiet (.unpark hk fun h => hu h run hk)
    dsimp only
    split
    · have hnoted : (engine.unpark key run).Goes IsCall
          ((engine.unpark key run).record (.resumed key (engine.unpark key run).tick)) :=
        .of_same rfl rfl rfl (List.suffix_cons _ _)
      have hreached := hwoken.trans hnoted
      exact hreached.trans (goes_runSlice (hreached.proper hp) key)
    · exact hwoken.trans ((goes_cancel _ key _).mono fun _ => IsCancellation.isCall)

end Engine

namespace Deed

variable {σ ρ : Type}

/-- Whether a deed neither starts a run from outside nor changes what runs share in any
other way than by what runs do. -/
def isInner : Deed σ ρ → Bool
  | .launch .. | .adjust .. => false
  | _ => true

/-- What can happen to calls in such a deed. -/
def Brings : Deed σ ρ → Incident → Prop
  | .serve _, incident | .wake _ _, incident | .expire _, incident => incident.IsCall
  | .cancel _ _, incident => incident.IsCancellation
  | _, _ => False

end Deed

namespace Engine

variable {σ ρ : Type} [Host σ] [RandomSource ρ] {engine after : Engine σ ρ} {fuel : Nat}
  {kind : Incident → Prop}

/-- A deed is made of moves. -/
theorem goes_carryOut {deed : Deed σ ρ} (hi : engine.InOrder []) (hp : engine.Proper)
    (ha : engine.Admits deed) (hd : deed.isInner) :
    engine.Goes deed.Brings (engine.carryOut deed) := by
  cases deed with
  | launch | adjust => cases hd
  | serve key =>
    have htaken : engine.Goes IsCall { engine with ready := engine.ready.tail } :=
      .of_same rfl rfl rfl List.suffix_rfl
    exact htaken.trans (goes_runSlice (htaken.proper hp) key)
  | wake due key =>
    have htaken : engine.Goes IsCall { engine with sleeping := engine.sleeping.erase due } :=
      .of_same rfl rfl rfl List.suffix_rfl
    obtain ⟨⟨rest, hentries⟩, -⟩ := entries_of_firstDue? ha.1
    refine htaken.trans (goes_takeUp (htaken.proper hp) fun hu run hk => ?_)
    refine ((hi.scheduled hu).asleep key run hk).1 ?_
    simp [sleepers, hentries]
  | expire key =>
    refine goes_expire fun hu run hk => ?_
    have hawake := (hi.scheduled hu).awake key
    rw [List.nil_append] at hawake
    by_contra hnot
    exact ha.2 (hawake.2 ⟨run, hk, Bool.eq_false_iff.2 hnot⟩)
  | cancel key reason => exact goes_cancel engine key reason
  | discard | advance | forget =>
    exact .of_same rfl rfl rfl List.suffix_rfl

/-- Deeds in a row are made of moves. -/
theorem Does.goes {test : Deed σ ρ → Prop} (h : engine.Does test after) (hi : engine.InOrder [])
    (hp : engine.Proper)
    (ht : ∀ deed, test deed → deed.isInner ∧ ∀ incident, deed.Brings incident → kind incident) :
    engine.Goes kind after := by
  obtain ⟨deeds, hcourse, hdeeds⟩ := h
  induction hcourse with
  | done => exact .refl _ _
  | @next engine after deed rest admitted _ ih =>
    obtain ⟨hdeed, hrest⟩ := List.forall_mem_cons.1 hdeeds
    obtain ⟨hinner, hbrings⟩ := ht deed hdeed
    have hfirst := (goes_carryOut hi hp admitted hinner).mono hbrings
    exact hfirst.trans (ih (hi.outcome admitted).inOrder (hfirst.proper hp) hrest)

end Engine

end GridScript
