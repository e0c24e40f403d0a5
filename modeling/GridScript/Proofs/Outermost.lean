import GridScript.Proofs.Failures
import GridScript.Proofs.Stints

/-!
# The outermost variables

A machine ends in many ways: its program is finished or stops, a call is refused or late,
its steps are used up, or it may not wait. In all of them the activation of the program
itself is still at the bottom of the stack right before, and what is kept of the machine are
the variables of that activation. The last step can change them in one way only: the program
itself, outside of all calls, performs an action that ends the run or asks it to wait.
-/

namespace GridScript

/-- A stack that stands on an activation: everything above it is a call. -/
inductive Activation.Supports (bottom : Activation) : List Activation → Prop where
  /-- There is nothing else. -/
  | alone : Supports bottom [bottom]
  /-- There is a further call. -/
  | above {top : Activation} {callers : List Activation} (called : top.call.isSome)
    (below : Supports bottom callers) : Supports bottom (top :: callers)

/-- A machine that has not ended, in which everything above one activation is a call. -/
def Machine.Grounded (machine : Machine) : Prop :=
  ∃ bottom : Activation, bottom.Supports machine.stack

namespace Activation.Supports

variable {bottom top after : Activation} {callers stack : List Activation} {machine : Machine}

/-- There is an innermost activation. -/
theorem exists_cons (h : bottom.Supports stack) : ∃ top callers, stack = top :: callers := by
  cases h with
  | alone => exact ⟨bottom, [], rfl⟩
  | above => exact ⟨_, _, rfl⟩

/-- The activation is the outermost one. -/
theorem getLast?_eq (h : bottom.Supports stack) : stack.getLast? = some bottom := by
  induction h with
  | alone => rfl
  | above called below ih =>
    obtain ⟨next, others, rfl⟩ := below.exists_cons
    exact ih

/-- The variables of the machine are those of the activation. -/
theorem locals?_eq (h : bottom.Supports machine.stack) :
    machine.locals? = some bottom.context.locals := by
  unfold Machine.locals?
  rw [h.getLast?_eq]

/-- They still are after the machine was ended. -/
theorem locals?_ended (h : bottom.Supports machine.stack) :
    machine.ended.locals? = some bottom.context.locals :=
  h.locals?_eq

/-- Whatever the innermost activation does, the stack still stands on the same activation, or
on what became of it. -/
theorem replace (h : bottom.Supports (top :: callers)) (hcall : after.call = top.call) :
    (if callers = [] then after else bottom).Supports (after :: callers) := by
  cases h with
  | alone => exact .alone
  | above called below =>
    obtain ⟨next, others, rfl⟩ := below.exists_cons
    rw [if_neg (List.cons_ne_nil next others)]
    exact .above (hcall ▸ called) below

end Activation.Supports

namespace Machine

/-- A report takes the variables of the machine. -/
theorem takeLocals_of_locals? {machine : Machine} {locals : Locals}
    (h : machine.locals? = some locals) : machine.takeLocals.1 = locals := by
  unfold locals? at h
  unfold takeLocals
  cases hlast : machine.stack.getLast? with
  | none =>
    rw [hlast] at h
    dsimp only at h ⊢
    rw [h]
    rfl
  | some bottom =>
    rw [hlast] at h
    cases h
    rfl

/-- A machine starts with one activation. -/
theorem grounded_ofScript (script : Script) (context : Context) :
    (ofScript script context).Grounded :=
  ⟨_, .alone⟩

/-- So does one that runs a call. -/
theorem grounded_ofCall (call : ActiveCall) (context : Context) :
    (ofCall call context).Grounded :=
  ⟨_, .alone⟩

end Machine

/-- What a node asks for when a machine is to end or to wait. -/
inductive Effect.Pauses : Effect → Prop
  /-- The machine is to wait. -/
  | waits (ticks : Nat) : Pauses (.suspend ticks)
  /-- The machine is to end. -/
  | stops : Pauses .stop

section

variable {σ ρ : Type} [Host σ] [RandomSource ρ] {table : ActionTable σ ρ}

namespace Stage

variable {stage after : Stage σ ρ} {op : Op} {action : String} {effect : Effect}

/-- An action that ends a machine or lets it wait was handled, and the variables are as its
handler left them. -/
theorem handled_of_perform (h : stage.perform table op action = (effect, after))
    (hp : effect.Pauses) : ∃ flow last, flow ≠ .proceed ∧
      table.action action op
        ⟨stage.activation.context, stage.around.host, stage.around.random⟩ = (.ok flow, last) ∧
      after.activation.context = last.context := by
  rcases hhandled : table.action action op
    ⟨stage.activation.context, stage.around.host, stage.around.random⟩ with ⟨result, last⟩
  have hrun : stage.run (table.action action op) =
      (result, ⟨{ stage.activation with context := last.context },
        { stage.around with host := last.host, random := last.random }⟩) := by
    unfold run
    dsimp only [ExceptT.run]
    rw [hhandled]
  unfold perform at h
  rw [hrun] at h
  cases result with
  | error fault =>
    cases h
    cases hp
  | ok flow =>
    cases flow with
    | proceed =>
      cases h
      cases hp
    | suspend ticks =>
      cases h
      exact ⟨.suspend ticks, last, nofun, rfl, rfl⟩
    | stop =>
      cases h
      exact ⟨.stop, last, nofun, rfl, rfl⟩

/-- A node that ends a machine or lets it wait has its action performed. -/
theorem acts_of_exec {index : Nat} {armed : Bool}
    (h : stage.exec table index op armed = (effect, after)) (hp : effect.Pauses) :
    ∃ action, op.Acts action ∧ stage.perform table op action = (effect, after) := by
  have hnormal {other : Stage σ ρ} (heq : (Effect.normal, other) = (effect, after)) : False := by
    cases heq
    cases hp
  have hbranch (action : String) : stage.branch table op action ≠ (effect, after) := by
    unfold branch
    intro heq
    split at heq
    · exact hnormal heq
    · exact hnormal heq
  have hexit (isBreak : Bool) : stage.exitLoop isBreak ≠ (effect, after) := by
    unfold exitLoop
    intro heq
    split at heq
    · exact hnormal heq
    · exact hnormal heq
  unfold exec at h
  split at h
  · exact (hnormal h).elim
  · split at h
    · exact (hnormal h).elim
    · rename_i action haction
      unfold execAction at h
      cases hcategory : op.category with
      | event | function | bracket =>
        rw [hcategory] at h
        exact (hnormal h).elim
      | condition =>
        rw [hcategory] at h
        exact absurd h (hbranch action)
      | alternative =>
        rw [hcategory] at h
        dsimp only at h
        split at h
        · exact absurd h (hbranch action)
        · exact (hnormal h).elim
      | loop =>
        rw [hcategory] at h
        dsimp only at h
        unfold enterLoop at h
        split at h
        · exact (hnormal h).elim
        · cases h
          cases hp
        · exact (hnormal h).elim
      | call =>
        rw [hcategory] at h
        dsimp only at h
        unfold requestCall at h
        split at h
        · cases h
          cases hp
        · exact (hnormal h).elim
      | control =>
        rw [hcategory] at h
        dsimp only at h
        split at h
        · exact absurd h (hexit true)
        · exact absurd h (hexit false)
        · exact (hnormal h).elim
        · rename_i hbreak hcontinue hreturn
          exact ⟨action, ⟨haction, .inr (.inr ⟨hcategory, hbreak, hcontinue, hreturn⟩)⟩, h⟩
      | action =>
        rw [hcategory] at h
        exact ⟨action, ⟨haction, .inl hcategory⟩, h⟩
      | assignment =>
        rw [hcategory] at h
        exact ⟨action, ⟨haction, .inr (.inl hcategory)⟩, h⟩

end Stage

namespace Machine

/-- What the next step of a machine writes in its outermost activation if it is the last one:
the activation is the only one and its next node performs an action, whose handler ends the
run or asks it to wait and leaves the variables. -/
inductive Writes (table : ActionTable σ ρ) (machine : Machine) (around : Surroundings σ ρ)
    (bottom : Activation) : Locals → Prop
  /-- The handler of the action leaves these variables. -/
  | handler {chain : Block} {outer : List Frame} {index : Nat} {op : Op} {action : String}
      {flow : Flow} {last : Scene σ ρ} (alone : machine.stack = [bottom])
      (punctual : machine.lateCall? around.now = none)
      (facing : bottom.Facing chain outer index op) (acts : op.Acts action)
      (handled : table.action action op ⟨bottom.context, around.host, around.random⟩ =
        (.ok flow, last))
      (pauses : flow ≠ .proceed) : Writes table machine around bottom last.context.locals

/-- The variables of its outermost activation that a machine leaves with its last step. -/
inductive Bequeaths (table : ActionTable σ ρ) (machine : Machine) (around : Surroundings σ ρ)
    (bottom : Activation) : Locals → Prop
  /-- The step writes nothing there, and the variables are as before. -/
  | kept (silent : ∀ locals, ¬ machine.Writes table around bottom locals) :
      Bequeaths table machine around bottom bottom.context.locals
  /-- The step writes there. -/
  | written {locals : Locals} (writes : machine.Writes table around bottom locals) :
      Bequeaths table machine around bottom locals

variable {machine : Machine} {around : Surroundings σ ρ} {bottom top : Activation}
  {callers : List Activation}

/-- Where there is a call nothing is written in the outermost activation. -/
theorem silent_of_call {caller : Activation} (hs : machine.stack = top :: caller :: callers)
    (locals : Locals) : ¬ machine.Writes table around bottom locals := by
  rintro ⟨halone, -, -, -, -, -⟩
  rw [hs] at halone
  cases halone

/-- Where a call is late nothing is written either. -/
theorem silent_of_late {after : Machine} {last : Surroundings σ ρ} {error : LimitError}
    (h : machine.checkDeadlines around = (.error error, after, last)) (locals : Locals) :
    ¬ machine.Writes table around bottom locals := by
  rintro ⟨-, hpunctual, -, -, -, -⟩
  unfold checkDeadlines at h
  dsimp only at h
  rw [hpunctual] at h
  cases h

/-- An activation that ends its machine or lets it wait bequeaths what it has then to the
machine, if it is the outermost one. -/
theorem bequeaths_of_advance {effect : Effect} {stage : Stage σ ρ}
    (hs : machine.stack = top :: callers) (hb : bottom.Supports machine.stack)
    (hpunctual : machine.lateCall? around.now = none) (hframes : top.frames ≠ [])
    (hadvance : Stage.advance table ⟨top, around⟩ = (effect, stage)) (hp : effect.Pauses) :
    machine.Bequeaths table around bottom
      (if callers = [] then stage.activation else bottom).context.locals := by
  rw [hs] at hb
  cases hb with
  | above called below =>
    obtain ⟨caller, others, rfl⟩ := below.exists_cons
    rw [if_neg (List.cons_ne_nil caller others)]
    exact .kept (silent_of_call hs)
  | alone =>
    rw [if_pos rfl]
    cases Stage.works_of_advance hadvance hframes with
    | turns hloop hturns =>
      cases hturns with
      | rests =>
        refine .kept ?_
        rintro _ ⟨-, -, ⟨hblock, -, -⟩, -, -, -⟩
        cases hloop.symm.trans hblock
      | breaks | exhausts | declines | iterates => cases hp
    | leaves | strays => cases hp
    | executes hfacing hexec =>
      obtain ⟨action, hacts, hperform⟩ := Stage.acts_of_exec hexec hp
      obtain ⟨flow, last, hflow, hhandled, hcontext⟩ := Stage.handled_of_perform hperform hp
      rw [hcontext]
      exact .written (.handler hs hpunctual hfacing hacts hhandled hflow)

/-- How a machine whose stack stands on an activation fares in a step. -/
inductive Fares (table : ActionTable σ ρ) (machine : Machine) (around : Surroundings σ ρ)
    (bottom : Activation) (stepped : Stepped σ ρ) : Prop
  /-- It goes on. -/
  | goesOn (grounded : stepped.machine.Grounded) (goes : Step.goesOn stepped.outcome = true)
      (child : ∀ child, stepped.outcome = .ok (.fork child) → child.Grounded)
  /-- It is to wait. -/
  | waits {next : Activation} {ticks : Nat} (supports : next.Supports stepped.machine.stack)
      (outcome : stepped.outcome = .ok (.suspend ticks))
      (bequeaths : machine.Bequeaths table around bottom next.context.locals)
  /-- It has ended, and the variables were kept. -/
  | ends {result : Except RunError (Option Value)} {locals : Locals}
      (outcome : stepped.outcome = result.map .terminate)
      (keeps : stepped.machine.locals? = some locals)
      (bequeaths : machine.Bequeaths table around bottom locals)

/-- A program that is over leaves its variables. -/
theorem Fares.terminates {stepped : Stepped σ ρ} {value : Option Value} {locals : Locals}
    (houtcome : stepped.outcome = .ok (.terminate value))
    (hkeeps : stepped.machine.locals? = some locals)
    (h : machine.Bequeaths table around bottom locals) :
    machine.Fares table around bottom stepped := by
  have hresult : stepped.outcome = Except.map Step.terminate (.ok value) := houtcome
  exact .ends hresult hkeeps h

/-- So does one that fails. -/
theorem Fares.fails {stepped : Stepped σ ρ} {error : RunError} {locals : Locals}
    (houtcome : stepped.outcome = .error error)
    (hkeeps : stepped.machine.locals? = some locals)
    (h : machine.Bequeaths table around bottom locals) :
    machine.Fares table around bottom stepped := by
  have hresult : stepped.outcome = Except.map Step.terminate (.error error) := houtcome
  exact .ends hresult hkeeps h

/-- An activation that is finished hands over to its caller, or its machine ends with the
variables that it has. -/
theorem fares_finish (hs : machine.stack = top :: callers)
    (hb : bottom.Supports machine.stack) (hframes : top.frames = []) :
    machine.Fares table around bottom (machine.finish top callers around) := by
  rw [hs] at hb
  cases hb with
  | alone =>
    have hsilent (locals : Locals) : ¬ machine.Writes table around bottom locals := by
      rintro ⟨-, -, ⟨hblock, -, -⟩, -, -, -⟩
      cases hframes.symm.trans hblock
    unfold finish
    cases bottom.call with
    | none => exact .terminates rfl rfl (.kept hsilent)
    | some pending => exact .terminates rfl rfl (.kept hsilent)
  | above called below =>
    obtain ⟨caller, others, rfl⟩ := below.exists_cons
    obtain ⟨pending, hpending⟩ := Option.isSome_iff_exists.1 called
    have hreceived (value : Option Value) : (receive caller pending.result value).call =
        caller.call := by
      unfold receive
      split
      · rfl
      · rfl
    unfold finish
    rw [hpending]
    exact .goesOn ⟨_, below.replace (hreceived _)⟩ rfl nofun

/-- A call that is asked for is pushed, or it is refused and its machine ends with the
variables as they are. -/
theorem fares_call {stage : Stage σ ρ} {request : CallRequest}
    (hs : machine.stack = top :: callers) (hb : bottom.Supports machine.stack)
    (hadvance : Stage.advance table ⟨top, around⟩ = (.call request, stage)) :
    machine.Fares table around bottom
      (call { machine with stack := stage.activation :: callers } stage.activation.context request
        stage.around) := by
  obtain ⟨chain, outer, index, op, random, hfacing, hcategory, -, -, rfl⟩ :=
    Stage.advance_eq_call hadvance
  have hsilent (locals : Locals) : ¬ machine.Writes table around bottom locals := by
    rintro ⟨halone, -, ⟨hblock, hnext, hnode⟩, hacts, -, -⟩
    rw [hs] at halone
    cases halone
    cases hfacing.frames.symm.trans hblock
    cases hfacing.next.symm.trans hnext
    cases hfacing.node.symm.trans hnode
    rcases hacts.category with hother | hother | ⟨hother, -⟩
    · cases hcategory.symm.trans hother
    · cases hcategory.symm.trans hother
    · cases hcategory.symm.trans hother
  rw [call_eq]
  split
  · refine .fails rfl ?_ (.kept hsilent)
    dsimp only [failWith, close]
    rw [ended_of_frames hs]
    exact hb.locals?_ended
  · rw [hs] at hb
    exact .goesOn ⟨_, .above rfl (hb.replace rfl)⟩ rfl nofun

/-- These are all ways in which it can fare. -/
theorem fares_step (hb : bottom.Supports machine.stack) (table : ActionTable σ ρ)
    (around : Surroundings σ ρ) :
    machine.Fares table around bottom (machine.step table around) := by
  obtain ⟨top, callers, hs⟩ := hb.exists_cons
  obtain ⟨hempty, -⟩ | ⟨error, after, last, hlate, hstep⟩ | ⟨hpunctual, hstep⟩ :=
    step_cases table machine around
  · cases hs.symm.trans hempty
  · rw [hstep]
    obtain rfl := ended_of_checkDeadlines hlate
    exact .fails rfl hb.locals?_ended (.kept (silent_of_late hlate))
  · rw [hstep]
    unfold advance
    rw [hs]
    dsimp only
    split
    · rename_i hempty
      exact fares_finish hs hb (List.isEmpty_iff.1 hempty)
    · rename_i hempty
      have hframes : top.frames ≠ [] := fun hnone => hempty (List.isEmpty_iff.2 hnone)
      have hshifts : Stage.Shifts table.SparesRequests ⟨top, around⟩
          (Stage.advance table ⟨top, around⟩) := Stage.shifts_advance hframes
      rcases hadvance : Stage.advance table ⟨top, around⟩ with ⟨effect, stage⟩
      rw [hadvance] at hshifts
      have hstill := (hs ▸ hb).replace hshifts.call
      have hbequeaths (hp : effect.Pauses) :=
        bequeaths_of_advance hs hb hpunctual hframes hadvance hp
      cases effect with
      | normal => exact .goesOn ⟨_, hstill⟩ rfl nofun
      | suspend ticks => exact .waits hstill rfl (hbequeaths (.waits ticks))
      | fork child =>
        refine .goesOn ⟨_, hstill⟩ rfl fun other hother => ?_
        cases hother
        have hforked : (Stage.advance table ⟨top, around⟩).1 = .fork child :=
          congrArg Prod.fst hadvance
        obtain ⟨_, _, _, cycle, hsplit⟩ := Stage.advance_fork hforked
        obtain ⟨after, -, rfl⟩ := hsplit.child
        exact ⟨_, .alone⟩
      | stop => exact .terminates rfl hstill.locals?_ended (hbequeaths .stops)
      | call request => exact fares_call hs hb hadvance

/-- A machine that goes on after a step has not ended, and neither has what it split off. -/
theorem grounded_of_goesOn (hg : machine.Grounded)
    (h : Step.goesOn (machine.step table around).outcome = true) :
    (machine.step table around).machine.Grounded ∧
      ∀ child, (machine.step table around).outcome = .ok (.fork child) → child.Grounded := by
  obtain ⟨bottom, hb⟩ := hg
  cases fares_step hb table around with
  | goesOn grounded goes child => exact ⟨grounded, child⟩
  | waits supports outcome =>
    rw [outcome] at h
    cases h
  | @ends result _ outcome =>
    rw [outcome] at h
    cases result with
    | error error => cases h
    | ok value => cases h

/-- As long as a machine goes on it has not ended, and neither have the machines that it
splits off. -/
theorem Underway.grounded {steps : Nat} {last : Machine} {after : Surroundings σ ρ}
    {forks : List Machine} (h : Underway table machine around steps last after forks)
    (hg : machine.Grounded) : last.Grounded ∧ ∀ fork ∈ forks, fork.Grounded := by
  induction h with
  | start => exact ⟨hg, nofun⟩
  | step past went ih =>
    obtain ⟨hlast, hforks⟩ := ih
    exact ⟨(grounded_of_goesOn hlast (by rw [went]; rfl)).1, hforks⟩
  | fork past split ih =>
    obtain ⟨hlast, hforks⟩ := ih
    obtain ⟨hnext, hchild⟩ := grounded_of_goesOn hlast (by rw [split]; rfl)
    refine ⟨hnext, List.forall_mem_append.2 ⟨hforks, ?_⟩⟩
    exact List.forall_mem_singleton.2 (hchild _ split)

/-- How a machine ends in a slice, with the activation that is at the bottom of its stack
right before, and with the variables that are kept of it. -/
inductive Closes (table : ActionTable σ ρ) (limit : Nat) (actor : Actor) (machine : Machine)
    (around : Surroundings σ ρ) (bottom : Activation) :
    Except RunError (Option Value) → Locals → Prop
  /-- All steps that it may make are made. -/
  | budget {last : Machine} {after : Surroundings σ ρ} {forks : List Machine}
      (underway : Underway table machine around limit last after forks)
      (supports : bottom.Supports last.stack) :
      Closes table limit actor machine around bottom (.error (.limit (.steps limit)))
        bottom.context.locals
  /-- It ends with a step. -/
  | step {steps : Nat} {last : Machine} {after : Surroundings σ ρ} {forks : List Machine}
      {result : Except RunError (Option Value)} {locals : Locals}
      (underway : Underway table machine around steps last after forks) (room : steps < limit)
      (supports : bottom.Supports last.stack)
      (ends : (last.step table after).outcome = result.map .terminate)
      (bequeaths : last.Bequeaths table after bottom locals) :
      Closes table limit actor machine around bottom result locals
  /-- It asks to wait with a step, and may not. -/
  | refused {steps ticks : Nat} {last : Machine} {after : Surroundings σ ρ}
      {forks : List Machine} {error : LimitError} {locals : Locals}
      (underway : Underway table machine around steps last after forks) (room : steps < limit)
      (supports : bottom.Supports last.stack)
      (asked : (last.step table after).outcome = .ok (.suspend ticks))
      (refused : ((last.step table after).around.ledger.suspend actor).1 = .error error)
      (bequeaths : last.Bequeaths table after bottom locals) :
      Closes table limit actor machine around bottom (.error (.limit error)) locals

/-- What a slice leaves of a machine: one that waits has not ended, and of one that has ended
there are variables. -/
inductive Emerges (table : ActionTable σ ρ) (limit : Nat) (actor : Actor) (machine : Machine)
    (around : Surroundings σ ρ) : SliceEnd → Machine → Prop
  /-- It waits. -/
  | waits {last : Machine} (ticks : Nat) (grounded : last.Grounded) :
      Emerges table limit actor machine around (.parked ticks) last
  /-- It has ended. -/
  | ends {last : Machine} {bottom : Activation} {result : Except RunError (Option Value)}
      {locals : Locals} (closes : machine.Closes table limit actor around bottom result locals)
      (keeps : last.locals? = some locals) :
      Emerges table limit actor machine around (.done result) last

/-- These are all slices of a machine that has not ended. -/
theorem emerges_slice (hg : machine.Grounded) (actor : Actor) (limit : Nat) :
    let slice := machine.slice table actor limit limit around []
    machine.Emerges table limit actor around slice.ending slice.machine ∧
      ∀ fork ∈ slice.forks, fork.Grounded := by
  obtain ⟨last, after, forks, hunderway⟩ | ⟨steps, last, after, forks, hunderway, hs, hh⟩ :=
    underway_or_halts table machine around limit
  · obtain ⟨⟨bottom, hb⟩, hforks⟩ := hunderway.grounded hg
    dsimp only
    rw [hunderway.slice_eq (Nat.le_refl limit) actor, Nat.sub_self, slice]
    exact ⟨.ends (.budget hunderway hb) hb.locals?_ended, hforks⟩
  · obtain ⟨⟨bottom, hb⟩, hforks⟩ := hunderway.grounded hg
    have hleft : limit - steps = limit - (steps + 1) + 1 := by omega
    dsimp only
    rw [hunderway.slice_eq hs.le actor, hleft, slice]
    dsimp only
    cases fares_step hb table after with
    | goesOn grounded goes => cases hh.symm.trans goes
    | @waits next ticks supports outcome bequeaths =>
      rw [outcome]
      dsimp only
      unfold pause
      dsimp only
      cases hclaim : ((last.step table after).around.ledger.suspend actor).1 with
      | ok => exact ⟨.waits ticks ⟨next, supports⟩, hforks⟩
      | error error =>
        exact ⟨.ends (.refused hunderway hs hb outcome hclaim bequeaths) supports.locals?_ended,
          hforks⟩
    | @ends result locals outcome keeps bequeaths =>
      have hclose : machine.Closes table limit actor around bottom result locals :=
        .step hunderway hs hb outcome bequeaths
      rw [outcome]
      cases result with
      | error error => exact ⟨.ends hclose keeps, hforks⟩
      | ok value => exact ⟨.ends hclose keeps, hforks⟩

end Machine

namespace Act

variable {α β : Type}

/-- A computation that, if it succeeds, asks for nothing but the next node. -/
def Goes (act : Act σ ρ Flow) : Prop :=
  ∀ (scene last : Scene σ ρ) (flow : Flow), act scene = (.ok flow, last) → flow = .proceed

omit [Host σ] [RandomSource ρ] in
/-- The end of a computation says what it asks for. -/
theorem Goes.of_bind {act : Act σ ρ α} {next : α → Act σ ρ Flow} (h : ∀ value, (next value).Goes) :
    (act >>= next).Goes := by
  intro scene last flow hdone
  obtain ⟨value, middle, -, hnext⟩ := bind_eq_ok hdone
  exact h value _ _ _ hnext

omit [Host σ] [RandomSource ρ] in
/-- Asking for the next node. -/
theorem goes_pure : Goes (pure .proceed : Act σ ρ Flow) := by
  intro scene last flow hdone
  cases hdone
  rfl

/-- A computation that leaves the variables alone if it asks for anything but the next node. -/
def Discreet (act : Act σ ρ Flow) : Prop :=
  ∀ (scene last : Scene σ ρ) (flow : Flow), act scene = (.ok flow, last) → flow ≠ .proceed →
    last.context = scene.context

omit [Host σ] [RandomSource ρ] in
/-- What asks for nothing else is discreet. -/
theorem Goes.discreet {act : Act σ ρ Flow} (h : act.Goes) : act.Discreet :=
  fun scene last flow hdone hflow => absurd (h scene last flow hdone) hflow

omit [Host σ] [RandomSource ρ] in
/-- What only reads is discreet. -/
theorem Reads.discreet {act : Act σ ρ Flow} (h : act.Reads) : act.Discreet :=
  fun _ _ _ hdone _ => h.context_eq hdone

end Act

namespace Actions

open Act

omit [Host σ] in
/-- Adding to a variable asks for nothing but the next node. -/
theorem goes_add (op : Op) : Goes (add op : Act σ ρ Flow) := by
  refine .of_bind fun name => .of_bind fun given => ?_
  cases given with
  | none | some =>
    refine .of_bind fun amount => .of_bind fun found => ?_
    cases found with
    | none | some => exact .of_bind fun _ => .of_bind fun _ => .of_bind fun _ => goes_pure

end Actions

open Act Actions

/-- An action of the standard table that ends the run or asks it to wait leaves the variables
alone. -/
theorem ActionTable.discreet_standard (action : String) (op : Op) :
    (ActionTable.standard.action action op : Act σ ρ Flow).Discreet := by
  refine getD_ofList (motive := fun handler : Op → Act σ ρ Flow => (handler op).Discreet)
    ?_ ?_ action
  · simp only [List.mem_cons, List.not_mem_nil, or_false, forall_eq_or_imp, forall_eq]
    refine ⟨?_, ?_, ?_, ?_, ?_, ?_, (reads_wait op).discreet, (reads_pure _).discreet⟩
    · exact Goes.discreet (.of_bind fun _ => .of_bind fun _ => .of_bind fun _ => goes_pure)
    · exact (goes_add op).discreet
    · refine Goes.discreet (.of_bind fun _ => .of_bind fun _ => .of_bind fun found => ?_)
      split
      · exact .of_bind fun _ => goes_pure
      · exact .of_bind fun _ => goes_pure
      · exact .of_bind fun _ => goes_pure
    · refine Goes.discreet (.of_bind fun _ => .of_bind fun _ => .of_bind fun _ =>
        .of_bind fun found => ?_)
      split
      · exact .of_bind fun _ => goes_pure
      · exact .of_bind fun _ => goes_pure
      · exact .of_bind fun _ => goes_pure
    · exact Goes.discreet (.of_bind fun _ => .of_bind fun _ => goes_pure)
    · exact Goes.discreet (.of_bind fun _ => .of_bind fun _ => goes_pure)
  · refine Goes.discreet (.of_bind fun request => .of_bind fun answer => ?_)
    split
    · exact .of_bind fun _ => goes_pure
    · exact goes_pure

/-- With the standard table the last step of a machine writes nothing in its outermost
activation. -/
theorem Machine.Bequeaths.of_standard {machine : Machine} {around : Surroundings σ ρ}
    {bottom : Activation} {locals : Locals}
    (h : machine.Bequeaths .standard around bottom locals) : locals = bottom.context.locals := by
  cases h with
  | kept => rfl
  | written hwrites =>
    cases hwrites with
    | handler alone punctual facing acts handled pauses =>
      rw [ActionTable.discreet_standard _ _ _ _ _ handled pauses]

/-- So what is kept of it is what that activation has right before. -/
theorem Machine.Closes.of_standard {machine : Machine} {around : Surroundings σ ρ} {limit : Nat}
    {actor : Actor} {bottom : Activation} {result : Except RunError (Option Value)}
    {locals : Locals} (h : machine.Closes .standard limit actor around bottom result locals) :
    locals = bottom.context.locals := by
  cases h with
  | budget => rfl
  | step underway room supports ends bequeaths => exact bequeaths.of_standard
  | refused underway room supports asked refused bequeaths => exact bequeaths.of_standard

end

end GridScript
