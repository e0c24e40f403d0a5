import GridScript.Proofs.Isolation
import GridScript.Proofs.Turns

/-!
# What goes on above a frame

A block or a loop stays on its stack while its own nodes are executed and while whatever
stands on it is: the groups and loops inside of it, and the calls that are made there. A step
above a frame neither touches it nor anything below it. So all that ever becomes of a frame
becomes of it in the steps in which it is the innermost one, in the order of these steps.
-/

namespace GridScript

/-- Whether a node decides which way to go: a condition with an action, or an alternative that
may run. -/
def Op.Branches (op : Op) (armed : Bool) : Prop :=
  op.category = .condition ∧ op.action.isSome ∨ op.category = .alternative ∧ armed = true

namespace Stage

variable {σ ρ : Type} [Host σ] [RandomSource ρ]

/-- Decides a condition or an alternative. An alternative without a condition of its own
holds. -/
def verdict (table : ActionTable σ ρ) (stage : Stage σ ρ) (op : Op) : Bool × Stage σ ρ :=
  if isPlainElse op then (true, stage)
  else
    match op.action with
    | none => (false, stage)
    | some action => stage.decide table op action

/-- All that executing a node can be. -/
inductive Executes (table : ActionTable σ ρ) (stage : Stage σ ρ) (index : Nat) (op : Op)
    (armed : Bool) : Effect × Stage σ ρ → Prop
  /-- Nothing happens. -/
  | idles : Executes table stage index op armed (.normal, stage)
  /-- The node decides against its children. -/
  | declines {after : Stage σ ρ} (hbranches : op.Branches armed)
      (hverdict : stage.verdict table op = (false, after)) :
      Executes table stage index op armed (.normal, after.mapActivation (·.armElse))
  /-- The node decides for its children. -/
  | enters {after : Stage σ ρ} (hbranches : op.Branches armed)
      (hverdict : stage.verdict table op = (true, after)) :
      Executes table stage index op armed
        (.normal, after.mapActivation (·.enter op.body .branch))
  /-- A loop is set up. -/
  | loops {action : String} (hcategory : op.category = .loop) (haction : op.action = some action) :
      Executes table stage index op armed (stage.enterLoop index op action)
  /-- A call is asked for. -/
  | calls (hcategory : op.category = .call) :
      Executes table stage index op armed (stage.requestCall op)
  /-- A request is made to the innermost loop. -/
  | exits (isBreak : Bool) (hcategory : op.category = .control)
      (haction : op.action = some (if isBreak then "break" else "continue")) :
      Executes table stage index op armed (stage.exitLoop isBreak)
  /-- The activation is left. -/
  | returns (hcategory : op.category = .control) (haction : op.action = some "return") :
      Executes table stage index op armed (stage.leaveActivation op)
  /-- An action is performed. -/
  | performs (action : String) :
      Executes table stage index op armed (stage.perform table op action)

/-- An alternative that may not run does nothing, whatever actions there are. -/
theorem exec_of_disarmed (table : ActionTable σ ρ) (stage : Stage σ ρ) (index : Nat) {op : Op}
    (hcategory : op.category = .alternative) :
    stage.exec table index op false = (.normal, stage) := by
  unfold exec execAction
  rw [hcategory]
  split
  · rfl
  · split <;> rfl

/-- A node that decides goes by its verdict. -/
theorem exec_of_branches {table : ActionTable σ ρ} {stage : Stage σ ρ} {index : Nat} {op : Op}
    {armed : Bool} (h : op.Branches armed) :
    stage.exec table index op armed =
      match stage.verdict table op with
      | (true, after) => (.normal, after.mapActivation (·.enter op.body .branch))
      | (false, after) => (.normal, after.mapActivation (·.armElse)) := by
  unfold exec verdict
  split
  · rename_i hplain
    obtain ⟨hcategory, -⟩ | ⟨-, rfl⟩ := h
    · simp [isPlainElse, hcategory] at hplain
    · rfl
  · rename_i hplain
    cases haction : op.action with
    | none =>
      obtain ⟨-, hsome⟩ | ⟨hcategory, -⟩ := h
      · simp [haction] at hsome
      · simp [isPlainElse, hcategory, haction] at hplain
    | some action =>
      have hexec : stage.execAction table index op armed action = stage.branch table op action := by
        unfold execAction
        obtain ⟨hcategory, -⟩ | ⟨hcategory, rfl⟩ := h <;> rw [hcategory]
        rfl
      exact hexec

/-- These are all ways of executing a node. -/
theorem executes_exec (table : ActionTable σ ρ) (stage : Stage σ ρ) (index : Nat) (op : Op)
    (armed : Bool) : Executes table stage index op armed (stage.exec table index op armed) := by
  by_cases hbranches : op.Branches armed
  · rw [exec_of_branches hbranches]
    split
    · rename_i after hverdict
      exact .enters hbranches hverdict
    · rename_i after hverdict
      exact .declines hbranches hverdict
  · unfold exec
    split
    · rename_i hplain
      cases armed with
      | false => exact .idles
      | true =>
        have hcategory : op.category = .alternative :=
          eq_of_beq (Bool.and_eq_true_iff.1 hplain).1
        exact absurd (.inr ⟨hcategory, rfl⟩) hbranches
    · split
      · exact .idles
      · rename_i action haction
        unfold execAction
        split
        · exact .idles
        · exact .idles
        · exact .idles
        · rename_i hcategory
          exact absurd (.inl ⟨hcategory, by simp [haction]⟩) hbranches
        · rename_i hcategory
          cases armed with
          | false => exact .idles
          | true => exact absurd (.inr ⟨hcategory, rfl⟩) hbranches
        · rename_i hcategory
          exact .loops hcategory haction
        · rename_i hcategory
          exact .calls hcategory
        · rename_i hcategory
          split
          · exact .exits true hcategory haction
          · exact .exits false hcategory haction
          · exact .returns hcategory haction
          · exact .performs action
        · exact .performs action
        · exact .performs action

/-- Deciding changes neither the frames nor the script. -/
theorem frames_verdict (table : ActionTable σ ρ) (stage : Stage σ ρ) (op : Op) :
    (stage.verdict table op).2.activation.frames = stage.activation.frames := by
  unfold verdict
  split
  · rfl
  · split
    · rfl
    · unfold decide
      split <;> rename_i heq <;> exact congrArg (·.2.activation.frames) heq.symm

/-- All that executing a node can make of the frames, with what it asks the machine for. -/
inductive Reframes (stage : Stage σ ρ) (index : Nat) (op : Op) (armed : Bool) :
    Effect → List Frame → Prop
  /-- They stay. -/
  | stays {effect : Effect} (heffect : ∀ child, effect ≠ .fork child) :
      Reframes stage index op armed effect stage.activation.frames
  /-- The innermost block is marked. -/
  | marks (hbranches : op.Branches armed) :
      Reframes stage index op armed .normal stage.activation.armElse.frames
  /-- What a condition or alternative contains is entered. -/
  | branches (hbranches : op.Branches armed) : Reframes stage index op armed .normal
      (.block ⟨op.body, .branch, false⟩ :: stage.activation.frames)
  /-- A loop is entered. -/
  | enters {action : String} {cycle : LoopFrame} {last : Scene σ ρ}
      (hcategory : op.category = .loop) (haction : op.action = some action)
      (hloop : newLoop stage.around.ledger.settings index op action
        ⟨stage.activation.context, stage.around.host, stage.around.random⟩ =
          (.ok (cycle, false), last)) :
      Reframes stage index op armed .normal (.loop cycle :: stage.activation.frames)
  /-- A loop is split off. -/
  | splits {action : String} {cycle : LoopFrame} {last : Scene σ ρ} {after : Activation}
      (hcategory : op.category = .loop) (haction : op.action = some action)
      (hloop : newLoop stage.around.ledger.settings index op action
        ⟨stage.activation.context, stage.around.host, stage.around.random⟩ =
          (.ok (cycle, true), last)) :
      Reframes stage index op armed (.fork (forked after cycle)) stage.activation.frames
  /-- Everything inside of the innermost loop is given up. -/
  | exits {cycle : LoopFrame} {rest : List Frame} (isBreak : Bool)
      (hcategory : op.category = .control)
      (haction : op.action = some (if isBreak then "break" else "continue"))
      (hloop : Frame.fromLoop stage.activation.frames = .loop cycle :: rest) :
      Reframes stage index op armed .normal (.loop cycle :: rest)
  /-- All frames are given up. -/
  | returns (hcategory : op.category = .control) (haction : op.action = some "return") :
      Reframes stage index op armed .normal []

omit [Host σ] in
theorem Reframes.of_frames {stage : Stage σ ρ} {index : Nat} {op : Op} {armed : Bool}
    {effect : Effect} {frames after : List Frame} (h : Reframes stage index op armed effect frames)
    (hframes : after = frames) : Reframes stage index op armed effect after :=
  hframes ▸ h

/-- These are all frames that a node can leave. -/
theorem Executes.reframes {table : ActionTable σ ρ} {stage : Stage σ ρ} {index : Nat} {op : Op}
    {armed : Bool} {result : Effect × Stage σ ρ}
    (h : Executes table stage index op armed result) :
    Reframes stage index op armed result.1 result.2.activation.frames := by
  cases h with
  | idles => exact .stays nofun
  | @declines after hbranches hverdict =>
    have hframes := stage.frames_verdict table op
    rw [hverdict] at hframes
    have harmed : after.activation.armElse.frames = stage.activation.armElse.frames := by
      unfold Activation.armElse
      rw [hframes]
      split
      · rfl
      · exact hframes
    change Reframes stage index op armed .normal after.activation.armElse.frames
    rw [harmed]
    exact .marks hbranches
  | @enters after hbranches hverdict =>
    have hframes := stage.frames_verdict table op
    rw [hverdict] at hframes
    change Reframes stage index op armed .normal
      (.block ⟨op.body, .branch, false⟩ :: after.activation.frames)
    rw [hframes]
    exact .branches hbranches
  | @loops action hcategory haction =>
    have hloop {cycle : LoopFrame} {fork : Bool} {after : Stage σ ρ}
        (heq : stage.run (newLoop stage.around.ledger.settings index op action) =
          (.ok (cycle, fork), after)) :
        ∃ last, newLoop stage.around.ledger.settings index op action
          ⟨stage.activation.context, stage.around.host, stage.around.random⟩ =
            (.ok (cycle, fork), last) := by
      have hresult : (newLoop stage.around.ledger.settings index op action
          ⟨stage.activation.context, stage.around.host, stage.around.random⟩).1 =
            .ok (cycle, fork) := congrArg Prod.fst heq
      exact ⟨_, Prod.ext hresult rfl⟩
    unfold enterLoop
    split <;> rename_i heq <;>
      have hframes := congrArg (·.2.activation.frames) heq
    · refine (Reframes.stays ?_).of_frames hframes.symm
      nofun
    · obtain ⟨last, hlast⟩ := hloop heq
      exact (Reframes.splits hcategory haction hlast).of_frames hframes.symm
    · obtain ⟨last, hlast⟩ := hloop heq
      exact (Reframes.enters hcategory haction hlast).of_frames
        (congrArg (Frame.loop _ :: ·) hframes.symm)
  | calls hcategory =>
    unfold requestCall
    split <;> rename_i heq <;>
      refine (Reframes.stays ?_).of_frames (congrArg (·.2.activation.frames) heq.symm) <;> nofun
  | exits isBreak hcategory haction =>
    unfold exitLoop
    obtain hnone | ⟨cycle, rest, hloop⟩ := Frame.fromLoop_cases stage.activation.frames
    · rw [hnone]
      exact .stays nofun
    · rw [hloop]
      exact .exits isBreak hcategory haction hloop
  | returns hcategory haction => exact .returns hcategory haction
  | performs action =>
    unfold perform
    split <;> rename_i heq <;>
      refine (Reframes.stays ?_).of_frames (congrArg (·.2.activation.frames) heq.symm) <;> nofun

/-- In front of a node the block moves on, and the node is executed. -/
theorem advance_of_facing {table : ActionTable σ ρ} {stage : Stage σ ρ} {chain : Block}
    {outer : List Frame} {index : Nat} {op : Op}
    (h : stage.activation.Facing chain outer index op) :
    stage.advance table = (stage.mapActivation
      ({ · with frames := .block ⟨op.next, chain.kind, false⟩ :: outer })).exec table index op
        chain.elseArmed := by
  unfold advance
  rw [h.frames]
  dsimp only
  rw [h.next]
  dsimp only
  rw [h.node]
  rfl

/-- All that a step of an activation can be. -/
inductive Works (table : ActionTable σ ρ) (stage : Stage σ ρ) : Effect × Stage σ ρ → Prop
  /-- A loop takes a turn. -/
  | turns {cycle : LoopFrame} {outer : List Frame} {result : Effect × Stage σ ρ}
      (hframes : stage.activation.frames = .loop cycle :: outer)
      (h : Turns stage cycle outer result) : Works table stage result
  /-- A block with nothing left is left. -/
  | leaves {chain : Block} {outer : List Frame}
      (hframes : stage.activation.frames = .block chain :: outer) :
      Works table stage (.normal, ⟨{ stage.activation with frames := outer }, stage.around⟩)
  /-- There is no node where one should come next. -/
  | strays {chain : Block} {outer : List Frame} {index : Nat}
      (hframes : stage.activation.frames = .block chain :: outer) (hnext : chain.next = some index)
      (hnode : stage.activation.script.op? index = none) :
      Works table stage (.normal, stage.mapActivation
        ({ · with frames := .block ⟨none, chain.kind, false⟩ :: outer }))
  /-- A node is executed. -/
  | executes {chain : Block} {outer : List Frame} {index : Nat} {op : Op}
      {result : Effect × Stage σ ρ} (hfacing : stage.activation.Facing chain outer index op)
      (h : (stage.mapActivation
        ({ · with frames := .block ⟨op.next, chain.kind, false⟩ :: outer })).exec table index op
          chain.elseArmed = result) : Works table stage result

/-- These are all steps of an activation with something left to do. -/
theorem works_advance {table : ActionTable σ ρ} {stage : Stage σ ρ}
    (h : stage.activation.frames ≠ []) : Works table stage (stage.advance table) := by
  cases hframes : stage.activation.frames with
  | nil => exact absurd hframes h
  | cons frame outer =>
    cases frame with
    | loop cycle =>
      have hadvance : stage.advance table = stage.loopBoundary cycle := by
        unfold advance
        rw [hframes]
      rw [hadvance]
      exact .turns hframes (turns_loopBoundary hframes)
    | block chain =>
      cases hnext : chain.next with
      | none =>
        have hadvance : stage.advance table =
            (.normal, ⟨{ stage.activation with frames := outer }, stage.around⟩) := by
          unfold advance
          rw [hframes]
          dsimp only
          rw [hnext]
          simp only [mapActivation, Activation.leave, hframes, List.tail_cons]
        rw [hadvance]
        exact .leaves hframes
      | some index =>
        cases hnode : stage.activation.script.op? index with
        | none =>
          have hadvance : stage.advance table = (.normal, stage.mapActivation
              ({ · with frames := .block ⟨none, chain.kind, false⟩ :: outer })) := by
            unfold advance
            rw [hframes]
            dsimp only
            rw [hnext]
            dsimp only
            rw [hnode]
            rfl
          rw [hadvance]
          exact .strays hframes hnext hnode
        | some op =>
          have hfacing : stage.activation.Facing chain outer index op := ⟨hframes, hnext, hnode⟩
          rw [advance_of_facing hfacing]
          exact .executes hfacing rfl

/-- All that a step can make of the frames of an activation, with what it asks the machine for. -/
inductive Advances (stage : Stage σ ρ) : Effect → List Frame → Prop
  /-- A block or a loop is left. -/
  | leaves {frame : Frame} {outer : List Frame}
      (hframes : stage.activation.frames = frame :: outer) : Advances stage .normal outer
  /-- A loop waits. -/
  | waits {cycle : LoopFrame} {outer : List Frame}
      (hframes : stage.activation.frames = .loop cycle :: outer) :
      Advances stage (.suspend cycle.delay) (.loop { cycle with waited := true } :: outer)
  /-- A loop begins an iteration. -/
  | iterates {cycle : LoopFrame} {outer : List Frame}
      (hframes : stage.activation.frames = .loop cycle :: outer) :
      Advances stage .normal (.block ⟨cycle.body, .loopBody, false⟩ ::
        .loop { cycle with iteration := cycle.iteration + 1, waited := false } :: outer)
  /-- There is no node where one should come next. -/
  | strays {chain : Block} {outer : List Frame} {index : Nat}
      (hframes : stage.activation.frames = .block chain :: outer) (hnext : chain.next = some index)
      (hnode : stage.activation.script.op? index = none) :
      Advances stage .normal (.block ⟨none, chain.kind, false⟩ :: outer)
  /-- A node is executed. -/
  | executes {chain : Block} {outer frames : List Frame} {index : Nat} {op : Op} {effect : Effect}
      (hfacing : stage.activation.Facing chain outer index op)
      (h : Reframes (stage.mapActivation
        ({ · with frames := .block ⟨op.next, chain.kind, false⟩ :: outer })) index op
          chain.elseArmed effect frames) : Advances stage effect frames

/-- These are all frames that a step can leave. -/
theorem Works.advances {table : ActionTable σ ρ} {stage : Stage σ ρ}
    {result : Effect × Stage σ ρ} (h : Works table stage result) :
    Advances stage result.1 result.2.activation.frames := by
  cases h with
  | turns hframes h =>
    cases h with
    | breaks => exact .leaves hframes
    | exhausts => exact .leaves hframes
    | rests => exact .waits hframes
    | declines => exact .leaves hframes
    | iterates => exact .iterates hframes
  | leaves hframes => exact .leaves hframes
  | strays hframes hnext hnode => exact .strays hframes hnext hnode
  | @executes chain outer index op _ hfacing h =>
    have hexecutes := executes_exec table (stage.mapActivation
      ({ · with frames := .block ⟨op.next, chain.kind, false⟩ :: outer })) index op chain.elseArmed
    rw [h] at hexecutes
    exact .executes hfacing hexecutes.reframes

/-- The same, of a step that is known. -/
theorem works_of_advance {table : ActionTable σ ρ} {stage after : Stage σ ρ} {effect : Effect}
    (h : stage.advance table = (effect, after)) (hframes : stage.activation.frames ≠ []) :
    Works table stage (effect, after) :=
  h ▸ works_advance hframes

/-- A step of an activation keeps to its script. -/
theorem script_of_advance {table : ActionTable σ ρ} {stage after : Stage σ ρ} {effect : Effect}
    (h : stage.advance table = (effect, after)) (hframes : stage.activation.frames ≠ []) :
    after.activation.script = stage.activation.script := by
  have hshifts : Shifts table.SparesRequests stage (effect, after) := h ▸ shifts_advance hframes
  exact hshifts.script

end Stage

/-- The answer to an effect after which the innermost activation goes on. -/
def Effect.onward? : Effect → Option Step
  | .normal => some .normal
  | .suspend ticks => some (.suspend ticks)
  | .fork child => some (.fork child)
  | .stop => none
  | .call _ => none

namespace Machine

variable {σ ρ : Type} [Host σ] [RandomSource ρ]

/-- All that a step can make of a stack: the innermost activation executes a node or a
transition, makes a call, or hands over to its caller, or the machine ends. -/
inductive Proceeds (table : ActionTable σ ρ) (around : Surroundings σ ρ) (top : Activation)
    (callers : List Activation) (stepped : Stepped σ ρ) : Prop
  /-- The innermost activation goes on. -/
  | works {effect : Effect} {stage : Stage σ ρ} {answer : Step} (hframes : top.frames ≠ [])
      (hadvance : Stage.advance table ⟨top, around⟩ = (effect, stage))
      (hstack : stepped.machine.stack = stage.activation :: callers)
      (honward : effect.onward? = some answer) (houtcome : stepped.outcome = .ok answer)
  /-- It makes a call. -/
  | calls {request : CallRequest} {stage : Stage σ ρ} {callee : Activation}
      (hframes : top.frames ≠ [])
      (hadvance : Stage.advance table ⟨top, around⟩ = (.call request, stage))
      (hstack : stepped.machine.stack = callee :: stage.activation :: callers)
      (hcallee : ∃ context call, callee = .start callee.script context call)
      (houtcome : stepped.outcome = .ok .normal)
  /-- It hands over to its caller. -/
  | returns {pending : PendingCall} {caller after : Activation} {outer : List Activation}
      (hframes : top.frames = []) (hcall : top.call = some pending)
      (hcallers : callers = caller :: outer)
      (hhanded : pending.HandsOver top.context.locals caller after)
      (hstack : stepped.machine.stack = after :: outer) (houtcome : stepped.outcome = .ok .normal)
  /-- The machine ends. -/
  | ends (hstack : stepped.machine.stack = []) (hlast : stepped.isLast = true)

/-- These are all steps of a machine in which only calls are waited for. -/
theorem proceeds_step {machine : Machine} {top : Activation} {callers : List Activation}
    (hs : machine.stack = top :: callers) (hcalled : callers ≠ [] → top.call.isSome)
    (table : ActionTable σ ρ) (around : Surroundings σ ρ) :
    Proceeds table around top callers (machine.step table around) := by
  obtain ⟨hempty, -⟩ | ⟨error, after, last, hlate, hstep⟩ | ⟨-, hstep⟩ :=
    step_cases table machine around
  · rw [hs] at hempty
    cases hempty
  · rw [hstep]
    exact .ends (stack_of_checkDeadlines hlate) rfl
  · rw [hstep]
    unfold advance
    rw [hs]
    dsimp only
    split
    · rename_i hempty
      have hframes := List.isEmpty_iff.1 hempty
      cases hcall : top.call with
      | none =>
        have hnobody : callers = [] := by
          by_contra hne
          have hsome := hcalled hne
          rw [hcall] at hsome
          cases hsome
        unfold finish
        rw [hcall]
        exact .ends hnobody rfl
      | some pending =>
        cases callers with
        | nil =>
          unfold finish
          rw [hcall]
          exact .ends rfl rfl
        | cons caller outer =>
          obtain ⟨after, hhanded, hstack, houtcome⟩ :=
            handsOver_finish hcall machine caller outer around
          exact .returns hframes hcall rfl hhanded hstack houtcome
    · rename_i hempty
      have hframes : top.frames ≠ [] := fun hnone => hempty (List.isEmpty_iff.2 hnone)
      rcases hadvance : Stage.advance table ⟨top, around⟩ with ⟨effect, stage⟩
      cases effect with
      | normal => exact .works hframes hadvance rfl rfl rfl
      | suspend ticks => exact .works hframes hadvance rfl rfl rfl
      | fork child => exact .works hframes hadvance rfl rfl rfl
      | stop => exact .ends rfl rfl
      | call request =>
        dsimp only
        rw [call_eq]
        split
        · exact .ends rfl rfl
        · exact .calls hframes hadvance rfl ⟨_, _, rfl⟩ rfl

/-- These are all steps of a machine whose stack is built as it should be. -/
theorem Formed.proceeds {spared : Prop} {machine : Machine} (h : machine.Formed spared)
    {top : Activation} {callers : List Activation} (hs : machine.stack = top :: callers)
    (table : ActionTable σ ρ) (around : Surroundings σ ρ) :
    Proceeds table around top callers (machine.step table around) :=
  proceeds_step hs (fun hne => (h top callers hs).call hne) table around

/-- A step that splits a machine off is one of the innermost activation. -/
theorem Proceeds.of_fork {table : ActionTable σ ρ} {around : Surroundings σ ρ} {top : Activation}
    {callers : List Activation} {stepped : Stepped σ ρ} {child : Machine}
    (h : Proceeds table around top callers stepped)
    (hfork : stepped.outcome = .ok (.fork child)) :
    ∃ stage, Stage.advance table ⟨top, around⟩ = (.fork child, stage) ∧ top.frames ≠ [] := by
  cases h with
  | @works effect stage answer hframes hadvance hstack honward houtcome =>
    obtain rfl : answer = .fork child := Except.ok.inj (houtcome.symm.trans hfork)
    cases effect with
    | fork other =>
      cases honward
      exact ⟨stage, hadvance, hframes⟩
    | normal => cases honward
    | suspend ticks => cases honward
    | stop => cases honward
    | call request => cases honward
  | calls hframes hadvance hstack hcallee houtcome => cases houtcome.symm.trans hfork
  | returns hframes hcall hcallers hhanded hstack houtcome => cases houtcome.symm.trans hfork
  | ends hstack hlast =>
    rw [Stepped.isLast, hfork] at hlast
    cases hlast

/-- A machine that is split off has nothing but a loop. -/
theorem Formed.forked_of_fork {spared : Prop} {table : ActionTable σ ρ} {machine child : Machine}
    {around : Surroundings σ ρ} (h : machine.Formed spared)
    (hfork : (machine.step table around).outcome = .ok (.fork child)) :
    ∃ activation cycle, child = Stage.forked activation cycle := by
  cases hstack : machine.stack with
  | nil =>
    rw [step_of_empty hstack] at hfork
    cases hfork
  | cons top callers =>
    obtain ⟨stage, hadvance, hframes⟩ := (h.proceeds hstack table around).of_fork hfork
    have hshifts : Stage.Shifts table.SparesRequests ⟨top, around⟩ (.fork child, stage) :=
      hadvance ▸ Stage.shifts_advance hframes
    obtain ⟨_, _, _, _, cycle, -, hchild, -⟩ := hshifts.shift.forked_of_fork
    exact ⟨stage.activation, cycle, hchild⟩

/-- A machine in which no call is late executes its next node. -/
theorem step_of_punctual {machine : Machine} {around : Surroundings σ ρ}
    (h : machine.lateCall? around.now = none) (table : ActionTable σ ρ) :
    machine.step table around = machine.advance table around := by
  have hcheck : machine.checkDeadlines around = (.ok (), machine, around) := by
    unfold checkDeadlines
    dsimp only
    rw [h]
  unfold step
  cases hs : machine.stack with
  | nil =>
    unfold advance
    rw [hs]
  | cons top callers =>
    dsimp only
    rw [hcheck]

/-- Where a step leaves something on the stack, no call is late. -/
theorem punctual_of_stack_ne {table : ActionTable σ ρ} {machine : Machine}
    {around : Surroundings σ ρ} (h : (machine.step table around).machine.stack ≠ []) :
    machine.lateCall? around.now = none := by
  obtain ⟨hempty, hstep⟩ | ⟨error, after, last, hlate, hstep⟩ | ⟨hnone, -⟩ :=
    step_cases table machine around
  · rw [hstep] at h
    exact absurd hempty h
  · rw [hstep] at h
    exact absurd (stack_of_checkDeadlines hlate) h
  · exact hnone

/-- A step after which the innermost activation goes on. -/
theorem step_of_onward {machine : Machine} {around : Surroundings σ ρ}
    {top : Activation} {callers : List Activation} {effect : Effect} {stage : Stage σ ρ}
    {answer : Step} (hs : machine.stack = top :: callers) (hframes : top.frames ≠ [])
    (hpunctual : machine.lateCall? around.now = none)
    (hadvance : Stage.advance table ⟨top, around⟩ = (effect, stage))
    (honward : effect.onward? = some answer) :
    machine.step table around =
      ⟨.ok answer, { machine with stack := stage.activation :: callers }, stage.around⟩ := by
  rw [step_of_punctual hpunctual]
  unfold advance
  rw [hs]
  dsimp only
  rw [if_neg fun hnone => hframes (List.isEmpty_iff.1 hnone), hadvance]
  cases effect with
  | normal =>
    cases honward
    rfl
  | suspend ticks =>
    cases honward
    rfl
  | fork child =>
    cases honward
    rfl
  | stop => cases honward
  | call request => cases honward

end Machine

/-- What is below a frame. -/
structure Footing where
  /-- The frames below it in its activation, innermost first. -/
  outer : List Frame
  /-- The activations below its own, innermost first. -/
  callers : List Activation

/-- Requests go to the innermost loop there is. -/
theorem Frame.fromLoop_append (inner outer : List Frame) :
    fromLoop (inner ++ outer) =
      if fromLoop inner = [] then fromLoop outer else fromLoop inner ++ outer := by
  induction inner with
  | nil => rfl
  | cons frame rest ih =>
    cases frame with
    | block chain => exact ih
    | loop cycle => rfl

/-- The frames from the innermost loop on are the outermost ones. -/
theorem Frame.exists_append_fromLoop (frames : List Frame) :
    ∃ inner, frames = inner ++ fromLoop frames := by
  induction frames with
  | nil => exact ⟨[], rfl⟩
  | cons frame outer ih =>
    cases frame with
    | block chain =>
      obtain ⟨inner, hinner⟩ := ih
      exact ⟨.block chain :: inner, congrArg (Frame.block chain :: ·) hinner⟩
    | loop cycle => exact ⟨[], rfl⟩

/-- There are no more frames from the innermost loop on. -/
theorem Frame.length_fromLoop_le (frames : List Frame) :
    (fromLoop frames).length ≤ frames.length := by
  obtain ⟨inner, hinner⟩ := exists_append_fromLoop frames
  have hlength := congrArg List.length hinner
  rw [List.length_append] at hlength
  omega

/-- A caller that something is handed over to executes what it did before. -/
theorem PendingCall.HandsOver.same {pending : PendingCall} {locals : Locals}
    {before after : Activation} (h : pending.HandsOver locals before after) :
    after.frames = before.frames ∧ after.script = before.script ∧
      after.context.flags = before.context.flags := by
  cases h with
  | value _ _ _ _ _ _ same =>
    rw [same]
    exact ⟨rfl, rfl, rfl⟩
  | nothing _ same =>
    rw [same]
    exact ⟨rfl, rfl, rfl⟩

/-- A step above a frame leaves it and everything below it alone, or takes it away: by a
return, or by a request to a loop below it. -/
theorem Stage.Advances.above {σ ρ : Type} [RandomSource ρ] {stage : Stage σ ρ} {effect : Effect}
    {frames : List Frame} (h : stage.Advances effect frames) {first frame : Frame}
    {rest outer : List Frame}
    (hframes : stage.activation.frames = first :: (rest ++ frame :: outer)) :
    (∃ inner, frames = inner ++ frame :: outer) ∨ effect = .normal ∧
      ((frames = [] ∧ ∃ chain others index op, stage.activation.Facing chain others index op ∧
          op.category = .control ∧ op.action = some "return") ∨
        Frame.fromLoop [frame] = [] ∧ frames = Frame.fromLoop outer) := by
  have htail {below : Frame} {others : List Frame}
      (hbefore : stage.activation.frames = below :: others) : others = rest ++ frame :: outer :=
    (List.cons.inj (hbefore.symm.trans hframes)).2
  cases h with
  | leaves hbefore => exact .inl ⟨rest, htail hbefore⟩
  | waits hbefore => exact .inl ⟨_ :: rest, congrArg (_ :: ·) (htail hbefore)⟩
  | iterates hbefore => exact .inl ⟨_ :: _ :: rest, congrArg (_ :: _ :: ·) (htail hbefore)⟩
  | strays hbefore => exact .inl ⟨_ :: rest, congrArg (_ :: ·) (htail hbefore)⟩
  | @executes chain others _ index op _ hfacing hreframes =>
    obtain rfl := htail hfacing.frames
    cases hreframes with
    | stays heffect => exact .inl ⟨_ :: rest, rfl⟩
    | marks hbranches => exact .inl ⟨_ :: rest, rfl⟩
    | branches hbranches => exact .inl ⟨_ :: _ :: rest, rfl⟩
    | enters hcategory haction hloop => exact .inl ⟨_ :: _ :: rest, rfl⟩
    | splits hcategory haction hloop => exact .inl ⟨_ :: rest, rfl⟩
    | exits isBreak hcategory haction hloop =>
      have hbelow : Frame.fromLoop (rest ++ frame :: outer) = _ := hloop
      rw [← hbelow, Frame.fromLoop_append]
      split
      · cases frame with
        | loop cycle => exact .inl ⟨[], rfl⟩
        | block chain => exact .inr ⟨rfl, .inr ⟨rfl, rfl⟩⟩
      · exact .inl ⟨_, rfl⟩
    | returns hcategory haction =>
      exact .inr ⟨rfl, .inl ⟨rfl, _, _, index, op, hfacing, hcategory, haction⟩⟩

namespace Machine

/-- A frame is on the stack, with some activations above its own and some frames above it. -/
structure Carries (machine : Machine) (footing : Footing) (upper : List Activation)
    (holder : Activation) (inner : List Frame) (frame : Frame) : Prop where
  /-- These are the activations. -/
  stack : machine.stack = upper ++ holder :: footing.callers
  /-- These are the frames of the activation that the frame belongs to. -/
  frames : holder.frames = inner ++ frame :: footing.outer

/-- There is a frame with that footing. -/
def Bears (machine : Machine) (footing : Footing) : Prop :=
  ∃ upper holder inner frame, machine.Carries footing upper holder inner frame

/-- The frame with that footing is the innermost one. -/
def Shows (machine : Machine) (footing : Footing) (frame : Frame) : Prop :=
  ∃ holder, machine.Carries footing [] holder [] frame

section Carries

variable {machine : Machine} {footing : Footing} {upper other : List Activation}
  {holder another : Activation} {inner others : List Frame} {frame same : Frame}

/-- A frame belongs to the activation that stands on its footing. -/
theorem Carries.stack_unique (h : machine.Carries footing upper holder inner frame)
    (hstack : machine.stack = other ++ another :: footing.callers) :
    upper = other ∧ holder = another := by
  obtain ⟨hupper, hrest⟩ := List.append_inj' (h.stack.symm.trans hstack) rfl
  exact ⟨hupper, (List.cons.inj hrest).1⟩

/-- A footing bears one frame. -/
theorem Carries.unique (h : machine.Carries footing upper holder inner frame)
    (h' : machine.Carries footing other another others same) :
    upper = other ∧ holder = another ∧ inner = others ∧ frame = same := by
  obtain ⟨rfl, rfl⟩ := h.stack_unique h'.stack
  obtain ⟨rfl, hframes⟩ := List.append_inj' (h.frames.symm.trans h'.frames) rfl
  exact ⟨rfl, rfl, rfl, (List.cons.inj hframes).1⟩

/-- A machine with a frame has not ended. -/
theorem Carries.stack_ne (h : machine.Carries footing upper holder inner frame) :
    machine.stack ≠ [] := by
  rw [h.stack]
  exact List.append_ne_nil_of_right_ne_nil _ (List.cons_ne_nil _ _)

/-- A frame that is not the innermost one has something on it. -/
theorem Carries.covered (h : machine.Carries footing upper holder inner frame)
    (hhidden : ∀ same, ¬ machine.Shows footing same) : upper ≠ [] ∨ inner ≠ [] := by
  by_contra hnone
  rw [not_or, not_not, not_not] at hnone
  obtain ⟨rfl, rfl⟩ := hnone
  exact hhidden frame ⟨holder, h⟩

/-- Where an activation has no more frames than there are below a footing, the frame with that
footing is gone. -/
theorem not_bears_of_short {left : Activation} (hstack : machine.stack = left :: footing.callers)
    (hshort : left.frames.length ≤ footing.outer.length) : ¬ machine.Bears footing := by
  rintro ⟨upper, holder, inner, frame, h⟩
  have hown : machine.stack = [] ++ left :: footing.callers := hstack
  obtain ⟨-, rfl⟩ := h.stack_unique hown
  rw [h.frames, List.length_append, List.length_cons] at hshort
  omega

/-- A machine with a single activation bears the outermost frame of it. -/
theorem bears_of_single {count : Nat}
    (h : machine.stack.map (·.frames.length) = [count + 1]) : machine.Bears ⟨[], []⟩ := by
  obtain ⟨holder, hstack, hcount⟩ := List.map_eq_singleton_iff.1 h
  have hne : holder.frames ≠ [] := fun hnone => by simp [hnone] at hcount
  obtain ⟨inner, frame, hframes⟩ := (List.eq_nil_or_concat holder.frames).resolve_left hne
  exact ⟨[], holder, inner, frame, hstack, hframes.trans (List.concat_eq_append ..)⟩

/-- A single frame is the innermost one. -/
theorem shows_of_single (h : machine.stack.map (·.frames.length) = [1]) :
    ∃ frame, machine.Shows ⟨[], []⟩ frame := by
  obtain ⟨holder, hstack, hcount⟩ := List.map_eq_singleton_iff.1 h
  obtain ⟨frame, hframes⟩ := List.length_eq_one_iff.1 hcount
  exact ⟨frame, holder, hstack, hframes⟩

/-- Where there are several frames, the outermost one is not the innermost one. -/
theorem not_shows_of_several {count : Nat}
    (h : machine.stack.map (·.frames.length) = [count + 2]) (frame : Frame) :
    ¬ machine.Shows ⟨[], []⟩ frame := by
  rintro ⟨holder, hcarries⟩
  have hstack : machine.stack = [holder] := hcarries.stack
  have hframes : holder.frames = [frame] := hcarries.frames
  simp [hstack, hframes] at h

end Carries

/-- What a step above a frame makes of it. -/
inductive Above (footing : Footing) (upper : List Activation) (holder : Activation)
    (frame : Frame) (after : Machine) : Prop
  /-- The frame stays as it is. -/
  | stays (others : List Activation) {same : Activation} {inner : List Frame}
      (hscript : same.script = holder.script) (h : after.Carries footing others same inner frame)
  /-- Its activation is left by a return. -/
  | returns {left : Activation} {chain : Block} {others : List Frame} {index : Nat} {op : Op}
      (hown : upper = []) (hfacing : holder.Facing chain others index op)
      (hcategory : op.category = .control) (haction : op.action = some "return")
      (hstack : after.stack = left :: footing.callers) (hframes : left.frames = [])
  /-- A request goes to a loop below it. -/
  | exits {left : Activation} (hown : upper = []) (hblock : Frame.fromLoop [frame] = [])
      (hstack : after.stack = left :: footing.callers)
      (hframes : left.frames = Frame.fromLoop footing.outer)
  /-- The machine ends. -/
  | ends (hstack : after.stack = [])

variable {σ ρ : Type} [Host σ] [RandomSource ρ] {table : ActionTable σ ρ}

/-- A step above a frame. -/
theorem Carries.above {machine : Machine} {footing : Footing} {upper : List Activation}
    {holder : Activation} {inner : List Frame} {frame : Frame}
    (h : machine.Carries footing upper holder inner frame) (hcovered : upper ≠ [] ∨ inner ≠ [])
    (hformed : machine.Formed table.SparesRequests) (around : Surroundings σ ρ) :
    Above footing upper holder frame (machine.step table around).machine := by
  cases upper with
  | nil =>
    obtain ⟨first, rest, rfl⟩ := List.exists_cons_of_ne_nil (hcovered.resolve_left fun h => h rfl)
    cases hformed.proceeds h.stack table around with
    | @works effect stage answer hframes hadvance hstack =>
      have hscript := Stage.script_of_advance hadvance hframes
      have hmoves := (Stage.works_of_advance hadvance hframes).advances
      obtain ⟨others, hothers⟩ | ⟨-, ⟨hnone, _, _, _, _, hfacing, hcategory, haction⟩ |
        ⟨hblock, hbelow⟩⟩ := hmoves.above h.frames
      · exact .stays [] hscript ⟨hstack, hothers⟩
      · exact .returns rfl hfacing hcategory haction hstack hnone
      · exact .exits rfl hblock hstack hbelow
    | @calls request stage callee hframes hadvance hstack =>
      have hscript := Stage.script_of_advance hadvance hframes
      have hmoves := (Stage.works_of_advance hadvance hframes).advances
      obtain ⟨others, hothers⟩ | ⟨hnormal, -⟩ := hmoves.above h.frames
      · exact .stays [callee] hscript ⟨hstack, hothers⟩
      · cases hnormal
    | returns hframes =>
      rw [h.frames] at hframes
      cases hframes
    | ends hstack => exact .ends hstack
  | cons top rest =>
    have hstack : machine.stack = top :: (rest ++ holder :: footing.callers) := h.stack
    cases hformed.proceeds hstack table around with
    | @works effect stage answer hframes hadvance hstack =>
      exact .stays (stage.activation :: rest) rfl ⟨hstack, h.frames⟩
    | @calls request stage callee hframes hadvance hstack =>
      exact .stays (callee :: stage.activation :: rest) rfl ⟨hstack, h.frames⟩
    | @returns pending caller after outer hframes hcall hcallers hhanded hstack =>
      obtain ⟨hsame, hscript, -⟩ := hhanded.same
      cases rest with
      | nil =>
        cases hcallers
        exact .stays [] hscript ⟨hstack, hsame.trans h.frames⟩
      | cons next rest =>
        cases hcallers
        exact .stays (after :: rest) rfl ⟨hstack, h.frames⟩
    | ends hstack => exact .ends hstack

end Machine

/-- A machine and the surroundings in which it is stepped. -/
structure Visit (σ ρ : Type) where
  /-- The machine. -/
  machine : Machine
  /-- What surrounds it. -/
  around : Surroundings σ ρ

namespace Machine

variable {σ ρ : Type} [Host σ] [RandomSource ρ] {table : ActionTable σ ρ}

/-- The life of a frame from a machine on that bears it: the machine is stepped in whatever
surroundings, and the frame is never given up. The steps in which it is the innermost one are
its visits, in their order. -/
inductive Life (table : ActionTable σ ρ) (footing : Footing) (first : Machine) :
    List (Visit σ ρ) → Machine → Prop
  /-- Nothing has happened yet. -/
  | start : Life table footing first [] first
  /-- A step in which the frame is the innermost one. -/
  | own {visits : List (Visit σ ρ)} {machine : Machine} {frame : Frame}
      (past : Life table footing first visits machine) (shown : machine.Shows footing frame)
      (around : Surroundings σ ρ) (linked : around.ledger.registry.Linked)
      (kept : (machine.step table around).machine.Bears footing) :
      Life table footing first (visits ++ [⟨machine, around⟩]) (machine.step table around).machine
  /-- A step above the frame. -/
  | above {visits : List (Visit σ ρ)} {machine : Machine}
      (past : Life table footing first visits machine)
      (hidden : ∀ frame, ¬ machine.Shows footing frame) (around : Surroundings σ ρ)
      (linked : around.ledger.registry.Linked)
      (kept : (machine.step table around).machine.Bears footing) :
      Life table footing first visits (machine.step table around).machine

variable {footing : Footing} {first last : Machine} {visits : List (Visit σ ρ)}

/-- The machines along a life come up. -/
theorem Life.arises (h : Life table footing first visits last) (harises : first.Arises table) :
    last.Arises table := by
  induction h with
  | start => exact harises
  | own past shown around linked kept ih => exact ih.step around linked
  | above past hidden around linked kept ih => exact ih.step around linked

/-- A step in which a frame is the innermost one keeps to the script. -/
theorem Carries.script_eq {machine : Machine} {holder : Activation} {frame : Frame}
    (h : machine.Carries footing [] holder [] frame) {around : Surroundings σ ρ}
    (hformed : machine.Formed table.SparesRequests)
    {upper : List Activation} {same : Activation} {inner : List Frame} {next : Frame}
    (hafter : (machine.step table around).machine.Carries footing upper same inner next) :
    same.script = holder.script := by
  cases hformed.proceeds h.stack table around with
  | @works effect stage answer hframes hadvance hstack =>
    have hown : _ = [] ++ stage.activation :: footing.callers := hstack
    obtain ⟨-, rfl⟩ := hafter.stack_unique hown
    exact Stage.script_of_advance hadvance hframes
  | @calls request stage callee hframes hadvance hstack =>
    have hown : _ = [callee] ++ stage.activation :: footing.callers := hstack
    obtain ⟨-, rfl⟩ := hafter.stack_unique hown
    exact Stage.script_of_advance hadvance hframes
  | returns hframes =>
    rw [h.frames] at hframes
    cases hframes
  | ends hstack => exact absurd hstack hafter.stack_ne

/-- Where a frame is not given up, a step above it leaves it as it is. -/
theorem Carries.above_of_bears {machine : Machine} {upper : List Activation}
    {holder : Activation} {inner : List Frame} {frame : Frame}
    (h : machine.Carries footing upper holder inner frame)
    (hidden : ∀ frame, ¬ machine.Shows footing frame)
    (hformed : machine.Formed table.SparesRequests) {around : Surroundings σ ρ}
    (hkept : (machine.step table around).machine.Bears footing) :
    ∃ upper same inner, (machine.step table around).machine.Carries footing upper same inner frame ∧
      same.script = holder.script := by
  cases h.above (h.covered hidden) hformed around with
  | stays others hscript hstays => exact ⟨others, _, _, hstays, hscript⟩
  | returns hown hfacing hcategory haction hstack hframes =>
    exact absurd hkept (not_bears_of_short hstack (by simp [hframes]))
  | exits hown hblock hstack hframes =>
    refine absurd hkept (not_bears_of_short hstack ?_)
    rw [hframes]
    exact Frame.length_fromLoop_le footing.outer
  | ends hstack =>
    obtain ⟨_, _, _, _, hafter⟩ := hkept
    exact absurd hstack hafter.stack_ne

/-- What holds of a frame at first, and is kept up by its visits, holds of it all its life: what
happens above it makes no difference. -/
theorem Life.invariant {script : Script} {property : List (Visit σ ρ) → Frame → Prop}
    (h : Life table footing first visits last) (harises : first.Arises table)
    {upper : List Activation} {holder : Activation} {inner : List Frame} {frame : Frame}
    (hfirst : first.Carries footing upper holder inner frame) (hscript : holder.script = script)
    (hstart : property [] frame)
    (hvisit : ∀ visits machine around holder frame upper same inner next,
      machine.Carries footing [] holder [] frame → holder.script = script →
      machine.lateCall? around.now = none →
      (machine.step table around).machine.Carries footing upper same inner next →
      property visits frame → property (visits ++ [⟨machine, around⟩]) next) :
    ∃ upper holder inner frame, last.Carries footing upper holder inner frame ∧
      holder.script = script ∧ property visits frame := by
  induction h with
  | start => exact ⟨upper, holder, inner, frame, hfirst, hscript, hstart⟩
  | @own visits machine shown past hshown around linked kept ih =>
    obtain ⟨_, own, _, frame, hcarries, hown, hproperty⟩ := ih
    obtain ⟨same, hsame⟩ := hshown
    obtain ⟨rfl, rfl, rfl, rfl⟩ := hcarries.unique hsame
    obtain ⟨upper, same, inner, next, hafter⟩ := kept
    have hscript := hcarries.script_eq (past.arises harises).formed hafter
    exact ⟨upper, same, inner, next, hafter, hscript.trans hown,
      hvisit _ _ _ _ _ _ _ _ _ hcarries hown (punctual_of_stack_ne hafter.stack_ne) hafter
        hproperty⟩
  | @above visits machine past hidden around linked kept ih =>
    obtain ⟨_, own, _, frame, hcarries, hown, hproperty⟩ := ih
    obtain ⟨upper, same, inner, hafter, hscript⟩ :=
      hcarries.above_of_bears hidden (past.arises harises).formed kept
    exact ⟨upper, same, inner, frame, hafter, hscript.trans hown, hproperty⟩

end Machine

end GridScript
