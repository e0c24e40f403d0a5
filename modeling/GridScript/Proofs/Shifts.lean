import GridScript.Proofs.Standing

/-!
# What one step can do

All that one step can make of the frames of an activation: a block moves on along a
link, opens what a node contains or is left, a loop turns to its next iteration, waits
or is left, and a request or a return gives frames up. Requests to loops are set by the
step that uncovers the loop and taken back by the next one; actions leave them alone.
-/

namespace GridScript

/-- The frames from the innermost loop on begin with a loop, if there is one. -/
theorem Frame.fromLoop_cases (frames : List Frame) :
    fromLoop frames = [] ∨ ∃ cycle rest, fromLoop frames = .loop cycle :: rest := by
  induction frames with
  | nil => exact .inl rfl
  | cons frame outer ih =>
    cases frame with
    | loop cycle => exact .inr ⟨cycle, outer, rfl⟩
    | block chain => exact ih

namespace Act

variable {σ ρ α β : Type}

/-- A computation that leaves requests to loops alone. -/
def SparesRequests (act : Act σ ρ α) : Prop :=
  ∀ scene : Scene σ ρ, (act scene).2.context.flags = scene.context.flags

/-- What keeps the invocation leaves requests alone. -/
theorem Keeps.sparesRequests {act : Act σ ρ α} (h : act.Keeps) : act.SparesRequests :=
  fun scene => (h scene).flags

/-- Two computations in a row leave requests alone if both do. -/
theorem SparesRequests.bind {act : Act σ ρ α} {next : α → Act σ ρ β} (h : act.SparesRequests)
    (hn : ∀ value, (next value).SparesRequests) : SparesRequests (act >>= next) := by
  intro scene
  have hs := h scene
  rw [bind_apply]
  cases ha : act scene with
  | mk result after =>
    rw [ha] at hs
    cases result with
    | error fault => exact hs
    | ok value => exact (hn value after).trans hs

end Act

/-- Actions and conditions that leave requests to loops alone. -/
structure ActionTable.SparesRequests {σ ρ : Type} [Host σ] [RandomSource ρ]
    (table : ActionTable σ ρ) : Prop where
  /-- Actions do. -/
  action : ∀ name op, (table.action name op).SparesRequests
  /-- Conditions do. -/
  condition : ∀ name op, (table.condition name op).SparesRequests

/-- What keeps the invocation leaves requests alone. -/
theorem ActionTable.Keeps.sparesRequests {σ ρ : Type} [Host σ] [RandomSource ρ]
    {table : ActionTable σ ρ} (h : table.Keeps) : table.SparesRequests :=
  ⟨fun name op => (h.action name op).sparesRequests,
    fun name op => (h.condition name op).sparesRequests⟩

/-- The innermost frame of an activation is a block in which a node comes next. -/
structure Activation.Facing (activation : Activation) (chain : Block) (outer : List Frame)
    (index : Nat) (op : Op) : Prop where
  /-- The innermost frame is the block. -/
  frames : activation.frames = .block chain :: outer
  /-- The node comes next. -/
  next : chain.next = some index
  /-- It is the node at that index. -/
  node : activation.script.op? index = some op

/-- All that one step can make of the frames and requests of an activation, with what it
asks the machine for. Nodes leave requests alone if their handlers spare them. -/
inductive Activation.Shift (spared : Prop) (before after : Activation) : Effect → Prop
  /-- A block with nothing left is left. -/
  | finished {chain : Block} {outer : List Frame} (hbefore : before.frames = .block chain :: outer)
      (hafter : after.frames = outer) (hflags : after.context.flags = before.context.flags) :
      Shift spared before after .normal
  /-- A loop is left. -/
  | exhausted {cycle : LoopFrame} {outer : List Frame}
      (hbefore : before.frames = .loop cycle :: outer) (hafter : after.frames = outer)
      (hflags : after.context.flags = .none) : Shift spared before after .normal
  /-- A loop waits. -/
  | waits {cycle : LoopFrame} {outer : List Frame} {ticks : Nat}
      (hbefore : before.frames = .loop cycle :: outer)
      (hafter : after.frames = .loop { cycle with waited := true } :: outer)
      (hflags : after.context.flags = .none) : Shift spared before after (.suspend ticks)
  /-- A loop begins an iteration. -/
  | iterates {cycle : LoopFrame} {outer : List Frame}
      (hbefore : before.frames = .loop cycle :: outer)
      (hafter : after.frames = .block ⟨cycle.body, .loopBody, false⟩ ::
        .loop { cycle with iteration := cycle.iteration + 1, waited := false } :: outer)
      (hflags : after.context.flags = .none) : Shift spared before after .normal
  /-- There is no node where one should come next. -/
  | strays {chain : Block} {outer : List Frame} {index : Nat}
      (hbefore : before.frames = .block chain :: outer) (hnext : chain.next = some index)
      (hnode : before.script.op? index = none) : Shift spared before after .normal
  /-- A node is passed, and may ask for anything but a machine of its own. -/
  | passes {chain : Block} {outer : List Frame} {index : Nat} {op : Op} {armed : Bool}
      {effect : Effect} (hbefore : before.Facing chain outer index op)
      (hafter : after.frames = .block ⟨op.next, chain.kind, armed⟩ :: outer)
      (hflags : spared → after.context.flags = before.context.flags)
      (heffect : ∀ child, effect ≠ .fork child) : Shift spared before after effect
  /-- The node of a loop is passed, and the loop is split off. -/
  | splits {chain : Block} {outer : List Frame} {index : Nat} {op : Op} {cycle : LoopFrame}
      (hbefore : before.Facing chain outer index op)
      (hafter : after.frames = .block ⟨op.next, chain.kind, false⟩ :: outer)
      (hflags : spared → after.context.flags = before.context.flags) (hop : cycle.op = index)
      (hbody : cycle.body = op.body) :
      Shift spared before after (.fork (Stage.forked after cycle))
  /-- What a condition or alternative contains is entered. -/
  | branches {chain : Block} {outer : List Frame} {index : Nat} {op : Op}
      (hbefore : before.Facing chain outer index op)
      (hafter : after.frames =
        .block ⟨op.body, .branch, false⟩ :: .block ⟨op.next, chain.kind, false⟩ :: outer)
      (hflags : spared → after.context.flags = before.context.flags) :
      Shift spared before after .normal
  /-- A loop is entered. -/
  | enters {chain : Block} {outer : List Frame} {index : Nat} {op : Op} {cycle : LoopFrame}
      (hbefore : before.Facing chain outer index op)
      (hafter : after.frames = .loop cycle :: .block ⟨op.next, chain.kind, false⟩ :: outer)
      (hflags : spared → after.context.flags = before.context.flags) (hop : cycle.op = index)
      (hbody : cycle.body = op.body) : Shift spared before after .normal
  /-- Everything inside of the innermost loop is given up. -/
  | exits {chain : Block} {outer rest : List Frame} {cycle : LoopFrame}
      (hbefore : before.frames = .block chain :: outer)
      (hloop : Frame.fromLoop outer = .loop cycle :: rest)
      (hafter : after.frames = .loop cycle :: rest) : Shift spared before after .normal
  /-- All frames are given up. -/
  | returns {chain : Block} {outer : List Frame} (hbefore : before.frames = .block chain :: outer)
      (hafter : after.frames = []) (hflags : spared → after.context.flags = before.context.flags) :
      Shift spared before after .normal

namespace Stage

variable {σ ρ : Type}

/-- Two stages of one script, call and ledger. -/
structure SamePlace (before after : Stage σ ρ) : Prop where
  /-- The script is the same. -/
  script : after.activation.script = before.activation.script
  /-- The call is the same. -/
  call : after.activation.call = before.activation.call
  /-- The ledger is the same. -/
  ledger : after.around.ledger = before.around.ledger

/-- What a step makes of a stage: its activation shifts, in the same place. -/
structure Shifts (spared : Prop) (before : Stage σ ρ) (result : Effect × Stage σ ρ) : Prop
    extends SamePlace before result.2 where
  /-- The activation shifts. -/
  shift : before.activation.Shift spared result.2.activation result.1

/-- A stage that was in front of a node, with the block moved on to what follows. -/
structure Passing (spared : Prop) (before stage : Stage σ ρ) (chain : Block)
    (outer : List Frame) (index : Nat) (op : Op) : Prop extends SamePlace before stage where
  /-- The node came next. -/
  facing : before.activation.Facing chain outer index op
  /-- The block has moved on. -/
  frames : stage.activation.frames = .block ⟨op.next, chain.kind, false⟩ :: outer
  /-- Requests are as before. -/
  flags : spared → stage.activation.context.flags = before.activation.context.flags

namespace Passing

variable {spared : Prop} {before stage : Stage σ ρ} {chain : Block} {outer : List Frame}
  {index : Nat} {op : Op}

/-- A computation that leaves requests alone. -/
theorem run {α : Type} {act : Act σ ρ α} (h : Passing spared before stage chain outer index op)
    (ha : spared → act.SparesRequests) :
    Passing spared before (stage.run act).2 chain outer index op where
  script := h.script
  call := h.call
  ledger := h.ledger
  facing := h.facing
  frames := h.frames
  flags hs := (ha hs _).trans (h.flags hs)

/-- A notice. -/
theorem note (h : Passing spared before stage chain outer index op) (notice : Notice) :
    Passing spared before (stage.note notice) chain outer index op where
  script := h.script
  call := h.call
  ledger := h.ledger
  facing := h.facing
  frames := h.frames
  flags := h.flags

/-- A node that does nothing to the frames. -/
theorem passes (h : Passing spared before stage chain outer index op) {effect : Effect}
    (he : ∀ child, effect ≠ .fork child) : Shifts spared before (effect, stage) :=
  ⟨h.toSamePlace, .passes h.facing h.frames h.flags he⟩

/-- A condition or alternative that is entered. -/
theorem branches (h : Passing spared before stage chain outer index op) :
    Shifts spared before (.normal, stage.mapActivation (·.enter op.body .branch)) :=
  ⟨⟨h.script, h.call, h.ledger⟩,
    .branches h.facing (congrArg (Frame.block ⟨op.body, .branch, false⟩ :: ·) h.frames) h.flags⟩

/-- A condition that does not hold. -/
theorem armElse (h : Passing spared before stage chain outer index op) :
    Shifts spared before (.normal, stage.mapActivation (·.armElse)) := by
  have harmed : stage.activation.armElse =
      { stage.activation with frames := .block ⟨op.next, chain.kind, true⟩ :: outer } := by
    simp only [Activation.armElse, h.frames]
  unfold mapActivation
  dsimp only
  rw [harmed]
  exact ⟨⟨h.script, h.call, h.ledger⟩, .passes h.facing rfl h.flags nofun⟩

/-- A request to the innermost loop. -/
theorem exitLoop (h : Passing spared before stage chain outer index op) (isBreak : Bool) :
    Shifts spared before (stage.exitLoop isBreak) := by
  have hfrom : Frame.fromLoop stage.activation.frames = Frame.fromLoop outer := by
    rw [h.frames]
    rfl
  unfold Stage.exitLoop
  rw [hfrom]
  obtain hnone | ⟨cycle, rest, hloop⟩ := Frame.fromLoop_cases outer
  · rw [hnone]
    exact (h.note _).passes nofun
  · rw [hloop]
    exact ⟨⟨h.script, h.call, h.ledger⟩, .exits h.facing.frames hloop rfl⟩

variable [RandomSource ρ]

/-- The node of a loop. -/
theorem enterLoop (h : Passing spared before stage chain outer index op) (action : String) :
    Shifts spared before (stage.enterLoop index op action) := by
  have hrun := h.run fun _ =>
    (keeps_newLoop stage.around.ledger.settings index op action).sparesRequests
  have hframe {frame : LoopFrame} {fork : Bool} {after : Stage σ ρ}
      (heq : stage.run (newLoop stage.around.ledger.settings index op action) =
        (.ok (frame, fork), after)) : frame.op = index ∧ frame.body = op.body := by
    have hresult : (newLoop stage.around.ledger.settings index op action
        ⟨stage.activation.context, stage.around.host, stage.around.random⟩).1 =
          .ok (frame, fork) := congrArg Prod.fst heq
    obtain ⟨hop, hbody, -⟩ := newLoop_eq_ok (Prod.ext hresult rfl)
    exact ⟨hop, hbody⟩
  unfold Stage.enterLoop
  split <;> rename_i heq <;> rw [heq] at hrun
  · exact (hrun.note _).passes nofun
  · obtain ⟨hop, hbody⟩ := hframe heq
    exact ⟨hrun.toSamePlace, .splits hrun.facing hrun.frames hrun.flags hop hbody⟩
  · obtain ⟨hop, hbody⟩ := hframe heq
    exact ⟨⟨hrun.script, hrun.call, hrun.ledger⟩,
      .enters hrun.facing (congrArg (_ :: ·) hrun.frames) hrun.flags hop hbody⟩

/-- The node of a call. -/
theorem requestCall (h : Passing spared before stage chain outer index op) :
    Shifts spared before (stage.requestCall op) := by
  have hrun := h.run fun _ => (keeps_callRequest op).sparesRequests
  unfold Stage.requestCall
  split <;> rename_i heq <;> rw [heq] at hrun
  · exact hrun.passes nofun
  · exact (hrun.note _).passes nofun

/-- A return. -/
theorem leaveActivation (h : Passing spared before stage chain outer index op) :
    Shifts spared before (stage.leaveActivation op) := by
  have hrun := h.run fun _ => (Act.keeps_arg? op "value").sparesRequests
  unfold Stage.leaveActivation
  generalize stage.run (Act.arg? op "value") = answer at hrun ⊢
  obtain ⟨result, after⟩ := answer
  have hreturns : ∀ last : Stage σ ρ, SamePlace after last →
      last.activation.context.flags = after.activation.context.flags →
      Shifts spared before (.normal, last.mapActivation ({ · with frames := [] })) := by
    intro last hplace hflags
    exact ⟨⟨hplace.script.trans hrun.script, hplace.call.trans hrun.call,
      hplace.ledger.trans hrun.ledger⟩,
      .returns h.facing.frames rfl fun hs => hflags.trans (hrun.flags hs)⟩
  match result with
  | .error fault => exact hreturns _ ⟨rfl, rfl, rfl⟩ rfl
  | .ok none => exact hreturns _ ⟨rfl, rfl, rfl⟩ rfl
  | .ok (some value) => exact hreturns _ ⟨rfl, rfl, rfl⟩ rfl

variable [Host σ] {table : ActionTable σ ρ}

/-- An action. -/
theorem perform (h : Passing table.SparesRequests before stage chain outer index op)
    (action : String) : Shifts table.SparesRequests before (stage.perform table op action) := by
  have hrun := h.run fun hs => hs.action action op
  unfold Stage.perform
  split <;> rename_i heq <;> rw [heq] at hrun
  · exact hrun.passes nofun
  · exact hrun.passes nofun
  · exact hrun.passes nofun
  · exact (hrun.note _).passes nofun

/-- A condition. -/
theorem branch (h : Passing table.SparesRequests before stage chain outer index op)
    (action : String) : Shifts table.SparesRequests before (stage.branch table op action) := by
  have hdecision (hs : table.SparesRequests) : (decision table op action).SparesRequests :=
    (hs.condition action op).bind fun _ =>
      ((Act.keeps_flag op _).sparesRequests).bind fun _ => (Act.keeps_pure _).sparesRequests
  have hdecide : Passing table.SparesRequests before (stage.decide table op action).2
      chain outer index op := by
    have hrun := h.run hdecision
    unfold Stage.decide
    split <;> rename_i heq <;> rw [heq] at hrun
    · exact hrun
    · exact hrun.note _
  unfold Stage.branch
  split <;> rename_i heq <;> rw [heq] at hdecide
  · exact hdecide.branches
  · exact hdecide.armElse

/-- A node. -/
theorem exec (h : Passing table.SparesRequests before stage chain outer index op) (armed : Bool) :
    Shifts table.SparesRequests before (stage.exec table index op armed) := by
  unfold Stage.exec
  split
  · cases armed with
    | true => exact h.branches
    | false => exact h.passes nofun
  · split
    · exact h.passes nofun
    · unfold execAction
      split
      · exact h.passes nofun
      · exact h.passes nofun
      · exact h.passes nofun
      · exact h.branch _
      · split
        · exact h.branch _
        · exact h.passes nofun
      · exact h.enterLoop _
      · exact h.requestCall
      · split
        · exact h.exitLoop true
        · exact h.exitLoop false
        · exact h.leaveActivation
        · exact h.perform _
      · exact h.perform _
      · exact h.perform _

end Passing

/-- A stage between two iterations of a loop, after requests were taken note of. -/
structure Pausing (before stage : Stage σ ρ) (cycle : LoopFrame) (outer : List Frame) : Prop
    extends SamePlace before stage where
  /-- The loop was the innermost frame. -/
  facing : before.activation.frames = .loop cycle :: outer
  /-- It still is. -/
  frames : stage.activation.frames = .loop cycle :: outer
  /-- No requests are left. -/
  flags : stage.activation.context.flags = .none

namespace Pausing

variable {spared : Prop} {before stage : Stage σ ρ} {cycle : LoopFrame} {outer : List Frame}

/-- A notice. -/
theorem note (h : Pausing before stage cycle outer) (notice : Notice) :
    Pausing before (stage.note notice) cycle outer where
  script := h.script
  call := h.call
  ledger := h.ledger
  facing := h.facing
  frames := h.frames
  flags := h.flags

/-- The loop is left. -/
theorem leave (h : Pausing before stage cycle outer) :
    Shifts spared before (.normal, stage.mapActivation (·.leave)) :=
  ⟨⟨h.script, h.call, h.ledger⟩, .exhausted h.facing (congrArg List.tail h.frames) h.flags⟩

/-- The loop goes on as another one. -/
theorem setLoop (h : Pausing before stage cycle outer) (other : LoopFrame) :
    (stage.setLoop other).activation.frames = .loop other :: outer := by
  simp only [Stage.setLoop, mapActivation, h.frames, List.tail_cons]

/-- The loop waits. -/
theorem waits (h : Pausing before stage cycle outer) (ticks : Nat) :
    Shifts spared before (.suspend ticks, stage.setLoop { cycle with waited := true }) :=
  ⟨⟨h.script, h.call, h.ledger⟩, .waits h.facing (h.setLoop _) h.flags⟩

/-- The loop begins an iteration. -/
theorem iterate (h : Pausing before stage cycle outer) :
    Shifts spared before (.normal, stage.iterate cycle) := by
  have hset (stage : Stage σ ρ) (kind : LoopKind) (iteration : Nat) :
      SamePlace stage (stage.setLoopVariable kind iteration) ∧
        (stage.setLoopVariable kind iteration).activation.frames = stage.activation.frames ∧
        (stage.setLoopVariable kind iteration).activation.context.flags =
          stage.activation.context.flags := by
    unfold setLoopVariable
    split
    · exact ⟨⟨rfl, rfl, rfl⟩, rfl, rfl⟩
    · split <;> exact ⟨⟨rfl, rfl, rfl⟩, rfl, rfl⟩
    · exact ⟨⟨rfl, rfl, rfl⟩, rfl, rfl⟩
  obtain ⟨hplace, hframes, hflags⟩ := hset
    (stage.setLoop { cycle with iteration := cycle.iteration + 1, waited := false }) cycle.kind
    (cycle.iteration + 1)
  refine ⟨⟨hplace.script.trans h.script, hplace.call.trans h.call,
    hplace.ledger.trans h.ledger⟩, .iterates h.facing ?_ (hflags.trans h.flags)⟩
  exact congrArg (Frame.block ⟨cycle.body, .loopBody, false⟩ :: ·) (hframes.trans (h.setLoop _))

variable [RandomSource ρ]

/-- The condition of the loop is evaluated. -/
theorem keepsOn (h : Pausing before stage cycle outer) :
    Pausing before (stage.keepsOn cycle).2 cycle outer := by
  unfold Stage.keepsOn
  split
  · have hrun : Pausing before
        (stage.run (loopCondition (stage.activation.script.op? cycle.op))).2 cycle outer :=
      { script := h.script, call := h.call, ledger := h.ledger, facing := h.facing,
        frames := h.frames, flags := ((keeps_loopCondition _).sparesRequests _).trans h.flags }
    split <;> rename_i heq <;> rw [heq] at hrun
    · exact hrun
    · exact hrun.note _
  · exact h

end Pausing

variable [RandomSource ρ]

/-- What happens between two iterations. -/
theorem shifts_loopBoundary {spared : Prop} {stage : Stage σ ρ} {cycle : LoopFrame}
    {outer : List Frame} (h : stage.activation.frames = .loop cycle :: outer) :
    Shifts spared stage (stage.loopBoundary cycle) := by
  have hclear : Pausing stage (stage.mapActivation fun activation =>
      { activation with context := { activation.context with flags := .none } }) cycle outer :=
    { script := rfl, call := rfl, ledger := rfl, facing := h, frames := h, flags := rfl }
  unfold loopBoundary
  dsimp only
  generalize stage.mapActivation _ = cleared at hclear ⊢
  split
  · exact hclear.leave
  · split
    · split
      · exact (hclear.note _).leave
      · exact hclear.leave
    · split
      · exact hclear.waits _
      · have hkeeps := hclear.keepsOn
        split <;> rename_i heq <;> rw [heq] at hkeeps
        · exact hkeeps.leave
        · exact hkeeps.iterate

variable [Host σ] {table : ActionTable σ ρ}

/-- Every step of an activation with something left to do is one of these shifts. -/
theorem shifts_advance {stage : Stage σ ρ} (h : stage.activation.frames ≠ []) :
    Shifts table.SparesRequests stage (stage.advance table) := by
  unfold advance
  split
  · rename_i hframes
    exact absurd hframes h
  · rename_i cycle outer hframes
    exact shifts_loopBoundary hframes
  · rename_i chain outer hframes
    split
    · exact ⟨⟨rfl, rfl, rfl⟩, .finished hframes (congrArg List.tail hframes) rfl⟩
    · rename_i index hnext
      dsimp only
      split
      · rename_i hnode
        exact ⟨⟨rfl, rfl, rfl⟩, .strays hframes hnext hnode⟩
      · rename_i op hnode
        have hpassing : Passing table.SparesRequests stage (stage.mapActivation
            ({ · with frames := .block ⟨op.next, chain.kind, false⟩ :: outer })) chain outer
            index op :=
          { script := rfl, call := rfl, ledger := rfl, facing := ⟨hframes, hnext, hnode⟩,
            frames := rfl, flags := fun _ => rfl }
        rw [hnode]
        exact hpassing.exec chain.elseArmed

end Stage

end GridScript
