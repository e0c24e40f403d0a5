import GridScript.Proofs.Invocation

/-!
# What a step asks for

Besides changing its activation, a step can ask for a wait, a call, a machine of
its own or the end of the run. Only the node of a loop splits a machine off. What
is split off has nothing but that loop: one activation without a call, in the
script it came from, for the same actor at the same origin.
-/

namespace GridScript

namespace Stage

variable {σ ρ : Type} [RandomSource ρ]

/-- A loop that was set up is the one of its node, before its first iteration, and
is to be split off if the node asked for it. -/
theorem newLoop_eq_ok {settings : Settings} {index : Nat} {op : Op} {action : String}
    {scene last : Scene σ ρ} {frame : LoopFrame} {fork : Bool}
    (h : newLoop settings index op action scene = (.ok (frame, fork), last)) :
    frame.op = index ∧ frame.body = op.body ∧
      ∃ before after : Scene σ ρ, Act.flag op "async" before = (.ok fork, after) := by
  unfold newLoop at h
  obtain ⟨delay, middle, -, h⟩ := Act.bind_eq_ok h
  have hrest : ∀ {ticks : Nat} {scene : Scene σ ρ}, (do
      let fork ← Act.flag op "async"
      let kind ← loopKind settings op action
      return ((⟨index, op.body, kind, 0, ticks, false⟩ : LoopFrame), fork) :
        Act σ ρ (LoopFrame × Bool)) scene = (.ok (frame, fork), last) →
      frame.op = index ∧ frame.body = op.body ∧
        ∃ before after : Scene σ ρ, Act.flag op "async" before = (.ok fork, after) := by
    intro ticks scene h
    obtain ⟨asked, after, hasked, h⟩ := Act.bind_eq_ok h
    obtain ⟨kind, _, -, h⟩ := Act.bind_eq_ok h
    cases h
    exact ⟨rfl, rfl, scene, after, hasked⟩
  cases delay with
  | none => exact hrest (Act.bind_eq_ok h).choose_spec.choose_spec.2
  | some value => exact hrest (Act.bind_eq_ok h).choose_spec.choose_spec.2

/-- A loop is split off as a machine of its own: the machine has nothing but that
loop, in the script and with the variables of the activation. -/
theorem enterLoop_fork {stage : Stage σ ρ} {index : Nat} {op : Op} {action : String}
    {child : Machine} (h : (stage.enterLoop index op action).1 = .fork child) :
    ∃ (after : Stage σ ρ) (frame : LoopFrame), Local stage after ∧
      child = forked after.activation frame ∧ frame.op = index ∧ frame.body = op.body ∧
      ∃ before last : Scene σ ρ, Act.flag op "async" before = (.ok true, last) := by
  have hl := local_run (keeps_newLoop stage.around.ledger.settings index op action) stage
  unfold enterLoop at h
  split at h <;> rename_i heq <;> rw [heq] at hl
  · cases h
  · rename_i frame after
    have hresult : (newLoop stage.around.ledger.settings index op action
        ⟨stage.activation.context, stage.around.host, stage.around.random⟩).1 =
          .ok (frame, true) := congrArg Prod.fst heq
    obtain ⟨hop, hbody, hasked⟩ := newLoop_eq_ok (Prod.ext hresult rfl)
    cases h
    exact ⟨after, frame, hl, rfl, hop, hbody, hasked⟩
  · cases h

/-- A loop between two iterations goes on or waits. -/
theorem loopBoundary_effect (stage : Stage σ ρ) (frame : LoopFrame) :
    (stage.loopBoundary frame).1 = .normal ∨
      ∃ ticks, 0 < ticks ∧ (stage.loopBoundary frame).1 = .suspend ticks := by
  unfold loopBoundary
  dsimp only
  split
  · exact .inl rfl
  · split
    · exact .inl rfl
    · split
      · rename_i hwait
        exact .inr ⟨frame.delay, hwait.2.1, rfl⟩
      · split <;> exact .inl rfl

/-- A call that is asked for is of a function that was named. -/
theorem requestCall_effect (stage : Stage σ ρ) (op : Op) :
    (stage.requestCall op).1 = .normal ∨ ∃ request, (stage.requestCall op).1 = .call request ∧
      ∃ before last : Scene σ ρ, Act.textArg op "function" before = (.ok request.function, last) := by
  unfold requestCall
  split
  · rename_i request after heq
    have hresult : (callRequest op
        ⟨stage.activation.context, stage.around.host, stage.around.random⟩).1 =
          .ok request := congrArg Prod.fst heq
    obtain ⟨name, middle, hname, hrest⟩ := Act.bind_eq_ok (Prod.ext hresult rfl)
    obtain ⟨result, _, -, hrest⟩ := Act.bind_eq_ok hrest
    obtain ⟨args, _, -, hrest⟩ := Act.bind_eq_ok hrest
    obtain ⟨named, _, -, hrest⟩ := Act.bind_eq_ok hrest
    cases hrest
    exact .inr ⟨_, rfl, _, middle, hname⟩
  · exact .inl rfl

variable [Host σ]

/-- A machine is split off by the node of a loop that comes next in a block. -/
structure Split (stage : Stage σ ρ) (child : Machine) (block : Block) (index : Nat) (op : Op)
    (frame : LoopFrame) : Prop where
  /-- The innermost frame is the block. -/
  frames : stage.activation.frames.head? = some (.block block)
  /-- The node comes next. -/
  next : block.next = some index
  /-- It is the node at that index. -/
  node : stage.activation.script.op? index = some op
  /-- It is a loop. -/
  category : op.category = .loop
  /-- It asks to be split off. -/
  asked : ∃ before last : Scene σ ρ, Act.flag op "async" before = (.ok true, last)
  /-- The loop is the one of the node. -/
  origin : frame.op = index
  /-- Its body is the one of the node. -/
  body : frame.body = op.body
  /-- The machine has nothing but the loop, for the same actor. -/
  child : ∃ after, Local stage after ∧ child = forked after.activation frame

/-- Among the nodes with an action, only loops, calls and actions do more than to
change the activation. -/
theorem execAction_effect {table : ActionTable σ ρ} {stage : Stage σ ρ} {index : Nat} {op : Op}
    {armed : Bool} {action : String} {effect : Effect}
    (h : (stage.execAction table index op armed action).1 = effect) (hne : effect ≠ .normal) :
    (op.category = .loop ∧ (stage.enterLoop index op action).1 = effect) ∨
      (op.category = .call ∧ (stage.requestCall op).1 = effect) ∨
      (stage.perform table op action).1 = effect := by
  have hbranch : (stage.branch table op action).1 = .normal := by
    unfold branch
    split <;> rfl
  have hexit (isBreak : Bool) : (stage.exitLoop isBreak).1 = .normal := by
    unfold exitLoop
    split <;> rfl
  unfold execAction at h
  cases hc : op.category <;> rw [hc] at h <;> dsimp only at h
  case loop => exact .inl ⟨rfl, h⟩
  case call => exact .inr (.inl ⟨rfl, h⟩)
  case condition => exact absurd (hbranch.symm.trans h).symm hne
  case alternative =>
    split at h
    · exact absurd (hbranch.symm.trans h).symm hne
    · exact absurd h.symm hne
  case control =>
    split at h
    · exact absurd ((hexit true).symm.trans h).symm hne
    · exact absurd ((hexit false).symm.trans h).symm hne
    · exact absurd h.symm hne
    · exact .inr (.inr h)
  case action => exact .inr (.inr h)
  case assignment => exact .inr (.inr h)
  all_goals exact absurd h.symm hne

/-- What does more than to change the activation is a loop between two iterations,
or a node with an action that comes next in a block. -/
theorem advance_effect {table : ActionTable σ ρ} {stage : Stage σ ρ} {effect : Effect}
    (h : (stage.advance table).1 = effect) (hne : effect ≠ .normal) :
    (∃ frame, (stage.loopBoundary frame).1 = effect) ∨
      ∃ block index op action armed, ∃ inside : Stage σ ρ,
        stage.activation.frames.head? = some (.block block) ∧ block.next = some index ∧
        stage.activation.script.op? index = some op ∧ Local stage inside ∧
        (inside.execAction table index op armed action).1 = effect := by
  unfold advance at h
  cases hframes : stage.activation.frames with
  | nil =>
    rw [hframes] at h
    exact absurd h.symm hne
  | cons frame outer =>
    rw [hframes] at h
    cases frame with
    | loop frame => exact .inl ⟨frame, h⟩
    | block block =>
      cases hnext : block.next with
      | none =>
        simp only [hnext] at h
        exact absurd h.symm hne
      | some index =>
        cases hop : stage.activation.script.op? index with
        | none =>
          simp only [hnext, hop] at h
          exact absurd h.symm hne
        | some op =>
          simp only [hnext, hop] at h
          unfold exec at h
          split at h
          · exact absurd h.symm hne
          · split at h
            · exact absurd h.symm hne
            · refine .inr ⟨block, index, op, _, _, _, rfl, hnext, hop, ?_, h⟩
              exact ⟨rfl, rfl, rfl, rfl, rfl⟩

/-- An action goes on, waits or ends the run. -/
theorem perform_effect (table : ActionTable σ ρ) (stage : Stage σ ρ) (op : Op) (action : String) :
    (stage.perform table op action).1 = .normal ∨ (stage.perform table op action).1 = .stop ∨
      ∃ ticks, (stage.perform table op action).1 = .suspend ticks ∧
        ∃ before last, table.action action op before = (.ok (.suspend ticks), last) := by
  unfold perform
  split
  · exact .inl rfl
  · rename_i ticks after heq
    have hresult : (table.action action op
        ⟨stage.activation.context, stage.around.host, stage.around.random⟩).1 =
          .ok (.suspend ticks) := congrArg Prod.fst heq
    exact .inr (.inr ⟨ticks, rfl, _, _, Prod.ext hresult rfl⟩)
  · exact .inr (.inl rfl)
  · exact .inl rfl

/-- Every machine is split off like that. -/
theorem advance_fork {table : ActionTable σ ρ} {stage : Stage σ ρ} {child : Machine}
    (h : (stage.advance table).1 = .fork child) :
    ∃ block index op frame, Split stage child block index op frame := by
  obtain ⟨frame, h⟩ | ⟨block, index, op, action, armed, inside, hframes, hnext, hop, hl, h⟩ :=
    advance_effect h Effect.noConfusion
  · obtain hnormal | ⟨ticks, -, hwait⟩ := loopBoundary_effect stage frame
    · cases hnormal.symm.trans h
    · cases hwait.symm.trans h
  · obtain ⟨hcategory, h⟩ | ⟨-, h⟩ | h := execAction_effect h Effect.noConfusion
    · obtain ⟨after, frame, hlocal, hchild, hindex, hbody, hasked⟩ := enterLoop_fork h
      exact ⟨block, index, op, frame, hframes, hnext, hop, hcategory, hasked, hindex, hbody,
        after, hl.trans hlocal, hchild⟩
    · obtain hnormal | ⟨request, hcall, -⟩ := requestCall_effect inside op
      · cases hnormal.symm.trans h
      · cases hcall.symm.trans h
    · obtain hnormal | hstop | ⟨ticks, hwait, -⟩ := perform_effect table inside op action
      · cases hnormal.symm.trans h
      · cases hstop.symm.trans h
      · cases hwait.symm.trans h

end Stage

end GridScript
