import GridScript.Host.Minimal
import GridScript.Proofs.Linking
import GridScript.Proofs.Realisation

/-!
# Machines implement the structured meaning

A loop is realised by induction on the bound of its iterations: every iteration
takes the machine at least one step. Trees are realised by recursion on the tree,
since a script holds the parts of a tree where the nodes are linked to. So a
machine that runs a linked chain comes to what the chain means, and to nothing
else.
-/

namespace GridScript

open Situation Progress Meaning

variable {σ ρ : Type} {situation : Situation σ ρ} {script : Script} {index : Nat}
  {head : Instruction} {body next after : Option Nat} {kind : LoopKind} {iteration delay : Nat}
  {waited : Bool} {flags : LoopFlags} {outer : List Frame}

/-- A computation with its value changed. -/
theorem Situation.act_map {α β : Type} (situation : Situation σ ρ) (change : α → β)
    (act : Act σ ρ α) :
    situation.act (change <$> act) =
      ((situation.act act).1.map change, (situation.act act).2) := by
  have he : (change <$> act) = act >>= fun value => pure (change value) :=
    map_eq_pure_bind change act
  unfold Situation.act
  rw [he, Act.bind_apply]
  generalize act ⟨situation.context, situation.around.host, situation.around.random⟩ = answer
  match answer with
  | (.ok value, scene) => rfl
  | (.error fault, scene) => rfl

/-- The variable of a loop is set as it is in the situation. -/
theorem setLoopVariable_stage (situation : Situation σ ρ) (script : Script) (kind : LoopKind)
    (iteration : Nat) (frames : List Frame) :
    (situation.stage script frames).setLoopVariable kind (iteration + 1) =
      (Meaning.enter kind iteration situation).stage script frames := by
  unfold Stage.setLoopVariable Meaning.enter
  cases kind with
  | times count counter => cases counter <;> rfl
  | forEach items name =>
    dsimp only [LoopKind.binding?]
    rw [Nat.add_sub_cancel]
    cases items[iteration]? <;> rfl
  | whileTrue limit => rfl
  | forever => rfl

/-- Requests to a loop are cleared at its boundary. -/
theorem clear_stage (hc : situation.Calm) (frames : List Frame) :
    ((situation.flagged flags).stage script frames).mapActivation (fun activation =>
        { activation with context := { activation.context with flags := .none } }) =
      situation.stage script frames := by
  unfold Situation.Calm at hc
  dsimp only [stage, flagged, Stage.mapActivation]
  rw [← hc]

/-- Setting the variable of a loop neither waits nor leaves requests open. -/
theorem Situation.Calm.enter (hc : situation.Calm) (kind : LoopKind) (iteration : Nat) :
    (Meaning.enter kind iteration situation).Calm ∧
      (Meaning.enter kind iteration situation).waits = situation.waits := by
  unfold Meaning.enter
  split
  · exact ⟨hc, rfl⟩
  · exact ⟨hc, rfl⟩

/-- The end of a loop neither waits nor leaves requests open. -/
theorem Situation.Calm.exhausted (hc : situation.Calm) (kind : LoopKind) :
    (Meaning.exhausted kind situation).Calm ∧
      (Meaning.exhausted kind situation).waits = situation.waits := by
  unfold Meaning.exhausted
  split
  · exact ⟨hc, rfl⟩
  · exact ⟨hc, rfl⟩

variable [RandomSource ρ]

/-- A loop is set up as planned, in front of its first iteration. -/
theorem Meaning.newLoop_eq_plan (settings : Settings) (index : Nat) (head : Instruction)
    (body next : Option Nat) (action : String) :
    (Stage.newLoop settings index (head.link body next) action : Act σ ρ (LoopFrame × Bool)) =
      (fun (kind, delay, fork) => (⟨index, body, kind, 0, delay, false⟩, fork)) <$>
        plan settings head.alone action := by
  unfold Stage.newLoop plan
  simp only [map_bind]
  refine bind_congr fun delay => ?_
  cases delay with
  | none =>
    simp only [map_bind, map_pure]
    rfl
  | some value =>
    simp only [map_bind, map_pure]
    rfl

/-- Planning a loop keeps the invocation. -/
theorem Meaning.keeps_plan (settings : Settings) (op : Op) (action : String) :
    (plan settings op action : Act σ ρ (LoopKind × Nat × Bool)).Keeps := by
  refine Act.keeps_bind (Act.keeps_arg? op _) fun delay => ?_
  have hrest (delay : Nat) : Act.Keeps (do
      let fork ← Act.flag op "async"
      let kind ← Stage.loopKind settings op action
      return (kind, delay, fork) : Act σ ρ (LoopKind × Nat × Bool)) :=
    Act.keeps_bind (Act.keeps_flag op _) fun _ =>
      Act.keeps_bind (Stage.keeps_loopKind settings op action) fun _ => Act.keeps_pure _
  cases delay with
  | none => exact Act.keeps_bind (Act.keeps_pure _) hrest
  | some value => exact Act.keeps_bind (Act.keeps_lift _) hrest

/-- The condition of a loop is evaluated as it is in the situation. -/
theorem keepsOn_stage (hop : script.op? index = some (head.link body next))
    (frames : List Frame) :
    (situation.stage script frames).keepsOn ⟨index, after, kind, iteration, delay, waited⟩ =
      ((Meaning.keepsOn head kind situation).1,
        (Meaning.keepsOn head kind situation).2.stage script frames) := by
  unfold Stage.keepsOn Meaning.keepsOn
  cases kind with
  | whileTrue limit =>
    have hcondition : (Stage.loopCondition
        ((situation.stage script frames).activation.script.op? index) : Act σ ρ Bool) =
        Stage.loopCondition (some head.alone) := by
      change Stage.loopCondition (script.op? index) = _
      rw [hop]
      rfl
    dsimp only
    rw [hcondition, run_stage]
    generalize situation.act (Stage.loopCondition (some head.alone)) = answer
    match answer with
    | (.ok holds, last) => rfl
    | (.error fault, last) => rfl
  | times count counter => rfl
  | forEach items name => rfl
  | forever => rfl

/-- Evaluating the condition of a loop neither waits nor leaves requests open. -/
theorem Situation.Calm.keepsOn (hc : situation.Calm) (head : Instruction) (kind : LoopKind) :
    (Meaning.keepsOn head kind situation).2.Calm ∧
      (Meaning.keepsOn head kind situation).2.waits = situation.waits := by
  unfold Meaning.keepsOn
  cases kind with
  | whileTrue limit =>
    have hcalm := hc.act (Stage.keeps_loopCondition (some head.alone))
    have hwaits := situation.waits_act (Stage.loopCondition (some head.alone))
    dsimp only
    generalize situation.act (Stage.loopCondition (some head.alone)) = answer at hcalm hwaits ⊢
    match answer with
    | (.ok holds, last) => exact ⟨hcalm, hwaits⟩
    | (.error fault, last) => exact ⟨hcalm, hwaits⟩
  | times count counter => exact ⟨hc, rfl⟩
  | forEach items name => exact ⟨hc, rfl⟩
  | forever => exact ⟨hc, rfl⟩

variable [Host σ] {meanwhile : Meanwhile σ ρ} {table : ActionTable σ ρ}

/-- What happens at the boundary of a loop: it is left when that was requested or
when it has had all its iterations, waits if it has a delay, ends if its condition
does not hold, and begins the next iteration otherwise. -/
theorem advance_loop (frame : LoopFrame) (hop : script.op? frame.op = some (head.link body next))
    (hc : situation.Calm) (flags : LoopFlags) (outer : List Frame) (table : ActionTable σ ρ) :
    ((situation.flagged flags).stage script (.loop frame :: outer)).advance table =
      if flags.breakRequested then (.normal, situation.stage script outer)
      else if !frame.kind.allows frame.iteration then
        (.normal, (exhausted frame.kind situation).stage script outer)
      else if 0 < frame.iteration ∧ 0 < frame.delay ∧ !frame.waited then
        (.suspend frame.delay,
          situation.stage script (.loop { frame with waited := true } :: outer))
      else
        match Meaning.keepsOn head frame.kind situation with
        | (false, last) => (.normal, last.stage script outer)
        | (true, last) =>
          (.normal, (enter frame.kind frame.iteration last).stage script
            (.block ⟨frame.body, .loopBody, false⟩ ::
              .loop { frame with iteration := frame.iteration + 1, waited := false } ::
                outer)) := by
  have hflags : ((situation.flagged flags).stage script
    (.loop frame :: outer)).activation.context.flags = flags := rfl
  have hkeeps : (situation.stage script (.loop frame :: outer)).keepsOn frame =
      ((Meaning.keepsOn head frame.kind situation).1,
        (Meaning.keepsOn head frame.kind situation).2.stage script (.loop frame :: outer)) :=
    keepsOn_stage hop _
  have hmore : Stage.hasMore frame = frame.kind.allows frame.iteration := rfl
  change Stage.loopBoundary _ frame = _
  unfold Stage.loopBoundary
  dsimp only
  rw [clear_stage hc, hflags, hmore]
  by_cases hb : flags.breakRequested = true
  · rw [if_pos hb, if_pos hb]
    rfl
  rw [if_neg hb, if_neg hb]
  by_cases ha : (!frame.kind.allows frame.iteration) = true
  · rw [if_pos ha, if_pos ha]
    unfold exhausted
    cases frame.kind <;> rfl
  rw [if_neg ha, if_neg ha]
  by_cases hw : 0 < frame.iteration ∧ 0 < frame.delay ∧ (!frame.waited) = true
  · rw [if_pos hw, if_pos hw]
    rfl
  rw [if_neg hw, if_neg hw, hkeeps]
  generalize Meaning.keepsOn head frame.kind situation = answer
  match answer with
  | (false, last) => rfl
  | (true, last) =>
    have hset := setLoopVariable_stage last script frame.kind frame.iteration
      (.loop { frame with iteration := frame.iteration + 1, waited := false } :: outer)
    exact congrArg (fun stage : Stage σ ρ =>
      (Effect.normal, stage.mapActivation (·.enter frame.body .loopBody))) hset

/-- A loop that allows a further iteration comes to where that is due, after a wait
if it has a delay. -/
theorem reaches_due (meanwhile : Meanwhile σ ρ) (table : ActionTable σ ρ) (delay : Nat)
    (outer : List Frame) (hop : script.op? index = some (head.link body next))
    (hc : situation.Calm) (hb : flags.breakRequested = false)
    (ha : kind.allows iteration = true) :
    ∃ (requests : LoopFlags) (waited : Bool), requests.breakRequested = false ∧
      ¬(0 < iteration ∧ 0 < delay ∧ (!waited) = true) ∧
      Reaches meanwhile table
        ((situation.flagged flags).progress script
          (.loop ⟨index, body, kind, iteration, delay, false⟩ :: outer))
        (((rest meanwhile delay iteration situation).flagged requests).progress script
          (.loop ⟨index, body, kind, iteration, delay, waited⟩ :: outer)) := by
  unfold rest
  by_cases hw : 0 < iteration ∧ 0 < delay
  · rw [if_pos hw]
    have hwaited : (situation.wait meanwhile delay).flagged .none =
        situation.wait meanwhile delay := Calm.flagged_none hc
    refine ⟨.none, true, rfl, fun h => Bool.noConfusion h.2.2, ?_⟩
    rw [hwaited]
    refine .single (move_suspend ?_ rfl)
    rw [advance_loop _ hop hc, hb, if_neg Bool.false_ne_true, ha, if_neg (by decide)]
    exact if_pos ⟨hw.1, hw.2, rfl⟩
  · rw [if_neg hw]
    exact ⟨flags, false, hb, fun h => hw ⟨h.1, h.2.1⟩, .refl _⟩

/-- The iterations of a loop are realised if its children are. Every iteration takes
the machine a step, so with a bound on iterations comes one on steps. -/
theorem Realises.repeated {steps : Nat} {parent : BlockKind}
    {children : Situation σ ρ → Result σ ρ}
    (hop : script.op? index = some (head.link body next))
    (hbody : ∀ (outer : List Frame) (frame : LoopFrame) (inside : Situation σ ρ), inside.Calm →
      Realises meanwhile table steps
        (inside.progress script (.block ⟨body, .loopBody, false⟩ :: .loop frame :: outer))
        (landing script none .loopBody (.loop frame :: outer)) (children inside))
    (fuel iteration : Nat) (hle : fuel ≤ steps) (hc : situation.Calm)
    (hb : flags.breakRequested = false) :
    Realises meanwhile table fuel
      ((situation.flagged flags).progress script
        (.loop ⟨index, body, kind, iteration, delay, false⟩ :: .block ⟨next, parent, false⟩ ::
          outer))
      (landing script next parent outer)
      (Meaning.repeated meanwhile head kind delay children fuel iteration situation) := by
  induction fuel generalizing iteration situation flags with
  | zero => rfl
  | succ fuel ih =>
    unfold Meaning.repeated
    by_cases ha : kind.allows iteration = true
    · rw [if_pos ha]
      obtain ⟨requests, waited, hb, hw, hr⟩ := reaches_due meanwhile table delay
        (.block ⟨next, parent, false⟩ :: outer) hop hc hb ha
      refine .of_reaches hr ?_
      have hdue : (rest meanwhile delay iteration situation).Calm := by
        unfold rest
        split
        · exact hc
        · exact hc
      generalize rest meanwhile delay iteration situation = due at hdue ⊢
      have hstep := advance_loop ⟨index, body, kind, iteration, delay, waited⟩ hop hdue
        requests (.block ⟨next, parent, false⟩ :: outer) table
      rw [hb, if_neg Bool.false_ne_true, ha, if_neg (by decide), if_neg hw] at hstep
      dsimp only at hstep
      obtain ⟨hcalm, hwaits⟩ := hdue.keepsOn head kind
      generalize Meaning.keepsOn head kind due = answer at hstep hcalm hwaits ⊢
      match answer with
      | (false, last) => exact Realises.finished hcalm (.single (move_normal hstep hwaits))
      | (true, last) =>
        obtain ⟨hcalm, hentered⟩ := Calm.enter hcalm kind iteration
        refine .of_move (move_normal hstep (hentered.trans hwaits)) ?_
        have hinside := (hbody (.block ⟨next, parent, false⟩ :: outer)
          ⟨index, body, kind, iteration + 1, delay, false⟩ _ hcalm).of_le (Nat.le_of_succ_le hle)
        dsimp only
        match children (enter kind iteration last), hinside with
        | none, h => exact h
        | some (.finished armed, inside), ⟨hc, hl⟩ =>
          have hquiet : LoopFlags.none.breakRequested = false := rfl
          have hnext := ih (iteration + 1) (Nat.le_of_succ_le hle) hc hquiet
          rw [hc.flagged_none] at hnext
          exact .of_reaches (hl.trans (.single move_leave)) hnext
        | some (.continued, inside), ⟨hc, hl⟩ =>
          exact .of_reaches hl (ih (iteration + 1) (Nat.le_of_succ_le hle) hc rfl)
        | some (.broke, inside), ⟨hc, hl⟩ =>
          have hleft := advance_loop ⟨index, body, kind, iteration + 1, delay, false⟩ hop hc
            ⟨true, false⟩ (.block ⟨next, parent, false⟩ :: outer) table
          rw [if_pos rfl] at hleft
          exact Realises.finished hc (hl.trans (.single (move_normal hleft rfl)))
        | some (.returned, inside), h => exact h
        | some (.stopped, inside), h => exact h
    · rw [if_neg ha]
      obtain ⟨hcalm, hwaits⟩ := hc.exhausted kind
      have hleft := advance_loop ⟨index, body, kind, iteration, delay, false⟩ hop hc
        flags (.block ⟨next, parent, false⟩ :: outer) table
      rw [hb, if_neg Bool.false_ne_true, if_pos (by simpa using ha)] at hleft
      exact Realises.finished hcalm (.single (move_normal hleft hwaits))

/-- A node whose execution is a loop is realised if its children are. -/
theorem Realises.loop {steps : Nat} {parent : BlockKind} {first : Frame} {action : String}
    {children : Situation σ ρ → Result σ ρ}
    (hop : script.op? index = some (head.link body next)) (hc : situation.Calm)
    (h : (situation.stage script (first :: outer)).advance table =
      (situation.stage script (.block ⟨next, parent, false⟩ :: outer)).enterLoop index
        (head.link body next) action)
    (hbody : ∀ (outer : List Frame) (frame : LoopFrame) (inside : Situation σ ρ), inside.Calm →
      Realises meanwhile table steps
        (inside.progress script (.block ⟨body, .loopBody, false⟩ :: .loop frame :: outer))
        (landing script none .loopBody (.loop frame :: outer)) (children inside)) :
    Realises meanwhile table steps (situation.progress script (first :: outer))
      (landing script next parent outer)
      (Meaning.loop meanwhile steps head action children situation) := by
  have hcalm := hc.act (keeps_plan situation.around.ledger.settings head.alone action)
  have hwaits := situation.waits_act
    (plan situation.around.ledger.settings head.alone action)
  have hsettings : (situation.stage script
    (.block ⟨next, parent, false⟩ :: outer)).around.ledger.settings =
      situation.around.ledger.settings := rfl
  unfold Stage.enterLoop at h
  rw [hsettings, newLoop_eq_plan, run_stage, act_map] at h
  unfold Meaning.loop
  generalize situation.act (plan situation.around.ledger.settings head.alone action) = answer
    at h hcalm hwaits ⊢
  match answer with
  | (.error fault, last) =>
    have hskipped : (situation.stage script (first :: outer)).advance table =
        (.normal, (last.note (.loopSkipped ⟨action, fault⟩)).stage script
          (.block ⟨next, parent, false⟩ :: outer)) := h
    exact Realises.finished hcalm (.single (move_normal hskipped hwaits))
  | (.ok (kind, delay, true), last) =>
    have hlost : (situation.progress script (first :: outer)).move meanwhile table = .lost :=
      move_fork h
    cases steps with
    | zero => rfl
    | succ steps =>
      unfold Realises complete
      rw [hlost]
  | (.ok (kind, delay, false), last) =>
    have hentered : (situation.stage script (first :: outer)).advance table =
        (.normal, (last.flagged .none).stage script
          (.loop ⟨index, body, kind, 0, delay, false⟩ :: .block ⟨next, parent, false⟩ ::
            outer)) := by
      rw [Calm.flagged_none hcalm]
      exact h
    exact .of_reaches (.single (move_normal hentered hwaits))
      (.repeated hop hbody steps 0 (Nat.le_refl steps) hcalm rfl)

section Nodes

variable {steps : Nat} {parent : BlockKind} {armed : Bool}
  {children : Bool → Situation σ ρ → Result σ ρ}

/-- A node that does nothing is realised. -/
theorem Realises.skip {first : Frame} (hc : situation.Calm)
    (h : (situation.stage script (first :: outer)).advance table =
      (.normal, situation.stage script (.block ⟨next, parent, false⟩ :: outer))) :
    Realises meanwhile table steps (situation.progress script (first :: outer))
      (landing script next parent outer) (some (.finished false, situation)) :=
  Realises.finished hc (.single (move_normal h rfl))

/-- A node that has an action is realised if its children are. -/
theorem Realises.execute (ht : table.Keeps) (hb : table.Blind) {action : String} {first : Frame}
    (hop : script.op? index = some (head.link body next)) (hcall : head.category ≠ .call)
    (hc : situation.Calm)
    (h : (situation.stage script (first :: outer)).advance table =
      (situation.stage script (.block ⟨next, parent, false⟩ :: outer)).execAction table index
        (head.link body next) armed action)
    (hbody : ∀ (parent : BlockKind) (outer : List Frame) (inside : Situation σ ρ),
      inside.Calm → Realises meanwhile table steps
        (inside.progress script (.block ⟨body, parent, false⟩ :: outer))
        (landing script none parent outer) (children (Frame.inLoop outer) inside)) :
    Realises meanwhile table steps (situation.progress script (first :: outer))
      (landing script next parent outer)
      (Meaning.execute meanwhile table steps (Frame.inLoop outer) armed head action children
        situation) := by
  have hbranch (inside : Situation σ ρ) (hc : inside.Calm) :=
    hbody .branch (.block ⟨next, parent, false⟩ :: outer) inside hc
  have hcategory : (head.link body next).category = head.category := rfl
  unfold Stage.execAction at h
  unfold Meaning.execute
  rw [hcategory] at h
  cases hcat : head.category with
  | event | function | bracket =>
    rw [hcat] at h
    exact .skip hc h
  | condition =>
    rw [hcat] at h
    exact .guarded ht hb hc h hbranch
  | alternative =>
    rw [hcat] at h
    cases armed with
    | true => exact .guarded ht hb hc h hbranch
    | false => exact .skip hc h
  | loop =>
    rw [hcat] at h
    exact .loop hop hc h fun outer frame => hbody .loopBody (.loop frame :: outer)
  | call => exact absurd hcat hcall
  | control =>
    rw [hcat] at h
    dsimp only at h ⊢
    split
    · exact .exit true hc h
    · exact .exit false hc h
    · exact .leave hc h
    · rename_i hbreak hcontinue hreturn
      split at h
      · exact absurd rfl hbreak
      · exact absurd rfl hcontinue
      · exact absurd rfl hreturn
      · exact .perform ht hb hc h
  | action | assignment =>
    rw [hcat] at h
    exact .perform ht hb hc h

/-- A node is realised if its children are. -/
theorem Realises.instruction (ht : table.Keeps) (hb : table.Blind)
    (hop : script.op? index = some (head.link body next)) (hcall : head.category ≠ .call)
    (hc : situation.Calm)
    (hbody : ∀ (parent : BlockKind) (outer : List Frame) (inside : Situation σ ρ),
      inside.Calm → Realises meanwhile table steps
        (inside.progress script (.block ⟨body, parent, false⟩ :: outer))
        (landing script none parent outer) (children (Frame.inLoop outer) inside)) :
    Realises meanwhile table steps
      (situation.progress script (.block ⟨some index, parent, armed⟩ :: outer))
      (landing script next parent outer)
      (Meaning.instruction meanwhile table steps (Frame.inLoop outer) armed head children
        situation) := by
  have hexec : (situation.stage script (.block ⟨some index, parent, armed⟩ :: outer)).advance
      table = (situation.stage script (.block ⟨next, parent, false⟩ :: outer)).exec table index
        (head.link body next) armed := advance_block hop armed
  have helse : Stage.isPlainElse (head.link body next) = Stage.isPlainElse head.alone := rfl
  have haction : (head.link body next).action = head.action := rfl
  unfold Stage.exec at hexec
  unfold Meaning.instruction
  rw [helse, haction] at hexec
  by_cases hplain : Stage.isPlainElse head.alone = true
  · rw [if_pos hplain] at hexec ⊢
    cases armed with
    | true =>
      have hinside : (situation.stage script
          (.block ⟨some index, parent, true⟩ :: outer)).advance table =
          (.normal, situation.stage script
            (.block ⟨body, .branch, false⟩ :: .block ⟨next, parent, false⟩ :: outer)) := hexec
      exact .group (.of_reaches (.single (move_normal hinside rfl))
        (hbody .branch (.block ⟨next, parent, false⟩ :: outer) situation hc))
    | false => exact .skip hc hexec
  · rw [if_neg hplain] at hexec ⊢
    cases ha : head.action with
    | none =>
      rw [ha] at hexec
      exact .skip hc hexec
    | some action =>
      rw [ha] at hexec
      exact .execute ht hb hop hcall hc hexec hbody

end Nodes

/-- Nodes none of which is a call. -/
def Node.CallFree (heads : List Instruction) : Prop :=
  ∀ head ∈ heads, head.category ≠ .call

section Trees

variable {steps : Nat}

mutual

/-- A script that holds a linked tree realises it. -/
theorem chain_realised (ht : table.Keeps) (hb : table.Blind) (start : Nat)
    (after : Option Nat) : ∀ node : Node, Node.CallFree node.walk →
    script.Holds start (node.link start after) → ∀ (parent : BlockKind) (outer : List Frame)
    (armed : Bool) (situation : Situation σ ρ), situation.Calm →
    Realises meanwhile table steps
      (situation.progress script (.block ⟨some start, parent, armed⟩ :: outer))
      (landing script after parent outer)
      (Meaning.chain meanwhile table steps node (Frame.inLoop outer) armed situation)
  | .mk head children next, hfree, hholds, parent, outer, armed, situation, hc => by
    obtain ⟨hop, hchildren, hnext⟩ := Script.holds_link hholds
    unfold Node.CallFree at hfree
    simp only [Node.walk, List.forall_mem_cons, List.forall_mem_append] at hfree
    unfold Meaning.chain
    refine .andThen (.instruction ht hb hop hfree.1 hc fun parent outer inside hinside => ?_)
      fun armed last hlast => ?_
    · exact all_realised ht hb (start + 1) children hfree.2.1 hchildren parent outer false inside
        hinside
    · exact following_realised ht hb _ after next hfree.2.2 hnext parent outer armed last hlast

/-- A script that holds linked children realises them. -/
theorem all_realised (ht : table.Keeps) (hb : table.Blind) (start : Nat) :
    ∀ nodes : List Node, Node.CallFree (Node.walkAll nodes) →
    script.Holds start (Node.linkAll start nodes) → ∀ (parent : BlockKind) (outer : List Frame)
    (armed : Bool) (situation : Situation σ ρ), situation.Calm →
    Realises meanwhile table steps
      (situation.progress script
        (.block ⟨if nodes.isEmpty then none else some start, parent, armed⟩ :: outer))
      (landing script none parent outer)
      (Meaning.all meanwhile table steps nodes (Frame.inLoop outer) armed situation)
  | [], _, _, _, _, _, _, hc => ⟨hc, .refl _⟩
  | node :: rest, hfree, hholds, parent, outer, armed, situation, hc => by
    obtain ⟨hnode, hrest⟩ := Script.holds_linkAll hholds
    unfold Node.CallFree at hfree
    simp only [Node.walkAll, List.forall_mem_append] at hfree
    unfold Meaning.all
    refine .andThen (chain_realised ht hb start _ node hfree.1 hnode parent outer armed situation hc)
      fun armed last hlast => ?_
    exact all_realised ht hb _ rest hfree.2 hrest parent outer armed last hlast

/-- A script that holds a linked successor realises it. -/
theorem following_realised (ht : table.Keeps) (hb : table.Blind) (start : Nat)
    (after : Option Nat) : ∀ next : Option Node, Node.CallFree (Node.walkNext next) →
    script.Holds start (Node.linkNext start after next) → ∀ (parent : BlockKind)
    (outer : List Frame) (armed : Bool) (situation : Situation σ ρ), situation.Calm →
    Realises meanwhile table steps
      (situation.progress script
        (.block ⟨if next.isSome then some start else after, parent, armed⟩ :: outer))
      (landing script after parent outer)
      (Meaning.following meanwhile table steps next (Frame.inLoop outer) armed situation)
  | none, _, _, _, _, _, _, hc => ⟨hc, .refl _⟩
  | some node, hfree, hholds, parent, outer, armed, situation, hc =>
    chain_realised ht hb start after node hfree hholds parent outer armed situation hc

end

end Trees

/-- A machine that realises a chain up to the end of the program completes as the
chain does. -/
theorem Realises.completes {steps : Nat} {progress : Progress σ ρ} {outcome : Outcome}
    (h : Realises meanwhile table steps progress (landing script none .root [])
      (some (outcome, situation))) :
    ∃ more, progress.complete meanwhile table more = some (situation.completion outcome) := by
  have hend {last : Progress σ ρ} (hr : Reaches meanwhile table progress last)
      (hm : last.move meanwhile table = .done (situation.completion outcome)) :
      ∃ more, progress.complete meanwhile table more = some (situation.completion outcome) := by
    have hone : last.complete meanwhile table 1 = some (situation.completion outcome) := by
      unfold complete
      rw [hm]
    exact hr.complete_some hone
  cases outcome with
  | stopped =>
    obtain ⟨_, hl, hd⟩ := h
    exact hend hl hd
  | finished =>
    obtain ⟨_, hl⟩ := h
    exact hend (hl.trans (.single move_leave)) (move_nil Outcome.noConfusion)
  | returned =>
    obtain ⟨_, hl⟩ := h
    exact hend hl (move_nil Outcome.noConfusion)
  | broke =>
    obtain ⟨_, hl⟩ := h
    exact hend hl rfl
  | continued =>
    obtain ⟨_, hl⟩ := h
    exact hend hl rfl

/-- The machine of a linked chain without calls comes to what the chain means, and
to nothing else: the same value, variables, surroundings and waits. -/
theorem Machine.implements_meaning (meanwhile : Meanwhile σ ρ) (name : String) (origin : Place)
    (body : Option Node) (hfree : Node.CallFree (Node.walkNext body)) (actor : Actor)
    (place : Place) (locals : Locals) (around : Surroundings σ ρ)
    (completion : Completion σ ρ) :
    (∃ steps, Progress.complete meanwhile .standard steps
      ⟨.ofScript (.ofBody name origin body) (.start actor place locals), around, []⟩ =
        some completion) ↔
      ∃ fuel, Meaning.program meanwhile .standard fuel body (.start actor place locals) around =
        some completion := by
  have hrealised (fuel : Nat) : Realises meanwhile .standard fuel
      ⟨.ofScript (.ofBody name origin body) (.start actor place locals), around, []⟩
      (landing (.ofBody name origin body) none .root [])
      (following meanwhile .standard fuel body false false
        ⟨.start actor place locals, around, []⟩) := by
    have hholds := Script.holds_ofBody name origin body
    rw [Script.ofBody_eq] at hholds ⊢
    exact following_realised ActionTable.keeps_standard ActionTable.blind_standard 0 none body
      hfree hholds .root [] false _ rfl
  unfold Meaning.program
  constructor
  · rintro ⟨steps, hsteps⟩
    refine ⟨steps, ?_⟩
    have h := hrealised steps
    cases hresult : following meanwhile .standard steps body false false
        ⟨.start actor place locals, around, []⟩ with
    | none =>
      rw [hresult] at h
      cases hsteps.symm.trans h
    | some last =>
      rw [hresult] at h
      obtain ⟨more, hmore⟩ := h.completes
      exact congrArg some (complete_unique hmore hsteps)
  · rintro ⟨fuel, hfuel⟩
    obtain ⟨⟨outcome, last⟩, hresult, rfl⟩ := Option.map_eq_some_iff.1 hfuel
    have h := hrealised fuel
    rw [hresult] at h
    exact h.completes

/-- A node with an action, its parameters and its children. -/
def Node.doing (category : Category) (action : String) (params : List (String × Value))
    (children : List Node) : Node :=
  .mk ⟨0, action, category, some action,
    params.foldl (fun map (name, value) => map.insert name value) .empty, .plain, none⟩ children
    none

/-- A loop over three items that marks the first one, waits, and is left when it
finds the mark. -/
def leaveAtMark : Option Node :=
  Node.chain [.doing .loop "for_each" [("list", .list [.text "a", .text "b", .text "c"])]
    [.doing .condition "exists" [("name", .text "mark")] [.doing .control "break" [] []],
      .doing .alternative "else" []
        [.doing .assignment "set" [("name", .text "mark"), ("value", .text "=item")] []],
      .doing .control "wait" [] []]]

/-- The machine of the loop waits once, and ends in the second iteration with the
mark of the first. -/
theorem Machine.implements_meaning_leaveAtMark : ∃ (steps : Nat)
    (completion : Completion MinimalHost ReplaySource),
    Progress.complete (fun _ around => around) .standard steps
      ⟨.ofScript (.ofBody "start" default leaveAtMark) (.start default default .empty),
        ⟨⟨⟨0⟩⟩, ⟨[], 0⟩, .initial default, #[]⟩, []⟩ = some completion ∧
      completion.waits.map (·.ticks) = [1] ∧
      (completion.locals.bind (·.get? "mark")).map Value.toText = some "a" ∧
      (completion.locals.bind (·.get? "item")).map Value.toText = some "b" := by
  have hends : ((program (fun _ around => around) .standard 3 leaveAtMark
      (.start default default .empty) ⟨(⟨⟨0⟩⟩ : MinimalHost), (⟨[], 0⟩ : ReplaySource),
        .initial default, #[]⟩).map fun completion =>
      (completion.waits.map (·.ticks),
        (completion.locals.bind (·.get? "mark")).map Value.toText,
        (completion.locals.bind (·.get? "item")).map Value.toText)) =
      some ([1], some "a", some "b") := by decide +kernel
  obtain ⟨completion, hcompletion, hparts⟩ := Option.map_eq_some_iff.1 hends
  have hfree : Node.CallFree (Node.walkNext leaveAtMark) := by
    unfold Node.CallFree
    decide +kernel
  obtain ⟨steps, hsteps⟩ := (implements_meaning (fun _ around => around) "start" default
    leaveAtMark hfree default default .empty _ completion).2 ⟨3, hcompletion⟩
  simp only [Prod.mk.injEq] at hparts
  exact ⟨steps, completion, hsteps, hparts⟩

end GridScript
