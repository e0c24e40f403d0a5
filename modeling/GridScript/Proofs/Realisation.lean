import GridScript.Proofs.Completion

/-!
# How machines realise meanings

The meaning of a chain of nodes says how it ends and what it leaves. A machine in
front of the chain realises that if it comes to the place the ending stands for:
behind the chain when everything was executed, at the innermost loop with a
request to it, at the end of the program, or at the end of the run. Where there is
no meaning, the machine does not complete within the bound.

The pieces the meanings are made of are each realised when their parts are.
-/

namespace GridScript

/-- Whether some of the frames is a loop. -/
def Frame.inLoop (frames : List Frame) : Bool :=
  !(fromLoop frames).isEmpty

/-- Where the machine of a program stands after a chain of nodes that ended in some
way: the node that follows, the kind of the block, and the frames around it. -/
def Situation.landing {σ ρ : Type} (script : Script) (next : Option Nat) (kind : BlockKind)
    (outer : List Frame) : Outcome → Situation σ ρ → Progress σ ρ
  | .finished armed, situation => situation.progress script (.block ⟨next, kind, armed⟩ :: outer)
  | .broke, situation => (situation.flagged ⟨true, false⟩).progress script (Frame.fromLoop outer)
  | .continued, situation =>
    (situation.flagged ⟨false, true⟩).progress script (Frame.fromLoop outer)
  | .returned, situation | .stopped, situation => situation.progress script []

variable {σ ρ : Type} [Host σ] [RandomSource ρ]

open Situation Progress Meaning

/-- A machine comes to what a result says, or does not complete with a number of
steps if there is no result. -/
def Realises (meanwhile : Meanwhile σ ρ) (table : ActionTable σ ρ) (steps : Nat)
    (progress : Progress σ ρ) (land : Outcome → Situation σ ρ → Progress σ ρ) :
    Result σ ρ → Prop
  | none => progress.complete meanwhile table steps = none
  | some (.stopped, situation) =>
    ∃ last, Reaches meanwhile table progress last ∧
      last.move meanwhile table = .done (situation.completion .stopped)
  | some (outcome, situation) =>
    situation.Calm ∧ Reaches meanwhile table progress (land outcome situation)

variable {meanwhile : Meanwhile σ ρ} {table : ActionTable σ ρ} {steps : Nat}
  {progress middle : Progress σ ρ} {land : Outcome → Situation σ ρ → Progress σ ρ}
  {result : Result σ ρ} {situation : Situation σ ρ} {script : Script} {next after : Option Nat}
  {kind : BlockKind} {outer : List Frame}

namespace Realises

/-- A machine that comes to where a chain stands when it was executed. -/
theorem finished {armed : Bool} (hc : situation.Calm)
    (hr : Reaches meanwhile table progress
      (situation.progress script (.block ⟨next, kind, armed⟩ :: outer))) :
    Realises meanwhile table steps progress (landing script next kind outer)
      (some (.finished armed, situation)) :=
  ⟨hc, hr⟩

/-- What a machine realises is realised by every machine that gets to it. -/
theorem of_reaches (hr : Reaches meanwhile table progress middle)
    (h : Realises meanwhile table steps middle land result) :
    Realises meanwhile table steps progress land result := by
  match result, h with
  | none, h => exact hr.complete_none h
  | some (.stopped, _), ⟨last, hl, hd⟩ => exact ⟨last, hr.trans hl, hd⟩
  | some (.finished _, _), ⟨hc, hl⟩ => exact ⟨hc, hr.trans hl⟩
  | some (.broke, _), ⟨hc, hl⟩ => exact ⟨hc, hr.trans hl⟩
  | some (.continued, _), ⟨hc, hl⟩ => exact ⟨hc, hr.trans hl⟩
  | some (.returned, _), ⟨hc, hl⟩ => exact ⟨hc, hr.trans hl⟩

/-- A machine that goes on realises the same, with one more step. -/
theorem of_move (hm : progress.move meanwhile table = .on middle)
    (h : Realises meanwhile table steps middle land result) :
    Realises meanwhile table (steps + 1) progress land result := by
  match result, h with
  | none, h => exact (complete_on hm steps).trans h
  | some (.stopped, _), ⟨last, hl, hd⟩ => exact ⟨last, .head hm hl, hd⟩
  | some (.finished _, _), ⟨hc, hl⟩ => exact ⟨hc, .head hm hl⟩
  | some (.broke, _), ⟨hc, hl⟩ => exact ⟨hc, .head hm hl⟩
  | some (.continued, _), ⟨hc, hl⟩ => exact ⟨hc, .head hm hl⟩
  | some (.returned, _), ⟨hc, hl⟩ => exact ⟨hc, .head hm hl⟩

/-- The same with fewer steps. -/
theorem of_le {fewer : Nat} (hle : fewer ≤ steps)
    (h : Realises meanwhile table steps progress land result) :
    Realises meanwhile table fewer progress land result := by
  match result, h with
  | none, h => exact complete_none_of_le hle h
  | some (.stopped, _), h => exact h
  | some (.finished _, _), h => exact h
  | some (.broke, _), h => exact h
  | some (.continued, _), h => exact h
  | some (.returned, _), h => exact h

/-- One chain after the other is realised if the first is, and the second from
where the first ends when it was executed. -/
theorem andThen {rest : Bool → Situation σ ρ → Result σ ρ}
    (h : Realises meanwhile table steps progress (landing script next kind outer) result)
    (hrest : ∀ armed situation, situation.Calm →
      Realises meanwhile table steps
        (situation.progress script (.block ⟨next, kind, armed⟩ :: outer))
        (landing script after kind outer) (rest armed situation)) :
    Realises meanwhile table steps progress (landing script after kind outer)
      (Meaning.andThen result rest) := by
  match result, h with
  | none, h => exact h
  | some (.finished armed, situation), ⟨hc, hl⟩ =>
    exact of_reaches hl (hrest armed situation hc)
  | some (.stopped, _), h => exact h
  | some (.broke, _), h => exact h
  | some (.continued, _), h => exact h
  | some (.returned, _), h => exact h

end Realises

/-- A block with nothing left is left. -/
theorem Situation.move_leave {armed : Bool} :
    (situation.progress script (.block ⟨none, kind, armed⟩ :: outer)).move meanwhile table =
      .on (situation.progress script outer) :=
  move_normal rfl rfl

/-- Children are realised behind their parent if they are in a block of their own. -/
theorem Realises.group {body : Situation σ ρ → Result σ ρ}
    (h : Realises meanwhile table steps progress
      (landing script none .branch (.block ⟨next, kind, false⟩ :: outer)) (body situation)) :
    Realises meanwhile table steps progress (landing script next kind outer)
      (Meaning.group body situation) := by
  unfold Meaning.group
  match body situation, h with
  | none, h => exact h
  | some (.finished armed, last), ⟨hc, hl⟩ =>
    exact Realises.finished hc (hl.trans (.single move_leave))
  | some (.stopped, _), h => exact h
  | some (.broke, _), h => exact h
  | some (.continued, _), h => exact h
  | some (.returned, _), h => exact h

/-- A table whose actions and conditions do not look at the links of a node. -/
structure ActionTable.Blind (table : ActionTable σ ρ) : Prop where
  /-- Actions do not. -/
  action : ∀ name (head : Instruction) body next,
    table.action name (head.link body next) = table.action name head.alone
  /-- Conditions do not. -/
  condition : ∀ name (head : Instruction) body next,
    table.condition name (head.link body next) = table.condition name head.alone

/-- The standard table does not look at the links of a node. -/
theorem ActionTable.blind_standard : (standard : ActionTable σ ρ).Blind where
  action name head body next := by
    refine getD_ofList (motive := fun handler : Op → Act σ ρ Flow =>
      handler (head.link body next) = handler head.alone) ?_ rfl name
    simp only [List.mem_cons, List.not_mem_nil, or_false, forall_eq_or_imp, forall_eq]
    exact ⟨rfl, rfl, rfl, rfl, rfl, rfl, rfl, rfl⟩
  condition name head body next := by
    refine getD_ofList (motive := fun handler : Op → Act σ ρ Bool =>
      handler (head.link body next) = handler head.alone) ?_ rfl name
    simp only [List.mem_cons, List.not_mem_nil, or_false, forall_eq_or_imp, forall_eq]
    exact ⟨rfl, rfl, rfl, rfl, rfl⟩

namespace Situation

/-- A node is executed inside the block it belongs to, which goes on with the node
linked to it. -/
theorem advance_block {index : Nat} {op : Op} (hop : script.op? index = some op) (armed : Bool) :
    (situation.stage script (.block ⟨some index, kind, armed⟩ :: outer)).advance table =
      (situation.stage script (.block ⟨op.next, kind, false⟩ :: outer)).exec table index op
        armed := by
  unfold Stage.advance
  dsimp only [stage, Stage.mapActivation]
  rw [hop]
  rfl

/-- The decision of a condition does not depend on the links of its node. -/
theorem decision_link (hb : table.Blind) (head : Instruction) (body next : Option Nat)
    (action : String) :
    Stage.decision table (head.link body next) action =
      Stage.decision table head.alone action := by
  unfold Stage.decision
  rw [hb.condition]
  rfl

end Situation

/-- A node whose execution is an action is realised. -/
theorem Realises.perform (ht : table.Keeps) (hb : table.Blind) {frame : Frame}
    {head : Instruction} {body : Option Nat} {action : String} (hc : situation.Calm)
    (h : (situation.stage script (frame :: outer)).advance table =
      (situation.stage script (.block ⟨next, kind, false⟩ :: outer)).perform table
        (head.link body next) action) :
    Realises meanwhile table steps (situation.progress script (frame :: outer))
      (landing script next kind outer)
      (some (Meaning.perform meanwhile table head action situation)) := by
  have hcalm := hc.act (ht.action action head.alone)
  have hwaits := situation.waits_act (table.action action head.alone)
  unfold Stage.perform at h
  rw [hb.action, run_stage] at h
  unfold Meaning.perform
  generalize situation.act (table.action action head.alone) = answer at h hcalm hwaits ⊢
  match answer with
  | (.ok .proceed, last) => exact Realises.finished hcalm (.single (move_normal h hwaits))
  | (.ok (.suspend ticks), last) =>
    exact Realises.finished hcalm (.single (move_suspend h hwaits))
  | (.ok .stop, last) => exact ⟨_, .refl _, move_stop h hwaits⟩
  | (.error fault, last) =>
    have hnote : (situation.stage script (frame :: outer)).advance table =
        (.normal, (last.note (.actionFailed ⟨action, fault⟩)).stage script
          (.block ⟨next, kind, false⟩ :: outer)) := h
    exact Realises.finished hcalm (.single (move_normal hnote hwaits))

/-- A node whose execution is a condition is realised if its children are. -/
theorem Realises.guarded (ht : table.Keeps) (hb : table.Blind) {frame : Frame}
    {head : Instruction} {body : Option Nat} {action : String}
    {children : Situation σ ρ → Result σ ρ} (hc : situation.Calm)
    (h : (situation.stage script (frame :: outer)).advance table =
      (situation.stage script (.block ⟨next, kind, false⟩ :: outer)).branch table
        (head.link body next) action)
    (hbody : ∀ inside : Situation σ ρ, inside.Calm → Realises meanwhile table steps
      (inside.progress script
        (.block ⟨body, .branch, false⟩ :: .block ⟨next, kind, false⟩ :: outer))
      (landing script none .branch (.block ⟨next, kind, false⟩ :: outer)) (children inside)) :
    Realises meanwhile table steps (situation.progress script (frame :: outer))
      (landing script next kind outer)
      (Meaning.guarded table head action children situation) := by
  have hcalm := hc.act (Stage.keeps_decision ht head.alone action)
  have hwaits := situation.waits_act (Stage.decision table head.alone action)
  unfold Stage.branch Stage.decide at h
  rw [decision_link hb, run_stage] at h
  unfold Meaning.guarded
  generalize situation.act (Stage.decision table head.alone action) = answer at h hcalm hwaits ⊢
  match answer with
  | (.ok true, last) =>
    have hinside : (situation.stage script (frame :: outer)).advance table =
        (.normal, last.stage script
          (.block ⟨body, .branch, false⟩ :: .block ⟨next, kind, false⟩ :: outer)) := h
    exact Realises.group
      (.of_reaches (.single (move_normal hinside hwaits)) (hbody last hcalm))
  | (.ok false, last) =>
    have harmed : (situation.stage script (frame :: outer)).advance table =
        (.normal, last.stage script (.block ⟨next, kind, true⟩ :: outer)) := h
    exact Realises.finished hcalm (.single (move_normal harmed hwaits))
  | (.error fault, last) =>
    have harmed : (situation.stage script (frame :: outer)).advance table =
        (.normal, (last.note (.conditionFailed ⟨action, fault⟩)).stage script
          (.block ⟨next, kind, true⟩ :: outer)) := h
    exact Realises.finished hcalm (.single (move_normal harmed hwaits))

/-- A node that returns is realised. -/
theorem Realises.leave {frame : Frame} {head : Instruction} {body : Option Nat}
    (hc : situation.Calm)
    (h : (situation.stage script (frame :: outer)).advance table =
      (situation.stage script (.block ⟨next, kind, false⟩ :: outer)).leaveActivation
        (head.link body next)) :
    Realises meanwhile table steps (situation.progress script (frame :: outer))
      (landing script next kind outer) (some (Meaning.leave head situation)) := by
  have hcalm := hc.act (Act.keeps_arg? head.alone "value")
  have hwaits := situation.waits_act (Act.arg? head.alone "value")
  have hlinks : (Act.arg? (head.link body next) "value" : Act σ ρ (Option Value)) =
    Act.arg? head.alone "value" := rfl
  unfold Stage.leaveActivation at h
  rw [hlinks, run_stage] at h
  unfold Meaning.leave
  generalize situation.act (Act.arg? head.alone "value") = answer at h hcalm hwaits ⊢
  match answer with
  | (.ok (some value), last) =>
    have hset : (situation.stage script (frame :: outer)).advance table =
        (.normal, (last.define Stage.returnName value).stage script []) := h
    exact ⟨hcalm, .single (move_normal hset hwaits)⟩
  | (.ok none, last) =>
    have hnone : (situation.stage script (frame :: outer)).advance table =
        (.normal, last.stage script []) := h
    exact ⟨hcalm, .single (move_normal hnone hwaits)⟩
  | (.error fault, last) =>
    have hnote : (situation.stage script (frame :: outer)).advance table =
        (.normal, (last.note (.returnFailed ⟨"return", fault⟩)).stage script []) := h
    exact ⟨hcalm, .single (move_normal hnote hwaits)⟩

/-- A request to leave the innermost loop or to go on with its next iteration. -/
def Outcome.ofExit (isBreak : Bool) : Outcome :=
  if isBreak then .broke else .continued

/-- A node that leaves the innermost loop, or goes on with its next iteration, is
realised. -/
theorem Realises.exit {frame : Frame} (isBreak : Bool) (hc : situation.Calm)
    (h : (situation.stage script (frame :: outer)).advance table =
      (situation.stage script (.block ⟨next, kind, false⟩ :: outer)).exitLoop isBreak) :
    Realises meanwhile table steps (situation.progress script (frame :: outer))
      (landing script next kind outer)
      (some (Meaning.exit (Frame.inLoop outer) (.ofExit isBreak)
        (if isBreak then "break" else "continue") situation)) := by
  unfold Stage.exitLoop at h
  have hframes : Frame.fromLoop
      (situation.stage script (.block ⟨next, kind, false⟩ :: outer)).activation.frames =
      Frame.fromLoop outer := rfl
  rw [hframes] at h
  unfold Meaning.exit Frame.inLoop
  cases hfrom : Frame.fromLoop outer with
  | nil =>
    rw [hfrom] at h
    exact Realises.finished hc (.single (move_normal h rfl))
  | cons first rest =>
    rw [hfrom] at h
    have hflags : (situation.stage script (frame :: outer)).advance table =
        (.normal, (situation.flagged ⟨isBreak, !isBreak⟩).stage script (first :: rest)) := by
      rw [h]
      dsimp only [stage, Stage.mapActivation, flagged]
      rw [hc]
      cases isBreak <;> rfl
    rw [← hfrom] at hflags
    cases isBreak with
    | true => exact ⟨hc, .single (move_normal hflags rfl)⟩
    | false => exact ⟨hc, .single (move_normal hflags rfl)⟩

end GridScript
