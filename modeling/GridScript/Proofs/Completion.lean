import GridScript.Machine.Step
import GridScript.Proofs.Invocation
import GridScript.Proofs.Meaning

/-!
# Running machines to their end

A machine by itself is stepped until it ends; while it waits, anything may happen
to its surroundings. A machine that fails, splits something off or has ended
before is lost. The number of steps is bounded, and more steps do not change what
a machine comes to.
-/

namespace GridScript

/-- A machine on its way to its end. -/
structure Progress (σ ρ : Type) where
  /-- The machine. -/
  machine : Machine
  /-- Its surroundings. -/
  around : Surroundings σ ρ
  /-- The waits so far. -/
  waits : List (Wait σ)

/-- Where a step leads. -/
inductive Move (σ ρ : Type) where
  /-- The machine goes on. -/
  | on (progress : Progress σ ρ)
  /-- The machine ended. -/
  | done (completion : Completion σ ρ)
  /-- The machine failed, split something off, or had ended before. -/
  | lost

namespace Progress

variable {σ ρ : Type} [Host σ] [RandomSource ρ]

/-- Takes one step. -/
def move (meanwhile : Meanwhile σ ρ) (table : ActionTable σ ρ) (progress : Progress σ ρ) :
    Move σ ρ :=
  let stepped := progress.machine.step table progress.around
  match stepped.outcome with
  | .ok .normal => .on ⟨stepped.machine, stepped.around, progress.waits⟩
  | .ok (.suspend ticks) =>
    .on ⟨stepped.machine, meanwhile ticks stepped.around,
      progress.waits ++ [⟨ticks, stepped.around.host⟩]⟩
  | .ok (.terminate result) =>
    .done ⟨result, stepped.machine.finalLocals, stepped.around, progress.waits⟩
  | .ok (.fork _) | .ok .idle | .error _ => .lost

/-- Steps a machine to its end, for at most a number of steps. -/
def complete (meanwhile : Meanwhile σ ρ) (table : ActionTable σ ρ) :
    (steps : Nat) → Progress σ ρ → Option (Completion σ ρ)
  | 0, _ => none
  | steps + 1, progress =>
    match progress.move meanwhile table with
    | .on next => complete meanwhile table steps next
    | .done completion => some completion
    | .lost => none

variable {meanwhile : Meanwhile σ ρ} {table : ActionTable σ ρ}

/-- A machine that goes on completes one step later. -/
theorem complete_on {progress next : Progress σ ρ} (h : progress.move meanwhile table = .on next)
    (steps : Nat) : progress.complete meanwhile table (steps + 1) =
      next.complete meanwhile table steps := by
  simp only [complete, h]

/-- A machine that completes does so with more steps too. -/
theorem complete_mono {progress : Progress σ ρ} {steps more : Nat} (hle : steps ≤ more)
    {completion : Completion σ ρ}
    (h : progress.complete meanwhile table steps = some completion) :
    progress.complete meanwhile table more = some completion := by
  induction steps generalizing progress more with
  | zero => cases h
  | succ steps ih =>
    obtain ⟨rest, rfl⟩ : ∃ rest, more = rest + 1 := ⟨more - 1, by omega⟩
    unfold complete at h ⊢
    split at h
    · exact ih (by omega) h
    · exact h
    · cases h

/-- A machine comes to one completion at most. -/
theorem complete_unique {progress : Progress σ ρ} {steps more : Nat}
    {first second : Completion σ ρ}
    (h₁ : progress.complete meanwhile table steps = some first)
    (h₂ : progress.complete meanwhile table more = some second) : first = second := by
  have h₁' := complete_mono (Nat.le_max_left steps more) h₁
  have h₂' := complete_mono (Nat.le_max_right steps more) h₂
  rw [h₁'] at h₂'
  exact Option.some.inj h₂'

/-- A machine that does not complete does not with fewer steps either. -/
theorem complete_none_of_le {progress : Progress σ ρ} {steps fewer : Nat} (hle : fewer ≤ steps)
    (h : progress.complete meanwhile table steps = none) :
    progress.complete meanwhile table fewer = none := by
  cases hf : progress.complete meanwhile table fewer with
  | none => rfl
  | some completion =>
    rw [complete_mono hle hf] at h
    cases h

/-- One machine gets to another by going on. -/
inductive Reaches (meanwhile : Meanwhile σ ρ) (table : ActionTable σ ρ) :
    Progress σ ρ → Progress σ ρ → Prop where
  /-- Without a step. -/
  | refl (progress : Progress σ ρ) : Reaches meanwhile table progress progress
  /-- With a first step. -/
  | head {progress next last : Progress σ ρ} (first : progress.move meanwhile table = .on next)
    (rest : Reaches meanwhile table next last) : Reaches meanwhile table progress last

namespace Reaches

variable {first second third : Progress σ ρ}

/-- What can be reached in one step. -/
theorem single (h : first.move meanwhile table = .on second) :
    Reaches meanwhile table first second :=
  .head h (.refl second)

/-- What can be reached from what can be reached. -/
theorem trans (h₁ : Reaches meanwhile table first second)
    (h₂ : Reaches meanwhile table second third) : Reaches meanwhile table first third := by
  induction h₁ with
  | refl => exact h₂
  | head hfirst _ ih => exact .head hfirst (ih h₂)

/-- A machine that reaches one that does not complete does not complete. -/
theorem complete_none (h : Reaches meanwhile table first second) {steps : Nat}
    (hn : second.complete meanwhile table steps = none) :
    first.complete meanwhile table steps = none := by
  induction h with
  | refl => exact hn
  | head hfirst _ ih =>
    cases steps with
    | zero => rfl
    | succ steps =>
      rw [complete_on hfirst]
      exact complete_none_of_le (Nat.le_succ steps) (ih hn)

/-- A machine that reaches one that completes comes to the same. -/
theorem complete_some (h : Reaches meanwhile table first second) {steps : Nat}
    {completion : Completion σ ρ}
    (hs : second.complete meanwhile table steps = some completion) :
    ∃ more, first.complete meanwhile table more = some completion := by
  induction h with
  | refl => exact ⟨steps, hs⟩
  | head hfirst _ ih =>
    obtain ⟨more, hm⟩ := ih hs
    exact ⟨more + 1, by rw [complete_on hfirst, hm]⟩

end Reaches

end Progress

namespace Situation

variable {σ ρ : Type}

/-- The innermost activation of a program with given frames. -/
def stage (situation : Situation σ ρ) (script : Script) (frames : List Frame) : Stage σ ρ :=
  ⟨⟨script, situation.context, frames, none⟩, situation.around⟩

/-- The machine of a program with given frames. -/
def progress (situation : Situation σ ρ) (script : Script) (frames : List Frame) :
    Progress σ ρ :=
  ⟨⟨[⟨script, situation.context, frames, none⟩], none⟩, situation.around, situation.waits⟩

/-- The situation with requests to the innermost loop. -/
def flagged (situation : Situation σ ρ) (flags : LoopFlags) : Situation σ ρ :=
  { situation with context := { situation.context with flags } }

/-- No requests to a loop are open. -/
def Calm (situation : Situation σ ρ) : Prop :=
  situation.context.flags = .none

/-- A computation that keeps the invocation leaves no requests open. -/
theorem Calm.act {α : Type} {situation : Situation σ ρ} (h : situation.Calm) {act : Act σ ρ α}
    (hk : act.Keeps) : (situation.act act).2.Calm :=
  (hk ⟨situation.context, situation.around.host, situation.around.random⟩).flags.trans h

/-- A computation does in an activation what it does in the situation. -/
theorem run_stage {α : Type} (situation : Situation σ ρ) (script : Script) (frames : List Frame)
    (act : Act σ ρ α) :
    (situation.stage script frames).run act =
      ((situation.act act).1, (situation.act act).2.stage script frames) :=
  rfl

/-- A computation does not wait. -/
theorem waits_act {α : Type} (situation : Situation σ ρ) (act : Act σ ρ α) :
    (situation.act act).2.waits = situation.waits :=
  rfl

/-- A situation without requests is the same with no requests put in. -/
theorem Calm.flagged_none {situation : Situation σ ρ} (h : situation.Calm) :
    situation.flagged .none = situation := by
  unfold Calm at h
  unfold flagged
  rw [← h]

variable [Host σ] [RandomSource ρ] {meanwhile : Meanwhile σ ρ} {table : ActionTable σ ρ}
  {situation after : Situation σ ρ} {script : Script} {frame : Frame}
  {frames outer : List Frame}

/-- What a step of a program comes to is what its innermost activation does: a
program has no calls that could be late. -/
theorem step_progress {effect : Effect} {stage : Stage σ ρ}
    (h : (situation.stage script (frame :: outer)).advance table = (effect, stage)) :
    (situation.progress script (frame :: outer)).machine.step table
        (situation.progress script (frame :: outer)).around =
      match effect with
      | .normal => ⟨.ok .normal, ⟨[stage.activation], none⟩, stage.around⟩
      | .suspend ticks => ⟨.ok (.suspend ticks), ⟨[stage.activation], none⟩, stage.around⟩
      | .fork child => ⟨.ok (.fork child), ⟨[stage.activation], none⟩, stage.around⟩
      | .stop =>
        ⟨.ok (.terminate none), ⟨[], some stage.activation.context.locals⟩,
          stage.around.releaseAll .success [stage.activation]⟩
      | .call request =>
        Machine.call ⟨[stage.activation], none⟩ stage.activation.context request stage.around := by
  have hstep : (situation.progress script (frame :: outer)).machine.step table
      (situation.progress script (frame :: outer)).around =
      (situation.progress script (frame :: outer)).machine.advance table situation.around := rfl
  rw [hstep]
  unfold Machine.advance
  dsimp only [progress, List.isEmpty_cons, Bool.false_eq_true]
  unfold Situation.stage at h
  rw [if_neg (by simp), h]
  cases effect <;> rfl

/-- A program goes on when its innermost activation does. -/
theorem move_normal
    (h : (situation.stage script (frame :: outer)).advance table =
      (.normal, after.stage script frames)) (hw : after.waits = situation.waits) :
    (situation.progress script (frame :: outer)).move meanwhile table =
      .on (after.progress script frames) := by
  unfold Progress.move
  rw [step_progress h]
  unfold progress
  rw [hw]
  rfl

/-- A program waits when its innermost activation does, and then goes on. -/
theorem move_suspend {ticks : Nat}
    (h : (situation.stage script (frame :: outer)).advance table =
      (.suspend ticks, after.stage script frames)) (hw : after.waits = situation.waits) :
    (situation.progress script (frame :: outer)).move meanwhile table =
      .on ((after.wait meanwhile ticks).progress script frames) := by
  unfold Progress.move
  rw [step_progress h]
  unfold progress wait
  rw [hw]
  rfl

/-- A program ends when its innermost activation ends the run. -/
theorem move_stop
    (h : (situation.stage script (frame :: outer)).advance table =
      (.stop, after.stage script frames)) (hw : after.waits = situation.waits) :
    (situation.progress script (frame :: outer)).move meanwhile table =
      .done (after.completion .stopped) := by
  unfold Progress.move
  rw [step_progress h]
  unfold completion
  rw [hw]
  rfl

/-- A program is lost when something is split off. -/
theorem move_fork {child : Machine} {stage : Stage σ ρ}
    (h : (situation.stage script (frame :: outer)).advance table = (.fork child, stage)) :
    (situation.progress script (frame :: outer)).move meanwhile table = .lost := by
  unfold Progress.move
  rw [step_progress h]

/-- A program without frames has ended. -/
theorem move_nil {outcome : Outcome} (ho : outcome ≠ .stopped) :
    (situation.progress script []).move meanwhile table =
      .done (situation.completion outcome) := by
  cases outcome with
  | stopped => exact absurd rfl ho
  | finished armed => rfl
  | broke => rfl
  | continued => rfl
  | returned => rfl

end Situation

end GridScript
