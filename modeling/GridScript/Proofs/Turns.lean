import GridScript.Proofs.Formation
import GridScript.Proofs.Meaning
import GridScript.Proofs.Requests

/-!
# What a loop does between two iterations

Whenever a loop is the innermost frame of an activation, it takes a turn: it is left, waits, or
begins its next iteration. Which of these it is depends on the request that is open, on the
number of iterations that have begun, on the delay, and on the condition, and they are looked
at in this order.
-/

namespace GridScript

namespace LoopKind

/-- The greatest number of iterations, if there is one. -/
def bound? : LoopKind → Option Nat
  | .times count _ => some count
  | .whileTrue limit => some limit
  | .forEach items _ => some items.length
  | .forever => none

/-- The variables with which an iteration begins, counted from zero. -/
def assign (kind : LoopKind) (iteration : Nat) (locals : Locals) : Locals :=
  match kind.binding? iteration with
  | some (name, value) => locals.insert name value
  | none => locals

/-- An iteration may follow as long as there are fewer than the greatest number. -/
theorem allows_eq_true {kind : LoopKind} {count : Nat} :
    kind.allows count = true ↔ ∀ bound ∈ kind.bound?, count < bound := by
  unfold allows bound?
  cases kind <;> simp

/-- A loop whose iterations are all over has had as many as it may have. -/
theorem bound_of_exhausted {kind : LoopKind} {count : Nat} (h : kind.allows count = false)
    (hle : ∀ bound ∈ kind.bound?, count ≤ bound) : kind.bound? = some count := by
  have hover : ¬ ∀ bound ∈ kind.bound?, count < bound := by
    rw [← allows_eq_true, h]
    exact Bool.false_ne_true
  cases hbound : kind.bound? with
  | none => simp [hbound] at hover
  | some bound =>
    obtain hlt | heq := Nat.lt_or_eq_of_le (hle bound hbound)
    · refine absurd (fun other hm => ?_) hover
      cases hbound.symm.trans hm
      exact hlt
    · rw [heq]

end LoopKind

/-- The condition of a loop yields true in an activation, and the random source is like that
afterwards. Only a `while` loop has a condition. -/
def Activation.KeepsOn {ρ : Type} [RandomSource ρ] (activation : Activation) (cycle : LoopFrame)
    (source after : ρ) : Prop :=
  match cycle.kind with
  | .whileTrue _ => ∃ arg value,
      (activation.script.op? cycle.op).bind (·.args.get? "condition") = some arg ∧
      (arg.eval activation.context.locals.get?).run source = (.ok value, after) ∧
      value.asBool = .ok true
  | _ => after = source

/-- An activation with other frames and no request open. -/
def Activation.settle (activation : Activation) (frames : List Frame) : Activation :=
  { activation with frames, context := { activation.context with flags := .none } }

namespace Stage

variable {σ ρ : Type}

/-- There are iterations left exactly if the kind of the loop allows another one. -/
theorem hasMore_eq (cycle : LoopFrame) : hasMore cycle = cycle.kind.allows cycle.iteration := by
  unfold hasMore LoopKind.allows
  cases cycle.kind <;> rfl

/-- Setting the variable of a loop changes nothing but the variables. -/
theorem setLoopVariable_eq (stage : Stage σ ρ) (kind : LoopKind) (iteration : Nat) :
    stage.setLoopVariable kind (iteration + 1) = stage.mapActivation fun activation =>
      { activation with context := { activation.context with
          locals := kind.assign iteration activation.context.locals } } := by
  unfold setLoopVariable LoopKind.assign LoopKind.binding?
  cases kind with
  | times count counter => cases counter <;> rfl
  | whileTrue limit => rfl
  | forEach items name =>
    dsimp only
    rw [Nat.add_sub_cancel]
    cases items[iteration]? <;> rfl
  | forever => rfl

variable [RandomSource ρ]

/-- All that a loop between two iterations can do. -/
inductive Turns (stage : Stage σ ρ) (cycle : LoopFrame) (outer : List Frame) :
    Effect × Stage σ ρ → Prop
  /-- It is left because it was asked to. -/
  | breaks (hbreak : stage.activation.context.flags.breakRequested = true) :
      Turns stage cycle outer (.normal, ⟨stage.activation.settle outer, stage.around⟩)
  /-- It is left because all of its iterations are over. -/
  | exhausts {last : Surroundings σ ρ}
      (hunbroken : stage.activation.context.flags.breakRequested = false)
      (hover : cycle.kind.allows cycle.iteration = false) :
      Turns stage cycle outer (.normal, ⟨stage.activation.settle outer, last⟩)
  /-- It waits before its next iteration. -/
  | rests (hunbroken : stage.activation.context.flags.breakRequested = false)
      (hallows : cycle.kind.allows cycle.iteration = true) (hlater : 0 < cycle.iteration)
      (hdelay : 0 < cycle.delay) (hfresh : cycle.waited = false) :
      Turns stage cycle outer (.suspend cycle.delay,
        ⟨stage.activation.settle (.loop { cycle with waited := true } :: outer), stage.around⟩)
  /-- It is left because its condition does not yield true. -/
  | declines {last : Surroundings σ ρ}
      (hunbroken : stage.activation.context.flags.breakRequested = false)
      (hallows : cycle.kind.allows cycle.iteration = true)
      (hrested : 0 < cycle.iteration → 0 < cycle.delay → cycle.waited = true)
      (hunmet : ∀ after, ¬ stage.activation.KeepsOn cycle stage.around.random after) :
      Turns stage cycle outer (.normal, ⟨stage.activation.settle outer, last⟩)
  /-- It begins its next iteration. -/
  | iterates {random : ρ} (hunbroken : stage.activation.context.flags.breakRequested = false)
      (hallows : cycle.kind.allows cycle.iteration = true)
      (hrested : 0 < cycle.iteration → 0 < cycle.delay → cycle.waited = true)
      (hmet : stage.activation.KeepsOn cycle stage.around.random random) :
      Turns stage cycle outer (.normal,
        ⟨{ stage.activation with
            frames := .block ⟨cycle.body, .loopBody, false⟩ ::
              .loop { cycle with iteration := cycle.iteration + 1, waited := false } :: outer
            context := { stage.activation.context with
              locals := cycle.kind.assign cycle.iteration stage.activation.context.locals
              flags := .none } },
          { stage.around with random }⟩)

/-- No request is open after a turn. -/
theorem Turns.flags {stage : Stage σ ρ} {cycle : LoopFrame} {outer : List Frame}
    {result : Effect × Stage σ ρ} (h : Turns stage cycle outer result) :
    result.2.activation.context.flags = .none := by
  cases h <;> rfl

/-- Evaluating the condition of a loop changes nothing but the random source. -/
theorem reads_loopCondition (op : Option Op) : (loopCondition op : Act σ ρ Bool).Reads := by
  unfold loopCondition
  split
  · exact Act.reads_throw _
  · exact Act.Reads.bind (fun scene => ⟨_, rfl⟩) fun _ scene => ⟨scene.random, rfl⟩

/-- The condition of a loop yields true exactly if its parameter is there and has a value that
is true. -/
theorem loopCondition_eq_true {op : Option Op} {scene last : Scene σ ρ} :
    loopCondition op scene = (.ok true, last) ↔ ∃ arg value random,
      op.bind (·.args.get? "condition") = some arg ∧
      (arg.eval scene.context.locals.get?).run scene.random = (.ok value, random) ∧
      value.asBool = .ok true ∧ last = { scene with random } := by
  unfold loopCondition
  cases hfound : op.bind (·.args.get? "condition") with
  | none =>
    refine ⟨nofun, ?_⟩
    rintro ⟨arg, _, _, hnone, -⟩
    cases hnone
  | some arg =>
    dsimp only
    rw [Act.bind_apply]
    rcases heval : (arg.eval scene.context.locals.get?).run scene.random with ⟨result, random⟩
    have hact : Act.eval arg scene = (result, { scene with random }) := by
      unfold Act.eval
      rw [heval]
    rw [hact]
    constructor
    · intro h
      cases result with
      | error fault => cases h
      | ok value =>
        cases hbool : value.asBool with
        | error error =>
          simp only [hbool] at h
          cases h
        | ok holds =>
          simp only [hbool] at h
          cases h
          exact ⟨arg, value, random, rfl, heval, hbool, rfl⟩
    · rintro ⟨_, value, after, hsame, hvalue, hbool, rfl⟩
      cases hsame
      cases heval.symm.trans hvalue
      simp only [hbool]
      rfl

/-- Whether a loop goes on depends on its condition alone. -/
theorem keepsOn_cases (stage : Stage σ ρ) (cycle : LoopFrame) :
    (∃ last, stage.keepsOn cycle = (false, ⟨stage.activation, last⟩) ∧
      ∀ after, ¬ stage.activation.KeepsOn cycle stage.around.random after) ∨
    ∃ random, stage.keepsOn cycle = (true, ⟨stage.activation, { stage.around with random }⟩) ∧
      stage.activation.KeepsOn cycle stage.around.random random := by
  unfold keepsOn Activation.KeepsOn
  cases cycle.kind with
  | whileTrue limit =>
    dsimp only
    obtain ⟨random, hcondition, hstage⟩ :=
      run_of_reads (reads_loopCondition (stage.activation.script.op? cycle.op)) stage
    have hmet {after : ρ} : (∃ arg value,
        (stage.activation.script.op? cycle.op).bind (·.args.get? "condition") = some arg ∧
        (arg.eval stage.activation.context.locals.get?).run stage.around.random =
          (.ok value, after) ∧ value.asBool = .ok true) →
        (stage.run (loopCondition (stage.activation.script.op? cycle.op))).1 = .ok true := by
      rintro ⟨arg, value, hfound, heval, hvalue⟩
      exact congrArg Prod.fst
        (loopCondition_eq_true.2 ⟨arg, value, after, hfound, heval, hvalue, rfl⟩)
    rcases hrun : stage.run (loopCondition (stage.activation.script.op? cycle.op)) with
      ⟨result, after⟩
    rw [hrun] at hcondition hstage hmet
    dsimp only at hcondition hstage hmet
    subst hstage
    cases result with
    | error fault => exact .inl ⟨_, rfl, fun after hmeets => nomatch hmet hmeets⟩
    | ok holds =>
      cases holds with
      | false => exact .inl ⟨_, rfl, fun after hmeets => nomatch hmet hmeets⟩
      | true =>
        obtain ⟨arg, value, _, hfound, heval, hvalue, hlast⟩ := loopCondition_eq_true.1 hcondition
        cases hlast
        exact .inr ⟨random, rfl, arg, value, hfound, heval, hvalue⟩
  | times count counter => exact .inr ⟨_, rfl, rfl⟩
  | forEach items name => exact .inr ⟨_, rfl, rfl⟩
  | forever => exact .inr ⟨_, rfl, rfl⟩

/-- These are all turns of a loop. -/
theorem turns_loopBoundary {stage : Stage σ ρ} {cycle : LoopFrame} {outer : List Frame}
    (h : stage.activation.frames = .loop cycle :: outer) :
    Turns stage cycle outer (stage.loopBoundary cycle) := by
  have hleave (after : Surroundings σ ρ) :
      Stage.mapActivation ⟨stage.activation.settle stage.activation.frames, after⟩ (·.leave) =
        ⟨stage.activation.settle outer, after⟩ := by
    simp only [mapActivation, Activation.leave, Activation.settle, h, List.tail_cons]
  have hset (after : Surroundings σ ρ) (other : LoopFrame) :
      Stage.setLoop ⟨stage.activation.settle stage.activation.frames, after⟩ other =
        ⟨stage.activation.settle (.loop other :: outer), after⟩ := by
    simp only [setLoop, mapActivation, Activation.settle, h, List.tail_cons]
  have hcleared : (stage.mapActivation fun activation =>
      { activation with context := { activation.context with flags := .none } }) =
        ⟨stage.activation.settle stage.activation.frames, stage.around⟩ := rfl
  unfold loopBoundary
  rw [hcleared]
  dsimp only
  split
  · rename_i hbreak
    rw [hleave]
    exact .breaks hbreak
  · rename_i hbreak
    have hunbroken := Bool.eq_false_iff.2 hbreak
    rw [hasMore_eq]
    split
    · rename_i hmore
      have hover : cycle.kind.allows cycle.iteration = false := by simpa using hmore
      split
      · exact (hleave _) ▸ .exhausts hunbroken hover
      · exact (hleave _) ▸ .exhausts hunbroken hover
    · rename_i hmore
      have hallows : cycle.kind.allows cycle.iteration = true := by simpa using hmore
      split
      · rename_i hwait
        rw [hset]
        exact .rests hunbroken hallows hwait.1 hwait.2.1 (by simpa using hwait.2.2)
      · rename_i hwait
        have hrested : 0 < cycle.iteration → 0 < cycle.delay → cycle.waited = true := by
          intro hlater hdelay
          by_contra hfresh
          exact hwait ⟨hlater, hdelay, by simpa using hfresh⟩
        obtain ⟨last, hkeeps, hunmet⟩ | ⟨random, hkeeps, hmet⟩ := keepsOn_cases
          ⟨stage.activation.settle stage.activation.frames, stage.around⟩ cycle
        · rw [hkeeps]
          dsimp only
          rw [hleave]
          exact .declines hunbroken hallows hrested hunmet
        · rw [hkeeps]
          dsimp only
          unfold iterate
          dsimp only
          rw [hset, setLoopVariable_eq]
          exact .iterates hunbroken hallows hrested hmet

end Stage

end GridScript
