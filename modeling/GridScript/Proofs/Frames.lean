import GridScript.Proofs.Forks
import GridScript.Proofs.Layers

/-!
# Frames follow links

Every frame of an activation stands in front of some node of its script: the one
that comes next in a block, or the first of the body of a loop. A step only
follows links. The parameters that decide about calls and splits are read as they
are written, unless they are formulas.
-/

namespace GridScript

/-- The node in front of which a frame stands. -/
def Frame.start : Frame → Option Nat
  | .block chain => chain.next
  | .loop cycle => cycle.body

namespace Act

variable {σ ρ : Type} [RandomSource ρ]

/-- A parameter that has a value is there, and has that value if it is a fixed one. -/
theorem arg?_eq_some {op : Op} {name : String} {scene last : Scene σ ρ} {value : Value}
    (h : arg? op name scene = (.ok (some value), last)) :
    ∃ arg, op.args.get? name = some arg ∧
      match arg with
      | .const fixed => fixed = value
      | .formula _ _ => True
      | .invalid _ _ => False := by
  unfold arg? at h
  cases harg : op.args.get? name with
  | none =>
    rw [harg] at h
    cases h
  | some arg =>
    rw [harg] at h
    refine ⟨arg, rfl, ?_⟩
    cases arg with
    | const fixed =>
      cases h
      rfl
    | formula source parsed => trivial
    | invalid source reason => cases h

/-- A text that was read is one that its parameter may have. -/
theorem textArg_eq_ok {op : Op} {name text : String} {scene last : Scene σ ρ}
    (h : textArg op name scene = (.ok text, last)) :
    ∃ arg, op.args.get? name = some arg ∧ arg.MayRead text := by
  obtain ⟨value, middle, h, htext⟩ := bind_eq_ok h
  obtain ⟨found, middle, hfound, h⟩ := bind_eq_ok h
  cases found with
  | none => cases h
  | some found =>
    cases h
    cases htext
    obtain ⟨arg, harg, hvalue⟩ := arg?_eq_some hfound
    refine ⟨arg, harg, ?_⟩
    cases arg with
    | const fixed => exact congrArg Value.toText hvalue
    | formula source parsed => trivial
    | invalid source reason => exact hvalue

/-- A flag that was found to be set is one that may be. -/
theorem flag_eq_true {op : Op} {name : String} {scene last : Scene σ ρ}
    (h : flag op name scene = (.ok true, last)) :
    (op.args.get? name).any Arg.mayBeTrue = true := by
  obtain ⟨found, middle, hfound, h⟩ := bind_eq_ok h
  cases found with
  | none => cases h
  | some value =>
    obtain ⟨arg, harg, hvalue⟩ := arg?_eq_some hfound
    rw [harg]
    have hbool : Fault.ofConversion value.asBool = .ok true := congrArg Prod.fst h
    cases arg with
    | const fixed =>
      subst hvalue
      cases htruth : fixed.asBool with
      | error error =>
        rw [htruth] at hbool
        cases hbool
      | ok truth =>
        rw [htruth] at hbool
        cases hbool
        simp [Arg.mayBeTrue, htruth, Except.toOption]
    | formula source parsed => rfl
    | invalid source reason => exact hvalue.elim

end Act

/-- An action that asks for no wait, or for one of at least one tick. -/
def Act.Paced {σ ρ : Type} (act : Act σ ρ Flow) : Prop :=
  ∀ before last ticks, act before = (.ok (.suspend ticks), last) → 0 < ticks

namespace Act

variable {σ ρ α : Type}

/-- What comes last decides. -/
theorem paced_bind {act : Act σ ρ α} {next : α → Act σ ρ Flow} (h : ∀ value, (next value).Paced) :
    Paced (act >>= next) := by
  intro before last ticks hrun
  obtain ⟨value, middle, -, hnext⟩ := bind_eq_ok hrun
  exact h value middle last ticks hnext

/-- Going on is no wait. -/
theorem paced_proceed : Paced (pure .proceed : Act σ ρ Flow) :=
  fun _ _ _ h => by cases h

end Act

namespace Actions

open Act

variable {σ ρ : Type} [RandomSource ρ]

/-- Adding to a variable is no wait. -/
theorem paced_add (op : Op) : Paced (add op : Act σ ρ Flow) := by
  refine paced_bind fun name => paced_bind fun amount => ?_
  have hstore (current amount : Number) : Paced (do
      let sum ← Act.lift (Fault.ofNumber (current.toFloat + amount.toFloat))
      Act.define name (.number sum)
      return Flow.proceed : Act σ ρ Flow) :=
    paced_bind fun _ => paced_bind fun _ => paced_proceed
  cases amount with
  | none =>
    refine paced_bind fun amount => paced_bind fun found => ?_
    cases found with
    | none => exact paced_bind fun current => hstore current amount
    | some value => exact paced_bind fun current => hstore current amount
  | some value =>
    refine paced_bind fun amount => paced_bind fun found => ?_
    cases found with
    | none => exact paced_bind fun current => hstore current amount
    | some value => exact paced_bind fun current => hstore current amount

/-- Appending to a list is no wait. -/
theorem paced_append (op : Op) : Paced (append op : Act σ ρ Flow) := by
  refine paced_bind fun name => paced_bind fun value => paced_bind fun found => ?_
  split
  · exact paced_bind fun _ => paced_proceed
  · exact paced_bind fun _ => paced_proceed
  · exact paced_bind fun _ => paced_proceed

/-- Putting into a map is no wait. -/
theorem paced_put (op : Op) : Paced (put op : Act σ ρ Flow) := by
  refine paced_bind fun name => paced_bind fun key => paced_bind fun value =>
    paced_bind fun found => ?_
  split
  · exact paced_bind fun _ => paced_proceed
  · exact paced_bind fun _ => paced_proceed
  · exact paced_bind fun _ => paced_proceed

/-- Waiting is for at least one tick. -/
theorem paced_wait (op : Op) : Paced (wait op : Act σ ρ Flow) := by
  have hwait (ticks : Nat) :
      Paced (pure (if ticks = 0 then .proceed else .suspend ticks) : Act σ ρ Flow) := by
    intro before last found h
    have hflow : (if ticks = 0 then Flow.proceed else .suspend ticks) = .suspend found :=
      Except.ok.inj (congrArg Prod.fst h)
    split at hflow
    · cases hflow
    · cases hflow
      omega
  refine paced_bind fun ticks => ?_
  cases ticks with
  | none => exact paced_bind hwait
  | some value => exact paced_bind hwait

/-- Leaving an action to the host is no wait. -/
theorem paced_byHost [Host σ] (action : String) (op : Op) :
    Paced (byHost action op : Act σ ρ Flow) := by
  refine paced_bind fun request => paced_bind fun answer => ?_
  split
  · exact paced_bind fun _ => paced_proceed
  · exact paced_proceed

end Actions

namespace ActionTable

open Act Actions

variable {σ ρ : Type} [Host σ] [RandomSource ρ]

/-- A table whose actions never wait for no ticks. -/
def Paced (table : ActionTable σ ρ) : Prop :=
  ∀ name op, (table.action name op).Paced

/-- The standard table never waits for no ticks. -/
theorem paced_standard : (standard : ActionTable σ ρ).Paced := by
  intro name
  refine getD_ofList (motive := fun handler : Op → Act σ ρ Flow => ∀ op, (handler op).Paced)
    ?_ (paced_byHost name) name
  simp only [List.mem_cons, List.not_mem_nil, or_false, forall_eq_or_imp, forall_eq]
  exact ⟨fun _ => paced_bind fun _ => paced_bind fun _ => paced_bind fun _ => paced_proceed,
    paced_add, paced_append, paced_put,
    fun _ => paced_bind fun _ => paced_bind fun _ => paced_proceed,
    fun _ => paced_bind fun _ => paced_bind fun _ => paced_proceed,
    paced_wait, fun _ _ _ _ h => by cases h⟩

end ActionTable

/-- All frames of an activation stand in front of nodes of some kind. -/
def Activation.Meets (activation : Activation) (place : Option Nat → Prop) : Prop :=
  ∀ frame ∈ activation.frames, place frame.start

namespace Activation.Meets

variable {activation : Activation} {place : Option Nat → Prop}

/-- One more block, in front of a node of the kind. -/
theorem enter (h : activation.Meets place) {body : Option Nat} (hb : place body)
    (kind : BlockKind) : (activation.enter body kind).Meets place :=
  List.forall_mem_cons.2 ⟨hb, h⟩

/-- A following alternative makes no difference. -/
theorem armElse (h : activation.Meets place) : activation.armElse.Meets place := by
  unfold Activation.armElse
  split
  · rename_i block outer hframes
    have hall := h
    unfold Meets at hall
    rw [hframes, List.forall_mem_cons] at hall
    exact List.forall_mem_cons.2 hall
  · exact h

/-- One frame less. -/
theorem leave (h : activation.Meets place) : activation.leave.Meets place :=
  fun frame hm => h frame (List.mem_of_mem_tail hm)

end Activation.Meets

/-- The frames from the innermost loop on are some of the frames. -/
theorem Frame.mem_of_fromLoop {frame : Frame} {frames : List Frame}
    (h : frame ∈ Frame.fromLoop frames) : frame ∈ frames := by
  induction frames with
  | nil => exact h
  | cons first outer ih =>
    cases first with
    | loop cycle => exact h
    | block chain => exact List.mem_cons_of_mem _ (ih h)

namespace Stage

variable {σ ρ : Type} {place : Option Nat → Prop}

/-- A request to a loop gives frames up. -/
theorem meets_exitLoop {stage : Stage σ ρ} (h : stage.activation.Meets place) (isBreak : Bool) :
    (stage.exitLoop isBreak).2.activation.Meets place := by
  unfold exitLoop
  split
  · exact h
  · exact fun frame hm => h frame (Frame.mem_of_fromLoop hm)

/-- The next iteration of a loop stands in front of its body. -/
theorem meets_iterate {stage : Stage σ ρ} (h : stage.activation.Meets place) {frame : LoopFrame}
    (hb : place frame.body) : (stage.iterate frame).activation.Meets place := by
  have hset (stage : Stage σ ρ) (kind : LoopKind) (iteration : Nat) :
      (stage.setLoopVariable kind iteration).activation.frames = stage.activation.frames := by
    unfold setLoopVariable
    split
    · rfl
    · split <;> rfl
    · rfl
  unfold iterate
  refine Activation.Meets.enter ?_ hb .loopBody
  unfold Activation.Meets
  rw [hset]
  exact List.forall_mem_cons.2 ⟨hb, fun other hm => h other (List.mem_of_mem_tail hm)⟩

variable [RandomSource ρ]

/-- A loop stands in front of the body of its node. -/
theorem meets_enterLoop {stage : Stage σ ρ} (h : stage.activation.Meets place) {index : Nat}
    {op : Op} (hb : place op.body) (action : String) :
    (stage.enterLoop index op action).2.activation.Meets place := by
  unfold enterLoop
  split
  · rename_i heq
    obtain rfl := (congrArg Prod.snd heq).symm
    exact h
  · rename_i heq
    obtain rfl := (congrArg Prod.snd heq).symm
    exact h
  · rename_i frame after heq
    have hresult : (newLoop stage.around.ledger.settings index op action
        ⟨stage.activation.context, stage.around.host, stage.around.random⟩).1 =
          .ok (frame, false) := congrArg Prod.fst heq
    obtain ⟨-, hbody, -⟩ := newLoop_eq_ok (Prod.ext hresult rfl)
    obtain rfl := (congrArg Prod.snd heq).symm
    refine List.forall_mem_cons.2 ⟨?_, h⟩
    change place frame.body
    rw [hbody]
    exact hb

/-- A call that is asked for leaves the frames alone. -/
theorem meets_requestCall {stage : Stage σ ρ} (h : stage.activation.Meets place) (op : Op) :
    (stage.requestCall op).2.activation.Meets place := by
  unfold requestCall
  split <;> rename_i heq <;> obtain rfl := (congrArg Prod.snd heq).symm <;> exact h

/-- Between two iterations a loop is left, or stands in front of its body. -/
theorem meets_loopBoundary {stage : Stage σ ρ} (h : stage.activation.Meets place)
    {frame : LoopFrame} (hb : place frame.body) :
    (stage.loopBoundary frame).2.activation.Meets place := by
  have hkeeps (stage : Stage σ ρ) :
      (stage.keepsOn frame).2.activation.frames = stage.activation.frames := by
    unfold keepsOn
    split
    · split <;> rename_i heq <;> obtain rfl := (congrArg Prod.snd heq).symm <;> rfl
    · rfl
  have hclear : (stage.mapActivation fun activation =>
      { activation with context := { activation.context with flags := .none } }).activation.Meets
        place := h
  unfold loopBoundary
  dsimp only
  generalize stage.mapActivation _ = cleared at hclear ⊢
  split
  · exact hclear.leave
  · split
    · refine Activation.Meets.leave ?_
      split
      · exact hclear
      · exact hclear
    · split
      · exact List.forall_mem_cons.2 ⟨hb, fun other hm => hclear other (List.mem_of_mem_tail hm)⟩
      · have hframes := hkeeps cleared
        split <;> rename_i heq <;> rw [heq] at hframes
        · exact Activation.Meets.leave fun other hm => hclear other (hframes ▸ hm)
        · exact meets_iterate (fun other hm => hclear other (hframes ▸ hm)) hb

variable [Host σ] {table : ActionTable σ ρ}

/-- An action leaves the frames alone. -/
theorem meets_perform {stage : Stage σ ρ} (h : stage.activation.Meets place) (op : Op)
    (action : String) : (stage.perform table op action).2.activation.Meets place := by
  unfold perform
  split <;> rename_i heq <;> obtain rfl := (congrArg Prod.snd heq).symm <;> exact h

/-- A condition that holds stands in front of the body of its node. -/
theorem meets_branch {stage : Stage σ ρ} (h : stage.activation.Meets place) {op : Op}
    (hb : place op.body) (action : String) :
    (stage.branch table op action).2.activation.Meets place := by
  have hdecide : (stage.decide table op action).2.activation.Meets place := by
    unfold decide
    split <;> rename_i heq <;> obtain rfl := (congrArg Prod.snd heq).symm <;> exact h
  unfold branch
  split <;> rename_i heq <;> rw [heq] at hdecide
  · exact hdecide.enter hb .branch
  · exact hdecide.armElse

/-- A node leads to its body at most. -/
theorem meets_exec {stage : Stage σ ρ} (h : stage.activation.Meets place) {op : Op}
    (hb : place op.body) (index : Nat) (armed : Bool) :
    (stage.exec table index op armed).2.activation.Meets place := by
  unfold exec
  split
  · cases armed with
    | true => exact h.enter hb .branch
    | false => exact h
  · split
    · exact h
    · unfold execAction
      split
      · exact h
      · exact h
      · exact h
      · exact meets_branch h hb _
      · split
        · exact meets_branch h hb _
        · exact h
      · exact meets_enterLoop h hb _
      · exact meets_requestCall h op
      · split
        · exact meets_exitLoop h true
        · exact meets_exitLoop h false
        · exact fun frame hm => by cases hm
        · exact meets_perform h op _
      · exact meets_perform h op _
      · exact meets_perform h op _

/-- A step follows links: frames that stand in front of nodes of some kind do so
afterwards if the kind is handed on along links. -/
theorem meets_advance {stage : Stage σ ρ} (h : stage.activation.Meets place)
    (hlinks : ∀ index op, place (some index) → stage.activation.script.op? index = some op →
      place op.next ∧ place op.body) (hnone : place none) :
    (stage.advance table).2.activation.Meets place := by
  unfold advance
  split
  · exact h
  · rename_i frame outer hframes
    exact meets_loopBoundary h (h (.loop frame) (by simp [hframes]))
  · rename_i block outer hframes
    have hblock : place block.next := h (.block block) (by simp [hframes])
    have houter : ∀ frame ∈ outer, place frame.start := fun frame hm =>
      h frame (by simp [hframes, hm])
    split
    · exact h.leave
    · rename_i index hnext
      rw [hnext] at hblock
      dsimp only
      split
      · rename_i hop
        rw [hop]
        exact List.forall_mem_cons.2 ⟨hnone, houter⟩
      · rename_i op hop
        rw [hop]
        obtain ⟨hafter, hbody⟩ := hlinks index op hblock hop
        refine meets_exec ?_ hbody index _
        exact List.forall_mem_cons.2 ⟨hafter, houter⟩

/-- A call is asked for by a node that comes next in a block, and names a function
that the node may name. -/
theorem advance_call {stage : Stage σ ρ} {request : CallRequest}
    (h : (stage.advance table).1 = .call request) :
    ∃ block index op, stage.activation.frames.head? = some (.block block) ∧
      block.next = some index ∧ stage.activation.script.op? index = some op ∧
      op.MayName request.function := by
  obtain ⟨frame, h⟩ | ⟨block, index, op, action, armed, inside, hframes, hnext, hop, -, h⟩ :=
    advance_effect h Effect.noConfusion
  · obtain hnormal | ⟨ticks, -, hwait⟩ := loopBoundary_effect stage frame
    · cases hnormal.symm.trans h
    · cases hwait.symm.trans h
  · obtain ⟨-, h⟩ | ⟨hcategory, h⟩ | h := execAction_effect h Effect.noConfusion
    · unfold enterLoop at h
      split at h <;> cases h
    · obtain hnormal | ⟨named, hcall, before, last, hname⟩ := requestCall_effect inside op
      · cases hnormal.symm.trans h
      · cases hcall.symm.trans h
        exact ⟨block, index, op, hframes, hnext, hop, hcategory, Act.textArg_eq_ok hname⟩
    · obtain hnormal | hstop | ⟨ticks, hwait, -⟩ := perform_effect table inside op action
      · cases hnormal.symm.trans h
      · cases hstop.symm.trans h
      · cases hwait.symm.trans h

/-- A wait is for at least one tick. -/
theorem advance_suspend (hp : table.Paced) {stage : Stage σ ρ} {ticks : Nat}
    (h : (stage.advance table).1 = .suspend ticks) : 0 < ticks := by
  obtain ⟨frame, h⟩ | ⟨block, index, op, action, armed, inside, -, -, -, -, h⟩ :=
    advance_effect h Effect.noConfusion
  · obtain hnormal | ⟨delay, hdelay, hwait⟩ := loopBoundary_effect stage frame
    · cases hnormal.symm.trans h
    · cases hwait.symm.trans h
      exact hdelay
  · obtain ⟨-, h⟩ | ⟨-, h⟩ | h := execAction_effect h Effect.noConfusion
    · unfold enterLoop at h
      split at h <;> cases h
    · obtain hnormal | ⟨request, hcall, -⟩ := requestCall_effect inside op
      · cases hnormal.symm.trans h
      · cases hcall.symm.trans h
    · obtain hnormal | hstop | ⟨found, hwait, before, last, haction⟩ :=
        perform_effect table inside op action
      · cases hnormal.symm.trans h
      · cases hstop.symm.trans h
      · cases hwait.symm.trans h
        exact hp action op before last ticks haction

end Stage

end GridScript
