import GridScript.Engine.Slice
import GridScript.Proofs.Invocation
import GridScript.Proofs.Linking
import Mathlib.Data.List.TakeDrop

/-!
# Nodes without identity and cell

Programs that agree in all but the identities and cells of their nodes are linked to
scripts that do. Nothing a machine does depends on these two: whatever is executed with
them is executed in the same way without them, with the same effects on the host, the
random source and the ledger, and what is left of the machine differs in them alone.
Calls bring the scripts of registered functions onto the stack, nodes and all, so that a
step is compared after all nodes on the stack have been detached.
-/

namespace GridScript

/-- The node without its identity and its cell. -/
def Op.detached (op : Op) : Op :=
  { op with id := 0, position := none }

namespace Script

/-- The script with all nodes detached. -/
def detached (script : Script) : Script :=
  { script with ops := script.ops.map Op.detached }

/-- The node at an index is the detached one. -/
theorem op?_detached (script : Script) (index : Nat) :
    script.detached.op? index = (script.op? index).map Op.detached :=
  Array.getElem?_map

/-- Detaching again changes nothing. -/
theorem detached_detached (script : Script) : script.detached.detached = script.detached := by
  simp only [detached, Array.map_map]
  congr 1

end Script

namespace Node

/-- Nodes that agree are linked to nodes that differ in identity and cell at most. -/
theorem detached_link {a b : Instruction} (h : sameInstruction a b = true)
    (body next : Option Nat) : (a.link body next).detached = (b.link body next).detached := by
  simp only [sameInstruction, Bool.and_eq_true, beq_iff_eq] at h
  obtain ⟨⟨⟨⟨hsymbol, hcategory⟩, haction⟩, hparams⟩, -⟩ := h
  simp only [Instruction.link, Op.detached, hsymbol, hcategory, haction, hparams]

/-- Two lists of trees of one structure are both empty or neither is. -/
theorem isEmpty_of_sameStructures {nodes others : List Node}
    (h : sameStructures nodes others = true) : nodes.isEmpty = others.isEmpty := by
  cases nodes <;> cases others <;> first | rfl | cases h

/-- Two successors of one structure are both there or neither is. -/
theorem isSome_of_sameSuccessor {next other : Option Node} (h : sameSuccessor next other = true) :
    next.isSome = other.isSome := by
  cases next <;> cases other <;> first | rfl | cases h

mutual

/-- Trees of one structure are linked alike. -/
theorem link_alike : (a b : Node) → sameStructure a b = true → a.count = b.count ∧
    ∀ start after, (a.link start after).map Op.detached = (b.link start after).map Op.detached
  | .mk a children next, .mk b others other, h => by
    rw [sameStructure, Bool.and_eq_true, Bool.and_eq_true] at h
    obtain ⟨⟨hhead, hchildren⟩, hnext⟩ := h
    obtain ⟨hcountAll, hlinkAll⟩ := linkAll_alike children others hchildren
    obtain ⟨hcountNext, hlinkNext⟩ := linkNext_alike next other hnext
    refine ⟨by rw [count, count, hcountAll, hcountNext], fun start after => ?_⟩
    simp only [link, List.map_cons, List.map_append, hlinkAll, hlinkNext, hcountAll,
      isEmpty_of_sameStructures hchildren, isSome_of_sameSuccessor hnext, detached_link hhead]

/-- Lists of trees of one structure are linked alike. -/
theorem linkAll_alike : (as bs : List Node) → sameStructures as bs = true →
    countAll as = countAll bs ∧
    ∀ start, (linkAll start as).map Op.detached = (linkAll start bs).map Op.detached
  | [], [], _ => ⟨rfl, fun _ => rfl⟩
  | a :: as, b :: bs, h => by
    rw [sameStructures, Bool.and_eq_true] at h
    obtain ⟨hcount, hlink⟩ := link_alike a b h.1
    obtain ⟨hcountAll, hlinkAll⟩ := linkAll_alike as bs h.2
    refine ⟨by rw [countAll, countAll, hcount, hcountAll], fun start => ?_⟩
    simp only [linkAll, List.map_append, hcount, hlink, hlinkAll, isEmpty_of_sameStructures h.2]

/-- Successors of one structure are linked alike. -/
theorem linkNext_alike : (a b : Option Node) → sameSuccessor a b = true →
    countNext a = countNext b ∧
    ∀ start after, (linkNext start after a).map Op.detached = (linkNext start after b).map Op.detached
  | none, none, _ => ⟨rfl, fun _ _ => rfl⟩
  | some a, some b, h => link_alike a b h

end

end Node

namespace Script

/-- Bodies of one structure are linked to scripts that differ in identities and cells at
most. -/
theorem detached_ofBody (name : String) (origin : Place) {body other : Option Node}
    (h : Node.sameSuccessor body other = true) :
    (ofBody name origin body).detached = (ofBody name origin other).detached := by
  obtain ⟨-, hlink⟩ := Node.linkNext_alike body other h
  simp only [ofBody_eq, detached, List.map_toArray, hlink, Node.isSome_of_sameSuccessor h]

/-- Programs of one structure are linked to scripts that differ in identities and cells at
most. -/
theorem detached_ofProgram {program other : Program} (h : program.sameStructure other = true) :
    (ofProgram program).detached = (ofProgram other).detached := by
  simp only [Program.sameStructure, Bool.and_eq_true, beq_iff_eq] at h
  obtain ⟨⟨hkind, horigin⟩, hroot⟩ := h
  have hnext : Node.sameSuccessor program.root.next other.root.next = true := by
    cases hfirst : program.root
    cases hsecond : other.root
    rw [hfirst, hsecond, Node.sameStructure, Bool.and_eq_true] at hroot
    exact hroot.2
  rw [ofProgram, ofProgram, hkind, horigin]
  exact detached_ofBody _ _ hnext

end Script

/-- The activation with all nodes detached. -/
def Activation.detached (activation : Activation) : Activation :=
  { activation with script := activation.script.detached }

/-- Detaching again changes nothing. -/
theorem Activation.detached_detached (activation : Activation) :
    activation.detached.detached = activation.detached := by
  simp only [detached, Script.detached_detached]

namespace Machine

/-- The machine with all nodes detached. -/
def detached (machine : Machine) : Machine :=
  { machine with stack := machine.stack.map Activation.detached }

/-- Detaching again changes nothing. -/
theorem detached_detached (machine : Machine) : machine.detached.detached = machine.detached := by
  simp only [detached, List.map_map]
  congr 2
  exact funext Activation.detached_detached

/-- The variables of the program do not depend on its nodes. -/
theorem locals?_detached (machine : Machine) : machine.detached.locals? = machine.locals? := by
  simp only [locals?, detached, List.getLast?_map]
  cases machine.stack.getLast? <;> rfl

/-- A machine that was ended has no nodes. -/
theorem ended_detached (machine : Machine) : machine.detached.ended = machine.ended := by
  rw [ended, locals?_detached, ended]

end Machine

/-- What a node asks for, with all nodes detached. -/
def Effect.detached : Effect → Effect
  | .fork machine => .fork machine.detached
  | effect => effect

/-- What a step came to, with all nodes detached. -/
def Step.detached : Step → Step
  | .fork machine => .fork machine.detached
  | step => step

/-- Two steps that differ in identities and cells at most are the same, unless both split
something off. -/
theorem Step.alike_cases {outcome result : Except RunError Step}
    (h : outcome.map Step.detached = result.map Step.detached) :
    outcome = result ∨ ∃ child other, outcome = .ok (.fork child) ∧ result = .ok (.fork other) ∧
      child.detached = other.detached := by
  cases outcome with
  | error =>
    cases result with
    | error => exact .inl (congrArg _ (Except.error.inj h))
    | ok => cases h
  | ok step =>
    cases result with
    | error => cases h
    | ok other =>
      have hsteps : step.detached = other.detached := Except.ok.inj h
      cases step with
      | fork child =>
        cases other with
        | fork split => exact .inr ⟨child, split, rfl, rfl, Step.fork.inj hsteps⟩
        | idle | normal | suspend | terminate => cases hsteps
      | idle | normal | suspend | terminate =>
        cases other <;> cases hsteps
        exact .inl rfl

namespace Stage

variable {σ ρ : Type}

/-- The stage with all nodes detached. -/
def detached (stage : Stage σ ρ) : Stage σ ρ :=
  { stage with activation := stage.activation.detached }

/-- The effect of a node and the stage after it, with all nodes detached. -/
def detachedResult (result : Effect × Stage σ ρ) : Effect × Stage σ ρ :=
  (result.1.detached, result.2.detached)

end Stage

/-- The identity and the cell of a node make no difference to a handler. -/
def Op.UnseenBy {α : Type} (handler : Op → α) : Prop :=
  ∀ op, handler op.detached = handler op

/-- A table whose actions and conditions look at neither the identity nor the cell of a
node. -/
structure ActionTable.Detached {σ ρ : Type} [Host σ] [RandomSource ρ] (table : ActionTable σ ρ) :
    Prop where
  /-- Actions do not. -/
  action : ∀ name, Op.UnseenBy (table.action name)
  /-- Conditions do not. -/
  condition : ∀ name, Op.UnseenBy (table.condition name)

/-- The standard table looks at neither. -/
theorem ActionTable.detached_standard {σ ρ : Type} [Host σ] [RandomSource ρ] :
    (standard : ActionTable σ ρ).Detached where
  action name := by
    have hhost : Op.UnseenBy (Actions.byHost name : Op → Act σ ρ Flow) := fun _ => rfl
    refine getD_ofList (motive := fun handler : Op → Act σ ρ Flow => Op.UnseenBy handler)
      ?_ hhost name
    simp only [List.mem_cons, List.not_mem_nil, or_false, forall_eq_or_imp, forall_eq]
    exact ⟨fun _ => rfl, fun _ => rfl, fun _ => rfl, fun _ => rfl, fun _ => rfl, fun _ => rfl,
      fun _ => rfl, fun _ => rfl⟩
  condition name := by
    have hhost : Op.UnseenBy (Actions.byHostCondition name : Op → Act σ ρ Bool) := fun _ => rfl
    refine getD_ofList (motive := fun handler : Op → Act σ ρ Bool => Op.UnseenBy handler)
      ?_ hhost name
    simp only [List.mem_cons, List.not_mem_nil, or_false, forall_eq_or_imp, forall_eq]
    exact ⟨fun _ => rfl, fun _ => rfl, fun _ => rfl, fun _ => rfl, fun _ => rfl⟩

namespace Stage

variable {σ ρ : Type}

/-- A computation of an action does not see the nodes. -/
theorem run_detached {α : Type} (stage : Stage σ ρ) (act : Act σ ρ α) :
    stage.detached.run act = ((stage.run act).1, (stage.run act).2.detached) :=
  rfl

/-- A following alternative is armed alike. -/
theorem armElse_detached (stage : Stage σ ρ) :
    stage.detached.mapActivation (·.armElse) = (stage.mapActivation (·.armElse)).detached := by
  simp only [mapActivation, Activation.armElse, detached, Activation.detached]
  split <;> rfl

/-- A request to a loop. -/
theorem exitLoop_detached (stage : Stage σ ρ) (isBreak : Bool) :
    stage.detached.exitLoop isBreak = detachedResult (stage.exitLoop isBreak) := by
  have hframes : stage.detached.activation.frames = stage.activation.frames := rfl
  unfold exitLoop
  rw [hframes]
  cases Frame.fromLoop stage.activation.frames <;> rfl

/-- The variable of a loop. -/
theorem setLoopVariable_detached (stage : Stage σ ρ) (kind : LoopKind) (iteration : Nat) :
    stage.detached.setLoopVariable kind iteration =
      (stage.setLoopVariable kind iteration).detached := by
  unfold setLoopVariable
  split
  · rfl
  · split <;> rfl
  · rfl

/-- The next iteration. -/
theorem iterate_detached (stage : Stage σ ρ) (frame : LoopFrame) :
    stage.detached.iterate frame = (stage.iterate frame).detached := by
  have hset := setLoopVariable_detached
    (stage.setLoop { frame with iteration := frame.iteration + 1, waited := false }) frame.kind
    (frame.iteration + 1)
  exact congrArg (fun next : Stage σ ρ => next.mapActivation (·.enter frame.body .loopBody)) hset

variable [RandomSource ρ]

/-- The node of a loop. -/
theorem enterLoop_detached (stage : Stage σ ρ) (index : Nat) (op : Op) (action : String) :
    stage.detached.enterLoop index op.detached action =
      detachedResult (stage.enterLoop index op action) := by
  have hloop : (newLoop stage.detached.around.ledger.settings index op.detached action :
      Act σ ρ (LoopFrame × Bool)) = newLoop stage.around.ledger.settings index op action := rfl
  unfold enterLoop
  rw [hloop, run_detached]
  rcases stage.run (newLoop stage.around.ledger.settings index op action) with ⟨result, after⟩
  match result with
  | .error fault => rfl
  | .ok (frame, true) => rfl
  | .ok (frame, false) => rfl

/-- The arguments of a call. -/
theorem namedArgs_detached (op : Op) (values : ArrivalMap String Value) (names : List String) :
    (namedArgs op.detached values names : Act σ ρ (ArrivalMap String Value)) =
      namedArgs op values names := by
  induction names generalizing values with
  | nil => rfl
  | cons name rest ih =>
    have harg : (Act.arg op.detached name : Act σ ρ Value) = Act.arg op name := rfl
    simp only [namedArgs, harg, ih]

/-- The node of a call. -/
theorem requestCall_detached (stage : Stage σ ρ) (op : Op) :
    stage.detached.requestCall op.detached = detachedResult (stage.requestCall op) := by
  have htext : (Act.textArg op.detached "function" : Act σ ρ String) =
      Act.textArg op "function" := rfl
  have harg (name : String) : (Act.arg? op.detached name : Act σ ρ (Option Value)) =
      Act.arg? op name := rfl
  have hnames : op.detached.args = op.args := rfl
  have hrequest : (callRequest op.detached : Act σ ρ CallRequest) = callRequest op := by
    simp only [callRequest, htext, harg, hnames, namedArgs_detached]
  unfold requestCall
  rw [hrequest, run_detached]
  rcases stage.run (callRequest op) with ⟨result, after⟩
  cases result <;> rfl

/-- A return. -/
theorem leaveActivation_detached (stage : Stage σ ρ) (op : Op) :
    stage.detached.leaveActivation op.detached = detachedResult (stage.leaveActivation op) := by
  have hvalue : (Act.arg? op.detached "value" : Act σ ρ (Option Value)) = Act.arg? op "value" := rfl
  unfold leaveActivation
  rw [hvalue, run_detached]
  rcases stage.run (Act.arg? op "value") with ⟨result, after⟩
  match result with
  | .error fault => rfl
  | .ok none => rfl
  | .ok (some value) => rfl

/-- The condition of a loop. -/
theorem keepsOn_detached (stage : Stage σ ρ) (frame : LoopFrame) :
    stage.detached.keepsOn frame = ((stage.keepsOn frame).1, (stage.keepsOn frame).2.detached) := by
  have hcondition (found : Option Op) :
      (loopCondition (found.map Op.detached) : Act σ ρ Bool) = loopCondition found := by
    cases found <;> rfl
  have hop : stage.detached.activation.script.op? frame.op =
      (stage.activation.script.op? frame.op).map Op.detached := Script.op?_detached _ _
  unfold keepsOn
  cases frame.kind with
  | whileTrue limit =>
    dsimp only
    rw [hop, hcondition, run_detached]
    rcases stage.run (loopCondition (stage.activation.script.op? frame.op)) with ⟨result, after⟩
    cases result <;> rfl
  | times count counter => rfl
  | forEach items name => rfl
  | forever => rfl

/-- What happens between two iterations. -/
theorem loopBoundary_detached (stage : Stage σ ρ) (frame : LoopFrame) :
    stage.detached.loopBoundary frame = detachedResult (stage.loopBoundary frame) := by
  have hclear : stage.detached.mapActivation (fun activation =>
      { activation with context := { activation.context with flags := .none } }) =
      (stage.mapActivation fun activation =>
        { activation with context := { activation.context with flags := .none } }).detached := rfl
  have hflags : stage.detached.activation.context.flags = stage.activation.context.flags := rfl
  unfold loopBoundary
  rw [hflags, hclear]
  dsimp only
  generalize stage.mapActivation _ = cleared
  split
  · rfl
  · split
    · split <;> rfl
    · split
      · rfl
      · rw [keepsOn_detached]
        rcases cleared.keepsOn frame with ⟨holds, after⟩
        cases holds with
        | false => rfl
        | true => exact congrArg (Prod.mk Effect.normal) (iterate_detached after frame)

variable [Host σ] {table : ActionTable σ ρ}

/-- An action. -/
theorem perform_detached (ht : table.Detached) (stage : Stage σ ρ) (op : Op) (action : String) :
    stage.detached.perform table op.detached action =
      detachedResult (stage.perform table op action) := by
  unfold perform
  rw [ht.action action op, run_detached]
  rcases stage.run (table.action action op) with ⟨result, after⟩
  match result with
  | .ok .proceed => rfl
  | .ok (.suspend ticks) => rfl
  | .ok .stop => rfl
  | .error fault => rfl

/-- A condition. -/
theorem branch_detached (ht : table.Detached) (stage : Stage σ ρ) (op : Op) (action : String) :
    stage.detached.branch table op.detached action =
      detachedResult (stage.branch table op action) := by
  have hdecision : decision table op.detached action = decision table op action := by
    unfold decision
    rw [ht.condition action op]
    rfl
  have hdecide : stage.detached.decide table op.detached action =
      ((stage.decide table op action).1, (stage.decide table op action).2.detached) := by
    unfold decide
    rw [hdecision, run_detached]
    rcases stage.run (decision table op action) with ⟨result, after⟩
    cases result <;> rfl
  unfold branch
  rw [hdecide]
  rcases stage.decide table op action with ⟨holds, after⟩
  cases holds with
  | true => rfl
  | false => exact congrArg (Prod.mk Effect.normal) (armElse_detached after)

/-- A node. -/
theorem exec_detached (ht : table.Detached) (stage : Stage σ ρ) (index : Nat) (op : Op)
    (armed : Bool) :
    stage.detached.exec table index op.detached armed =
      detachedResult (stage.exec table index op armed) := by
  have hplain : isPlainElse op.detached = isPlainElse op := rfl
  have haction : op.detached.action = op.action := rfl
  have hcategory : op.detached.category = op.category := rfl
  unfold exec
  rw [hplain, haction]
  split
  · cases armed <;> rfl
  · split
    · rfl
    · rename_i action _
      unfold execAction
      rw [hcategory]
      cases op.category <;> dsimp only
      case event | function | bracket => rfl
      case condition => exact branch_detached ht stage op action
      case alternative =>
        split
        · exact branch_detached ht stage op action
        · rfl
      case loop => exact enterLoop_detached stage index op action
      case call => exact requestCall_detached stage op
      case control =>
        split
        · exact exitLoop_detached stage true
        · exact exitLoop_detached stage false
        · exact leaveActivation_detached stage op
        · exact perform_detached ht stage op action
      case action => exact perform_detached ht stage op action
      case assignment => exact perform_detached ht stage op action

/-- One step of an activation does the same without identities and cells. -/
theorem advance_detached (ht : table.Detached) (stage : Stage σ ρ) :
    stage.detached.advance table = detachedResult (stage.advance table) := by
  have hframes : stage.detached.activation.frames = stage.activation.frames := rfl
  unfold advance
  rw [hframes]
  split
  · rfl
  · exact loopBoundary_detached stage _
  · rename_i block outer _
    split
    · rfl
    · rename_i index _
      have hop : stage.detached.activation.script.op? index =
          (stage.activation.script.op? index).map Op.detached := Script.op?_detached _ _
      dsimp only
      rw [hop]
      cases stage.activation.script.op? index with
      | none => rfl
      | some op =>
        exact exec_detached ht (stage.mapActivation
          ({ · with frames := .block ⟨op.next, block.kind, false⟩ :: outer })) index op block.elseArmed

end Stage

namespace Stepped

variable {σ ρ : Type}

/-- The step with all nodes detached. -/
def detached (stepped : Stepped σ ρ) : Stepped σ ρ where
  outcome := stepped.outcome.map Step.detached
  machine := stepped.machine.detached
  around := stepped.around

/-- Detaching again changes nothing. -/
theorem detached_detached (stepped : Stepped σ ρ) : stepped.detached.detached = stepped.detached := by
  have hstep (step : Step) : step.detached.detached = step.detached := by
    cases step with
    | fork machine => exact congrArg Step.fork machine.detached_detached
    | idle | normal | suspend | terminate => rfl
  obtain ⟨outcome, machine, around⟩ := stepped
  cases outcome with
  | error error => exact congrArg (mk (.error error) · around) machine.detached_detached
  | ok step =>
    exact congrArg₂ (fun step machine => mk (.ok step) machine around) (hstep step)
      machine.detached_detached

end Stepped

namespace Machine

variable {σ ρ : Type} [Host σ]

/-- Calls end alike. -/
theorem releaseAll_detached (around : Surroundings σ ρ) (outcome : CallOutcome)
    (stack : List Activation) :
    around.releaseAll outcome (stack.map Activation.detached) =
      around.releaseAll outcome stack := by
  induction stack generalizing around with
  | nil => rfl
  | cons activation outer ih =>
    have hcall : activation.detached.call = activation.call := rfl
    rw [List.map_cons, Surroundings.releaseAll, Surroundings.releaseAll, hcall]
    split
    · exact ih _
    · exact ih _

/-- A machine and its calls end alike. -/
theorem close_detached (machine : Machine) (outcome : CallOutcome) (around : Surroundings σ ρ) :
    machine.detached.close outcome around = machine.close outcome around := by
  rw [close, close, ended_detached]
  exact congrArg _ (releaseAll_detached around outcome machine.stack)

/-- A machine fails alike. -/
theorem failWith_detached (machine : Machine) (error : RunError) (around : Surroundings σ ρ) :
    machine.detached.failWith error around = machine.failWith error around := by
  rw [failWith, failWith, close_detached]

/-- Late calls are found in the same place. -/
theorem splitLate_detached (machine : Machine) (now : UInt64) :
    machine.detached.splitLate now =
      ((machine.splitLate now).1.map Activation.detached,
        (machine.splitLate now).2.map Activation.detached) := by
  have hlate : (fun activation : Activation => !activation.isLate now) ∘ Activation.detached =
      fun activation => !activation.isLate now := rfl
  simp only [splitLate, detached, List.span_eq_takeWhile_dropWhile, ← List.map_reverse,
    List.takeWhile_map, List.dropWhile_map, hlate]

/-- Late calls end the machine alike. -/
theorem checkDeadlines_detached (machine : Machine) (around : Surroundings σ ρ) :
    machine.detached.checkDeadlines around =
      ((machine.checkDeadlines around).1, (machine.checkDeadlines around).2.1.detached,
        (machine.checkDeadlines around).2.2) := by
  have hfound (now : UInt64) : machine.detached.lateCall? now = machine.lateCall? now := by
    simp only [lateCall?, splitLate_detached, List.head?_map]
    cases (machine.splitLate now).2.head? <;> rfl
  simp only [checkDeadlines, hfound, splitLate_detached, ← List.map_reverse, releaseAll_detached,
    ended_detached]
  split <;> rfl

/-- An activation that is finished hands over alike. -/
theorem finish_detached (machine : Machine) (top : Activation) (callers : List Activation)
    (around : Surroundings σ ρ) :
    machine.detached.finish top.detached (callers.map Activation.detached) around =
      (machine.finish top callers around).detached := by
  have hcall : top.detached.call = top.call := rfl
  have hcontext : top.detached.context = top.context := rfl
  have hreceive (caller : Activation) (name : Option String) (value : Option Value) :
      receive caller.detached name value = (receive caller name value).detached := by
    unfold receive
    split <;> rfl
  unfold finish
  rw [hcall, hcontext]
  dsimp only
  cases top.call with
  | none => rfl
  | some pending =>
    cases callers with
    | nil => rfl
    | cons caller outer =>
      simp only [List.map_cons, hreceive]
      rfl

/-- A call is pushed alike. The script of the function is the same one, whose nodes are
not detached before it is on the stack. -/
theorem call_detached (machine : Machine) (context : Context) (request : CallRequest)
    (around : Surroundings σ ρ) :
    (machine.detached.call context request around).detached =
      (machine.call context request around).detached := by
  unfold call
  split
  · rw [failWith_detached]
  · split
    · rw [failWith_detached]
    · split
      · rw [failWith_detached]
      · simp only [Stepped.detached, detached, List.map_cons, List.map_map]
        congr 4
        exact funext Activation.detached_detached

variable [RandomSource ρ] {table : ActionTable σ ρ}

/-- Executing one node or transition does the same without identities and cells. -/
theorem advance_detached (ht : table.Detached) (machine : Machine) (around : Surroundings σ ρ) :
    (machine.detached.advance table around).detached = (machine.advance table around).detached := by
  obtain ⟨stack, locals⟩ := machine
  cases stack with
  | nil => rfl
  | cons top callers =>
    have hframes : top.detached.frames = top.frames := rfl
    have hstage := Stage.advance_detached ht ⟨top, around⟩
    change Stage.advance table ⟨top.detached, around⟩ = _ at hstage
    simp only [advance, detached, List.map_cons, hframes, hstage]
    cases top.frames.isEmpty with
    | true =>
      have hfinish := finish_detached ⟨top :: callers, locals⟩ top callers around
      exact (congrArg Stepped.detached hfinish).trans (Stepped.detached_detached _)
    | false =>
      rcases Stage.advance table ⟨top, around⟩ with ⟨effect, stage⟩
      have hsame := detached_detached ⟨stage.activation :: callers, locals⟩
      cases effect with
      | normal => exact congrArg (Stepped.mk (.ok .normal) · stage.around) hsame
      | suspend ticks => exact congrArg (Stepped.mk (.ok (.suspend ticks)) · stage.around) hsame
      | fork child =>
        exact congrArg₂ (fun child machine => Stepped.mk (.ok (.fork child)) machine stage.around)
          (detached_detached child) hsame
      | stop =>
        have hclose := close_detached ⟨stage.activation :: callers, locals⟩ .success stage.around
        exact congrArg (fun closed : Machine × Surroundings σ ρ =>
          Stepped.detached ⟨.ok (.terminate none), closed.1, closed.2⟩) hclose
      | call request =>
        exact call_detached ⟨stage.activation :: callers, locals⟩ stage.activation.context request
          stage.around

/-- A step does the same without identities and cells. -/
theorem step_detached (ht : table.Detached) (machine : Machine) (around : Surroundings σ ρ) :
    (machine.detached.step table around).detached = (machine.step table around).detached := by
  cases hstack : machine.stack with
  | nil =>
    have hempty : machine.detached.stack = [] := by rw [detached, hstack]; rfl
    simp only [step, hstack, hempty]
    exact Stepped.detached_detached ⟨.ok .idle, machine, around⟩
  | cons top callers =>
    have hsome : machine.detached.stack = top.detached :: callers.map Activation.detached := by
      rw [detached, hstack]
      rfl
    simp only [step, hstack, hsome, checkDeadlines_detached]
    rcases machine.checkDeadlines around with ⟨result, after, last⟩
    cases result with
    | error error => exact Stepped.detached_detached ⟨.error (.limit error), after, last⟩
    | ok => exact advance_detached ht after last

/-- Machines that differ in identities and cells at most take the same step. -/
theorem step_alike (ht : table.Detached) {machine other : Machine}
    (h : machine.detached = other.detached) (around : Surroundings σ ρ) :
    (machine.step table around).detached = (other.step table around).detached := by
  rw [← step_detached ht machine, h, step_detached ht]

end Machine

/-- The slice with all nodes detached. -/
def Slice.detached {σ ρ : Type} (slice : Slice σ ρ) : Slice σ ρ :=
  { slice with
    machine := slice.machine.detached
    forks := slice.forks.map Machine.detached }

namespace Machine

variable {σ ρ : Type} [Host σ]

/-- A machine waits alike. -/
theorem pause_alike {machine other : Machine} (h : machine.detached = other.detached)
    (actor : Actor) (ticks : Nat) (around : Surroundings σ ρ) :
    ((machine.pause actor ticks around).1, (machine.pause actor ticks around).2.1.detached,
        (machine.pause actor ticks around).2.2) =
      ((other.pause actor ticks around).1, (other.pause actor ticks around).2.1.detached,
        (other.pause actor ticks around).2.2) := by
  have hclose (around : Surroundings σ ρ) :
      machine.close .failure around = other.close .failure around := by
    rw [← close_detached machine, h, close_detached]
  unfold pause
  dsimp only
  split
  · rw [h]
  · rw [hclose]

variable [RandomSource ρ] {table : ActionTable σ ρ}

/-- Machines that differ in identities and cells at most execute the same slice. -/
theorem slice_alike (ht : table.Detached) (actor : Actor) (limit budget : Nat)
    {machine other : Machine} (h : machine.detached = other.detached)
    (around : Surroundings σ ρ) {forks others : List Machine}
    (hf : forks.map detached = others.map detached) :
    (machine.slice table actor limit budget around forks).detached =
      (other.slice table actor limit budget around others).detached := by
  induction budget generalizing machine other around forks others with
  | zero =>
    have hclose : machine.close .failure around = other.close .failure around := by
      rw [← close_detached machine, h, close_detached]
    simp only [slice, Slice.detached, hclose, hf]
  | succ budget ih =>
    have hstep := step_alike ht h around
    unfold slice
    generalize machine.step table around = first at hstep ⊢
    generalize other.step table around = second at hstep ⊢
    obtain ⟨outcome, after, last⟩ := first
    obtain ⟨result, rest, around'⟩ := second
    simp only [Stepped.detached, Stepped.mk.injEq] at hstep
    obtain ⟨houtcome, hafter, rfl⟩ := hstep
    obtain rfl | ⟨child, split, rfl, rfl, hchild⟩ := Step.alike_cases houtcome
    · match outcome with
      | .ok .normal => exact ih hafter last hf
      | .ok (.fork child) => exact ih hafter last (by simp only [List.map_append, hf])
      | .ok .idle => simp only [Slice.detached, hafter, hf]
      | .ok (.terminate value) => simp only [Slice.detached, hafter, hf]
      | .ok (.suspend ticks) =>
        have hpause := pause_alike hafter actor ticks last
        simp only [Prod.mk.injEq] at hpause
        obtain ⟨hending, hmachine, haround⟩ := hpause
        simp only [Slice.detached, hending, hmachine, haround, hf]
      | .error error => simp only [Slice.detached, hafter, hf]
    · refine ih hafter last ?_
      simp only [List.map_append, hf, List.map_cons, List.map_nil, hchild]

end Machine

end GridScript
