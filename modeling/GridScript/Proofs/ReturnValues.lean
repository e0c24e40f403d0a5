import GridScript.Proofs.Binding
import GridScript.Proofs.Failures
import GridScript.Proofs.Iteration

/-!
# What calls return

A call returns what its variable `return` has when nothing is left to execute. Four things can
set a variable of a call while it is under way: a return, the handler of an action or of a
condition, a loop that begins an iteration, and an inner call that hands over. If none of them
sets `return`, the call returns what it was given for a parameter of that name. So it returns
nothing if there is no such parameter. Nothing keeps a function from declaring one.
-/

namespace GridScript

/-- A call starts with the variables of the parameters that are bound, and with those that
were there before. -/
theorem FunctionDefinition.isSome_bindParams {definition : FunctionDefinition}
    {named : ArrivalMap String Value} {params : List Parameter} {positional : List Value}
    {locals after : Locals}
    (h : definition.bindParams named locals params positional = .ok after) (name : String) :
    (after.get? name).isSome = true ↔
      (locals.get? name).isSome = true ∨ ∃ param ∈ params, param.name = name := by
  induction params generalizing locals positional with
  | nil =>
    cases h
    simp
  | cons param rest ih =>
    rw [bindParams] at h
    cases ha : definition.argumentFor param (positional.head?.or (named.get? param.name)) with
    | error error =>
      rw [ha] at h
      cases h
    | ok value =>
      rw [ha] at h
      rw [ih h, List.exists_mem_cons_iff, ← or_assoc]
      refine or_congr_left ?_
      by_cases hname : param.name = name
      · subst hname
        simp [SortedMap.get?_insert, Std.ReflCmp.compare_self]
      · simp [SortedMap.get?_insert_of_ne locals value hname, hname]

/-- The variables of a call are those of the parameters. -/
theorem FunctionDefinition.isSome_bindArgs {definition : FunctionDefinition}
    {named : ArrivalMap String Value} {positional : List Value} {locals : Locals}
    (h : definition.bindArgs named positional = .ok locals) (name : String) :
    (locals.get? name).isSome = true ↔ ∃ param ∈ definition.params, param.name = name := by
  obtain ⟨-, -, hbound⟩ := bindArgs_eq_ok.1 h
  rw [isSome_bindParams hbound name]
  exact or_iff_right (by nofun)

section

variable {σ ρ : Type}

namespace Act

variable {α β : Type}

/-- What only reads afterwards leaves what was done before. -/
theorem context_bind_of_reads {act : Act σ ρ α} {next : α → Act σ ρ β}
    (hn : ∀ value, (next value).Reads) (scene : Scene σ ρ) :
    ((act >>= next) scene).2.context = (act scene).2.context := by
  rw [bind_apply]
  cases act scene with
  | mk result after =>
    cases result with
    | error fault => rfl
    | ok value => exact (hn value).context_eq (Prod.eta (next value after)).symm

end Act

namespace Stage

variable [RandomSource ρ]

/-- Finding out how a loop goes on changes nothing but the random source. -/
theorem reads_loopKind (settings : Settings) (op : Op) (action : String) :
    (loopKind settings op action : Act σ ρ LoopKind).Reads := by
  unfold loopKind
  split
  · exact (Act.reads_arg op _).bind fun _ => (Act.reads_lift _).bind fun _ =>
      (Act.reads_arg? op _).bind fun _ => Act.reads_pure _
  · refine (Act.reads_arg? op _).bind fun limit => ?_
    cases limit with
    | none => exact Act.reads_pure _
    | some value => exact (Act.reads_lift _).bind fun _ => Act.reads_pure _
  · exact (Act.reads_arg op _).bind fun _ => (Act.reads_lift _).bind fun _ =>
      (Act.reads_arg? op _).bind fun _ => Act.reads_pure _
  · exact Act.reads_pure _
  · exact Act.reads_throw _

/-- Setting a loop up changes nothing else either. -/
theorem reads_newLoop (settings : Settings) (index : Nat) (op : Op) (action : String) :
    (newLoop settings index op action : Act σ ρ (LoopFrame × Bool)).Reads := by
  refine (Act.reads_arg? op _).bind fun delay => ?_
  have hrest (delay : Nat) : Act.Reads (do
      let fork ← Act.flag op "async"
      let kind ← loopKind settings op action
      return ((⟨index, op.body, kind, 0, delay, false⟩ : LoopFrame), fork) :
        Act σ ρ (LoopFrame × Bool)) :=
    (Act.reads_flag op _).bind fun _ =>
      (reads_loopKind settings op action).bind fun _ => Act.reads_pure _
  cases delay with
  | none => exact (Act.reads_pure _).bind hrest
  | some value => exact (Act.reads_lift _).bind hrest

/-- Setting up a loop leaves the variables. -/
theorem context_enterLoop (stage : Stage σ ρ) (index : Nat) (op : Op) (action : String) :
    (stage.enterLoop index op action).2.activation.context = stage.activation.context := by
  obtain ⟨random, -, hrun⟩ := run_of_reads
    (reads_newLoop stage.around.ledger.settings index op action) stage
  unfold enterLoop
  split <;> rename_i heq <;> rw [heq] at hrun <;> cases hrun <;> rfl

/-- So does asking for a call. -/
theorem context_requestCall (stage : Stage σ ρ) (op : Op) :
    (stage.requestCall op).2.activation.context = stage.activation.context := by
  obtain ⟨random, -, hrun⟩ := run_of_reads (reads_callRequest op) stage
  unfold requestCall
  split <;> rename_i heq <;> rw [heq] at hrun <;> cases hrun <;> rfl

omit [RandomSource ρ] in
/-- And a request to a loop. -/
theorem locals_exitLoop (stage : Stage σ ρ) (isBreak : Bool) :
    (stage.exitLoop isBreak).2.activation.context.locals = stage.activation.context.locals := by
  unfold exitLoop
  split
  · rfl
  · rfl

/-- A return sets the variable for the value, if there is a value. -/
theorem get?_leaveActivation (stage : Stage σ ρ) (op : Op) {name : String}
    (h : name = returnName → ∀ value, (Act.arg? op "value"
      ⟨stage.activation.context, stage.around.host, stage.around.random⟩ :
        Except Fault (Option Value) × Scene σ ρ).1 ≠ .ok (some value)) :
    (stage.leaveActivation op).2.activation.context.locals.get? name =
      stage.activation.context.locals.get? name := by
  obtain ⟨random, hact, hrun⟩ := run_of_reads (Act.reads_arg? op "value") stage
  rw [hact] at h
  unfold leaveActivation
  rcases hresult : stage.run (Act.arg? op "value" : Act σ ρ (Option Value)) with ⟨result, after⟩
  rw [hresult] at h hrun
  dsimp only at hrun
  subst hrun
  match result with
  | .error fault => rfl
  | .ok none => rfl
  | .ok (some value) =>
    refine SortedMap.get?_insert_of_ne _ value fun hname => ?_
    exact h hname.symm value rfl

variable [Host σ] {table : ActionTable σ ρ}

/-- An action leaves the variables as its handler does. -/
theorem context_perform (stage : Stage σ ρ) (op : Op) (action : String) :
    (stage.perform table op action).2.activation.context = (table.action action op
      ⟨stage.activation.context, stage.around.host, stage.around.random⟩).2.context := by
  have hrun : (stage.run (table.action action op)).2.activation.context = (table.action action op
      ⟨stage.activation.context, stage.around.host, stage.around.random⟩).2.context := rfl
  unfold perform
  split <;> rename_i heq <;> rw [heq] at hrun <;> exact hrun

/-- A condition leaves the variables as its handler does. -/
theorem context_branch (stage : Stage σ ρ) (op : Op) (action : String) :
    (stage.branch table op action).2.activation.context = (table.condition action op
      ⟨stage.activation.context, stage.around.host, stage.around.random⟩).2.context := by
  have hrun : (stage.run (decision table op action)).2.activation.context =
      (table.condition action op
        ⟨stage.activation.context, stage.around.host, stage.around.random⟩).2.context :=
    Act.context_bind_of_reads (fun _ => (Act.reads_flag op _).bind fun _ => Act.reads_pure _) _
  have hdecide : (stage.decide table op action).2.activation.context =
      (stage.run (decision table op action)).2.activation.context := by
    unfold decide
    split <;> rename_i heq <;> rw [heq]
    rfl
  rw [← hrun, ← hdecide]
  unfold branch
  split <;> rename_i heq <;> rw [heq]
  · rfl
  · exact Activation.context_armElse _

end Stage

variable [Host σ] [RandomSource ρ] {table : ActionTable σ ρ}

/-- Executing a node sets a variable. -/
inductive Op.Sets (table : ActionTable σ ρ) (op : Op) (armed : Bool) (scene : Scene σ ρ)
    (name : String) : Prop
  /-- It is a return with a value, and the variable is the one for it. -/
  | returns {value : Value} (category : op.category = .control)
      (named : op.action = some "return") (reserved : name = Stage.returnName)
      (valued : (Act.arg? op "value" scene).1 = .ok (some value)) :
      Sets table op armed scene name
  /-- It performs an action, whose handler leaves something else in the variable. -/
  | acts {action : String} (acts : op.Acts action)
      (changed : (table.action action op scene).2.context.locals.get? name ≠
        scene.context.locals.get? name) : Sets table op armed scene name
  /-- It decides by a condition, whose handler leaves something else in the variable. -/
  | decides {action : String} (branches : op.Branches armed)
      (own : Stage.isPlainElse op = false) (named : op.action = some action)
      (changed : (table.condition action op scene).2.context.locals.get? name ≠
        scene.context.locals.get? name) : Sets table op armed scene name

/-- A step of an activation sets one of its variables. -/
inductive Stage.Sets (table : ActionTable σ ρ) (stage : Stage σ ρ) (name : String) : Prop
  /-- It executes a node that does. -/
  | node {chain : Block} {outer : List Frame} {index : Nat} {op : Op}
      (facing : stage.activation.Facing chain outer index op)
      (sets : op.Sets table chain.elseArmed
        ⟨stage.activation.context, stage.around.host, stage.around.random⟩ name) :
      Sets table stage name
  /-- It begins an iteration of a loop that sets the variable. -/
  | loop {cycle : LoopFrame} {outer : List Frame} {random : ρ} {value : Value}
      (frames : stage.activation.frames = .loop cycle :: outer)
      (unbroken : stage.activation.context.flags.breakRequested = false)
      (allows : cycle.kind.allows cycle.iteration = true)
      (rested : 0 < cycle.iteration → 0 < cycle.delay → cycle.waited = true)
      (met : stage.activation.KeepsOn cycle stage.around.random random)
      (binds : cycle.kind.binding? cycle.iteration = some (name, value)) : Sets table stage name

namespace Stage

variable {name : String}

/-- A node that does not set a variable leaves it as it is. -/
theorem get?_exec {stage : Stage σ ρ} {index : Nat} {op : Op} {armed : Bool}
    (h : ¬ op.Sets table armed
      ⟨stage.activation.context, stage.around.host, stage.around.random⟩ name) :
    (stage.exec table index op armed).2.activation.context.locals.get? name =
      stage.activation.context.locals.get? name := by
  have hacts {action : String} (hacts : op.Acts action) :
      (stage.perform table op action).2.activation.context.locals.get? name =
        stage.activation.context.locals.get? name := by
    rw [context_perform]
    by_contra hchanged
    exact h (.acts hacts hchanged)
  have hdecides {action : String} (hbranches : op.Branches armed)
      (hown : isPlainElse op = false) (haction : op.action = some action) :
      (stage.branch table op action).2.activation.context.locals.get? name =
        stage.activation.context.locals.get? name := by
    rw [context_branch]
    by_contra hchanged
    exact h (.decides hbranches hown haction hchanged)
  unfold exec
  split
  · split <;> rfl
  rename_i hown
  rw [Bool.not_eq_true] at hown
  split
  · rfl
  rename_i action haction
  unfold execAction
  cases hcategory : op.category with
  | event | function | bracket => rfl
  | condition => exact hdecides (.inl ⟨hcategory, by simp [haction]⟩) hown haction
  | alternative =>
    cases armed with
    | false => rfl
    | true => exact hdecides (.inr ⟨hcategory, rfl⟩) hown haction
  | loop => rw [context_enterLoop]
  | call => rw [context_requestCall]
  | action => exact hacts ⟨haction, .inl hcategory⟩
  | assignment => exact hacts ⟨haction, .inr (.inl hcategory)⟩
  | control =>
    dsimp only
    split
    · rw [locals_exitLoop]
    · rw [locals_exitLoop]
    · refine get?_leaveActivation stage op fun hname value hvalued => ?_
      exact h (.returns hcategory haction hname hvalued)
    · rename_i hbreak hcontinue hreturn
      exact hacts ⟨haction, .inr (.inr ⟨hcategory, hbreak, hcontinue, hreturn⟩)⟩

/-- A step of an activation belongs to the same call. -/
theorem call_of_advance {stage after : Stage σ ρ} {effect : Effect}
    (hadvance : stage.advance table = (effect, after))
    (hframes : stage.activation.frames ≠ []) :
    after.activation.call = stage.activation.call := by
  have hshifts : Shifts table.SparesRequests stage (effect, after) :=
    hadvance ▸ shifts_advance hframes
  exact hshifts.call

/-- A step that does not set a variable of its activation leaves it as it is. -/
theorem get?_advance {stage after : Stage σ ρ} {effect : Effect}
    (hadvance : stage.advance table = (effect, after)) (hframes : stage.activation.frames ≠ [])
    (h : ¬ stage.Sets table name) :
    after.activation.context.locals.get? name = stage.activation.context.locals.get? name := by
  cases works_of_advance hadvance hframes with
  | leaves | strays => rfl
  | @executes chain outer index op _ hfacing hexec =>
    have hunset : ¬ op.Sets table chain.elseArmed
        ⟨stage.activation.context, stage.around.host, stage.around.random⟩ name :=
      fun hsets => h (.node hfacing hsets)
    have hafter := congrArg (·.2.activation.context.locals.get? name) hexec
    exact hafter.symm.trans (get?_exec hunset)
  | @turns cycle outer _ hloop hturns =>
    cases hturns with
    | breaks | exhausts | rests | declines => rfl
    | iterates hunbroken hallows hrested hmet =>
      change (cycle.kind.assign cycle.iteration _).get? name = _
      unfold LoopKind.assign
      cases hbinding : cycle.kind.binding? cycle.iteration with
      | none => rfl
      | some binding =>
        obtain ⟨bound, value⟩ := binding
        refine SortedMap.get?_insert_of_ne _ value fun hname => ?_
        subst hname
        exact h (.loop hloop hunbroken hallows hrested hmet hbinding)

end Stage

namespace PendingCall.HandsOver

variable {pending : PendingCall} {locals other : Locals} {before after : Activation}

/-- What is handed over depends on the variable for it only. -/
theorem congr (h : pending.HandsOver locals before after)
    (hsame : locals.get? Stage.returnName = other.get? Stage.returnName) :
    pending.HandsOver other before after := by
  cases h with
  | value named returned converted fits taken others same =>
    exact .value named (hsame.symm.trans returned) converted fits taken others same
  | nothing cause same =>
    rw [hsame] at cause
    exact .nothing cause same

/-- If it has no value, nothing is handed over. -/
theorem eq_of_none (h : pending.HandsOver locals before after)
    (hnone : locals.get? Stage.returnName = none) : after = before := by
  cases h with
  | value named returned => cases hnone.symm.trans returned
  | nothing cause same => exact same

end PendingCall.HandsOver

namespace Machine

variable {machine first later : Machine} {around : Surroundings σ ρ} {callers : List Activation}
  {pending : PendingCall} {upper : List Activation} {holder : Activation} {name : String}

/-- A call stands on some activations, and everything above it is a call as well. -/
structure InCall (machine : Machine) (callers : List Activation) (pending : PendingCall)
    (upper : List Activation) (holder : Activation) : Prop where
  /-- These are the activations. -/
  stack : machine.stack = upper ++ holder :: callers
  /-- This is the call. -/
  call : holder.call = some pending
  /-- So are those above it. -/
  calls : ∀ activation ∈ upper, activation.call.isSome

/-- A step sets a variable in the activation that stands on some others. -/
inductive SetsIn (table : ActionTable σ ρ) (machine : Machine) (around : Surroundings σ ρ)
    (callers : List Activation) (name : String) : Prop
  /-- It is the innermost one, and its own step sets the variable. -/
  | own {holder : Activation} (stack : machine.stack = holder :: callers)
      (punctual : machine.lateCall? around.now = none)
      (sets : Stage.Sets table ⟨holder, around⟩ name) : SetsIn table machine around callers name
  /-- A call that it made hands a value over to it, for this variable. -/
  | received {top holder : Activation} {pending : PendingCall} {given value : Value}
      (stack : machine.stack = top :: holder :: callers)
      (punctual : machine.lateCall? around.now = none) (finished : top.frames = [])
      (call : top.call = some pending) (named : pending.result = some name)
      (returned : top.context.locals.get? Stage.returnName = some given)
      (converted : given.coerce pending.call.entry.definition.returns = .ok value) :
      SetsIn table machine around callers name

/-- A machine that comes of another one by steps in any surroundings. The activation that
stands on some others is there all the time, and no step sets a variable in it. -/
inductive Silent (table : ActionTable σ ρ) (callers : List Activation) (name : String)
    (first : Machine) : Machine → Prop where
  /-- Nothing has happened yet. -/
  | start : Silent table callers name first first
  /-- One more step. -/
  | step {machine : Machine} (past : Silent table callers name first machine)
      (around : Surroundings σ ρ)
      (deep : callers.length < (machine.step table around).machine.stack.length)
      (unset : ¬ machine.SetsIn table around callers name) :
      Silent table callers name first (machine.step table around).machine

/-- What a step pushes on a stack is a call. -/
theorem called_of_pushed {callee : Activation} {rest : List Activation}
    (h : (machine.step table around).machine.stack = callee :: rest)
    (hlength : rest.length = machine.stack.length) : callee.call.isSome := by
  have hlonger : machine.stack.length < (machine.step table around).machine.stack.length := by
    rw [h, List.length_cons, hlength]
    exact Nat.lt_succ_self _
  obtain ⟨_, _, _, _, _, _, made, -, hinvokes, hmade⟩ := invokes_of_longer hlonger
  obtain ⟨rfl, -⟩ := List.cons.inj (h.symm.trans hmade)
  rw [hinvokes.callee]
  rfl

/-- A step of a call that is the innermost one, and that sets no variable in it. -/
theorem InCall.step_own (h : machine.InCall callers pending [] holder)
    (hdeep : callers.length < (machine.step table around).machine.stack.length)
    (hunset : machine.lateCall? around.now = none → ¬ Stage.Sets table ⟨holder, around⟩ name) :
    ∃ next same, (machine.step table around).machine.InCall callers pending next same ∧
      same.context.locals.get? name = holder.context.locals.get? name := by
  obtain ⟨hstack, hcall, -⟩ := h
  have hown : machine.stack = holder :: callers := hstack
  have hpunctual : machine.lateCall? around.now = none :=
    punctual_of_stack_ne (List.ne_nil_of_length_pos (Nat.zero_lt_of_lt hdeep))
  cases proceeds_step hown (fun _ => by simp [hcall]) table around with
  | @works effect stage _ hframes hadvance hnext =>
    have hkept := Stage.get?_advance hadvance hframes (hunset hpunctual)
    exact ⟨[], stage.activation, ⟨hnext, (Stage.call_of_advance hadvance hframes).trans hcall,
      List.forall_mem_nil _⟩, hkept⟩
  | @calls request stage callee hframes hadvance hnext =>
    have hkept := Stage.get?_advance hadvance hframes (hunset hpunctual)
    have hcallee : callee.call.isSome := called_of_pushed hnext (by simp [hown])
    exact ⟨[callee], stage.activation, ⟨hnext, (Stage.call_of_advance hadvance hframes).trans hcall,
      List.forall_mem_singleton.2 hcallee⟩, hkept⟩
  | returns hframes hcalled hcallers hhanded hnext =>
    rw [hnext, hcallers] at hdeep
    exact absurd hdeep (Nat.lt_irrefl _)
  | ends hnext =>
    rw [hnext] at hdeep
    cases hdeep

/-- A step above a call that leaves it under way, and in which no value for the variable is
handed over to it. -/
theorem InCall.step_above {top : Activation} {rest : List Activation}
    (h : machine.InCall callers pending (top :: rest) holder)
    (hdeep : callers.length < (machine.step table around).machine.stack.length)
    (hunset : ¬ machine.SetsIn table around callers name) :
    ∃ next same, (machine.step table around).machine.InCall callers pending next same ∧
      same.context.locals.get? name = holder.context.locals.get? name := by
  obtain ⟨hstack, hcall, hcalls⟩ := h
  have hown : machine.stack = top :: (rest ++ holder :: callers) := hstack
  have hpunctual : machine.lateCall? around.now = none :=
    punctual_of_stack_ne (List.ne_nil_of_length_pos (Nat.zero_lt_of_lt hdeep))
  obtain ⟨htop, hrest⟩ := List.forall_mem_cons.1 hcalls
  cases proceeds_step hown (fun _ => htop) table around with
  | @works effect stage _ hframes hadvance hnext =>
    have hsame := Stage.call_of_advance hadvance hframes
    exact ⟨stage.activation :: rest, holder,
      ⟨hnext, hcall, List.forall_mem_cons.2 ⟨hsame ▸ htop, hrest⟩⟩, rfl⟩
  | @calls request stage callee hframes hadvance hnext =>
    have hsame := Stage.call_of_advance hadvance hframes
    have hcallee : callee.call.isSome := called_of_pushed hnext (by simp [hown])
    exact ⟨callee :: stage.activation :: rest, holder, ⟨hnext, hcall,
      List.forall_mem_cons.2 ⟨hcallee, List.forall_mem_cons.2 ⟨hsame ▸ htop, hrest⟩⟩⟩, rfl⟩
  | @returns inner caller after outer hframes hinner hcallers hhanded hnext =>
    cases rest with
    | nil =>
      cases hcallers
      refine ⟨[], after, ⟨hnext, hhanded.call.trans hcall, List.forall_mem_nil _⟩, ?_⟩
      cases hhanded with
      | nothing _ hsame => rw [hsame]
      | value hnamed hreturned hconverted _ _ hothers _ =>
        refine hothers name fun hname => ?_
        subst hname
        exact hunset (.received hown hpunctual hframes hinner hnamed hreturned hconverted)
    | cons next rest =>
      cases hcallers
      obtain ⟨hcaller, hbelow⟩ := List.forall_mem_cons.1 hrest
      exact ⟨after :: rest, holder,
        ⟨hnext, hcall, List.forall_mem_cons.2 ⟨hhanded.call ▸ hcaller, hbelow⟩⟩, rfl⟩
  | ends hnext =>
    rw [hnext] at hdeep
    cases hdeep

/-- A step that leaves a call under way and sets no variable in it leaves the variable as it
is. -/
theorem InCall.step (h : machine.InCall callers pending upper holder)
    (hdeep : callers.length < (machine.step table around).machine.stack.length)
    (hunset : ¬ machine.SetsIn table around callers name) :
    ∃ next same, (machine.step table around).machine.InCall callers pending next same ∧
      same.context.locals.get? name = holder.context.locals.get? name := by
  cases upper with
  | nil => exact h.step_own hdeep fun hpunctual hsets => hunset (.own h.stack hpunctual hsets)
  | cons top rest => exact h.step_above hdeep hunset

/-- However many such steps are taken, the variable stays as it is. -/
theorem Silent.inCall (hsilent : Silent table callers name first later)
    (h : first.InCall callers pending upper holder) :
    ∃ next same, later.InCall callers pending next same ∧
      same.context.locals.get? name = holder.context.locals.get? name := by
  induction hsilent with
  | start => exact ⟨upper, holder, h, rfl⟩
  | step past around deep unset ih =>
    obtain ⟨next, same, hcall, hvalue⟩ := ih
    obtain ⟨next, after, hcall, hafter⟩ := hcall.step deep unset
    exact ⟨next, after, hcall, hafter.trans hvalue⟩

/-- A call with a caller. -/
theorem InCall.inside {caller : Activation}
    (h : machine.InCall (caller :: callers) pending upper holder) :
    machine.Inside pending (upper ++ [holder]) caller callers := by
  refine ⟨h.stack.trans (List.append_cons ..), upper.filterMap (·.call), ?_⟩
  rw [List.map_append, List.map_singleton, h.call, List.map_filterMap]
  refine congrArg (· ++ [some pending]) ?_
  rw [← List.filterMap_eq_map]
  refine List.filterMap_congr fun activation hm => ?_
  obtain ⟨made, hmade⟩ := Option.isSome_iff_exists.1 (h.calls activation hm)
  simp [hmade]

/-- If only its caller is left after a step, the call has handed over. -/
theorem InCall.handsOver {caller after : Activation}
    (h : machine.InCall (caller :: callers) pending upper holder)
    (hnext : (machine.step table around).machine.stack = after :: callers) :
    pending.HandsOver holder.context.locals caller after := by
  rcases h.inside.step table around with
    ⟨next, hinside⟩ | ⟨callee, received, hown, -, -, hstack, hhanded⟩ | ⟨hnone, -⟩
  · have hdeep := hinside.length_lt
    rw [hnext, List.length_cons] at hdeep
    exact absurd hdeep (Nat.lt_irrefl _)
  · obtain ⟨-, hsame⟩ | ⟨-, hnone⟩ := List.append_eq_singleton_iff.1 hown
    · cases hsame
      cases hstack.symm.trans hnext
      exact hhanded
    · cases hnone
  · cases hnone.symm.trans hnext

/-- A machine whose innermost activation is a call ends with a value only if nobody waits for
the call and it returns the value. -/
theorem returned_of_terminate {top : Activation} {value : Value}
    (hs : machine.stack = top :: callers) (hcall : top.call = some pending)
    (hlast : (machine.step table around).outcome = .ok (.terminate (some value))) :
    callers = [] ∧ ∃ given, top.context.locals.get? Stage.returnName = some given ∧
      given.coerce pending.call.entry.definition.returns = .ok value := by
  obtain ⟨-, hstep⟩ | ⟨error, after, last, -, hstep⟩ | ⟨-, hstep⟩ :=
    step_cases table machine around
  · rw [hstep] at hlast
    cases hlast
  · rw [hstep] at hlast
    cases hlast
  rw [hstep] at hlast
  unfold advance at hlast
  rw [hs] at hlast
  dsimp only at hlast
  split at hlast
  · unfold finish at hlast
    rw [hcall] at hlast
    cases callers with
    | cons caller outer => cases hlast
    | nil =>
      refine ⟨rfl, ?_⟩
      have hvalue : (returned pending.call (top.context.locals.get? Stage.returnName) around).1 =
          some value := Step.terminate.inj (Except.ok.inj hlast)
      unfold returned at hvalue
      split at hvalue
      · cases hvalue
      · rename_i given hgiven
        split at hvalue
        · rename_i converted hconverted
          cases hvalue
          exact ⟨given, hgiven, hconverted⟩
        · cases hvalue
  · rcases hadvance : Stage.advance table ⟨top, around⟩ with ⟨effect, stage⟩
    rw [hadvance] at hlast
    cases effect with
    | normal | suspend | fork | stop => cases hlast
    | call request =>
      dsimp only at hlast
      rw [call_eq] at hlast
      split at hlast
      · cases hlast
      · cases hlast

/-- If a call that nobody in the machine waits for ends it with a value, the call returned that
value. -/
theorem InCall.returned {value : Value} (h : machine.InCall [] pending upper holder)
    (hlast : (machine.step table around).outcome = .ok (.terminate (some value))) :
    ∃ given, holder.context.locals.get? Stage.returnName = some given ∧
      given.coerce pending.call.entry.definition.returns = .ok value := by
  cases upper with
  | nil => exact (returned_of_terminate h.stack h.call hlast).2
  | cons top rest =>
    obtain ⟨inner, hinner⟩ := Option.isSome_iff_exists.1 (h.calls top (List.mem_cons_self ..))
    obtain ⟨hnone, -⟩ := returned_of_terminate h.stack hinner hlast
    exact absurd hnone (List.append_ne_nil_of_right_ne_nil _ (List.cons_ne_nil _ _))

/-- Calls that do not set the variable for their value return what was passed for it. A call
starts with that variable exactly if its function has a parameter of that name. If no step of
the call sets it, then a caller that goes on receives what the variable was bound to, and so it
is left as it was if there is no such parameter. A call that the host makes ends with such a
value only. -/
theorem silent_calls_return_arguments (table : ActionTable σ ρ) :
    (∀ (definition : FunctionDefinition) (named : ArrivalMap String Value)
      (positional : List Value) (locals : Locals),
      definition.bindArgs named positional = .ok locals →
      ((locals.get? Stage.returnName).isSome = true ↔
        ∃ param ∈ definition.params, param.name = Stage.returnName)) ∧
    (∀ (machine : Machine) (around : Surroundings σ ρ),
      machine.stack.length < (machine.step table around).machine.stack.length →
      ∃ top outer op request pending caller callee, machine.stack = top :: outer ∧
        (machine.step table around).machine.stack = callee :: caller :: outer ∧
        Invokes around top op request pending caller callee ∧
        ∀ later, Silent table (caller :: outer) Stage.returnName
            (machine.step table around).machine later →
          ∀ (around : Surroundings σ ρ) (after : Activation),
            (later.step table around).machine.stack = after :: outer →
            pending.HandsOver callee.context.locals caller after ∧
            ((∀ param ∈ pending.call.entry.definition.params, param.name ≠ Stage.returnName) →
              after = caller)) ∧
    ∀ (call : ActiveCall) (actor : Actor) (origin : Place) (named : ArrivalMap String Value)
      (positional : List Value) (locals : Locals),
      call.entry.definition.bindArgs named positional = .ok locals →
      ∀ later, Silent table [] Stage.returnName (ofCall call (.start actor origin locals)) later →
        ∀ (around : Surroundings σ ρ) (value : Value),
          (later.step table around).outcome = .ok (.terminate (some value)) →
          ∃ given, locals.get? Stage.returnName = some given ∧
            given.coerce call.entry.definition.returns = .ok value ∧
            ∃ param ∈ call.entry.definition.params, param.name = Stage.returnName := by
  refine ⟨fun definition named positional locals hbound => ?_, fun machine around hlonger => ?_,
    fun call actor origin named positional locals hbound later hsilent around value hlast => ?_⟩
  · exact FunctionDefinition.isSome_bindArgs hbound Stage.returnName
  · obtain ⟨top, outer, op, request, pending, caller, callee, hstack, hinvokes, hpushed⟩ :=
      invokes_of_longer hlonger
    refine ⟨top, outer, op, request, pending, caller, callee, hstack, hpushed, hinvokes,
      fun later hsilent last after hnext => ?_⟩
    have hcall : callee.call = some pending := by
      rw [hinvokes.callee]
      rfl
    have hfirst : (machine.step table around).machine.InCall (caller :: outer) pending [] callee :=
      ⟨hpushed, hcall, List.forall_mem_nil _⟩
    obtain ⟨upper, holder, hunder, hkept⟩ := hsilent.inCall hfirst
    have hhanded := (hunder.handsOver hnext).congr hkept
    refine ⟨hhanded, fun hparams => hhanded.eq_of_none (Option.not_isSome_iff_eq_none.1 ?_)⟩
    rw [FunctionDefinition.isSome_bindArgs hinvokes.bound]
    rintro ⟨param, hm, hname⟩
    exact hparams param hm hname
  · have hfirst : (ofCall call (.start actor origin locals)).InCall [] ⟨call, none⟩ [] _ :=
      ⟨rfl, rfl, List.forall_mem_nil _⟩
    obtain ⟨upper, holder, hunder, hkept⟩ := hsilent.inCall hfirst
    obtain ⟨given, hgiven, hconverted⟩ := hunder.returned hlast
    have hbinds : locals.get? Stage.returnName = some given := hkept.symm.trans hgiven
    refine ⟨given, hbinds, hconverted, (FunctionDefinition.isSome_bindArgs hbound _).1 ?_⟩
    rw [hbinds]
    rfl

end Machine

end

/-- A function with nothing to execute and a parameter for the variable that holds the value to
be returned. -/
def echoFunction : FunctionDefinition :=
  { FunctionDefinition.plain "echo" ⟨"alice"⟩ .everyone none with
    params := [⟨"return", .number, true, none⟩] }

/-- The variable is not reserved: a function that may be registered starts with it. -/
theorem return_not_reserved : ¬ ∀ (definition : FunctionDefinition)
    (named : ArrivalMap String Value) (positional : List Value) (locals : Locals),
    definition.validate = .ok () → definition.bindArgs named positional = .ok locals →
    locals.get? Stage.returnName = none := by
  intro h
  have hvalid : echoFunction.validate = .ok () := by decide +kernel
  cases h echoFunction .empty [.number (.ofInt 7)] _ hvalid rfl

/-- A step in front of nothing sets nothing. -/
theorem Stage.not_sets_start {σ ρ : Type} [Host σ] [RandomSource ρ] {table : ActionTable σ ρ}
    {script : Script} (h : script.entry = none) (context : Context) (call : Option PendingCall)
    (around : Surroundings σ ρ) (name : String) :
    ¬ Stage.Sets table ⟨.start script context call, around⟩ name := by
  rintro (⟨⟨hframes, hnext, -⟩, -⟩ | ⟨hframes, -⟩)
  · cases hframes
    cases h.symm.trans hnext
  · cases hframes

namespace Machine

/-- A program that calls the function with a number and with a variable for its value. -/
def echoBody : Option Node :=
  some (.mk ⟨1, "call", .call, some "call",
    ((ArrivalMap.empty.insert "function" (.text "echo")).insert "return"
      (.number (.ofInt 7))).insert "result" (.text "x"), .plain, none⟩ [] none)

/-- The machine of the program and what surrounds it, after a number of steps. -/
def echoMachine : Nat → Machine × Surroundings MinimalHost ReplaySource
  | 0 =>
    (ofScript (.ofBody "start" default echoBody) (.start ⟨"alice"⟩ default .empty),
      ⟨⟨⟨0⟩⟩, ⟨[], 0⟩, { Ledger.initial default with
        registry := (FunctionRegistry.empty.answer (.register echoFunction false)).2 }, #[]⟩)
  | steps + 1 =>
    let (machine, around) := echoMachine steps
    let stepped := machine.step .standard around
    (stepped.machine, stepped.around)

/-- Each of them takes one more step. -/
theorem echoMachine_succ (steps : Nat) : (echoMachine (steps + 1)).1 =
    ((echoMachine steps).1.step .standard (echoMachine steps).2).machine :=
  rfl

/-- The function gets the number, never sets anything, and the caller has the number
afterwards. -/
theorem silent_calls_return_arguments_echo : ∃ (pending : PendingCall)
      (callee caller after : Activation),
    (echoMachine 1).1.stack = [callee, caller] ∧
    Silent (σ := MinimalHost) (ρ := ReplaySource) .standard [caller] Stage.returnName
      (echoMachine 1).1 (echoMachine 2).1 ∧
    (echoMachine 3).1.stack = [after] ∧
    pending.HandsOver callee.context.locals caller after ∧
    callee.context.locals.get? "return" = some (.number (.ofInt 7)) ∧
    after.context.locals.get? "x" = some (.number (.ofInt 7)) := by
  have hlonger : (echoMachine 0).1.stack.length <
      ((echoMachine 0).1.step .standard (echoMachine 0).2).machine.stack.length := by
    decide +kernel
  obtain ⟨-, hcalls, -⟩ :=
    silent_calls_return_arguments (σ := MinimalHost) (ρ := ReplaySource) .standard
  obtain ⟨top, outer, op, request, pending, caller, callee, hstack, hpushed, hinvokes, hreturns⟩ :=
    hcalls (echoMachine 0).1 (echoMachine 0).2 hlonger
  rw [← echoMachine_succ] at hpushed hreturns
  have hentries : (echoMachine 1).1.stack.map (·.script.entry) = [none, some 0] := by
    decide +kernel
  have hgiven : (echoMachine 1).1.stack.map (·.context.locals.get? "return") =
      [some (.number (.ofInt 7)), none] := by
    decide +kernel
  have htaken : (echoMachine 3).1.stack.map (·.context.locals.get? "x") =
      [some (.number (.ofInt 7))] := by
    decide +kernel
  have houter : outer = [] := by
    have hlength := congrArg List.length hentries
    rw [hpushed] at hlength
    simpa using hlength
  subst houter
  obtain ⟨after, hafter⟩ : ∃ after, (echoMachine 3).1.stack = [after] :=
    List.length_eq_one_iff.1 (by simpa using congrArg List.length htaken)
  rw [hpushed] at hentries hgiven
  rw [hafter] at htaken
  simp only [List.map_cons, List.map_nil, List.cons.injEq, and_true] at hentries hgiven htaken
  have hsilent : Silent (σ := MinimalHost) (ρ := ReplaySource) .standard [caller]
      Stage.returnName (echoMachine 1).1 (echoMachine 2).1 := by
    have hdeep : 1 < (echoMachine 2).1.stack.length := by decide +kernel
    rw [echoMachine_succ 1] at hdeep ⊢
    refine .step .start (echoMachine 1).2 hdeep ?_
    rintro (⟨hown, -, hsets⟩ | ⟨hown, -⟩)
    · cases hpushed.symm.trans hown
      rw [hinvokes.callee] at hsets hentries
      exact Stage.not_sets_start hentries.1 _ _ _ _ hsets
    · cases hpushed.symm.trans hown
  obtain ⟨hhanded, -⟩ := hreturns (echoMachine 2).1 hsilent (echoMachine 2).2 after hafter
  exact ⟨pending, callee, caller, after, hpushed, hsilent, hafter, hhanded, hgiven.1, htaken⟩

end Machine

end GridScript
