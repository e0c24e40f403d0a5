import GridScript.Proofs.Expiry

/-!
# Calls are isolated

A call starts with the variables that its arguments are bound to. Until it returns, all
that happens happens in the activations above its caller: the caller and everything below
it stay as they are, however many steps are taken, in whatever surroundings. A call that
returns hands one value to its caller at most, and only if the caller named a variable for
it.
-/

namespace GridScript

/-- A value that was converted to a declared kind is of a kind that may stand there. -/
theorem Value.accepts_of_coerce {value converted : Value} {kind : ValueKind}
    (h : value.coerce kind = .ok converted) : kind.accepts converted.kind = true := by
  have hmap {α : Type} {result : Except ConversionError α} {make : α → Value}
      (hk : ∀ content, kind.accepts (make content).kind = true)
      (hm : result.map make = .ok converted) : kind.accepts converted.kind = true := by
    cases result with
    | error error => cases hm
    | ok content =>
      cases hm
      exact hk content
  unfold coerce at h
  split at h
  · rename_i haccepts
    cases h
    exact haccepts
  · split at h
    · exact hmap (fun _ => rfl) h
    · exact hmap (fun _ => rfl) h
    · exact hmap (fun _ => rfl) h
    · cases h
      rfl
    · cases h
      rfl
    · cases h

/-- What a caller takes from a call that returns with some variables. -/
inductive PendingCall.HandsOver (pending : PendingCall) (locals : Locals)
    (before after : Activation) : Prop where
  /-- The returned value is put into the variable that the caller named, in the declared
  kind. -/
  | value {name : String} {given value : Value} (named : pending.result = some name)
    (returned : locals.get? Stage.returnName = some given)
    (converted : given.coerce pending.call.entry.definition.returns = .ok value)
    (fits : pending.call.entry.definition.returns.accepts value.kind = true)
    (taken : after.context.locals.get? name = some value)
    (others : ∀ other, other ≠ name →
      after.context.locals.get? other = before.context.locals.get? other)
    (same : after = { before with
      context := { before.context with locals := after.context.locals } })
  /-- There is no variable for it, nothing was returned, or it cannot be converted. -/
  | nothing (cause : pending.result = none ∨ locals.get? Stage.returnName = none ∨
      ∃ given error, locals.get? Stage.returnName = some given ∧
        given.coerce pending.call.entry.definition.returns = .error error)
    (same : after = before)

/-- The caller waits in the same call as before. -/
theorem PendingCall.HandsOver.call {pending : PendingCall} {locals : Locals}
    {before after : Activation} (h : pending.HandsOver locals before after) :
    after.call = before.call := by
  cases h with
  | value _ _ _ _ _ _ same => rw [same]
  | nothing _ same => rw [same]

namespace Machine

variable {σ ρ : Type} [Host σ]

/-- All that a step can make of a stack whose innermost activation is a call. -/
inductive Restacks (top caller : Activation) (outer : List Activation) (stepped : Stepped σ ρ) :
    Prop where
  /-- The call goes on. -/
  | works (next : Activation) (call : next.call = top.call)
    (stack : stepped.machine.stack = next :: caller :: outer)
  /-- It makes a call. -/
  | calls (next callee : Activation) (call : next.call = top.call) (called : callee.call.isSome)
    (stack : stepped.machine.stack = callee :: next :: caller :: outer)
  /-- It returns. -/
  | returns (pending : PendingCall) (after : Activation) (finished : top.frames = [])
    (call : top.call = some pending) (handed : pending.HandsOver top.context.locals caller after)
    (stack : stepped.machine.stack = after :: outer) (outcome : stepped.outcome = .ok .normal)
  /-- The machine ends, with the variables of the outermost activation. -/
  | ends (stack : stepped.machine.stack = [])
    (locals : stepped.machine.finalLocals =
      (caller :: outer).getLast?.map (·.context.locals))
    (outcome : stepped.outcome ≠ .ok .normal)

/-- Without a value the caller receives nothing. -/
theorem receive_none (caller : Activation) (name : Option String) :
    receive caller name none = caller := by
  cases name <;> rfl

omit [Host σ] in
/-- What is handed over is what the caller receives. -/
theorem handsOver_receive (pending : PendingCall) (locals : Locals) (caller : Activation)
    (around : Surroundings σ ρ) :
    pending.HandsOver locals caller (receive caller pending.result
      (returned pending.call (locals.get? Stage.returnName) around).1) := by
  unfold returned
  cases hreturned : locals.get? Stage.returnName with
  | none => exact .nothing (.inr (.inl hreturned)) (receive_none caller pending.result)
  | some given =>
    dsimp only
    cases hconverted : given.coerce pending.call.entry.definition.returns with
    | error error =>
      exact .nothing (.inr (.inr ⟨given, error, hreturned, hconverted⟩))
        (receive_none caller pending.result)
    | ok value =>
      cases hnamed : pending.result with
      | none => exact .nothing (.inl hnamed) rfl
      | some name =>
        refine .value hnamed hreturned hconverted (Value.accepts_of_coerce hconverted) ?_
          (fun other hother => ?_) rfl
        · exact (SortedMap.get?_insert ..).trans (if_pos Std.ReflCmp.compare_self)
        · refine (SortedMap.get?_insert ..).trans (if_neg fun heq => hother ?_)
          exact Std.LawfulEqOrd.eq_of_compare heq

/-- A machine with a late call is ended. -/
theorem ended_of_checkDeadlines {machine after : Machine} {around last : Surroundings σ ρ}
    {error : LimitError} (h : machine.checkDeadlines around = (.error error, after, last)) :
    after = machine.ended := by
  unfold checkDeadlines at h
  dsimp only at h
  split at h
  · cases h
  · cases h
    rfl

omit [Host σ] in
/-- Below the innermost activation the variables of the program are found. -/
theorem finalLocals_ended {machine : Machine} {top caller : Activation} {outer : List Activation}
    (hs : machine.stack = top :: caller :: outer) :
    machine.ended.finalLocals = (caller :: outer).getLast?.map (·.context.locals) := by
  unfold ended locals?
  rw [hs, List.getLast?_cons_cons, List.getLast?_eq_some_getLast (List.cons_ne_nil caller outer)]
  rfl

/-- A call that has nothing left to execute hands its value over. -/
theorem handsOver_finish {top : Activation} {pending : PendingCall}
    (hc : top.call = some pending) (machine : Machine) (caller : Activation)
    (outer : List Activation) (around : Surroundings σ ρ) :
    ∃ after, pending.HandsOver top.context.locals caller after ∧
      (machine.finish top (caller :: outer) around).machine.stack = after :: outer ∧
      (machine.finish top (caller :: outer) around).outcome = .ok .normal := by
  unfold finish
  rw [hc]
  exact ⟨_, handsOver_receive pending top.context.locals caller around, rfl, rfl⟩

/-- An activation that has nothing left to execute is taken away. -/
theorem length_finish (machine : Machine) (top : Activation) (callers : List Activation)
    (around : Surroundings σ ρ) :
    (machine.finish top callers around).machine.stack.length ≤ callers.length := by
  unfold finish
  split
  · exact Nat.le_refl _
  · cases callers with
    | nil => exact Nat.le_refl _
    | cons caller outer => exact Nat.le_refl _

variable [RandomSource ρ]

/-- These are all steps of a machine that is inside of a call. -/
theorem restacks_step {machine : Machine} {top caller : Activation} {outer : List Activation}
    (hs : machine.stack = top :: caller :: outer) (hc : top.call.isSome)
    (table : ActionTable σ ρ) (around : Surroundings σ ρ) :
    Restacks top caller outer (machine.step table around) := by
  rcases step_cases table machine around with ⟨hempty, -⟩ | ⟨_, _, _, hlate, he⟩ | ⟨-, he⟩
  · rw [hs] at hempty
    cases hempty
  · rw [he]
    obtain rfl := ended_of_checkDeadlines hlate
    exact .ends rfl (finalLocals_ended hs) nofun
  · rw [he]
    unfold advance
    rw [hs]
    dsimp only
    split
    · rename_i hempty
      obtain ⟨pending, hpending⟩ := Option.isSome_iff_exists.1 hc
      obtain ⟨after, hhanded, hstack, houtcome⟩ :=
        handsOver_finish hpending machine caller outer around
      exact .returns pending after (List.isEmpty_iff.1 hempty) hpending hhanded hstack houtcome
    · rename_i hframes
      have hshifts : Stage.Shifts table.SparesRequests ⟨top, around⟩
          (Stage.advance table ⟨top, around⟩) :=
        Stage.shifts_advance fun hnone => hframes (List.isEmpty_iff.2 hnone)
      have hcall := hshifts.call
      generalize Stage.advance table ⟨top, around⟩ = result at hcall ⊢
      obtain ⟨effect, stage⟩ := result
      dsimp only at hcall ⊢
      cases effect with
      | normal => exact .works stage.activation hcall rfl
      | suspend ticks => exact .works stage.activation hcall rfl
      | fork child => exact .works stage.activation hcall rfl
      | stop => exact .ends rfl (finalLocals_ended rfl) nofun
      | call request =>
        dsimp only
        rw [call_eq]
        split
        · exact .ends rfl (finalLocals_ended rfl) nofun
        · exact .calls stage.activation _ hcall rfl rfl

/-- A machine that comes of another one by steps in any surroundings, in which more than a
number of activations are left all the time. -/
inductive Lasts (table : ActionTable σ ρ) (depth : Nat) (first : Machine) : Machine → Prop where
  /-- Nothing has happened yet. -/
  | start : Lasts table depth first first
  /-- One more step. -/
  | step {machine : Machine} (past : Lasts table depth first machine) (around : Surroundings σ ρ)
    (deep : depth < (machine.step table around).machine.stack.length) :
    Lasts table depth first (machine.step table around).machine

/-- A machine is inside of a call: all activations above the caller are calls, and the
lowest of them is this one. -/
structure Inside (machine : Machine) (pending : PendingCall) (upper : List Activation)
    (caller : Activation) (outer : List Activation) : Prop where
  /-- These are the activations. -/
  stack : machine.stack = upper ++ caller :: outer
  /-- The lowest of the upper ones is the call, and the others are calls as well. -/
  calls : ∃ inner : List PendingCall, upper.map (·.call) = inner.map some ++ [some pending]

omit [Host σ] [RandomSource ρ] in
/-- The call is on the stack, above its caller. -/
theorem Inside.length_lt {machine : Machine} {pending : PendingCall} {upper : List Activation}
    {caller : Activation} {outer : List Activation}
    (h : machine.Inside pending upper caller outer) : outer.length + 1 < machine.stack.length := by
  obtain ⟨inner, hcalls⟩ := h.calls
  have hlength := congrArg List.length hcalls
  rw [h.stack]
  simp only [List.length_map, List.length_append, List.length_cons, List.length_nil] at hlength ⊢
  omega

/-- A step inside of a call stays inside of it, hands a value over to the caller, or ends
the machine. The caller and what is below it are not touched in any other way. -/
theorem Inside.step {machine : Machine} {pending : PendingCall} {upper : List Activation}
    {caller : Activation} {outer : List Activation}
    (h : machine.Inside pending upper caller outer) (table : ActionTable σ ρ)
    (around : Surroundings σ ρ) :
    (∃ next, (machine.step table around).machine.Inside pending next caller outer) ∨
    (∃ callee after, upper = [callee] ∧ callee.frames = [] ∧
      (machine.step table around).outcome = .ok .normal ∧
      (machine.step table around).machine.stack = after :: outer ∧
      pending.HandsOver callee.context.locals caller after) ∨
    ((machine.step table around).machine.stack = [] ∧
      (machine.step table around).outcome ≠ .ok .normal ∧
      (machine.step table around).machine.finalLocals =
        (caller :: outer).getLast?.map (·.context.locals)) := by
  obtain ⟨hstack, inner, hcalls⟩ := h
  cases upper with
  | nil => simp at hcalls
  | cons top rest =>
    obtain ⟨next, below, hbelow⟩ : ∃ next below, rest ++ caller :: outer = next :: below :=
      List.exists_cons_of_ne_nil (by simp)
    have htop : top.call.isSome := by
      cases inner with
      | nil => simp_all
      | cons first inner => simp_all
    rw [List.cons_append, hbelow] at hstack
    have hrestacks := restacks_step hstack htop table around
    generalize machine.step table around = stepped at hrestacks ⊢
    cases hrestacks with
    | works changed hsame hnext =>
      refine .inl ⟨changed :: rest, ?_, inner, ?_⟩
      · rw [hnext, List.cons_append, hbelow]
      · rw [← hcalls, List.map_cons, List.map_cons, hsame]
    | calls changed made hsame hmade hnext =>
      obtain ⟨further, hfurther⟩ := Option.isSome_iff_exists.1 hmade
      refine .inl ⟨made :: changed :: rest, ?_, further :: inner, ?_⟩
      · rw [hnext, List.cons_append, List.cons_append, hbelow]
      · rw [List.map_cons, List.map_cons, hsame, hfurther, ← List.map_cons, hcalls]
        rfl
    | returns own after hfinished hown hhanded hnext houtcome =>
      cases rest with
      | nil =>
        cases hbelow
        cases inner with
        | nil =>
          have hpending : own = pending := by simp_all
          subst hpending
          exact .inr (.inl ⟨top, after, rfl, hfinished, houtcome, hnext, hhanded⟩)
        | cons first inner => simp at hcalls
      | cons first rest =>
        cases hbelow
        cases inner with
        | nil => simp at hcalls
        | cons made inner =>
          refine .inl ⟨after :: rest, hnext, inner, ?_⟩
          simp only [List.map_cons, List.cons_append, List.cons.injEq] at hcalls
          rw [List.map_cons, hhanded.call, hcalls.2]
    | ends hempty hlocals houtcome =>
      refine .inr (.inr ⟨hempty, houtcome, hlocals.trans ?_⟩)
      rw [← hbelow, List.getLast?_append, List.getLast?_cons, Option.some_or]

/-- Whatever steps are taken, the machine stays inside of the call for as long as the call
is on the stack. -/
theorem Lasts.inside {table : ActionTable σ ρ} {first later : Machine} {pending : PendingCall}
    {upper : List Activation} {caller : Activation} {outer : List Activation}
    (h : Lasts table (outer.length + 1) first later)
    (hi : first.Inside pending upper caller outer) :
    ∃ upper, later.Inside pending upper caller outer := by
  induction h with
  | start => exact ⟨upper, hi⟩
  | step past around deep ih =>
    obtain ⟨next, hnext⟩ := ih
    rcases hnext.step table around with hinside | ⟨_, _, -, -, -, hstack, -⟩ | ⟨hstack, -⟩
    · exact hinside
    · rw [hstack, List.length_cons] at deep
      omega
    · rw [hstack] at deep
      simp at deep

/-- A call that is the innermost one and has nothing left to execute returns, if no call is
late. -/
theorem Inside.returns {machine : Machine} {pending : PendingCall} {callee caller : Activation}
    {outer : List Activation} (h : machine.Inside pending [callee] caller outer)
    (hf : callee.frames = []) (table : ActionTable σ ρ) {around : Surroundings σ ρ}
    (hl : ∀ call ∈ machine.calls, call.isLate around.now = false) :
    ∃ after, (machine.step table around).machine.stack = after :: outer := by
  have hcall : callee.call = some pending := by
    obtain ⟨inner, hcalls⟩ := h.calls
    cases inner with
    | nil => simp_all
    | cons first inner => simp at hcalls
  obtain ⟨after, -, hstack, -⟩ := handsOver_finish hcall machine caller outer around
  refine ⟨after, ?_⟩
  rw [step_eq_advance hl]
  unfold advance
  rw [h.stack]
  dsimp only [List.cons_append, List.nil_append]
  rw [if_pos (List.isEmpty_iff.2 hf)]
  exact hstack

/-- The innermost activation is in front of the node of a call, and this is the call that
the node leads to. -/
structure Invokes (around : Surroundings σ ρ) (top : Activation) (op : Op)
    (request : CallRequest) (pending : PendingCall) (caller callee : Activation) : Prop where
  /-- The node is a call. -/
  category : op.category = .call
  /-- It comes next, and in the caller it is passed. -/
  facing : ∃ chain frames index, top.Facing chain frames index op ∧
    caller = { top with frames := .block ⟨op.next, chain.kind, false⟩ :: frames }
  /-- This is what it asks for. -/
  asked : ∃ random, Stage.callRequest op ⟨top.context, around.host, around.random⟩ =
    (.ok request, ⟨top.context, around.host, random⟩)
  /-- This is the function it names. -/
  found : around.ledger.registry.lookup? request.function top.context.actor
    top.context.origin.world = some pending.call.entry
  /-- The call starts with what the arguments are bound to. -/
  bound : pending.call.entry.definition.bindArgs request.named request.positional =
    .ok callee.context.locals
  /-- The caller is told which variable takes the value. -/
  result : pending.result = request.result
  /-- The call starts at the entry of the function. -/
  callee : callee = .start pending.call.entry.script
    (.start top.context.actor top.context.origin callee.context.locals) (some pending)

/-- A step that makes the stack longer makes a call. -/
theorem invokes_of_longer {table : ActionTable σ ρ} {machine : Machine} {around : Surroundings σ ρ}
    (h : machine.stack.length < (machine.step table around).machine.stack.length) :
    ∃ top outer op request pending caller callee, machine.stack = top :: outer ∧
      Invokes around top op request pending caller callee ∧
      (machine.step table around).machine.stack = callee :: caller :: outer := by
  rcases step_cases table machine around with ⟨-, he⟩ | ⟨_, _, _, hlate, he⟩ | ⟨-, he⟩
  · rw [he] at h
    exact absurd h (Nat.lt_irrefl _)
  · rw [he, ended_of_checkDeadlines hlate] at h
    cases h
  · rw [he] at h ⊢
    unfold advance at h ⊢
    cases hs : machine.stack with
    | nil =>
      rw [hs] at h
      simp [hs] at h
    | cons top outer =>
      rw [hs] at h
      dsimp only at h ⊢
      split at h
      · have hshort := length_finish machine top outer around
        rw [List.length_cons] at h
        omega
      · rename_i hframes
        rw [if_neg hframes]
        rcases hadvance : Stage.advance table ⟨top, around⟩ with ⟨effect, stage⟩
        rw [hadvance] at h
        dsimp only at h ⊢
        cases effect with
        | normal => exact absurd h (Nat.lt_irrefl _)
        | suspend ticks => exact absurd h (Nat.lt_irrefl _)
        | fork child => exact absurd h (Nat.lt_irrefl _)
        | stop => cases h
        | call request =>
          dsimp only at h ⊢
          obtain ⟨chain, frames, index, op, random, hfacing, hcategory, -, hasked, rfl⟩ :=
            Stage.advance_eq_call hadvance
          rw [call_eq] at h ⊢
          dsimp only at h ⊢
          rcases Surroundings.refuses_or_grants { around with random } top.context request with
            ⟨error, asked, hrefuses⟩ | ⟨entry, locals, ledger, hgrant, hfound, hbound⟩
          · obtain ⟨after, hrefused, -⟩ := Surroundings.grant_of_refuses hrefuses
            rw [hrefused] at h
            cases h
          · rw [hgrant]
            exact ⟨top, outer, op, request, ⟨_, request.result⟩, _, _, rfl,
              ⟨hcategory, ⟨chain, frames, index, hfacing, rfl⟩, ⟨random, hasked⟩, hfound, hbound,
                rfl, rfl⟩, rfl⟩

/-- Calls are isolated. A step that makes the stack longer is one of a call node, and the
call starts with exactly the variables that its arguments are bound to. The caller keeps
its variables, and remembers the variable that the parameter `result` names if that is
there and not empty. However many steps are taken in whatever surroundings, as long as
the call is on the stack, the caller and everything below it are the same. The call goes
off the stack in two ways only. It hands over to its caller, as it does when nothing is
left to execute and no call is late; or the whole machine ends, and the variables of its
outermost activation are what they were. -/
theorem calls_isolated {table : ActionTable σ ρ} {machine : Machine} {around : Surroundings σ ρ}
    (h : machine.stack.length < (machine.step table around).machine.stack.length) :
    ∃ top outer op request pending caller callee, machine.stack = top :: outer ∧
      (machine.step table around).machine.stack = callee :: caller :: outer ∧
      Invokes around top op request pending caller callee ∧
      caller.context.locals = top.context.locals ∧
      (∃ (first second : Scene σ ρ) (answer : Option Value), first.context = top.context ∧
        Act.arg? op "result" first = (.ok answer, second) ∧
        pending.result = (answer.map Value.toText).filter (!·.isEmpty)) ∧
      ∀ later, Lasts table (outer.length + 1) (machine.step table around).machine later →
        ∃ upper, later.Inside pending upper caller outer ∧
          (∀ around : Surroundings σ ρ,
            outer.length + 1 < (later.step table around).machine.stack.length ∨
            (∃ callee after, upper = [callee] ∧ callee.frames = [] ∧
              (later.step table around).outcome = .ok .normal ∧
              (later.step table around).machine.stack = after :: outer ∧
              pending.HandsOver callee.context.locals caller after) ∨
            ((later.step table around).machine.stack = [] ∧
              (later.step table around).outcome ≠ .ok .normal ∧
              (later.step table around).machine.finalLocals =
                (caller :: outer).getLast?.map (·.context.locals))) ∧
          ∀ (around : Surroundings σ ρ) (callee : Activation), upper = [callee] →
            callee.frames = [] → (∀ call ∈ later.calls, call.isLate around.now = false) →
            ∃ after, (later.step table around).machine.stack = after :: outer := by
  obtain ⟨top, outer, op, request, pending, caller, callee, hstack, hinvokes, hpushed⟩ :=
    invokes_of_longer h
  refine ⟨top, outer, op, request, pending, caller, callee, hstack, hpushed, hinvokes, ?_, ?_,
    fun later hlasts => ?_⟩
  · obtain ⟨_, _, _, -, rfl⟩ := hinvokes.facing
    rfl
  · obtain ⟨random, hasked⟩ := hinvokes.asked
    rw [hinvokes.result]
    exact Stage.callRequest_result hasked
  · have hcall : callee.call = some pending := by
      rw [hinvokes.callee]
      rfl
    have hfirst : (machine.step table around).machine.Inside pending [callee] caller outer :=
      ⟨hpushed, [], by simp [hcall]⟩
    obtain ⟨upper, hinside⟩ := hlasts.inside hfirst
    refine ⟨upper, hinside, fun around => ?_, fun around own hown hfinished hpunctual => ?_⟩
    · rcases hinside.step table around with ⟨next, hnext⟩ | hhanded | hended
      · exact .inl hnext.length_lt
      · exact .inr (.inl hhanded)
      · exact .inr (.inr hended)
    · subst hown
      exact hinside.returns hfinished table hpunctual

/-- A program that sets a variable and calls a function, with a variable for its value. -/
def askingBody : Option Node :=
  some (.mk ⟨1, "set", .assignment, some "set",
      (ArrivalMap.empty.insert "name" (.text "x")).insert "value" (.text "asked"), .plain, none⟩ []
    (some (.mk ⟨2, "call", .call, some "call",
      (ArrivalMap.empty.insert "function" (.text "reply")).insert "result" (.text "y"), .plain,
        none⟩ [] none)))

/-- The function, which sets the same variable and returns a truth value as a text. -/
def replyFunction : FunctionDefinition :=
  { FunctionDefinition.plain "reply" ⟨"alice"⟩ .everyone (some (.mk ⟨3, "set", .assignment,
      some "set", (ArrivalMap.empty.insert "name" (.text "x")).insert "value" (.text "replied"),
        .plain, none⟩ []
      (some (.mk ⟨4, "return", .control, some "return",
        ArrivalMap.empty.insert "value" (.bool true), .plain, none⟩ [] none)))) with
    returns := .text }

/-- The machine of the program and what surrounds it, after a number of steps. -/
def askingMachine : Nat → Machine × Surroundings MinimalHost ReplaySource
  | 0 =>
    (ofScript (.ofBody "start" default askingBody) (.start ⟨"alice"⟩ default .empty),
      ⟨⟨⟨0⟩⟩, ⟨[], 0⟩, { Ledger.initial default with
        registry := (FunctionRegistry.empty.answer (.register replyFunction false)).2 }, #[]⟩)
  | steps + 1 =>
    let (machine, around) := askingMachine steps
    let stepped := machine.step .standard around
    (stepped.machine, stepped.around)

/-- Each of them takes one more step. -/
theorem askingMachine_succ (steps : Nat) : (askingMachine (steps + 1)).1 =
    ((askingMachine steps).1.step .standard (askingMachine steps).2).machine :=
  rfl

/-- The second step makes the call. In the fifth one it returns: its variable of the same
name is not that of the caller, and what it returns has become a text. -/
theorem calls_isolated_asking : ∃ pending callee caller after,
    (askingMachine 4).1.Inside pending [callee] caller [] ∧
      (askingMachine 5).1.stack = [after] ∧
      pending.HandsOver callee.context.locals caller after ∧
      callee.context.locals.get? "x" = some (.text "replied") ∧
      callee.context.locals.get? "return" = some (.bool true) ∧
      after.context.locals.get? "x" = some (.text "asked") ∧
      after.context.locals.get? "y" = some (.text "true") := by
  have hlonger : (askingMachine 1).1.stack.length <
      ((askingMachine 1).1.step .standard (askingMachine 1).2).machine.stack.length := by
    decide +kernel
  obtain ⟨top, outer, op, request, pending, caller, callee, hstack, -, -, -, -, hlater⟩ :=
    calls_isolated hlonger
  have houter : outer = [] := by
    have hlength : (askingMachine 1).1.stack.length = 1 := by decide +kernel
    rw [hstack] at hlength
    simpa using hlength
  subst houter
  rw [← askingMachine_succ] at hlater
  have hlasts : Lasts (σ := MinimalHost) (ρ := ReplaySource) .standard 1 (askingMachine 2).1
      (askingMachine 4).1 := by
    have hthree : Lasts (σ := MinimalHost) (ρ := ReplaySource) .standard 1 (askingMachine 2).1
        (askingMachine 3).1 := by
      rw [askingMachine_succ 2]
      exact .step .start (askingMachine 2).2 (by decide +kernel)
    rw [askingMachine_succ 3]
    exact hthree.step (askingMachine 3).2 (by decide +kernel)
  obtain ⟨upper, hinside, hstep, -⟩ := hlater (askingMachine 4).1 hlasts
  have hlast : (askingMachine 5).1.stack.map (fun activation =>
      (activation.context.locals.get? "x", activation.context.locals.get? "y")) =
      [(some (.text "asked"), some (.text "true"))] := by decide +kernel
  have hcallee : (askingMachine 4).1.stack.map (fun activation =>
      (activation.context.locals.get? "x", activation.context.locals.get? "return")) =
      [(some (.text "replied"), some (.bool true)), (some (.text "asked"), none)] := by
    decide +kernel
  rcases hstep (askingMachine 4).2 with
    hdeep | ⟨own, after, rfl, -, -, hafter, hhanded⟩ | ⟨hnone, -⟩
  · exact absurd hdeep (by decide +kernel)
  · have hfive : (askingMachine 5).1.stack = [after] := by rw [askingMachine_succ 4, hafter]
    rw [hinside.stack] at hcallee
    rw [hfive] at hlast
    simp only [List.map_cons, List.map_nil, List.cons_append, List.nil_append, List.cons.injEq,
      Prod.mk.injEq] at hcallee hlast
    exact ⟨pending, own, caller, after, hinside, hfive, hhanded, hcallee.1.1, hcallee.1.2,
      hlast.1.1, hlast.1.2⟩
  · have hfive : (askingMachine 5).1.stack = [] := by rw [askingMachine_succ 4, hnone]
    rw [hfive] at hlast
    cases hlast

end Machine

end GridScript
