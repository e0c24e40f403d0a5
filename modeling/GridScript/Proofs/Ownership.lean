import GridScript.Engine.Slice
import GridScript.Proofs.Exchange
import GridScript.Proofs.Forks
import Mathlib.Data.List.TakeDrop

/-!
# Machines of one actor

Everything on the stack of a machine belongs to one actor, and every activation
but the outermost is a call. A step keeps that, moves the ledger by exactly the
calls that were pushed or popped, and leaves nothing on the stack when the
machine ends. A slice does the same and claims a suspension if and only if the
machine is parked.
-/

namespace GridScript

open Ledger Surroundings

/-- Everything on the stack belongs to one actor, and all inner activations are
calls. -/
structure Machine.Owned (machine : Machine) (actor : Actor) : Prop where
  /-- All activations run for the actor. -/
  contexts : ∀ activation ∈ machine.stack, activation.context.actor = actor
  /-- All calls are of the actor. -/
  calls : CallsOf actor machine.stack
  /-- Only the outermost activation can be a program. -/
  inner : ∀ activation ∈ machine.stack.dropLast, activation.call.isSome

namespace Machine

variable {σ ρ : Type} {actor : Actor}

/-- A machine that has ended belongs to anyone. -/
theorem owned_of_empty {machine : Machine} (h : machine.stack = []) : machine.Owned actor := by
  constructor
  · simp [h]
  · simp [h, CallsOf]
  · simp [h]

/-- The number of calls in a stack with one more activation. -/
theorem callDepth_cons (top : Activation) (callers : List Activation) (locals : Option Locals) :
    callDepth ⟨top :: callers, locals⟩ =
      callDepth ⟨callers, locals⟩ + if top.call.isSome then 1 else 0 := by
  simp only [callDepth, List.countP_cons]

/-- A machine that has ended holds no calls. -/
theorem callDepth_of_empty {machine : Machine} (h : machine.stack = []) :
    machine.callDepth = 0 := by
  simp [callDepth, h]

/-- A machine keeps its owner when its innermost activation is replaced by one of
the same call and actor. -/
theorem Owned.replace {top other : Activation} {callers : List Activation}
    {locals : Option Locals} (h : Owned ⟨top :: callers, locals⟩ actor)
    (ha : other.context.actor = top.context.actor) (hc : other.call = top.call) :
    Owned ⟨other :: callers, locals⟩ actor where
  contexts := by
    intro activation hm
    rcases List.mem_cons.1 hm with rfl | hm
    · exact ha.trans (h.contexts top (by simp))
    · exact h.contexts activation (List.mem_cons_of_mem _ hm)
  calls := by
    intro activation hm pending hp
    rcases List.mem_cons.1 hm with rfl | hm
    · exact h.calls top (by simp) pending (hc ▸ hp)
    · exact h.calls activation (List.mem_cons_of_mem _ hm) pending hp
  inner := by
    have hi := h.inner
    cases callers with
    | nil => simp
    | cons caller outer =>
      intro activation hm
      simp only [List.dropLast_cons_cons] at hm hi
      rcases List.mem_cons.1 hm with rfl | hm
      · exact hc ▸ hi top (by simp)
      · exact hi activation (List.mem_cons_of_mem _ hm)

/-- A machine keeps its owner when its innermost activation is taken away. -/
theorem Owned.pop {top : Activation} {callers : List Activation} {locals : Option Locals}
    (h : Owned ⟨top :: callers, locals⟩ actor) : Owned ⟨callers, locals⟩ actor where
  contexts activation hm := h.contexts activation (List.mem_cons_of_mem _ hm)
  calls activation hm := h.calls activation (List.mem_cons_of_mem _ hm)
  inner := by
    have hi := h.inner
    cases callers with
    | nil => simp
    | cons caller outer =>
      intro activation hm
      simp only [List.dropLast_cons_cons] at hi
      exact hi activation (List.mem_cons_of_mem _ hm)

/-- A machine keeps its owner when a call of the owner is pushed. -/
theorem Owned.push {machine : Machine} (h : machine.Owned actor) {callee : Activation}
    {pending : PendingCall} (ha : callee.context.actor = actor) (hc : callee.call = some pending)
    (hp : pending.call.actor = actor) :
    Owned ⟨callee :: machine.stack, machine.finalLocals⟩ actor where
  contexts := by
    intro activation hm
    rcases List.mem_cons.1 hm with rfl | hm
    · exact ha
    · exact h.contexts activation hm
  calls := by
    intro activation hm other ho
    rcases List.mem_cons.1 hm with rfl | hm
    · rw [hc] at ho
      cases ho
      exact hp
    · exact h.calls activation hm other ho
  inner := by
    have hi := h.inner
    cases hs : machine.stack with
    | nil => simp
    | cons caller outer =>
      rw [hs] at hi
      intro activation hm
      simp only [List.dropLast_cons_cons] at hm
      rcases List.mem_cons.1 hm with rfl | hm
      · simp [hc]
      · exact hi activation hm

/-- A program without callers is the outermost activation. -/
theorem Owned.callers_eq_nil {top : Activation} {callers : List Activation}
    {locals : Option Locals} (h : Owned ⟨top :: callers, locals⟩ actor) (hc : top.call = none) :
    callers = [] := by
  cases callers with
  | nil => rfl
  | cons caller outer =>
    have := h.inner top (by simp)
    rw [hc] at this
    cases this

/-- A machine for a program belongs to the actor of its context and holds no
calls. -/
theorem owned_ofScript (script : Script) (context : Context) :
    (ofScript script context).Owned context.actor ∧ (ofScript script context).callDepth = 0 := by
  constructor
  · constructor
    · simp [ofScript, Activation.start]
    · simp [ofScript, Activation.start, CallsOf]
    · simp [ofScript]
  · simp [ofScript, callDepth, Activation.start]

/-- A machine for a call belongs to the actor of the call and holds that call. -/
theorem owned_ofCall {call : ActiveCall} {context : Context} (h : call.actor = context.actor) :
    (ofCall call context).Owned context.actor ∧ (ofCall call context).callDepth = 1 := by
  constructor
  · constructor
    · simp [ofCall, Activation.start]
    · simp [ofCall, Activation.start, CallsOf, h]
    · simp [ofCall]
  · simp [ofCall, callDepth, Activation.start]

/-- A machine that was split off belongs to the actor it was split off from. -/
theorem owned_forked {activation : Activation} (frame : LoopFrame)
    (h : activation.context.actor = actor) :
    (Stage.forked activation frame).Owned actor ∧
      (Stage.forked activation frame).callDepth = 0 := by
  constructor
  · constructor
    · simpa [Stage.forked, Context.start] using h
    · simp [Stage.forked, CallsOf]
    · simp [Stage.forked]
  · simp [Stage.forked, callDepth]

/-- What a call returns leaves the ledger alone. -/
theorem returned_ledger (call : ActiveCall) (value : Option Value) (around : Surroundings σ ρ) :
    (returned call value around).2.ledger = around.ledger := by
  unfold returned
  split
  · rfl
  · split <;> rfl

/-- A value that is received changes neither actor nor call. -/
theorem receive_same (caller : Activation) (name : Option String) (value : Option Value) :
    (receive caller name value).context.actor = caller.context.actor ∧
      (receive caller name value).call = caller.call := by
  unfold receive
  split <;> exact ⟨rfl, rfl⟩

end Machine

/-- A machine that was split off and belongs to an actor: there is something to do, and
it holds no calls. -/
def Machine.IsChild (actor : Actor) (child : Machine) : Prop :=
  child.Owned actor ∧ child.callDepth = 0 ∧ child.stack ≠ []

/-- What is left of a machine after a step: nothing if it ended, and a machine it
split off belongs to the same actor and holds no calls. -/
def Step.Settles (actor : Actor) (machine : Machine) : Except RunError Step → Prop
  | .ok .normal | .ok (.suspend _) => True
  | .ok (.fork child) => child.IsChild actor
  | .ok .idle | .ok (.terminate _) | .error _ => machine.stack = []

/-- A step that leaves a machine of an actor as it should be. -/
structure Stepped.Settled {σ ρ : Type} (stepped : Stepped σ ρ) (actor : Actor) : Prop where
  /-- The machine keeps its owner. -/
  owned : stepped.machine.Owned actor
  /-- A machine that ended holds nothing. -/
  settles : Step.Settles actor stepped.machine stepped.outcome

/-- A step of a machine of an actor that is fully accounted for. -/
structure Stepped.Accounted {σ ρ : Type} (stepped : Stepped σ ρ) (actor : Actor)
    (before : Ledger) (held : Nat) : Prop extends stepped.Settled actor where
  /-- The ledger moves by the calls that were pushed or popped. -/
  exchange : Exchange actor before held stepped.around.ledger stepped.machine.callDepth

namespace Machine

variable {σ ρ : Type} [Host σ] {actor : Actor}

/-- A machine that fails holds nothing. -/
theorem settled_failWith (machine : Machine) (error : RunError) (around : Surroundings σ ρ) :
    (machine.failWith error around).Settled actor :=
  ⟨owned_of_empty rfl, rfl⟩

/-- An activation that is finished hands over to its caller, if it has one. -/
theorem settled_finish {machine : Machine} {top : Activation} {callers : List Activation}
    (hs : machine.stack = top :: callers) (ho : machine.Owned actor)
    (around : Surroundings σ ρ) : (machine.finish top callers around).Settled actor := by
  obtain ⟨stack, locals⟩ := machine
  subst hs
  unfold finish
  cases htop : top.call with
  | none =>
    have hnil := ho.callers_eq_nil htop
    exact ⟨owned_of_empty hnil, hnil⟩
  | some pending =>
    cases callers with
    | nil => exact ⟨owned_of_empty rfl, rfl⟩
    | cons caller outer =>
      have hsame := fun value => receive_same caller pending.result value
      exact ⟨ho.pop.replace (hsame _).1 (hsame _).2, trivial⟩

/-- A call that is accepted belongs to the actor who asks for it. -/
theorem actor_of_acquire {around after : Surroundings σ ρ} {entry : FunctionEntry}
    {actor : Actor} {call : ActiveCall} (h : around.acquire entry actor = (.ok call, after)) :
    call.actor = actor := by
  have hacquired := exchange_acquire around.ledger entry actor around.now 0
  unfold Surroundings.acquire at h
  generalize around.ledger.acquire entry actor around.now = claim at hacquired h
  obtain ⟨result, ledger⟩ := claim
  cases result with
  | error => cases h
  | ok accepted =>
    cases h
    exact hacquired.1

/-- A call that is asked for is pushed or ends the machine. -/
theorem settled_call {machine : Machine} (ho : machine.Owned actor) {context : Context}
    (ha : context.actor = actor) (request : CallRequest) (around : Surroundings σ ρ) :
    (machine.call context request around).Settled actor := by
  unfold call
  split
  · exact settled_failWith ..
  · split
    · exact settled_failWith ..
    · split
      · exact settled_failWith ..
      · rename_i hacquire
        exact ⟨ho.push ha rfl ((actor_of_acquire hacquire).trans ha), trivial⟩

/-- A machine with a late call ends. -/
theorem stack_of_checkDeadlines {machine after : Machine} {around last : Surroundings σ ρ}
    {error : LimitError} (h : machine.checkDeadlines around = (.error error, after, last)) :
    after.stack = [] := by
  unfold checkDeadlines at h
  dsimp only at h
  split at h
  · cases h
  · cases h
    rfl

section Advance

variable [RandomSource ρ] {table : ActionTable σ ρ}

/-- Executing a node or a transition leaves a machine as it should be. -/
theorem settled_advance (ht : table.Keeps) {machine : Machine} (ho : machine.Owned actor)
    (around : Surroundings σ ρ) : (machine.advance table around).Settled actor := by
  unfold advance
  cases hs : machine.stack with
  | nil => exact ⟨ho, hs⟩
  | cons top callers =>
    dsimp only
    split
    · exact settled_finish hs ho around
    · obtain ⟨stack, locals⟩ := machine
      dsimp only at hs
      subst hs
      have hl := Stage.local_advance ht ⟨top, around⟩
      have hfork : ∀ child, (Stage.advance table ⟨top, around⟩).1 = .fork child →
          child.Owned actor ∧ child.callDepth = 0 ∧ child.stack ≠ [] := by
        intro child hchild
        obtain ⟨_, _, _, frame, hsplit⟩ := Stage.advance_fork hchild
        obtain ⟨after, hafter, rfl⟩ := hsplit.child
        have hactor : after.activation.context.actor = actor :=
          hafter.actor.trans (ho.contexts top (by simp))
        obtain ⟨h₁, h₂⟩ := owned_forked frame hactor
        exact ⟨h₁, h₂, List.cons_ne_nil _ _⟩
      generalize Stage.advance table ⟨top, around⟩ = result at hl hfork ⊢
      obtain ⟨effect, stage⟩ := result
      dsimp only at hl hfork ⊢
      have howned : Owned ⟨stage.activation :: callers, locals⟩ actor := ho.replace hl.actor hl.call
      cases effect with
      | normal => exact ⟨howned, trivial⟩
      | suspend ticks => exact ⟨howned, trivial⟩
      | fork child => exact ⟨howned, hfork child rfl⟩
      | stop => exact ⟨owned_of_empty rfl, rfl⟩
      | call request =>
        have hactor : stage.activation.context.actor = actor :=
          howned.contexts stage.activation (by simp)
        exact settled_call howned hactor request _

/-- A step looks for late calls first and then advances the machine as it was. -/
theorem step_cases (table : ActionTable σ ρ) (machine : Machine) (around : Surroundings σ ρ) :
    (machine.stack = [] ∧ machine.step table around = ⟨.ok .idle, machine, around⟩) ∨
      (∃ error after last, machine.checkDeadlines around = (.error error, after, last) ∧
        machine.step table around = ⟨.error (.limit error), after, last⟩) ∨
      (machine.lateCall? around.now = none ∧
        machine.step table around = machine.advance table around) := by
  unfold step
  cases hs : machine.stack with
  | nil => exact .inl ⟨rfl, rfl⟩
  | cons top callers =>
    rcases hd : machine.checkDeadlines around with ⟨result, after, last⟩
    cases result with
    | error error => exact .inr (.inl ⟨error, after, last, rfl, rfl⟩)
    | ok =>
      unfold checkDeadlines at hd
      dsimp only at hd
      split at hd
      · cases hd
        exact .inr (.inr ⟨‹_›, rfl⟩)
      · cases hd

/-- A step leaves a machine as it should be. -/
theorem settled_step (ht : table.Keeps) {machine : Machine} (ho : machine.Owned actor)
    (around : Surroundings σ ρ) : (machine.step table around).Settled actor := by
  rcases step_cases table machine around with ⟨hs, he⟩ | ⟨error, after, last, hd, he⟩ | ⟨-, he⟩
  · rw [he]
    exact ⟨ho, hs⟩
  · rw [he]
    have hs := stack_of_checkDeadlines hd
    exact ⟨owned_of_empty hs, hs⟩
  · rw [he]
    exact settled_advance ht ho around

end Advance

end Machine

namespace Machine

variable {σ ρ : Type} [Host σ] {actor : Actor}

/-- A machine that is ended gives all its calls back. -/
theorem exchange_close {machine : Machine} (ho : machine.Owned actor) (outcome : CallOutcome)
    {around : Surroundings σ ρ} (hc : around.ledger.Covers actor machine.callDepth) :
    Exchange actor around.ledger machine.callDepth (machine.close outcome around).2.ledger 0 := by
  have h : Exchange actor around.ledger (machine.stack.countP (·.call.isSome) + 0)
      (around.releaseAll outcome machine.stack).ledger 0 :=
    exchange_releaseAll ho.calls outcome hc
  exact h

/-- A machine that fails gives all its calls back. -/
theorem accounted_failWith {machine : Machine} (ho : machine.Owned actor) (error : RunError)
    {around : Surroundings σ ρ} (hc : around.ledger.Covers actor machine.callDepth) :
    (machine.failWith error around).Accounted actor around.ledger machine.callDepth where
  toSettled := settled_failWith machine error around
  exchange := exchange_close ho .failure hc

omit [Host σ] in
/-- The activations outside and inside of the late call are the whole stack. -/
theorem splitLate_append (machine : Machine) (now : UInt64) :
    (machine.splitLate now).1 ++ (machine.splitLate now).2 = machine.stack.reverse := by
  unfold splitLate
  rw [List.span_eq_takeWhile_dropWhile]
  exact List.takeWhile_append_dropWhile

/-- A machine with a late call gives all its calls back. -/
theorem exchange_checkDeadlines {machine after : Machine} (ho : machine.Owned actor)
    {around around' : Surroundings σ ρ} (hc : around.ledger.Covers actor machine.callDepth)
    {error : LimitError} (h : machine.checkDeadlines around = (.error error, after, around')) :
    Exchange actor around.ledger machine.callDepth around'.ledger 0 := by
  unfold checkDeadlines at h
  dsimp only at h
  split at h
  · cases h
  · cases h
    have hsplit := machine.splitLate_append around.now
    generalize (machine.splitLate around.now).1 = outside at hsplit ⊢
    generalize (machine.splitLate around.now).2 = inside at hsplit ⊢
    have hmem : ∀ activation ∈ outside ++ inside, activation ∈ machine.stack := by
      rw [hsplit]
      exact fun activation => List.mem_reverse.1
    have hdepth : machine.callDepth = inside.reverse.countP (·.call.isSome) +
        outside.reverse.countP (·.call.isSome) := by
      rw [callDepth, ← List.countP_reverse, ← hsplit, List.countP_append, List.countP_reverse,
        List.countP_reverse]
      omega
    rw [hdepth] at hc ⊢
    have hinside : CallsOf actor inside.reverse := fun activation ha =>
      ho.calls activation (hmem activation (by simp [List.mem_reverse.1 ha]))
    have houtside : CallsOf actor outside.reverse := fun activation ha =>
      ho.calls activation (hmem activation (by simp [List.mem_reverse.1 ha]))
    have hnoted : (around.note .callTimedOut).ledger.Covers actor _ := hc
    have hfirst : Exchange actor around.ledger _
        ((around.note .callTimedOut).releaseAll .timeout inside.reverse).ledger
        (outside.reverse.countP (·.call.isSome) + 0) :=
      exchange_releaseAll hinside .timeout hnoted
    exact hfirst.trans (exchange_releaseAll houtside .failure (hfirst.covers hc))

/-- An activation that is finished gives its call back, if it is one. -/
theorem accounted_finish {machine : Machine} {top : Activation} {callers : List Activation}
    (hs : machine.stack = top :: callers) (ho : machine.Owned actor) {around : Surroundings σ ρ}
    (hc : around.ledger.Covers actor machine.callDepth) :
    (machine.finish top callers around).Accounted actor around.ledger machine.callDepth := by
  refine ⟨settled_finish hs ho around, ?_⟩
  obtain ⟨stack, locals⟩ := machine
  subst hs
  cases htop : top.call with
  | none =>
    have hnil := ho.callers_eq_nil htop
    subst hnil
    have hdepth : callDepth ⟨[top], locals⟩ = 0 := by simp [callDepth, htop]
    simp only [finish, htop, hdepth]
    exact .refl _ _
  | some pending =>
    have hactor : pending.call.actor = actor := ho.calls top (by simp) pending htop
    have hdepth : callDepth ⟨top :: callers, locals⟩ = callDepth ⟨callers, locals⟩ + 1 := by
      simp [callDepth_cons, htop]
    subst hactor
    simp only [finish, htop]
    have hledger := returned_ledger pending.call (top.context.locals.get? Stage.returnName) around
    generalize returned pending.call (top.context.locals.get? Stage.returnName) around = result
      at hledger ⊢
    obtain ⟨value, around'⟩ := result
    dsimp only at hledger ⊢
    rw [hdepth, ← hledger] at hc ⊢
    have hone : Exchange pending.call.actor around'.ledger _
        (around'.release pending.call .success).ledger _ :=
      exchange_release hc .success around'.now
    cases callers with
    | nil => exact hone
    | cons caller outer =>
      have hsame : callDepth ⟨receive caller pending.result value :: outer, locals⟩ =
          callDepth ⟨caller :: outer, locals⟩ := by
        rw [callDepth_cons, callDepth_cons, (receive_same caller pending.result value).2]
      dsimp only
      rw [hsame]
      exact hone

/-- A call that is accepted is pushed with its unit; a refused one ends the
machine. -/
theorem accounted_call {machine : Machine} (ho : machine.Owned actor) {context : Context}
    (ha : context.actor = actor) (request : CallRequest) {around : Surroundings σ ρ}
    (hc : around.ledger.Covers actor machine.callDepth) :
    (machine.call context request around).Accounted actor around.ledger machine.callDepth := by
  refine ⟨settled_call ho ha request around, ?_⟩
  have hafter {before : Ledger} {around' : Surroundings σ ρ} (error : RunError)
      (he : Exchange actor before machine.callDepth around'.ledger machine.callDepth)
      (hc : before.Covers actor machine.callDepth) :
      Exchange actor before machine.callDepth (machine.failWith error around').around.ledger
        (machine.failWith error around').machine.callDepth :=
    he.trans (accounted_failWith ho error (he.covers hc)).exchange
  subst ha
  unfold call
  split
  · exact (accounted_failWith ho _ hc).exchange
  · rename_i entry _
    split
    · exact hafter _ (exchange_updateTally _ _ _ _) hc
    · have hacq := exchange_acquire around.ledger entry context.actor around.now machine.callDepth
      unfold Surroundings.acquire
      generalize around.ledger.acquire entry context.actor around.now = claim at hacq ⊢
      obtain ⟨result, ledger⟩ := claim
      cases result with
      | error error => exact hafter _ hacq hc
      | ok accepted =>
        obtain ⟨-, hx⟩ := hacq
        dsimp only
        rw [callDepth_cons]
        exact hx

variable [RandomSource ρ] {table : ActionTable σ ρ}

/-- Executing a node or a transition is accounted for. -/
theorem accounted_advance (ht : table.Keeps) {machine : Machine} (ho : machine.Owned actor)
    {around : Surroundings σ ρ} (hc : around.ledger.Covers actor machine.callDepth) :
    (machine.advance table around).Accounted actor around.ledger machine.callDepth := by
  refine ⟨settled_advance ht ho around, ?_⟩
  unfold advance
  cases hs : machine.stack with
  | nil => exact .refl _ _
  | cons top callers =>
    dsimp only
    split
    · exact (accounted_finish hs ho hc).exchange
    · obtain ⟨stack, locals⟩ := machine
      dsimp only at hs
      subst hs
      have hl := Stage.local_advance ht ⟨top, around⟩
      generalize Stage.advance table ⟨top, around⟩ = result at hl ⊢
      obtain ⟨effect, stage⟩ := result
      dsimp only at hl ⊢
      have howned : Owned ⟨stage.activation :: callers, locals⟩ actor := ho.replace hl.actor hl.call
      have hdepth : callDepth ⟨top :: callers, locals⟩ =
          callDepth ⟨stage.activation :: callers, locals⟩ := by
        rw [callDepth_cons, callDepth_cons, hl.call]
      have hledger : around.ledger = stage.around.ledger := hl.ledger.symm
      rw [hdepth, hledger] at hc ⊢
      cases effect with
      | normal => exact .refl _ _
      | suspend ticks => exact .refl _ _
      | fork child => exact .refl _ _
      | stop => exact exchange_close howned .success hc
      | call request =>
        have hactor : stage.activation.context.actor = actor :=
          howned.contexts stage.activation (by simp)
        exact (accounted_call howned hactor request hc).exchange

/-- A step is accounted for. -/
theorem accounted_step (ht : table.Keeps) {machine : Machine} (ho : machine.Owned actor)
    {around : Surroundings σ ρ} (hc : around.ledger.Covers actor machine.callDepth) :
    (machine.step table around).Accounted actor around.ledger machine.callDepth := by
  refine ⟨settled_step ht ho around, ?_⟩
  rcases step_cases table machine around with ⟨hs, he⟩ | ⟨error, after, last, hd, he⟩ | ⟨-, he⟩
  · rw [he]
    exact .refl _ _
  · rw [he]
    dsimp only
    rw [callDepth_of_empty (stack_of_checkDeadlines hd)]
    exact exchange_checkDeadlines ho hc hd
  · rw [he]
    exact (accounted_advance ht ho hc).exchange

end Machine

/-- Whether a slice ended with the machine parked. -/
def SliceEnd.isParked : SliceEnd → Bool
  | .parked _ => true
  | .done _ => false

/-- A slice that leaves a machine of an actor as it should be. -/
structure Slice.Settled {σ ρ : Type} (slice : Slice σ ρ) (actor : Actor) : Prop where
  /-- The machine keeps its owner. -/
  owned : slice.machine.Owned actor
  /-- A machine that ended holds nothing. -/
  settles : slice.ending.isParked = false → slice.machine.stack = []
  /-- What was split off belongs to the same actor and holds no calls. -/
  forks : ∀ child ∈ slice.forks, child.IsChild actor

/-- A slice of a machine of an actor that is fully accounted for. -/
structure Slice.Accounted {σ ρ : Type} (slice : Slice σ ρ) (actor : Actor) (before : Ledger)
    (held : Nat) : Prop extends slice.Settled actor where
  /-- But for suspensions the ledger moves by the calls that were pushed or popped. -/
  exchange : Exchange actor before held
    { slice.around.ledger with suspensions := before.suspensions } slice.machine.callDepth
  /-- A suspension is claimed exactly if the machine is parked. -/
  suspended : ∀ other, slice.around.ledger.suspensionCount other =
    before.suspensionCount other + if slice.ending.isParked ∧ other = actor then 1 else 0
  /-- The actor had a suspension left if the machine is parked. -/
  room : slice.ending.isParked →
    before.suspensionCount actor < before.settings.maxSuspensionsPerActor

namespace Slice

variable {σ ρ : Type} {actor : Actor}

/-- A slice that ends a machine with nothing on its stack leaves it as it should be. -/
theorem settled_of_empty {result : Except RunError (Option Value)} {machine : Machine}
    {around : Surroundings σ ρ} {forks : List Machine} {steps : Nat} (hs : machine.stack = [])
    (hf : ∀ child ∈ forks, child.IsChild actor) :
    Settled ⟨.done result, machine, around, forks, steps⟩ actor :=
  ⟨Machine.owned_of_empty hs, fun _ => hs, hf⟩

/-- What happens before a slice is accounted for together with it. -/
theorem Accounted.after {slice : Slice σ ρ} {before middle : Ledger} {held kept : Nat}
    (h : slice.Accounted actor middle kept) (hx : Exchange actor before held middle kept) :
    slice.Accounted actor before held where
  toSettled := h.toSettled
  exchange := { hx.trans h.exchange with suspensions := fun _ => rfl }
  suspended other := by rw [h.suspended, hx.suspensions]
  room hp := by
    have := h.room hp
    rwa [hx.suspensions, hx.settings] at this

/-- A slice that ends a machine with nothing on its stack is accounted for by
what changed hands. -/
theorem accounted_of_exchange {result : Except RunError (Option Value)} {machine : Machine}
    {around : Surroundings σ ρ} {forks : List Machine} {steps : Nat} {before : Ledger}
    {held : Nat} (hx : Exchange actor before held around.ledger machine.callDepth)
    (hs : machine.stack = []) (hf : ∀ child ∈ forks, child.IsChild actor) :
    Accounted ⟨.done result, machine, around, forks, steps⟩ actor before held where
  toSettled := settled_of_empty hs hf
  exchange := { hx with suspensions := fun _ => rfl }
  suspended other := by simpa [SliceEnd.isParked] using hx.suspensions other
  room hp := by cases hp

end Slice

namespace Machine

variable {σ ρ : Type} [Host σ] {actor : Actor}

/-- A machine that wants to wait claims a suspension, or gives all its calls
back when it is refused. -/
theorem accounted_pause {machine : Machine} (ho : machine.Owned actor) {around : Surroundings σ ρ}
    (hc : around.ledger.Covers actor machine.callDepth) {forks : List Machine} (ticks steps : Nat)
    (hf : ∀ child ∈ forks, child.IsChild actor) :
    let paused := machine.pause actor ticks around
    Slice.Accounted ⟨paused.1, paused.2.1, paused.2.2, forks, steps⟩ actor around.ledger
      machine.callDepth := by
  unfold pause suspend
  by_cases hl : around.ledger.settings.maxSuspensionsPerActor ≤ around.ledger.suspensionCount actor
  · simp only [hl, if_true]
    have htouch : Exchange actor around.ledger machine.callDepth
        { around.ledger with suspensions := around.ledger.suspensions.touch actor }
        machine.callDepth :=
      ⟨rfl, rfl, rfl, fun _ => ActorCounts.count_touch _ _ _, rfl, rfl, fun _ _ => rfl, id⟩
    have hcovers : ({ around with ledger := { around.ledger with
        suspensions := around.ledger.suspensions.touch actor } } :
          Surroundings σ ρ).ledger.Covers actor machine.callDepth := ⟨hc.calls, hc.depth⟩
    have hclose := exchange_close ho .failure hcovers
    exact Slice.accounted_of_exchange (htouch.trans hclose) rfl hf
  · simp only [hl, if_false]
    refine ⟨⟨ho, nofun, hf⟩, ?_, fun other => ?_, fun _ => Nat.lt_of_not_le hl⟩
    · exact ⟨rfl, rfl, rfl, fun _ => rfl, rfl, rfl, fun _ _ => rfl, id⟩
    · simpa [SliceEnd.isParked, suspensionCount] using
        ActorCounts.count_add around.ledger.suspensions actor other

variable [RandomSource ρ] {table : ActionTable σ ρ}

omit [Host σ] [RandomSource ρ] in
/-- One more machine is split off. -/
theorem isChild_of_append {forks : List Machine} {child : Machine}
    (hf : ∀ child ∈ forks, child.IsChild actor) (hc : child.IsChild actor) :
    ∀ other ∈ forks ++ [child], other.IsChild actor :=
  List.forall_mem_append.2 ⟨hf, List.forall_mem_singleton.2 hc⟩

/-- A slice leaves a machine as it should be. -/
theorem settled_slice (ht : table.Keeps) (limit budget : Nat) {machine : Machine}
    (ho : machine.Owned actor) (around : Surroundings σ ρ) {forks : List Machine}
    (hf : ∀ child ∈ forks, child.IsChild actor) :
    (machine.slice table actor limit budget around forks).Settled actor := by
  induction budget generalizing machine around forks with
  | zero => exact Slice.settled_of_empty rfl hf
  | succ budget ih =>
    have hstep := settled_step ht ho around
    unfold slice
    generalize machine.step table around = stepped at hstep ⊢
    obtain ⟨outcome, after, around'⟩ := stepped
    obtain ⟨howned, hsettles⟩ := hstep
    dsimp only at howned hsettles ⊢
    cases outcome with
    | error error => exact Slice.settled_of_empty hsettles hf
    | ok step =>
      cases step with
      | idle => exact Slice.settled_of_empty hsettles hf
      | terminate result => exact Slice.settled_of_empty hsettles hf
      | normal => exact ih howned around' hf
      | fork child => exact ih howned around' (isChild_of_append hf hsettles)
      | suspend ticks =>
        unfold pause
        dsimp only
        split
        · exact ⟨howned, nofun, hf⟩
        · exact Slice.settled_of_empty rfl hf

/-- A slice is accounted for. -/
theorem accounted_slice (ht : table.Keeps) (limit budget : Nat) {machine : Machine}
    (ho : machine.Owned actor) {around : Surroundings σ ρ}
    (hc : around.ledger.Covers actor machine.callDepth) {forks : List Machine}
    (hf : ∀ child ∈ forks, child.IsChild actor) :
    (machine.slice table actor limit budget around forks).Accounted actor around.ledger
      machine.callDepth := by
  induction budget generalizing machine around forks with
  | zero => exact Slice.accounted_of_exchange (exchange_close ho .failure hc) rfl hf
  | succ budget ih =>
    have hstep := accounted_step ht ho hc
    unfold slice
    generalize machine.step table around = stepped at hstep ⊢
    obtain ⟨outcome, after, around'⟩ := stepped
    obtain ⟨⟨howned, hsettles⟩, hx⟩ := hstep
    have hcovers := hx.covers hc
    dsimp only at hx howned hsettles hcovers ⊢
    cases outcome with
    | error error => exact Slice.accounted_of_exchange hx hsettles hf
    | ok step =>
      cases step with
      | idle => exact Slice.accounted_of_exchange hx hsettles hf
      | terminate result => exact Slice.accounted_of_exchange hx hsettles hf
      | normal => exact (ih howned hcovers hf).after hx
      | suspend ticks => exact (accounted_pause howned hcovers ticks _ hf).after hx
      | fork child => exact (ih howned hcovers (isChild_of_append hf hsettles)).after hx

end Machine

end GridScript
