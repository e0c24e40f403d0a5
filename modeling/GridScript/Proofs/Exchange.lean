import GridScript.Machine.Step
import GridScript.Proofs.Invocation

/-!
# Calls change hands

A machine holds a unit of its actor's depth and of the number of active calls for
every call on its stack. Each step moves the ledger by exactly the difference
between what the machine held before and what it holds afterwards. The law is
stated without subtraction, so nothing is hidden by counts that stop at zero.
-/

namespace GridScript

namespace Ledger

/-- The ledger moves by what a machine of the actor holds: `held` calls before
and `kept` calls afterwards. Nothing else of it changes but statistics. -/
structure Exchange (actor : Actor) (before : Ledger) (held : Nat) (after : Ledger) (kept : Nat) :
    Prop where
  /-- The limits are the same. -/
  settings : after.settings = before.settings
  /-- The same functions can be called. -/
  functions : after.registry.functions = before.registry.functions
  /-- The number of runs is the same. -/
  activeRuns : after.activeRuns = before.activeRuns
  /-- The numbers of suspended runs are the same. -/
  suspensions : ∀ other, after.suspensionCount other = before.suspensionCount other
  /-- The number of active calls moves along. -/
  calls : after.activeCalls + held = before.activeCalls + kept
  /-- The depth of the actor moves along. -/
  depth : after.callDepth actor + held = before.callDepth actor + kept
  /-- The depths of all others are the same. -/
  others : ∀ other, other ≠ actor → after.callDepth other = before.callDepth other
  /-- The limit on active calls is kept. -/
  limit : before.activeCalls ≤ before.settings.maxActiveCalls →
    after.activeCalls ≤ after.settings.maxActiveCalls

variable {actor : Actor}

namespace Exchange

/-- Nothing changes hands. -/
theorem refl (ledger : Ledger) (held : Nat) : Exchange actor ledger held ledger held :=
  ⟨rfl, rfl, rfl, fun _ => rfl, rfl, rfl, fun _ _ => rfl, id⟩

/-- Two exchanges in a row are one. -/
theorem trans {first second third : Ledger} {a b c : Nat} (h₁ : Exchange actor first a second b)
    (h₂ : Exchange actor second b third c) : Exchange actor first a third c where
  settings := h₂.settings.trans h₁.settings
  functions := h₂.functions.trans h₁.functions
  activeRuns := h₂.activeRuns.trans h₁.activeRuns
  suspensions other := (h₂.suspensions other).trans (h₁.suspensions other)
  calls := by have := h₁.calls; have := h₂.calls; omega
  depth := by have := h₁.depth; have := h₂.depth; omega
  others other ho := (h₂.others other ho).trans (h₁.others other ho)
  limit h := h₂.limit (h₁.limit h)

end Exchange

/-- What a machine holds is covered by the ledger. -/
structure Covers (ledger : Ledger) (actor : Actor) (held : Nat) : Prop where
  /-- The number of active calls is at least that. -/
  calls : held ≤ ledger.activeCalls
  /-- The depth of the actor is at least that. -/
  depth : held ≤ ledger.callDepth actor

/-- What is kept is covered if what was held is. -/
theorem Exchange.covers {before after : Ledger} {held kept : Nat}
    (h : Exchange actor before held after kept) (hc : before.Covers actor held) :
    after.Covers actor kept :=
  ⟨by have := h.calls; have := hc.calls; omega, by have := h.depth; have := hc.depth; omega⟩

/-- Statistics change nothing that is held. -/
theorem exchange_updateTally (ledger : Ledger) (handle : Nat) (change : Tally → Tally)
    (held : Nat) : Exchange actor ledger held (ledger.updateTally handle change) held :=
  ⟨rfl, rfl, rfl, fun _ => rfl, rfl, rfl, fun _ _ => rfl, id⟩

/-- Giving a call back gives one unit back. -/
theorem exchange_leaveCall {ledger : Ledger} {held : Nat} (hc : ledger.Covers actor (held + 1)) :
    Exchange actor ledger (held + 1) (ledger.leaveCall actor) held := by
  have hcalls := hc.calls
  have hdepth := hc.depth
  have hcount (other : Actor) : (ledger.leaveCall actor).callDepth other =
      ledger.callDepth other - if other = actor then 1 else 0 :=
    ActorCounts.count_remove ledger.depths actor other
  have hactive : (ledger.leaveCall actor).activeCalls = ledger.activeCalls - 1 := rfl
  refine ⟨rfl, rfl, rfl, fun _ => rfl, ?_, ?_, ?_, ?_⟩
  · rw [hactive]
    omega
  · rw [hcount, if_pos rfl]
    omega
  · intro other ho
    rw [hcount, if_neg ho]
    omega
  · intro h
    rw [hactive]
    exact Nat.le_trans (Nat.sub_le _ _) h

/-- A call that ends gives its unit back. -/
theorem exchange_release {ledger : Ledger} {call : ActiveCall} {held : Nat}
    (hc : ledger.Covers call.actor (held + 1)) (outcome : CallOutcome) (now : UInt64) :
    Exchange call.actor ledger (held + 1) (ledger.release call outcome now) held := by
  unfold release
  have hcounted : Exchange call.actor ledger (held + 1)
      (ledger.updateTally call.entry.handle (·.finish outcome (call.latencyMs now))) (held + 1) :=
    exchange_updateTally _ _ _ _
  exact hcounted.trans (exchange_leaveCall (hcounted.covers hc))

/-- A call that is accepted takes a unit and is of the actor who asked for it; a
refused one takes nothing. -/
theorem exchange_acquire (ledger : Ledger) (entry : FunctionEntry) (actor : Actor) (now : UInt64)
    (held : Nat) :
    match ledger.acquire entry actor now with
    | (.ok call, after) => call.actor = actor ∧ Exchange actor ledger held after (held + 1)
    | (.error _, after) => Exchange actor ledger held after held := by
  unfold acquire enterCall
  dsimp only
  generalize (entry.definition.maxDepth.map UInt64.toNat).getD ledger.settings.maxCallDepth = maxDepth
  by_cases hd : maxDepth ≤ ledger.callDepth actor
  · simp only [hd, if_true]
    refine ⟨rfl, rfl, rfl, fun _ => rfl, rfl, ?_, ?_, id⟩
    · exact congrArg (· + held) (ActorCounts.count_touch _ _ _)
    · exact fun other _ => ActorCounts.count_touch _ _ _
  · simp only [hd, if_false]
    by_cases hl : ledger.settings.maxActiveCalls ≤ ledger.activeCalls
    · simp only [hl, if_true]
      refine ⟨rfl, rfl, rfl, fun _ => rfl, rfl, ?_, ?_, id⟩
      · exact congrArg (· + held) (ActorCounts.count_prune _ _ _)
      · exact fun other _ => ActorCounts.count_prune _ _ _
    · simp only [hl, if_false]
      have hcount (other : Actor) : (ledger.depths.add actor).count other =
          ledger.callDepth other + if other = actor then 1 else 0 :=
        ActorCounts.count_add ledger.depths actor other
      refine ⟨trivial, rfl, rfl, rfl, fun _ => rfl, ?_, ?_, ?_, ?_⟩
      · change ledger.activeCalls + 1 + held = _
        omega
      · change (ledger.depths.add actor).count actor + held = _
        rw [hcount, if_pos rfl]
        omega
      · intro other ho
        change (ledger.depths.add actor).count other = _
        rw [hcount, if_neg ho]
        omega
      · intro _
        exact Nat.lt_of_not_le hl

end Ledger

namespace Surroundings

open Ledger

variable {σ ρ : Type} [Host σ]

/-- The calls among activations that are all of one actor. -/
def CallsOf (actor : Actor) (activations : List Activation) : Prop :=
  ∀ activation ∈ activations, ∀ pending, activation.call = some pending →
    pending.call.actor = actor

/-- Ending the calls among some activations gives one unit back for each. -/
theorem exchange_releaseAll {actor : Actor} {activations : List Activation}
    (hb : CallsOf actor activations) (outcome : CallOutcome) {around : Surroundings σ ρ}
    {held : Nat}
    (hc : around.ledger.Covers actor (activations.countP (·.call.isSome) + held)) :
    Exchange actor around.ledger (activations.countP (·.call.isSome) + held)
      (around.releaseAll outcome activations).ledger held := by
  induction activations generalizing around with
  | nil => simpa [releaseAll] using Exchange.refl around.ledger held
  | cons activation outer ih =>
    have houter : CallsOf actor outer := fun a ha => hb a (List.mem_cons_of_mem _ ha)
    unfold releaseAll
    cases hcall : activation.call with
    | none =>
      simp only [List.countP_cons, hcall, Option.isSome_none, Bool.false_eq_true, if_false,
        Nat.add_zero] at hc ⊢
      exact ih houter hc
    | some pending =>
      have ha : pending.call.actor = actor := hb activation (by simp) pending hcall
      have hcount : (activation :: outer).countP (·.call.isSome) + held =
          outer.countP (·.call.isSome) + held + 1 := by
        simp only [List.countP_cons, hcall, Option.isSome_some, if_true]
        omega
      rw [hcount] at hc ⊢
      subst ha
      have hone : Exchange pending.call.actor around.ledger _
          (around.release pending.call outcome).ledger _ := exchange_release hc outcome around.now
      have hrest := ih houter (hone.covers hc)
      exact hone.trans hrest

end Surroundings

end GridScript
