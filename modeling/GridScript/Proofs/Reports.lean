import GridScript.Proofs.Deeds

/-!
# Reports of deeds

A deed in which a run ends gives the report of that run. Reports that are pending
are touched by two kinds of deeds only: when the tick moves on they are handed out,
and a change of what runs share may come with reports that are to be kept.
-/

namespace GridScript.Engine

variable {σ ρ : Type}

/-- Ending a run leaves the pending reports alone. -/
theorem finish_pending (engine : Engine σ ρ) (key : RunKey)
    (result : Except RunError (Option Value)) :
    (engine.finish key result).2.pending = engine.pending := by
  unfold finish
  split
  · rfl
  · dsimp only
    split <;> rfl

/-- Machines that were split off leave the pending reports alone. -/
theorem adopt_pending (engine : Engine σ ρ) (forks : List Machine) :
    (engine.adopt forks).pending = engine.pending := by
  induction forks generalizing engine with
  | nil => rfl
  | cons machine rest ih =>
    unfold adopt
    split
    · exact ih engine
    · exact ih _

section

variable [Host σ]

/-- Cancelling a run leaves the pending reports alone. -/
theorem cancel_pending (engine : Engine σ ρ) (key : RunKey) (reason : CancelReason) :
    (engine.cancel key reason).2.pending = engine.pending := by
  unfold cancel
  split
  · rfl
  · dsimp only
    rw [finish_pending]
    split <;> rfl

/-- Looking at the deadlines of a run leaves the pending reports alone. -/
theorem expire_pending (engine : Engine σ ρ) (key : RunKey) :
    (engine.expire key).2.pending = engine.pending := by
  unfold expire
  split
  · rfl
  · split
    · rfl
    · exact finish_pending ..

variable [RandomSource ρ]

/-- A slice leaves the pending reports alone. -/
theorem runSlice_pending (engine : Engine σ ρ) (key : RunKey) :
    (engine.runSlice key).2.pending = engine.pending := by
  unfold runSlice
  split
  · rfl
  · unfold conclude
    dsimp only
    split
    · exact adopt_pending ..
    · exact (finish_pending ..).trans (adopt_pending ..)

/-- Taking a run up leaves the pending reports alone. -/
theorem takeUp_pending (engine : Engine σ ρ) (key : RunKey) :
    (engine.takeUp key).2.pending = engine.pending := by
  unfold takeUp
  split
  · rfl
  · dsimp only
    split
    · exact runSlice_pending ..
    · exact cancel_pending ..

/-- A deed that is about a run leaves the pending reports alone. -/
theorem carryOut_pending (engine : Engine σ ρ) {deed : Deed σ ρ} (h : deed.key?.isSome) :
    (engine.carryOut deed).pending = engine.pending := by
  cases deed with
  | launch | serve => exact runSlice_pending ..
  | wake => exact takeUp_pending ..
  | discard => rfl
  | expire => exact expire_pending ..
  | cancel => exact cancel_pending ..
  | advance | forget | adjust => cases h

/-- The report that a deed gives, if a run ends in it. -/
def reportOf? (engine : Engine σ ρ) : Deed σ ρ → Option RunReport
  | .launch key machine actor origin => ((engine.spawn machine actor origin).2.runSlice key).1
  | .serve key => ({ engine with ready := engine.ready.tail }.runSlice key).1
  | .wake due key => ({ engine with sleeping := engine.sleeping.erase due }.takeUp key).1
  | .expire key => (engine.expire key).1
  | .cancel key reason => (engine.cancel key reason).1
  | .discard .. | .advance | .forget | .adjust .. => none

/-- What some deeds in a row give, in order. -/
def gather {α : Type} (engine : Engine σ ρ) (what : Engine σ ρ → Deed σ ρ → Option α) :
    List (Deed σ ρ) → List α
  | [] => []
  | deed :: rest => (what engine deed).toList ++ (engine.carryOut deed).gather what rest

/-- The reports that some deeds in a row give, in order. -/
def reported (engine : Engine σ ρ) (deeds : List (Deed σ ρ)) : List RunReport :=
  engine.gather reportOf? deeds

end

end GridScript.Engine
