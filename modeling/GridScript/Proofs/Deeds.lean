import GridScript.Proofs.Frames
import GridScript.Proofs.Operations

/-!
# Deeds

Whatever an engine does consists of a few kinds of deeds: a run is started, served
or taken up and executes a slice, a run ends for a reason that lies outside of it,
or the tick moves on. Everything else changes only what runs share. Each deed is an
application of the engine's own functions; this module says what each of them does
to the runs, the queue, the sleeping entries and the journal.
-/

namespace GridScript

open Journal

/-- Something an engine does at one go. -/
inductive Deed (σ ρ : Type) where
  /-- A run is started and executes its first slice. -/
  | launch (key : RunKey) (machine : Machine) (actor : Actor) (origin : Place)
  /-- The first run of the queue executes its first slice. -/
  | serve (key : RunKey)
  /-- The run that is due first is taken up. -/
  | wake (due : Due) (key : RunKey)
  /-- The first sleeping entry leads nowhere and is dropped. -/
  | discard (due : Due) (key : RunKey)
  /-- A run fails because a call of it is past its deadline. -/
  | expire (key : RunKey)
  /-- A run is cancelled. -/
  | cancel (key : RunKey) (reason : CancelReason)
  /-- The tick moves on, and the pending reports are handed out. -/
  | advance
  /-- The queue and the sleeping entries are given up. -/
  | forget
  /-- What runs share changes, or the reports that are pending. -/
  | adjust (around : Surroundings σ ρ) (catalogue : Catalogue) (cache : ProgramCache)
    (ids : IdSource) (pending : List RunReport)

namespace Deed

variable {σ ρ : Type}

/-- The run a deed is about. -/
def key? : Deed σ ρ → Option RunKey
  | .launch key _ _ _ | .serve key | .wake _ key | .discard _ key | .expire key | .cancel key _ =>
    some key
  | .advance | .forget | .adjust .. => none

/-- The sleeping entry a deed removes. -/
def due? : Deed σ ρ → Option Due
  | .wake due _ | .discard due _ => some due
  | _ => none

/-- The run a deed takes out of the queue. -/
def served? : Deed σ ρ → Option RunKey
  | .serve key => some key
  | _ => none

/-- The run a deed starts. -/
def launched? : Deed σ ρ → Option RunKey
  | .launch key _ _ _ => some key
  | _ => none

/-- Whether a deed moves the tick on. -/
def isAdvance : Deed σ ρ → Bool
  | .advance => true
  | _ => false

end Deed

namespace Engine

variable {σ ρ : Type} [Host σ] [RandomSource ρ]

/-- The engine after a deed. -/
def carryOut (engine : Engine σ ρ) : Deed σ ρ → Engine σ ρ
  | .launch key machine actor origin => ((engine.spawn machine actor origin).2.runSlice key).2
  | .serve key => ({ engine with ready := engine.ready.tail }.runSlice key).2
  | .wake due key => ({ engine with sleeping := engine.sleeping.erase due }.takeUp key).2
  | .discard due _ => { engine with sleeping := engine.sleeping.erase due }
  | .expire key => (engine.expire key).2
  | .cancel key reason => (engine.cancel key reason).2
  | .advance => { engine with tick := engine.tick + 1, pending := [] }
  | .forget => { engine with sleeping := .empty, ready := [] }
  | .adjust around catalogue cache ids pending =>
    { engine with around, catalogue, cache, ids, pending }

/-- Whether a deed is one the engine can do next. -/
def Admits (engine : Engine σ ρ) : Deed σ ρ → Prop
  | .launch key machine actor origin => (engine.spawn machine actor origin).1 = key
  | .serve key => engine.ready.head? = some key
  | .wake due key => engine.firstDue? = some (due, key) ∧ (engine.runs.get? key).isSome
  | .discard due key => engine.firstDue? = some (due, key) ∧ engine.runs.get? key = none
  | .expire key => (engine.expire key).1.isSome ∧ key ∉ engine.ready
  | .cancel key reason => key ∉ engine.ready ∧ ∃ run, engine.runs.get? key = some run ∧
    ∀ actor, reason = .disconnected actor → run.actor = actor
  | .forget => ∀ key, engine.runs.get? key = none
  | .advance | .adjust .. => True

/-- For how many ticks a run is parked by its next slice, if it is. -/
def wait? (engine : Engine σ ρ) (key : RunKey) : Option Nat :=
  (engine.runs.get? key).bind fun run =>
    match (engine.sliceOf run).ending with
    | .parked ticks => some ticks
    | .done _ => none

/-- The run that executes a slice in a deed, and the engine right before that. A
run that is taken up does so if its actor is connected. -/
def staging? (engine : Engine σ ρ) : Deed σ ρ → Option (RunKey × Engine σ ρ)
  | .launch key machine actor origin => some (key, (engine.spawn machine actor origin).2)
  | .serve key => some (key, { engine with ready := engine.ready.tail })
  | .wake due key =>
    (engine.runs.get? key).bind fun run =>
      let woken := { engine with sleeping := engine.sleeping.erase due }.unpark key run
      if Host.isConnected woken.around.host run.actor then
        some (key, woken.record (.resumed key woken.tick))
      else none
  | _ => none

/-- The run that is parked in a deed, and for how many ticks. -/
def parked? (engine : Engine σ ρ) (deed : Deed σ ρ) : Option (RunKey × Nat) :=
  (engine.staging? deed).bind fun (key, staged) => (staged.wait? key).map (key, ·)

end Engine

namespace Machine

variable {σ ρ : Type} [Host σ] [RandomSource ρ] {table : ActionTable σ ρ}

omit [RandomSource ρ] in
/-- The end of an activation is no wait. -/
theorem finish_ne_suspend (machine : Machine) (top : Activation) (callers : List Activation)
    (around : Surroundings σ ρ) (ticks : Nat) :
    (machine.finish top callers around).outcome ≠ .ok (.suspend ticks) := by
  unfold finish
  cases top.call with
  | none => nofun
  | some pending => cases callers <;> nofun

omit [RandomSource ρ] in
/-- A call is no wait. -/
theorem call_ne_suspend (machine : Machine) (context : Context) (request : CallRequest)
    (around : Surroundings σ ρ) (ticks : Nat) :
    (machine.call context request around).outcome ≠ .ok (.suspend ticks) := by
  unfold call
  split
  · nofun
  · split
    · nofun
    · split <;> nofun

/-- A step that asks for a wait asks for at least one tick. -/
theorem step_suspend (hp : table.Paced) {machine : Machine} {around : Surroundings σ ρ}
    {ticks : Nat} (h : (machine.step table around).outcome = .ok (.suspend ticks)) :
    0 < ticks := by
  unfold step at h
  split at h
  · cases h
  · split at h
    · cases h
    · unfold advance at h
      split at h
      · cases h
      · split at h
        · exact absurd h (finish_ne_suspend _ _ _ _ _)
        · dsimp only at h
          split at h
          · cases h
          · rename_i asked heffect
            cases h
            exact Stage.advance_suspend hp heffect
          · cases h
          · cases h
          · exact absurd h (call_ne_suspend _ _ _ _ _)

/-- A slice that ends with a wait waits for at least one tick. -/
theorem slice_parked (hp : table.Paced) {actor : Actor} {limit budget ticks : Nat}
    {machine : Machine} {around : Surroundings σ ρ} {forks : List Machine}
    (h : (machine.slice table actor limit budget around forks).ending = .parked ticks) :
    0 < ticks := by
  induction budget generalizing machine around forks with
  | zero => cases h
  | succ budget ih =>
    unfold slice at h
    dsimp only at h
    split at h
    · exact ih h
    · exact ih h
    · cases h
    · cases h
    · rename_i asked hstep
      unfold pause at h
      dsimp only at h
      split at h
      · cases h
        exact step_suspend hp hstep
      · cases h
    · cases h

end Machine

namespace Engine

variable {σ ρ : Type} [Host σ] [RandomSource ρ] {engine : Engine σ ρ} {deed : Deed σ ρ}

omit [RandomSource ρ] in
/-- What leads up to a slice leaves the actions alone. -/
theorem staging?_actions {key : RunKey} {staged : Engine σ ρ}
    (h : engine.staging? deed = some (key, staged)) : staged.actions = engine.actions := by
  cases deed with
  | launch | serve =>
    cases h
    rfl
  | wake due first =>
    obtain ⟨run, -, h⟩ := Option.bind_eq_some_iff.1 h
    dsimp only at h
    split at h
    · cases h
      rfl
    · cases h
  | discard | expire | cancel | advance | forget | adjust => cases h

/-- A run that is parked waits for at least one tick. -/
theorem parked?_pos (hp : engine.actions.Paced) {key : RunKey} {ticks : Nat}
    (h : engine.parked? deed = some (key, ticks)) : 0 < ticks := by
  obtain ⟨⟨first, staged⟩, hstaging, hparked⟩ := Option.bind_eq_some_iff.1 h
  obtain ⟨asked, hwait, heq⟩ := Option.map_eq_some_iff.1 hparked
  cases heq
  obtain ⟨run, -, hending⟩ := Option.bind_eq_some_iff.1 hwait
  have hactions := staging?_actions hstaging
  split at hending
  · rename_i found hslice
    cases hending
    refine Machine.slice_parked ?_ hslice
    rw [hactions]
    exact hp
  · cases hending

end Engine

namespace Engine

variable {σ ρ : Type}

/-- Runs, queue, sleeping entries and journal of an engine fit together while the
given runs are being executed. Nothing is said about what runs share. -/
structure InOrder (engine : Engine σ ρ) (running : List RunKey) : Prop where
  /-- The slots are in order. -/
  tidy : engine.runs.Tidy
  /-- The journal accounts for the runs. -/
  chronicle : Chronicle engine.runs engine.journal
  /-- Runs are parked in the order of their numbers. -/
  fresh : ∀ entry ∈ engine.sleeping.entries, entry.1.sequence < engine.sequence
  /-- Every run is either awake or asleep. -/
  scheduled : Unworn engine.journal → Scheduled engine.runs engine.sleeping
    (running ++ engine.ready) engine.sequence engine.journal

namespace InOrder

variable {engine after : Engine σ ρ} {running others : List RunKey} {key : RunKey} {run : Run}

/-- What does not concern runs keeps them in order. -/
theorem congr (h : engine.InOrder running) (hr : after.runs = engine.runs)
    (hs : after.sleeping = engine.sleeping) (hd : after.ready = engine.ready)
    (hq : after.sequence = engine.sequence) (hj : after.journal = engine.journal) :
    after.InOrder running where
  tidy := hr ▸ h.tidy
  chronicle := by
    rw [hr, hj]
    exact h.chronicle
  fresh := by
    rw [hs, hq]
    exact h.fresh
  scheduled hu := by
    rw [hr, hs, hd, hq, hj]
    exact h.scheduled (hj ▸ hu)

/-- Something is noted about a run under way. -/
theorem event (h : engine.InOrder running) {event : RunEvent} (hs : event.started? = none)
    (he : event.ended? = none) (hk : engine.runs.get? event.key = some run) :
    (engine.record event).InOrder running where
  tidy := h.tidy
  chronicle := h.chronicle.event hs he hk
  fresh := h.fresh
  scheduled hu := (h.scheduled (hu.of_append [event])).append [event]

/-- A run is started. -/
theorem spawn (h : engine.InOrder running) (machine : Machine) (actor : Actor) (origin : Place) :
    (engine.spawn machine actor origin).2.InOrder
      ((engine.spawn machine actor origin).1 :: running) where
  tidy := SlotMap.tidy_insert h.tidy _
  chronicle := h.chronicle.insert h.tidy _
  fresh := h.fresh
  scheduled hu := by
    have hu' : Unworn engine.journal := hu
    exact ((h.scheduled hu').insert h.tidy h.chronicle.stamped hu' rfl).append [.started _]

/-- A run is put back after a slice. -/
theorem afterSlice (h : engine.InOrder running) (hk : engine.runs.get? key = some run)
    (slice : Slice σ ρ) : (engine.afterSlice key run slice).InOrder running where
  tidy := SlotMap.tidy_set h.tidy _ _
  chronicle := by
    have hget := (SlotMap.get?_set hk (run.afterSlice slice) key).trans (if_pos rfl)
    exact (h.chronicle.set hk _).event rfl rfl hget
  fresh := h.fresh
  scheduled hu := by
    have hput : Scheduled (engine.runs.set key (run.afterSlice slice)) engine.sleeping
        (running ++ engine.ready) engine.sequence engine.journal :=
      (h.scheduled (hu.of_append [_])).set hk rfl
    exact hput.append [.executed key engine.tick slice.steps]

/-- A run ends. -/
theorem erase (h : engine.InOrder running) (hk : engine.runs.get? key = some run)
    (ho : Unworn engine.journal → (running ++ engine.ready).erase key = others ++ engine.ready)
    (hr : after.runs = engine.runs.erase key) (hs : after.sleeping = engine.sleeping)
    (hd : after.ready = engine.ready) (hq : after.sequence = engine.sequence)
    (hj : after.journal = .ended key :: engine.journal) : after.InOrder others where
  tidy := hr ▸ SlotMap.tidy_erase h.tidy _
  chronicle := by
    rw [hr, hj]
    exact h.chronicle.erase hk
  fresh := by
    rw [hs, hq]
    exact h.fresh
  scheduled hu := by
    rw [hj] at hu
    have hu' : Unworn engine.journal := hu.of_append [.ended key]
    rw [hr, hs, hd, hq, hj, ← ho hu']
    exact (h.scheduled hu').erase h.chronicle.stamped hu' hk

/-- A run that is awake is parked with the next number. -/
theorem park (h : engine.InOrder (key :: running)) (hk : engine.runs.get? key = some run)
    (next : Run) (ticks : Nat) : (engine.park key next ticks).InOrder running where
  tidy := SlotMap.tidy_set h.tidy _ _
  chronicle := by
    have hget := (SlotMap.get?_set hk { next with parked := true } key).trans (if_pos rfl)
    exact (h.chronicle.set hk _).event rfl rfl hget
  fresh entry hm := by
    rcases List.mem_cons.1 ((entries_insert_perm h.fresh _ key).mem_iff.1 hm) with rfl | hm
    · exact Nat.lt_succ_self _
    · exact Nat.lt_succ_of_lt (h.fresh entry hm)
  scheduled hu := ((h.scheduled (hu.of_append [_])).park rfl _).append [_]

/-- The run whose entry comes first wakes up. -/
theorem wake (h : engine.InOrder []) {due : Due} {rest : List (Due × RunKey)}
    (he : engine.sleeping.entries = (due, key) :: rest) (hk : engine.runs.get? key = some run) :
    (({ engine with sleeping := engine.sleeping.erase due } : Engine σ ρ).unpark key run).InOrder
      [key] where
  tidy := SlotMap.tidy_set h.tidy _ _
  chronicle := h.chronicle.set hk _
  fresh entry hm := h.fresh entry ((Scheduled.sleepers_erase he).2 entry hm)
  scheduled hu := (h.scheduled hu).wake he hk rfl

/-- An entry that comes first and leads nowhere is dropped. -/
theorem drop (h : engine.InOrder []) {due : Due} {rest : List (Due × RunKey)}
    (he : engine.sleeping.entries = (due, key) :: rest) (hk : engine.runs.get? key = none) :
    ({ engine with sleeping := engine.sleeping.erase due } : Engine σ ρ).InOrder [] where
  tidy := h.tidy
  chronicle := h.chronicle
  fresh entry hm := h.fresh entry ((Scheduled.sleepers_erase he).2 entry hm)
  scheduled hu := (h.scheduled hu).drop he hk

/-- The first run of the queue is taken out to be executed. -/
theorem pop (h : engine.InOrder []) (hr : engine.ready.head? = some key) :
    ({ engine with ready := engine.ready.tail } : Engine σ ρ).InOrder [key] := by
  refine ⟨h.tidy, h.chronicle, h.fresh, fun hu => ?_⟩
  have hscheduled := h.scheduled hu
  rw [List.eq_cons_of_mem_head? hr] at hscheduled
  exact hscheduled

end InOrder

/-- Runs were started and put at the end of the queue. -/
structure Enlarged (before : Engine σ ρ) (fresh : List RunKey) (after : Engine σ ρ) : Prop where
  /-- The runs that were there stay as they are. -/
  kept : ∀ key run, before.runs.get? key = some run → after.runs.get? key = some run
  /-- The new runs are at the end of the queue. -/
  ready : after.ready = before.ready ++ fresh
  /-- They were started in that order. -/
  starts : starts after.journal = fresh.reverse ++ starts before.journal
  /-- The journal is continued. -/
  journal : before.journal <:+ after.journal
  /-- The sleeping entries are the same. -/
  sleeping : after.sleeping = before.sleeping
  /-- The number of runs that were parked is the same. -/
  sequence : after.sequence = before.sequence
  /-- The tick is the same. -/
  tick : after.tick = before.tick
  /-- The actions are the same. -/
  actions : after.actions = before.actions

namespace Enlarged

/-- Nothing was started. -/
theorem refl (engine : Engine σ ρ) : Enlarged engine [] engine :=
  ⟨fun _ _ h => h, (List.append_nil _).symm, rfl, List.suffix_rfl, rfl, rfl, rfl, rfl⟩

/-- What is started in two goes is started. -/
theorem trans {first second third : Engine σ ρ} {fresh more : List RunKey}
    (h₁ : Enlarged first fresh second) (h₂ : Enlarged second more third) :
    Enlarged first (fresh ++ more) third := by
  refine ⟨fun key run h => h₂.kept key run (h₁.kept key run h), ?_, ?_,
    h₁.journal.trans h₂.journal, h₂.sleeping.trans h₁.sleeping,
    h₂.sequence.trans h₁.sequence, h₂.tick.trans h₁.tick, h₂.actions.trans h₁.actions⟩
  · rw [h₂.ready, h₁.ready, List.append_assoc]
  · rw [h₂.starts, h₁.starts, List.reverse_append, List.append_assoc]

end Enlarged

/-- A run is started and put into the queue. -/
theorem InOrder.queue {engine : Engine σ ρ} {running : List RunKey} (h : engine.InOrder running)
    (machine : Machine) (actor : Actor) (origin : Place) :
    let (key, started) := engine.spawn machine actor origin
    let queued := { started with ready := started.ready ++ [key] }
    queued.InOrder running ∧ Enlarged engine [key] queued := by
  have hstarted := h.spawn machine actor origin
  refine ⟨⟨hstarted.tidy, hstarted.chronicle, hstarted.fresh, fun hu => ?_⟩,
    get?_spawn h.tidy machine actor origin, rfl, rfl, List.suffix_cons .., rfl, rfl, rfl, rfl⟩
  refine (hstarted.scheduled hu).perm ?_
  rw [← List.append_assoc]
  exact List.perm_append_comm

/-- Machines that were split off become runs at the end of the queue, in order. -/
theorem InOrder.adopt {engine : Engine σ ρ} {running : List RunKey} (h : engine.InOrder running)
    (forks : List Machine) :
    (engine.adopt forks).InOrder running ∧ ∃ fresh, Enlarged engine fresh (engine.adopt forks) := by
  induction forks generalizing engine with
  | nil => exact ⟨h, [], .refl engine⟩
  | cons machine rest ih =>
    unfold Engine.adopt
    cases hcontext : machine.context? with
    | none => exact ih h
    | some context =>
      obtain ⟨hqueued, hfirst⟩ := h.queue machine context.actor context.origin
      obtain ⟨hall, fresh, hrest⟩ := ih hqueued
      exact ⟨hall, _, hfirst.trans hrest⟩

/-- What is undisturbed twice is undisturbed. -/
theorem Undisturbed.trans {first second third : Engine σ ρ} (h₁ : Undisturbed first second)
    (h₂ : Undisturbed second third) : Undisturbed first third :=
  ⟨h₂.sleeping.trans h₁.sleeping, h₂.ready.trans h₁.ready, h₂.pending.trans h₁.pending,
    h₂.sequence.trans h₁.sequence, h₂.tick.trans h₁.tick, h₂.actions.trans h₁.actions⟩

/-- A run has ended and nothing else happened to runs. -/
structure Dismissed (before : Engine σ ρ) (key : RunKey) (after : Engine σ ρ) : Prop extends
    Undisturbed before after where
  /-- The run is gone. -/
  runs : after.runs = before.runs.erase key
  /-- Its end is in the journal. -/
  journal : after.journal = .ended key :: before.journal

/-- A run that ends after a change of it alone is gone. -/
theorem dismissed_finish {engine middle : Engine σ ρ} {key : RunKey} {run : Run}
    (hk : engine.runs.get? key = some run) (hr : ∃ next, middle.runs = engine.runs.set key next)
    (hj : middle.journal = engine.journal) (hq : Undisturbed engine middle)
    (result : Except RunError (Option Value)) :
    Dismissed engine key (middle.finish key result).2 := by
  obtain ⟨next, hr⟩ := hr
  have hput : middle.runs.get? key = some next := by
    rw [hr, SlotMap.get?_set hk, if_pos rfl]
  obtain ⟨-, hruns, hjournal, -, hquiet⟩ := finish_of_get? hput result
  refine ⟨hq.trans hquiet, ?_, ?_⟩
  · rw [hruns, hr, SlotMap.erase_set hk]
  · rw [hjournal, hj]

/-- A run that ended leaves the others in order. -/
theorem InOrder.dismiss {engine after : Engine σ ρ} {running others : List RunKey}
    {key : RunKey} (h : engine.InOrder running) (hk : (engine.runs.get? key).isSome)
    (hd : Dismissed engine key after)
    (ho : Unworn engine.journal → (running ++ engine.ready).erase key = others ++ engine.ready) :
    after.InOrder others := by
  obtain ⟨run, hk⟩ := Option.isSome_iff_exists.1 hk
  exact h.erase hk ho hd.runs hd.sleeping hd.ready hd.sequence hd.journal

variable [Host σ]

/-- A run that is cancelled is gone. -/
theorem dismissed_cancel {engine : Engine σ ρ} {key : RunKey} {run : Run}
    (hk : engine.runs.get? key = some run) (reason : CancelReason) :
    Dismissed engine key (engine.cancel key reason).2 := by
  unfold cancel
  rw [hk]
  dsimp only
  split
  · refine dismissed_finish hk ?_ ?_ ?_ _
    · exact ⟨_, SlotMap.set_set hk _ _⟩
    · rfl
    · exact ⟨rfl, rfl, rfl, rfl, rfl, rfl⟩
  · refine dismissed_finish hk ?_ ?_ ?_ _
    · exact ⟨_, rfl⟩
    · rfl
    · exact ⟨rfl, rfl, rfl, rfl, rfl, rfl⟩

/-- A run that fails because it is late was there and is gone. -/
theorem dismissed_expire {engine : Engine σ ρ} {key : RunKey}
    (h : (engine.expire key).1.isSome) :
    (engine.runs.get? key).isSome ∧ Dismissed engine key (engine.expire key).2 := by
  unfold expire at h ⊢
  cases hk : engine.runs.get? key with
  | none =>
    rw [hk] at h
    cases h
  | some run =>
    rw [hk] at h
    dsimp only at h ⊢
    refine ⟨rfl, ?_⟩
    split
    · rename_i heq
      rw [heq] at h
      cases h
    · refine dismissed_finish hk ?_ ?_ ?_ _
      · exact ⟨_, rfl⟩
      · rfl
      · exact ⟨rfl, rfl, rfl, rfl, rfl, rfl⟩

variable [RandomSource ρ]

/-- A run has executed a slice. -/
structure Executed (before : Engine σ ρ) (key : RunKey) (after : Engine σ ρ) : Prop where
  /-- The other runs stay as they are. -/
  kept : ∀ other run, other ≠ key → before.runs.get? other = some run →
    after.runs.get? other = some run
  /-- The runs it split off are at the end of the queue in the order they were
  started. -/
  queue : ∃ fresh, after.ready = before.ready ++ fresh ∧
    starts after.journal = fresh.reverse ++ starts before.journal
  /-- The journal is continued. -/
  journal : before.journal <:+ after.journal
  /-- The tick is the same. -/
  tick : after.tick = before.tick
  /-- The actions are the same. -/
  actions : after.actions = before.actions
  /-- A run that waits is parked with the next number. -/
  parked : ∀ ticks, before.wait? key = some ticks →
    after.sequence = before.sequence + 1 ∧
    after.sleeping = before.sleeping.insert ⟨dueTick before.tick ticks, before.sequence⟩ key ∧
    ∃ run, after.runs.get? key = some run ∧ run.parked = true
  /-- A run that does not wait changes nothing about those that sleep. -/
  unparked : before.wait? key = none →
    after.sequence = before.sequence ∧ after.sleeping = before.sleeping

/-- What a slice leads to. -/
theorem InOrder.conclude {engine : Engine σ ρ} {key : RunKey} {run : Run}
    (h : engine.InOrder [key]) (hk : engine.runs.get? key = some run) :
    (engine.conclude key run (engine.sliceOf run)).2.InOrder [] ∧
      Executed engine key (engine.conclude key run (engine.sliceOf run)).2 := by
  have hwait : engine.wait? key = match (engine.sliceOf run).ending with
      | .parked ticks => some ticks
      | .done _ => none := by
    rw [wait?, hk]
    rfl
  generalize engine.sliceOf run = slice at hwait ⊢
  have hput : (engine.afterSlice key run slice).runs.get? key = some (run.afterSlice slice) :=
    (SlotMap.get?_set hk _ key).trans (if_pos rfl)
  have hexecuted := h.afterSlice hk slice
  unfold Engine.conclude
  cases hending : slice.ending with
  | parked ticks =>
    rw [hending] at hwait
    have hparked := hexecuted.park hput (run.afterSlice slice) ticks
    obtain ⟨hall, fresh, henlarged⟩ := hparked.adopt slice.forks
    have hruns (other : RunKey) :
        ((engine.afterSlice key run slice).park key (run.afterSlice slice) ticks).runs.get? other =
          if other = key then some { run.afterSlice slice with parked := true }
          else engine.runs.get? other := by
      rw [← SlotMap.get?_set hk]
      exact congrArg (·.get? other) (SlotMap.set_set hk _ _)
    refine ⟨hall, ⟨fun other found hne ho => ?_, ⟨fresh, henlarged.ready, henlarged.starts⟩,
      ((List.suffix_cons _ _).trans (List.suffix_cons _ _)).trans henlarged.journal,
      henlarged.tick, henlarged.actions, fun other ho => ?_, fun hnone => ?_⟩⟩
    · refine henlarged.kept other found ?_
      rw [hruns, if_neg hne, ho]
    · obtain rfl : ticks = other := Option.some.inj (hwait.symm.trans ho)
      refine ⟨henlarged.sequence, henlarged.sleeping, { run.afterSlice slice with parked := true },
        henlarged.kept key _ ?_, rfl⟩
      rw [hruns, if_pos rfl]
    · cases hwait.symm.trans hnone
  | done result =>
    rw [hending] at hwait
    obtain ⟨hall, fresh, henlarged⟩ := hexecuted.adopt slice.forks
    have hget := henlarged.kept key _ hput
    have hdismissed := dismissed_finish hget ⟨_, (SlotMap.set_self hget).symm⟩ rfl
      ⟨rfl, rfl, rfl, rfl, rfl, rfl⟩ result
    refine ⟨hall.dismiss (hget ▸ rfl) hdismissed fun _ => List.erase_cons_head ..,
      ⟨fun other found hne ho => ?_, ⟨fresh, hdismissed.ready.trans henlarged.ready, ?_⟩, ?_,
      hdismissed.tick.trans henlarged.tick, hdismissed.actions.trans henlarged.actions,
      fun other ho => ?_, fun _ => ?_⟩⟩
    · have hstill := henlarged.kept other found
        (((SlotMap.get?_set hk _ other).trans (if_neg hne)).trans ho)
      dsimp only
      rw [hdismissed.runs, SlotMap.get?_erase, if_neg hne, hstill]
    · dsimp only
      rw [hdismissed.journal, starts_cons rfl, henlarged.starts]
      rfl
    · dsimp only
      rw [hdismissed.journal]
      exact ((List.suffix_cons _ _).trans henlarged.journal).trans (List.suffix_cons _ _)
    · cases hwait.symm.trans ho
    · exact ⟨hdismissed.sequence.trans henlarged.sequence,
        hdismissed.sleeping.trans henlarged.sleeping⟩

/-- A run that is being executed gets its slice. -/
theorem InOrder.runSlice {engine : Engine σ ρ} {key : RunKey} (h : engine.InOrder [key]) :
    (engine.runSlice key).2.InOrder [] ∧ Executed engine key (engine.runSlice key).2 := by
  unfold Engine.runSlice
  cases hk : engine.runs.get? key with
  | some run => exact h.conclude hk
  | none =>
    have hwait : engine.wait? key = none := by
      rw [wait?, hk]
      rfl
    refine ⟨⟨h.tidy, h.chronicle, h.fresh, fun hu => ?_⟩, fun _ _ _ ho => ho,
      ⟨[], (List.append_nil _).symm, rfl⟩, List.suffix_rfl, rfl, rfl, fun ticks ho => ?_,
      fun _ => ⟨rfl, rfl⟩⟩
    · obtain ⟨run, hr, -⟩ := ((h.scheduled hu).awake key).1 (by simp)
      rw [hk] at hr
      cases hr
    · cases hwait.symm.trans ho

/-- The sleeping entries that a deed leaves. -/
def stillSleeping (engine : Engine σ ρ) : Deed σ ρ → SortedMap Due RunKey
  | .wake due _ | .discard due _ => engine.sleeping.erase due
  | .forget => .empty
  | _ => engine.sleeping

/-- The queue that a deed leaves. -/
def stillReady (engine : Engine σ ρ) : Deed σ ρ → List RunKey
  | .serve _ => engine.ready.tail
  | .forget => []
  | _ => engine.ready

/-- What a deed does. -/
structure Outcome (before : Engine σ ρ) (deed : Deed σ ρ) (after : Engine σ ρ) : Prop where
  /-- Everything stays in order. -/
  inOrder : after.InOrder []
  /-- Runs the deed is not about stay as they are. -/
  kept : ∀ key run, deed.key? ≠ some key → before.runs.get? key = some run →
    after.runs.get? key = some run
  /-- Runs that are split off are put at the end of the queue in the order they are
  started. -/
  queue : ∃ fresh, after.ready = before.stillReady deed ++ fresh ∧
    starts after.journal = fresh.reverse ++ (deed.launched?.toList ++ starts before.journal)
  /-- The journal is continued. -/
  journal : before.journal <:+ after.journal
  /-- The tick moves on if the deed says so. -/
  tick : after.tick = if deed.isAdvance then before.tick + 1 else before.tick
  /-- The actions are the same. -/
  actions : after.actions = before.actions
  /-- A run that waits is parked with the next number. -/
  parked : ∀ key ticks, before.parked? deed = some (key, ticks) →
    deed.key? = some key ∧ after.sequence = before.sequence + 1 ∧
    after.sleeping = (before.stillSleeping deed).insert
      ⟨dueTick before.tick ticks, before.sequence⟩ key ∧
    ∃ run, after.runs.get? key = some run ∧ run.parked = true
  /-- Nothing is parked otherwise. -/
  unparked : before.parked? deed = none →
    after.sequence = before.sequence ∧ after.sleeping = before.stillSleeping deed

/-- The engine right before the slice that a deed gives to a run. -/
structure Staged (before : Engine σ ρ) (deed : Deed σ ρ) (key : RunKey) (staged : Engine σ ρ) :
    Prop where
  /-- The run is being executed, and all others are in order. -/
  inOrder : staged.InOrder [key]
  /-- The slice completes the deed. -/
  carryOut : before.carryOut deed = (staged.runSlice key).2
  /-- The deed is about the run. -/
  about : deed.key? = some key
  /-- The tick does not move. -/
  calm : deed.isAdvance = false
  /-- The other runs stay as they are. -/
  kept : ∀ other run, other ≠ key → before.runs.get? other = some run →
    staged.runs.get? other = some run
  /-- The queue is without the run. -/
  ready : staged.ready = before.stillReady deed
  /-- If the run is a new one it was started. -/
  starts : starts staged.journal = deed.launched?.toList ++ starts before.journal
  /-- The journal is continued. -/
  journal : before.journal <:+ staged.journal
  /-- The sleeping entries are without the one of the run. -/
  sleeping : staged.sleeping = before.stillSleeping deed
  /-- The number of runs that were parked is the same. -/
  sequence : staged.sequence = before.sequence
  /-- The tick is the same. -/
  tick : staged.tick = before.tick
  /-- The actions are the same. -/
  actions : staged.actions = before.actions

/-- A slice completes what led up to it. -/
theorem Staged.outcome {engine staged : Engine σ ρ} {deed : Deed σ ρ} {key : RunKey}
    (h : Staged engine deed key staged) (hs : engine.staging? deed = some (key, staged)) :
    Outcome engine deed (engine.carryOut deed) := by
  obtain ⟨hinOrder, hexecuted⟩ := h.inOrder.runSlice
  have hparked : engine.parked? deed = (staged.wait? key).map (key, ·) := by
    rw [parked?, hs]
    rfl
  obtain ⟨fresh, hready, hstarts⟩ := hexecuted.queue
  rw [h.carryOut]
  refine ⟨hinOrder, fun other run hne ho => ?_, ⟨fresh, ?_, ?_⟩,
    h.journal.trans hexecuted.journal, ?_, hexecuted.actions.trans h.actions,
    fun other ticks ho => ?_, fun hnone => ?_⟩
  · rw [h.about] at hne
    have hne' : other ≠ key := fun heq => hne (congrArg some heq.symm)
    exact hexecuted.kept other run hne' (h.kept other run hne' ho)
  · rw [hready, h.ready]
  · rw [hstarts, h.starts]
  · rw [hexecuted.tick, h.tick, h.calm]
    rfl
  · rw [hparked] at ho
    obtain ⟨ticks', hwait, heq⟩ := Option.map_eq_some_iff.1 ho
    obtain ⟨rfl, rfl⟩ := Prod.mk.inj heq
    obtain ⟨hsequence, hsleeping, hrun⟩ := hexecuted.parked _ hwait
    refine ⟨h.about, ?_, ?_, hrun⟩
    · rw [hsequence, h.sequence]
    · rw [hsleeping, h.sleeping, h.sequence, h.tick]
  · rw [hparked] at hnone
    obtain ⟨hsequence, hsleeping⟩ := hexecuted.unparked (Option.map_eq_none_iff.1 hnone)
    exact ⟨hsequence.trans h.sequence, hsleeping.trans h.sleeping⟩

/-- Whatever leads up to a slice keeps everything in order. -/
theorem InOrder.staged {engine staged : Engine σ ρ} {deed : Deed σ ρ} {key : RunKey}
    (h : engine.InOrder []) (ha : engine.Admits deed)
    (hs : engine.staging? deed = some (key, staged)) : Staged engine deed key staged := by
  cases deed with
  | launch new machine actor origin =>
    obtain ⟨rfl, rfl⟩ := Prod.mk.inj (Option.some.inj hs)
    obtain rfl := ha
    exact ⟨h.spawn machine actor origin, rfl, rfl, rfl,
      fun other run _ => get?_spawn h.tidy machine actor origin other run, rfl, rfl,
      List.suffix_cons .., rfl, rfl, rfl, rfl⟩
  | serve first =>
    obtain ⟨rfl, rfl⟩ := Prod.mk.inj (Option.some.inj hs)
    exact ⟨h.pop ha, rfl, rfl, rfl, fun _ _ _ ho => ho, rfl, rfl, List.suffix_rfl, rfl, rfl, rfl,
      rfl⟩
  | wake due first =>
    obtain ⟨⟨rest, hentries⟩, -⟩ := entries_of_firstDue? ha.1
    obtain ⟨run, hk, hs⟩ := Option.bind_eq_some_iff.1 hs
    dsimp only at hs
    split at hs
    · rename_i hconnected
      obtain ⟨rfl, rfl⟩ := Prod.mk.inj (Option.some.inj hs)
      have hput : (({ engine with sleeping := engine.sleeping.erase due } : Engine σ ρ).unpark
          first run).runs.get? first = some { run with parked := false } :=
        (SlotMap.get?_set hk _ first).trans (if_pos rfl)
      refine ⟨(h.wake hentries hk).event rfl rfl hput, ?_, rfl, rfl, fun other found hne ho => ?_,
        rfl, rfl, List.suffix_cons .., rfl, rfl, rfl, rfl⟩
      · rw [Engine.carryOut, takeUp]
        dsimp only
        rw [hk]
        dsimp only
        rw [if_pos hconnected]
      · exact ((SlotMap.get?_set hk _ other).trans (if_neg hne)).trans ho
    · cases hs
  | discard | expire | cancel | advance | forget | adjust => cases hs

/-- A run that ends for a reason that lies outside of it. -/
theorem InOrder.outcome_dismiss {engine after : Engine σ ρ} {deed : Deed σ ρ} {key : RunKey}
    (h : engine.InOrder []) (hk : (engine.runs.get? key).isSome) (hr : key ∉ engine.ready)
    (hd : Dismissed engine key after) (hkey : deed.key? = some key)
    (hs : engine.stillSleeping deed = engine.sleeping) (hq : engine.stillReady deed = engine.ready)
    (hl : deed.launched? = none) (ht : deed.isAdvance = false)
    (hp : engine.parked? deed = none) : Outcome engine deed after := by
  refine ⟨h.dismiss hk hd fun _ => ?_, fun other run hne ho => ?_, ⟨[], ?_, ?_⟩, ?_, ?_,
    hd.actions, fun other ticks ho => ?_, fun _ => ⟨hd.sequence, hd.sleeping.trans hs.symm⟩⟩
  · exact List.erase_of_not_mem hr
  · rw [hkey] at hne
    rw [hd.runs, SlotMap.get?_erase, if_neg fun heq => hne (congrArg some heq.symm), ho]
  · rw [hd.ready, hq, List.append_nil]
  · rw [hd.journal, starts_cons rfl, hl]
    rfl
  · rw [hd.journal]
    exact List.suffix_cons ..
  · rw [hd.tick, ht]
    rfl
  · cases hp.symm.trans ho

/-- Nothing happens to any run. -/
theorem outcome_quiet {engine after : Engine σ ρ} {deed : Deed σ ρ} (h : after.InOrder [])
    (hr : after.runs = engine.runs) (hj : after.journal = engine.journal)
    (hq : after.ready = engine.stillReady deed) (hs : after.sleeping = engine.stillSleeping deed)
    (hn : after.sequence = engine.sequence) (ha : after.actions = engine.actions)
    (ht : after.tick = if deed.isAdvance then engine.tick + 1 else engine.tick)
    (hl : deed.launched? = none) (hp : engine.parked? deed = none) :
    Outcome engine deed after := by
  refine ⟨h, fun key run _ ho => ?_, ⟨[], ?_, ?_⟩, ?_, ht, ha, fun key ticks ho => ?_,
    fun _ => ⟨hn, hs⟩⟩
  · rw [hr, ho]
  · rw [hq, List.append_nil]
  · rw [hj, hl]
    rfl
  · exact ⟨[], hj.symm⟩
  · cases hp.symm.trans ho

/-- A run that is due is cancelled if its actor is not connected. -/
theorem InOrder.outcome_offline {engine : Engine σ ρ} {due : Due} {key : RunKey}
    (h : engine.InOrder []) (ha : engine.Admits (.wake due key))
    (hs : engine.staging? (.wake due key) = none) :
    Outcome engine (.wake due key) (engine.carryOut (.wake due key)) := by
  obtain ⟨⟨rest, hentries⟩, -⟩ := entries_of_firstDue? ha.1
  obtain ⟨run, hk⟩ := Option.isSome_iff_exists.1 ha.2
  have hwoken := h.wake hentries hk
  have hget (other : RunKey) : (({ engine with sleeping := engine.sleeping.erase due } :
      Engine σ ρ).unpark key run).runs.get? other =
        if other = key then some { run with parked := false } else engine.runs.get? other :=
    SlotMap.get?_set hk _ other
  have hparked : engine.parked? (.wake due key) = none := by
    rw [parked?, hs]
    rfl
  have hcarry : engine.carryOut (.wake due key) =
      ((({ engine with sleeping := engine.sleeping.erase due } : Engine σ ρ).unpark key run).cancel
        key (.disconnected run.actor)).2 := by
    change (engine.runs.get? key).bind _ = none at hs
    rw [hk, Option.bind_some] at hs
    dsimp only at hs
    split at hs
    · cases hs
    · rename_i hoffline
      rw [carryOut, takeUp]
      dsimp only
      rw [hk]
      dsimp only
      rw [if_neg hoffline]
  have hthere := (hget key).trans (if_pos rfl)
  have hd := dismissed_cancel hthere (.disconnected run.actor)
  rw [hcarry]
  refine ⟨hwoken.dismiss (hthere ▸ rfl) hd fun _ => List.erase_cons_head ..,
    fun other found hne ho => ?_, ⟨[], ?_, ?_⟩, ?_, hd.tick, hd.actions, fun other ticks ho => ?_,
    fun _ => ⟨hd.sequence, hd.sleeping⟩⟩
  · have hother : other ≠ key := fun heq => hne (congrArg some heq.symm)
    rw [hd.runs, SlotMap.get?_erase, if_neg hother, hget, if_neg hother, ho]
  · rw [hd.ready]
    exact (List.append_nil _).symm
  · rw [hd.journal, starts_cons rfl]
    rfl
  · rw [hd.journal]
    exact List.suffix_cons ..
  · cases hparked.symm.trans ho

/-- Every deed keeps everything in order. -/
theorem InOrder.outcome {engine : Engine σ ρ} {deed : Deed σ ρ} (h : engine.InOrder [])
    (ha : engine.Admits deed) : Outcome engine deed (engine.carryOut deed) := by
  cases hs : engine.staging? deed with
  | some stage =>
    obtain ⟨key, staged⟩ := stage
    exact (h.staged ha hs).outcome hs
  | none =>
    have hparked : engine.parked? deed = none := by
      rw [parked?, hs]
      rfl
    cases deed with
    | launch | serve => cases hs
    | wake due key => exact h.outcome_offline ha hs
    | discard due key =>
      obtain ⟨⟨rest, hentries⟩, -⟩ := entries_of_firstDue? ha.1
      exact outcome_quiet (h.drop hentries ha.2) rfl rfl rfl rfl rfl rfl rfl rfl hparked
    | expire key =>
      obtain ⟨hk, hdismissed⟩ := dismissed_expire ha.1
      exact h.outcome_dismiss hk ha.2 hdismissed rfl rfl rfl rfl rfl hparked
    | cancel key reason =>
      obtain ⟨hr, run, hk, -⟩ := ha
      exact h.outcome_dismiss (hk ▸ rfl) hr (dismissed_cancel hk reason) rfl rfl rfl rfl rfl hparked
    | advance =>
      exact outcome_quiet (h.congr rfl rfl rfl rfl rfl) rfl rfl rfl rfl rfl rfl rfl rfl hparked
    | forget =>
      have hforgotten : ({ engine with sleeping := .empty, ready := [] } :
          Engine σ ρ).InOrder [] :=
        ⟨h.tidy, h.chronicle, nofun, fun _ => Scheduled.of_none ha⟩
      exact outcome_quiet hforgotten rfl rfl rfl rfl rfl rfl rfl rfl hparked
    | adjust around catalogue cache ids pending =>
      exact outcome_quiet (h.congr rfl rfl rfl rfl rfl) rfl rfl rfl rfl rfl rfl rfl rfl hparked

end Engine

end GridScript
