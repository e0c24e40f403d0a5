import GridScript.Proofs.Operations
import GridScript.Proofs.Standing

/-!
# What serving a run does to the others

A slice of a run changes that run, may put it to sleep or end it, and puts the runs
it split off at the end of the queue. All other runs stay as they are. So if the
trees ahead of all runs are of a kind that is handed on, they are so after every
slice, also when several runs have been served.
-/

namespace GridScript.Engine

variable {σ ρ : Type}

/-- What serving runs leaves alone. -/
structure Steady (before after : Engine σ ρ) : Prop where
  /-- The functions are the same. -/
  functions : after.around.functions = before.around.functions
  /-- The actions are the same. -/
  actions : after.actions = before.actions
  /-- The tick is the same. -/
  tick : after.tick = before.tick

/-- What is left alone twice is left alone. -/
theorem Steady.trans {first second third : Engine σ ρ} (h₁ : Steady first second)
    (h₂ : Steady second third) : Steady first third :=
  ⟨h₂.functions.trans h₁.functions, h₂.actions.trans h₁.actions, h₂.tick.trans h₁.tick⟩

/-- Runs were started for machines and queued. -/
structure Adopted (before : Engine σ ρ) (forks : List Machine) (after : Engine σ ρ) : Prop extends
    Steady before after where
  /-- The slots are in order. -/
  tidy : after.runs.Tidy
  /-- All runs that were there still are. -/
  kept : ∀ key run, before.runs.get? key = some run → after.runs.get? key = some run
  /-- All other runs have one of the machines. -/
  runs : ∀ key run, after.runs.get? key = some run →
    run.machine ∈ forks ∨ before.runs.get? key = some run
  /-- The new runs are at the end of the queue. -/
  ready : ∃ fresh, after.ready = before.ready ++ fresh ∧
    ∀ key ∈ fresh, before.runs.get? key = none
  /-- The sleeping entries are the same. -/
  sleeping : after.sleeping = before.sleeping

/-- A run is started next to the others. -/
structure Spawned (before : Engine σ ρ) (machine : Machine) (key : RunKey) (after : Engine σ ρ) :
    Prop extends Steady before after where
  /-- The slots are in order. -/
  tidy : after.runs.Tidy
  /-- Its key was free. -/
  free : before.runs.get? key = none
  /-- All runs that were there still are. -/
  kept : ∀ other run, before.runs.get? other = some run → after.runs.get? other = some run
  /-- The other run has the machine. -/
  runs : ∀ other run, after.runs.get? other = some run →
    run.machine = machine ∨ before.runs.get? other = some run
  /-- The queue is the same. -/
  ready : after.ready = before.ready
  /-- The sleeping entries are the same. -/
  sleeping : after.sleeping = before.sleeping

/-- Starting a run leaves the others as they are. -/
theorem spawned_spawn {engine : Engine σ ρ} (ht : engine.runs.Tidy) (machine : Machine)
    (actor : Actor) (origin : Place) :
    Spawned engine machine (engine.spawn machine actor origin).1
      (engine.spawn machine actor origin).2 where
  tidy := SlotMap.tidy_insert ht _
  free := SlotMap.get?_insert_key ht _
  kept := get?_spawn ht machine actor origin
  runs other run h := by
    have hget : (engine.spawn machine actor origin).2.runs.get? other = _ :=
      SlotMap.get?_insert ht ⟨machine, actor, origin, 0, false⟩ other
    rw [hget] at h
    split at h
    · cases h
      exact .inl rfl
    · exact .inr h
  ready := rfl
  functions := rfl
  actions := rfl
  tick := rfl
  sleeping := rfl

/-- Machines that were split off become runs at the end of the queue. -/
theorem adopted_adopt (forks : List Machine) {engine : Engine σ ρ} (ht : engine.runs.Tidy) :
    Adopted engine forks (engine.adopt forks) := by
  induction forks generalizing engine with
  | nil =>
    exact ⟨⟨rfl, rfl, rfl⟩, ht, fun _ _ h => h, fun _ _ h => .inr h,
      ⟨[], by simp [adopt], by simp⟩, rfl⟩
  | cons machine rest ih =>
    unfold adopt
    cases hcontext : machine.context? with
    | none =>
      have hrest := ih ht
      exact { hrest with
        runs := fun key run h => (hrest.runs key run h).imp_left (List.mem_cons_of_mem _) }
    | some context =>
      have hspawned := spawned_spawn ht machine context.actor context.origin
      dsimp only
      generalize engine.spawn machine context.actor context.origin = spawned at hspawned ⊢
      obtain ⟨key, next⟩ := spawned
      dsimp only at hspawned ⊢
      have hqueued : ({ next with ready := next.ready ++ [key] } : Engine σ ρ).runs.Tidy :=
        hspawned.tidy
      have hrest := ih hqueued
      obtain ⟨fresh, hready, hfresh⟩ := hrest.ready
      have hqueue : Steady next { next with ready := next.ready ++ [key] } := ⟨rfl, rfl, rfl⟩
      refine ⟨(hspawned.toSteady.trans hqueue).trans hrest.toSteady, hrest.tidy,
        fun other run h => hrest.kept other run (hspawned.kept other run h),
        fun other run h => ?_, ⟨key :: fresh, ?_, ?_⟩,
        hrest.sleeping.trans hspawned.sleeping⟩
      · rcases hrest.runs other run h with hm | hm
        · exact .inl (List.mem_cons_of_mem _ hm)
        · rcases hspawned.runs other run hm with rfl | hm
          · exact .inl List.mem_cons_self
          · exact .inr hm
      · rw [hready, hspawned.ready, List.append_assoc]
        rfl
      · refine List.forall_mem_cons.2 ⟨hspawned.free, fun other hm => ?_⟩
        cases hk : engine.runs.get? other with
        | none => rfl
        | some run =>
          have hgone := hfresh other hm
          have hstill := hspawned.kept other run hk
          cases hgone.symm.trans hstill

/-- Ending a run changes nothing but the runs and what they share. -/
theorem steady_finish (engine : Engine σ ρ) (key : RunKey)
    (result : Except RunError (Option Value)) :
    Steady engine (engine.finish key result).2 ∧
      (engine.finish key result).2.sleeping = engine.sleeping := by
  unfold finish
  split
  · exact ⟨⟨rfl, rfl, rfl⟩, rfl⟩
  · dsimp only
    split <;> exact ⟨⟨rfl, rfl, rfl⟩, rfl⟩

/-- A run was served: it executed a slice, and the runs it split off are at the end
of the queue. -/
structure Served (before : Engine σ ρ) (key : RunKey) (slice : Slice σ ρ)
    (after : Engine σ ρ) : Prop where
  /-- The slots are in order. -/
  tidy : after.runs.Tidy
  /-- Runs are those that were split off, the one that was served, or others that
  were there. -/
  runs : ∀ other run, after.runs.get? other = some run → run.machine ∈ slice.forks ∨
    (other = key ∧ run.machine = slice.machine) ∨ before.runs.get? other = some run
  /-- The runs that were split off are at the end of the queue. -/
  ready : ∃ fresh, after.ready = before.ready ++ fresh ∧
    ∀ other ∈ fresh, ∀ run, after.runs.get? other = some run → run.machine ∈ slice.forks
  /-- The functions are those the slice left. -/
  functions : after.around.functions = slice.around.functions
  /-- The actions are the same. -/
  actions : after.actions = before.actions
  /-- The tick is the same. -/
  tick : after.tick = before.tick
  /-- The run sleeps if the slice ended with a wait. -/
  sleeping : after.sleeping = before.sleeping ∨ ∃ ticks due, slice.ending = .parked ticks ∧
    due.tick = dueTick before.tick ticks ∧ after.sleeping = before.sleeping.insert due key

/-- The run that executed a slice is the only one that changed. -/
theorem get?_of_afterSlice {engine : Engine σ ρ} {key : RunKey} {run : Run}
    (hk : engine.runs.get? key = some run) {slice : Slice σ ρ} {next : Run}
    (hn : next.machine = slice.machine) {other : RunKey} {found : Run}
    (h : (engine.runs.set key next).get? other = some found) :
    (other = key ∧ found.machine = slice.machine) ∨ engine.runs.get? other = some found := by
  rw [SlotMap.get?_set hk] at h
  split at h
  · cases h
    exact .inl ⟨‹_›, hn⟩
  · exact .inr h

/-- What a slice leads to. -/
theorem served_conclude {engine : Engine σ ρ} {key : RunKey} {run : Run}
    (ht : engine.runs.Tidy) (hk : engine.runs.get? key = some run) (slice : Slice σ ρ) :
    Served engine key slice (engine.conclude key run slice).2 := by
  have hfunctions : (engine.afterSlice key run slice).around.functions =
      slice.around.functions := by
    have hrecord : (slice.around.ledger.recordSteps run.origin slice.steps).registry =
        slice.around.ledger.registry := by
      unfold Ledger.recordSteps
      split <;> rfl
    exact congrArg (·.functions) hrecord
  have htidy : (engine.afterSlice key run slice).runs.Tidy := SlotMap.tidy_set ht _ _
  unfold conclude
  cases hending : slice.ending with
  | parked ticks =>
    have hruns : ((engine.afterSlice key run slice).park key (run.afterSlice slice) ticks).runs =
        engine.runs.set key { run.afterSlice slice with parked := true } :=
      SlotMap.set_set hk _ _
    have hparked : ((engine.afterSlice key run slice).park key (run.afterSlice slice)
        ticks).runs.Tidy := SlotMap.tidy_set htidy _ _
    have hadopted := adopted_adopt slice.forks hparked
    obtain ⟨fresh, hready, hfresh⟩ := hadopted.ready
    refine ⟨hadopted.tidy, fun other found h => ?_, ⟨fresh, hready, fun other hm found h => ?_⟩,
      hadopted.functions.trans hfunctions, hadopted.actions, hadopted.tick,
      .inr ⟨ticks, _, hending, rfl, hadopted.sleeping⟩⟩
    · rcases hadopted.runs other found h with hm | hm
      · exact .inl hm
      · rw [hruns] at hm
        exact .inr (get?_of_afterSlice hk rfl hm)
    · rcases hadopted.runs other found h with hm | hm
      · exact hm
      · cases (hfresh other ‹_›).symm.trans hm
  | done result =>
    have hadopted := adopted_adopt slice.forks htidy
    obtain ⟨fresh, hready, hfresh⟩ := hadopted.ready
    obtain ⟨hsteady, hsleeping⟩ :=
      steady_finish ((engine.afterSlice key run slice).adopt slice.forks) key result
    obtain ⟨hruns, hqueue⟩ :=
      finish_runs ((engine.afterSlice key run slice).adopt slice.forks) key result
    have hget {other : RunKey} {found : Run}
        (h : (((engine.afterSlice key run slice).adopt slice.forks).finish key
          result).2.runs.get? other = some found) :
        ((engine.afterSlice key run slice).adopt slice.forks).runs.get? other = some found := by
      rw [hruns, SlotMap.get?_erase] at h
      split at h
      · cases h
      · exact h
    refine ⟨?_, fun other found h => ?_, ⟨fresh, hqueue.trans hready, fun other hm found h => ?_⟩,
      (hsteady.functions.trans hadopted.functions).trans hfunctions,
      hsteady.actions.trans hadopted.actions, hsteady.tick.trans hadopted.tick,
      .inl (hsleeping.trans hadopted.sleeping)⟩
    · dsimp only
      rw [hruns]
      exact SlotMap.tidy_erase hadopted.tidy _
    · rcases hadopted.runs other found (hget h) with hm | hm
      · exact .inl hm
      · exact .inr (get?_of_afterSlice hk rfl hm)
    · rcases hadopted.runs other found (hget h) with hm | hm
      · exact hm
      · cases (hfresh other ‹_›).symm.trans hm

/-- A run that splits off one machine and ends leaves it in the queue. -/
theorem conclude_fork {engine : Engine σ ρ} {key : RunKey} {run : Run} (ht : engine.runs.Tidy)
    (hk : engine.runs.get? key = some run) {slice : Slice σ ρ}
    {result : Except RunError (Option Value)} (hd : slice.ending = .done result)
    {child : Machine} (hf : slice.forks = [child]) {context : Context}
    (hc : child.context? = some context) :
    ∃ fresh, (engine.conclude key run slice).2.ready = engine.ready ++ [fresh] ∧
      (engine.conclude key run slice).2.runs.get? fresh =
        some ⟨child, context.actor, context.origin, 0, false⟩ := by
  have htidy : (engine.afterSlice key run slice).runs.Tidy := SlotMap.tidy_set ht _ _
  have hstill : (engine.afterSlice key run slice).runs.get? key = some (run.afterSlice slice) :=
    (SlotMap.get?_set hk _ key).trans (if_pos rfl)
  have hready : (engine.afterSlice key run slice).ready = engine.ready := rfl
  unfold conclude
  rw [hd, hf]
  generalize engine.afterSlice key run slice = served at htidy hstill hready ⊢
  have hadopt : served.adopt [child] =
      { (served.spawn child context.actor context.origin).2 with
        ready := served.ready ++ [(served.spawn child context.actor context.origin).1] } := by
    unfold adopt
    rw [hc]
    rfl
  have hfree : served.runs.get? (served.spawn child context.actor context.origin).1 = none :=
    (spawned_spawn htidy ..).free
  have hne : (served.spawn child context.actor context.origin).1 ≠ key := by
    intro hsame
    rw [hsame, hstill] at hfree
    cases hfree
  obtain ⟨hruns, hqueue⟩ := finish_runs (served.adopt [child]) key result
  refine ⟨(served.spawn child context.actor context.origin).1, ?_, ?_⟩
  · dsimp only
    rw [hqueue, hadopt, hready]
  · dsimp only
    rw [hruns, SlotMap.get?_erase, if_neg hne, hadopt]
    exact (SlotMap.get?_insert htidy _ _).trans (if_pos rfl)

/-- Some runs were taken away and nothing else happened. -/
structure Reduced (before after : Engine σ ρ) : Prop extends Steady before after where
  /-- The slots are in order. -/
  tidy : before.runs.Tidy → after.runs.Tidy
  /-- All runs were there before. -/
  runs : ∀ key run, after.runs.get? key = some run → before.runs.get? key = some run
  /-- The queue is the same. -/
  ready : after.ready = before.ready
  /-- The sleeping entries are the same. -/
  sleeping : after.sleeping = before.sleeping

/-- Nothing was taken away. -/
theorem Reduced.refl (engine : Engine σ ρ) : Reduced engine engine :=
  ⟨⟨rfl, rfl, rfl⟩, id, fun _ _ h => h, rfl, rfl⟩

/-- What is taken away twice is taken away. -/
theorem Reduced.trans {first second third : Engine σ ρ} (h₁ : Reduced first second)
    (h₂ : Reduced second third) : Reduced first third :=
  ⟨h₁.toSteady.trans h₂.toSteady, fun h => h₂.tidy (h₁.tidy h),
    fun key run h => h₁.runs key run (h₂.runs key run h), h₂.ready.trans h₁.ready,
    h₂.sleeping.trans h₁.sleeping⟩

/-- A run that ends after a change of it alone is taken away. -/
theorem reduced_finish {engine middle : Engine σ ρ} {key : RunKey} {run : Run}
    (hk : engine.runs.get? key = some run) (hs : Steady engine middle)
    (hr : ∃ next, middle.runs = engine.runs.set key next) (hq : middle.ready = engine.ready)
    (hd : middle.sleeping = engine.sleeping) (result : Except RunError (Option Value)) :
    Reduced engine (middle.finish key result).2 := by
  obtain ⟨next, hr⟩ := hr
  obtain ⟨hsteady, hsleeping⟩ := steady_finish middle key result
  obtain ⟨hruns, hready⟩ := finish_runs middle key result
  rw [hr, SlotMap.erase_set hk] at hruns
  refine ⟨hs.trans hsteady, fun ht => ?_, fun other found h => ?_, hready.trans hq,
    hsleeping.trans hd⟩
  · rw [hruns]
    exact SlotMap.tidy_erase ht key
  · rw [hruns, SlotMap.get?_erase] at h
    split at h
    · cases h
    · exact h

/-- A run that is cancelled is taken away. -/
theorem reduced_cancel [Host σ] (engine : Engine σ ρ) (key : RunKey) (reason : CancelReason) :
    Reduced engine (engine.cancel key reason).2 := by
  unfold cancel
  cases hk : engine.runs.get? key with
  | none => exact .refl engine
  | some run =>
    dsimp only
    split
    · refine reduced_finish hk ?_ ?_ ?_ ?_ _
      · exact ⟨Surroundings.functions_releaseAll .., rfl, rfl⟩
      · exact ⟨_, SlotMap.set_set hk _ _⟩
      · rfl
      · rfl
    · refine reduced_finish hk ?_ ?_ ?_ ?_ _
      · exact ⟨Surroundings.functions_releaseAll .., rfl, rfl⟩
      · exact ⟨_, rfl⟩
      · rfl
      · rfl

/-- Runs that are cancelled are taken away. -/
theorem reduced_cancelAll [Host σ] (reason : CancelReason) (keys : List RunKey)
    (engine : Engine σ ρ) : Reduced engine (engine.cancelAll reason keys).2 := by
  induction keys generalizing engine with
  | nil => exact .refl engine
  | cons key rest ih => exact (engine.reduced_cancel key reason).trans (ih _)

/-- A run that expires is taken away. -/
theorem reduced_expire [Host σ] (engine : Engine σ ρ) (key : RunKey) :
    Reduced engine (engine.expire key).2 := by
  unfold expire
  cases hk : engine.runs.get? key with
  | none => exact .refl engine
  | some run =>
    dsimp only
    split
    · exact .refl engine
    · rename_i error machine around heq
      obtain ⟨-, hf⟩ := Machine.standing_checkDeadlines heq
      refine reduced_finish hk ?_ ?_ ?_ ?_ _
      · exact ⟨hf, rfl, rfl⟩
      · exact ⟨_, rfl⟩
      · rfl
      · rfl

/-- Runs that expire are taken away. -/
theorem reduced_expireAll [Host σ] (keys : List RunKey) (engine : Engine σ ρ) :
    Reduced engine (engine.expireAll keys).2 := by
  induction keys generalizing engine with
  | nil => exact .refl engine
  | cons key rest ih => exact (engine.reduced_expire key).trans (ih _)

/-- The trees ahead of all runs are of some kind, with the given functions to call. -/
structure Standing [Host σ] [RandomSource ρ] (engine : Engine σ ρ) (registry : FunctionRegistry)
    (kind : List Node → Prop) : Prop where
  /-- The slots are in order. -/
  tidy : engine.runs.Tidy
  /-- The actions are the standard ones. -/
  actions : engine.actions = .standard
  /-- The functions are the given ones. -/
  functions : engine.around.functions = registry.functions
  /-- The trees ahead of every run are of the kind. -/
  runs : ∀ key run, engine.runs.get? key = some run → run.machine.Stands kind

section Standing

variable [Host σ] [RandomSource ρ] {registry : FunctionRegistry} {kind other : List Node → Prop}

/-- Runs that are left stand where they stood. -/
theorem Standing.reduced {engine after : Engine σ ρ} (h : engine.Standing registry kind)
    (hr : Reduced engine after) : after.Standing registry kind where
  tidy := hr.tidy h.tidy
  actions := hr.actions.trans h.actions
  functions := hr.functions.trans h.functions
  runs key run hk := h.runs key run (hr.runs key run hk)

/-- The slice of a run that stands in front of trees of a kind. -/
theorem Standing.slice {engine : Engine σ ρ} (h : engine.Standing registry kind)
    (hl : registry.Linked) (ho : Handed registry other) {run : Run}
    (hr : run.machine.Stands other) : (engine.sliceOf run).Standing engine.around other := by
  unfold sliceOf
  rw [h.actions]
  exact Machine.standing_slice ActionTable.keeps_standard ActionTable.paced_standard hl ho _ _ _
    hr h.functions (by simp)

/-- A run that was served leaves all runs where they may stand. -/
theorem Standing.served {engine after : Engine σ ρ} (h : engine.Standing registry kind)
    (hk : Handed registry kind) {key : RunKey} {slice : Slice σ ρ}
    (hs : Served engine key slice after) (hslice : slice.Standing engine.around kind) :
    after.Standing registry kind where
  tidy := hs.tidy
  actions := hs.actions.trans h.actions
  functions := (hs.functions.trans hslice.functions).trans h.functions
  runs found run hr := by
    rcases hs.runs found run hr with hm | ⟨-, hm⟩ | hm
    · exact (hslice.forks _ hm).stands hk
    · rw [hm]
      exact hslice.machine
    · exact h.runs found run hm

/-- One run had its turn: it may sleep now, until a later tick. -/
structure Turn (before after : Engine σ ρ) (key : RunKey) : Prop where
  /-- The tick is the same. -/
  tick : after.tick = before.tick
  /-- There is at most one more sleeping entry, and it is for a later tick. -/
  sleeping : after.sleeping = before.sleeping ∨ ∃ ticks due, 0 < ticks ∧
    due.tick = dueTick before.tick ticks ∧ after.sleeping = before.sleeping.insert due key

/-- Serving a run leaves all runs where they may stand. -/
theorem Standing.runSlice {engine : Engine σ ρ} (h : engine.Standing registry kind)
    (hl : registry.Linked) (hk : Handed registry kind) (key : RunKey) :
    (engine.runSlice key).2.Standing registry kind ∧ Turn engine (engine.runSlice key).2 key := by
  unfold Engine.runSlice
  cases hget : engine.runs.get? key with
  | none => exact ⟨h, rfl, .inl rfl⟩
  | some run =>
    have hserved := served_conclude h.tidy hget (engine.sliceOf run)
    have hslice := h.slice hl hk (h.runs key run hget)
    refine ⟨h.served hk hserved hslice, hserved.tick, hserved.sleeping.imp_right ?_⟩
    rintro ⟨ticks, due, hending, hdue, hsleeping⟩
    exact ⟨ticks, due, hslice.waits ticks hending, hdue, hsleeping⟩

/-- Taking up a run leaves all runs where they may stand. -/
theorem Standing.takeUp {engine : Engine σ ρ} (h : engine.Standing registry kind)
    (hl : registry.Linked) (hk : Handed registry kind) (key : RunKey) :
    (engine.takeUp key).2.Standing registry kind ∧ Turn engine (engine.takeUp key).2 key := by
  unfold Engine.takeUp
  cases hget : engine.runs.get? key with
  | none => exact ⟨h, rfl, .inl rfl⟩
  | some run =>
    have hawake : (engine.unpark key run).Standing registry kind := by
      refine ⟨SlotMap.tidy_set h.tidy _ _, h.actions, h.functions, fun found next hn => ?_⟩
      have hset : (engine.runs.set key { run with parked := false }).get? found = some next := hn
      rw [SlotMap.get?_set hget] at hset
      split at hset
      · cases hset
        exact h.runs key run hget
      · exact h.runs found next hset
    dsimp only
    split
    · have hnoted : ((engine.unpark key run).record
          (.resumed key (engine.unpark key run).tick)).Standing registry kind :=
        ⟨hawake.tidy, hawake.actions, hawake.functions, hawake.runs⟩
      obtain ⟨hstanding, hturn⟩ := hnoted.runSlice hl hk key
      exact ⟨hstanding, hturn.tick, hturn.sleeping⟩
    · have hreduced := (engine.unpark key run).reduced_cancel key (.disconnected run.actor)
      exact ⟨hawake.reduced hreduced, hreduced.tick, .inl hreduced.sleeping⟩

/-- Serving the queue leaves all runs where they may stand. -/
theorem Standing.drain {fuel : Nat} {engine after : Engine σ ρ} {reports all : List RunReport}
    (h : engine.Standing registry kind) (hl : registry.Linked) (hk : Handed registry kind)
    (hd : engine.drain fuel reports = some (all, after)) : after.Standing registry kind := by
  induction fuel generalizing engine reports with
  | zero =>
    unfold Engine.drain at hd
    split at hd
    · cases hd
      exact h
    · cases hd
  | succ fuel ih =>
    unfold Engine.drain at hd
    split at hd
    · cases hd
      exact h
    · rename_i key rest hready
      have hpopped : ({ engine with ready := rest } : Engine σ ρ).Standing registry kind :=
        ⟨h.tidy, h.actions, h.functions, h.runs⟩
      exact ih (hpopped.runSlice hl hk key).1 hd

/-- A run that is started may stand in front of any trees of the kind. -/
theorem Standing.spawn {engine : Engine σ ρ} (h : engine.Standing registry kind)
    {machine : Machine} (hm : machine.Stands kind) (actor : Actor) (origin : Place) :
    (engine.spawn machine actor origin).2.Standing registry kind := by
  have hspawned := spawned_spawn h.tidy machine actor origin
  refine ⟨hspawned.tidy, hspawned.actions.trans h.actions,
    hspawned.functions.trans h.functions, fun key run hk => ?_⟩
  rcases hspawned.runs key run hk with hsame | hold
  · rw [hsame]
    exact hm
  · exact h.runs key run hold

/-- Starting a run leaves all runs where they may stand. -/
theorem Standing.start {fuel : Nat} {engine after : Engine σ ρ} {machine : Machine}
    {actor : Actor} {origin : Place} {execution : Execution}
    (h : engine.Standing registry kind) (hl : registry.Linked) (hk : Handed registry kind)
    (hm : machine.Stands kind)
    (hs : engine.start fuel machine actor origin = some (execution, after)) :
    after.Standing registry kind := by
  unfold Engine.start at hs
  simp only [Option.bind_eq_bind, Option.bind_eq_some_iff, Option.pure_def, Option.some.injEq]
    at hs
  obtain ⟨⟨forked, last⟩, hdrain, hend⟩ := hs
  cases hend
  have hlast := (((h.spawn hm actor origin).runSlice hl hk _).1).drain hl hk hdrain
  exact ⟨hlast.tidy, hlast.actions, hlast.functions, hlast.runs⟩

/-- Taking up the runs that are due leaves all runs where they may stand. -/
theorem Standing.resumeDue {fuel : Nat} {engine after : Engine σ ρ}
    {reports all : List RunReport} (h : engine.Standing registry kind) (hl : registry.Linked)
    (hk : Handed registry kind) (hd : engine.resumeDue fuel reports = some (all, after)) :
    after.Standing registry kind := by
  induction fuel generalizing engine reports with
  | zero =>
    unfold Engine.resumeDue at hd
    split at hd
    · cases hd
      exact h
    · cases hd
  | succ fuel ih =>
    unfold Engine.resumeDue at hd
    split at hd
    · cases hd
      exact h
    · rename_i due key hfirst
      have hwoken : ({ engine with sleeping := engine.sleeping.erase due } :
          Engine σ ρ).Standing registry kind := ⟨h.tidy, h.actions, h.functions, h.runs⟩
      exact ih (hwoken.takeUp hl hk key).1 hd

/-- A tick leaves all runs where they may stand. -/
theorem Standing.nextTick {fuel : Nat} {engine after : Engine σ ρ} {reports : List RunReport}
    (h : engine.Standing registry kind) (hl : registry.Linked) (hk : Handed registry kind)
    (hd : engine.nextTick fuel = some (reports, after)) : after.Standing registry kind := by
  unfold Engine.nextTick at hd
  simp only [Option.bind_eq_bind, Option.bind_eq_some_iff] at hd
  obtain ⟨⟨resumed, last⟩, hresume, hdrain⟩ := hd
  have hnext : ({ engine with tick := engine.tick + 1, pending := [] } :
      Engine σ ρ).Standing registry kind := ⟨h.tidy, h.actions, h.functions, h.runs⟩
  exact ((hnext.reduced (reduced_expireAll _ _)).resumeDue hl hk hresume).drain hl hk hdrain

end Standing

end GridScript.Engine
