import GridScript.Proofs.Detachment
import GridScript.Proofs.Histories

/-!
# Engines that differ in identities and cells

Two engines whose runs differ in the identities and cells of nodes at most stay like that
whatever is done with both of them, and hand out the same reports. Everything an engine
does with its runs, other than to let them execute slices, can be done before or after the
nodes were detached; the slices themselves are alike. So it makes no difference which of
two programs of one structure is run.
-/

namespace GridScript

namespace SlotMap

variable {α β : Type}

/-- The same slot with a stored value changed. -/
def slotMap (change : α → β) : Slot α → Slot β
  | .occupied generation value => .occupied generation (change value)
  | .vacant generation next => .vacant generation next

/-- The same slots with every stored value changed. -/
def map (change : α → β) (store : SlotMap α) : SlotMap β :=
  ⟨store.slots.map (slotMap change), store.head, store.count⟩

/-- What a key addresses is the changed value. -/
theorem get?_map (change : α → β) (store : SlotMap α) (key : SlotKey) :
    (store.map change).get? key = (store.get? key).map change := by
  simp only [get?, map, List.getElem?_map]
  rcases store.slots[key.slot]? with _ | ⟨generation, value⟩ | _
  · rfl
  · dsimp only [Option.map_some, slotMap]
    split <;> rfl
  · rfl

/-- The same slot is taken first. -/
theorem vacancy?_map (change : α → β) (store : SlotMap α) :
    (store.map change).vacancy? = store.vacancy? := by
  unfold vacancy?
  cases hhead : store.head with
  | none => simp only [map, hhead, Option.bind_eq_bind, Option.bind_none]
  | some index =>
    simp only [map, hhead, List.getElem?_map, Option.bind_eq_bind, Option.bind_some]
    rcases store.slots[index]? with _ | _ | _ <;> rfl

/-- A value is stored under the same key. -/
theorem insert_map (change : α → β) (store : SlotMap α) (value : α) :
    (store.map change).insert (change value) =
      ((store.insert value).1, (store.insert value).2.map change) := by
  unfold insert
  rw [vacancy?_map]
  rcases store.vacancy? with _ | ⟨index, generation, next⟩
  · simp [map, slotMap]
  · simp only [map, List.map_set, slotMap]

/-- A value is replaced in the same slot. -/
theorem set_map (change : α → β) (store : SlotMap α) (key : SlotKey) (value : α) :
    (store.map change).set key (change value) = (store.set key value).map change := by
  unfold set
  rw [get?_map]
  cases store.get? key with
  | none => rfl
  | some old => simp only [Option.map_some, map, List.map_set, slotMap]

/-- A value is removed from the same slot. -/
theorem erase_map (change : α → β) (store : SlotMap α) (key : SlotKey) :
    (store.map change).erase key = (store.erase key).map change := by
  unfold erase
  rw [get?_map]
  cases store.get? key with
  | none => rfl
  | some old => simp only [Option.map_some, map, List.map_set, slotMap]

/-- The values that pass a test have the same keys. -/
theorem keysWhere_map (change : α → β) (test : β → Bool) (store : SlotMap α) :
    (store.map change).keysWhere test = store.keysWhere (test ∘ change) := by
  have hentries (index : Nat) (slots : List (Slot α)) :
      entriesFrom index (slots.map (slotMap change)) =
        (entriesFrom index slots).map fun entry => (entry.1, change entry.2) := by
    induction slots generalizing index with
    | nil => rfl
    | cons slot rest ih =>
      cases slot <;> simp only [List.map_cons, slotMap, entriesFrom, ih]
  simp only [keysWhere, entries, map, hentries, List.filter_map, List.map_map]
  rfl

end SlotMap

/-- The run with all nodes detached. -/
def Run.detached (run : Run) : Run :=
  { run with machine := run.machine.detached }

namespace Engine

variable {σ ρ : Type}

/-- The engine with the nodes of all runs detached. Everything else, the registered
functions among it, is as it was. -/
def detached (engine : Engine σ ρ) : Engine σ ρ :=
  { engine with runs := engine.runs.map Run.detached }

/-- A run is found in the detached engine. -/
theorem get?_detached (engine : Engine σ ρ) (key : RunKey) :
    engine.detached.runs.get? key = (engine.runs.get? key).map Run.detached :=
  SlotMap.get?_map ..

/-- A result beside an engine whose nodes are detached. -/
def detachedAside {α : Type} (result : α × Engine σ ρ) : α × Engine σ ρ :=
  (result.1, result.2.detached)

/-- A run starts alike. -/
theorem spawn_detached (engine : Engine σ ρ) (machine : Machine) (actor : Actor)
    (origin : Place) :
    engine.detached.spawn machine.detached actor origin =
      detachedAside (engine.spawn machine actor origin) := by
  have hinsert := SlotMap.insert_map Run.detached engine.runs ⟨machine, actor, origin, 0, false⟩
  simp only [Run.detached] at hinsert
  simp only [spawn, detached, hinsert]
  rfl

/-- A report does not depend on nodes. -/
theorem report_detached (key : RunKey) (run : Run) (result : Except RunError (Option Value)) :
    report key run.detached result = report key run result := by
  have hlocals : run.detached.machine.takeLocals.1 = run.machine.takeLocals.1 := by
    simp only [Run.detached, Machine.takeLocals, Machine.detached, List.getLast?_map]
    cases run.machine.stack.getLast? <;> rfl
  simp only [report, hlocals]
  rfl

/-- A run ends alike. -/
theorem finish_detached (engine : Engine σ ρ) (key : RunKey)
    (result : Except RunError (Option Value)) :
    engine.detached.finish key result = detachedAside (engine.finish key result) := by
  unfold finish
  rw [get?_detached]
  cases engine.runs.get? key with
  | none => rfl
  | some run =>
    simp only [Option.map_some, report_detached, detached, mapLedger, record, SlotMap.erase_map]
    cases result <;> rfl

/-- A run is replaced alike. -/
theorem set_detached (engine : Engine σ ρ) (around : Surroundings σ ρ) (key : RunKey) (run : Run) :
    { engine.detached with around, runs := engine.detached.runs.set key run.detached } =
      { engine with around, runs := engine.runs.set key run }.detached := by
  simp only [detached, SlotMap.set_map]

/-- A run is taken up alike. -/
theorem unpark_detached (engine : Engine σ ρ) (key : RunKey) (run : Run) :
    engine.detached.unpark key run.detached = (engine.unpark key run).detached :=
  set_detached engine (engine.mapLedger (·.resume run.actor)).around key { run with parked := false }

/-- A run is parked alike. -/
theorem park_detached (engine : Engine σ ρ) (key : RunKey) (run : Run) (ticks : Nat) :
    engine.detached.park key run.detached ticks = (engine.park key run ticks).detached := by
  have hset := SlotMap.set_map Run.detached engine.runs key { run with parked := true }
  simp only [Run.detached] at hset
  simp only [park, detached, Run.detached, record, hset]

/-- Machines that were split off are adopted alike. -/
theorem adopt_detached (engine : Engine σ ρ) (machines : List Machine) :
    engine.detached.adopt (machines.map Machine.detached) = (engine.adopt machines).detached := by
  induction machines generalizing engine with
  | nil => rfl
  | cons machine rest ih =>
    have hcontext : machine.detached.context? = machine.context? := by
      simp only [Machine.context?, Machine.detached, List.head?_map]
      cases machine.stack.head? <;> rfl
    simp only [List.map_cons, adopt, hcontext, spawn_detached]
    cases machine.context? with
    | none => exact ih engine
    | some context =>
      dsimp only
      generalize engine.spawn machine context.actor context.origin = started
      exact ih { started.2 with ready := started.2.ready ++ [started.1] }

/-- A slice leads to the same without identities and cells. -/
theorem conclude_detached (engine : Engine σ ρ) (key : RunKey) (run : Run) (slice : Slice σ ρ) :
    engine.detached.conclude key run.detached slice.detached =
      detachedAside (engine.conclude key run slice) := by
  have hafter : engine.detached.afterSlice key run.detached slice.detached =
      (engine.afterSlice key run slice).detached := by
    have hset := SlotMap.set_map Run.detached engine.runs key (run.afterSlice slice)
    simp only [Run.detached, Run.afterSlice] at hset
    simp only [afterSlice, detached, Run.detached, Run.afterSlice, Slice.detached, mapLedger,
      record, hset]
  have hrun : run.detached.afterSlice slice.detached = (run.afterSlice slice).detached := rfl
  have hending : slice.detached.ending = slice.ending := rfl
  have hforks : slice.detached.forks = slice.forks.map Machine.detached := rfl
  unfold conclude
  rw [hafter, hrun, hending, hforks]
  cases slice.ending with
  | parked ticks =>
    dsimp only
    rw [park_detached, adopt_detached]
    rfl
  | done result =>
    dsimp only
    rw [adopt_detached, finish_detached]

/-- The runs that pass a test are the same, if it does not look at nodes. -/
theorem keysWhere_detached (engine : Engine σ ρ) (test : Run → Bool)
    (h : ∀ run : Run, test run.detached = test run) :
    engine.detached.runs.keysWhere test = engine.runs.keysWhere test := by
  have htest : test ∘ Run.detached = test := funext h
  exact (SlotMap.keysWhere_map Run.detached test engine.runs).trans (by rw [htest])

section Host

variable [Host σ]

/-- A run is cancelled alike. -/
theorem cancel_detached (engine : Engine σ ρ) (key : RunKey) (reason : CancelReason) :
    engine.detached.cancel key reason = detachedAside (engine.cancel key reason) := by
  unfold cancel
  rw [get?_detached]
  cases engine.runs.get? key with
  | none => rfl
  | some run =>
    have hawake : (if run.detached.parked then engine.detached.unpark key run.detached
        else engine.detached) = (if run.parked then engine.unpark key run else engine).detached := by
      have hparked : run.detached.parked = run.parked := rfl
      rw [hparked, unpark_detached]
      split <;> rfl
    simp only [Option.map_some, hawake]
    generalize (if run.parked then engine.unpark key run else engine) = awake
    have hclose : run.detached.machine.close .cancelled awake.detached.around =
        run.machine.close .cancelled awake.around := Machine.close_detached ..
    have hset := set_detached awake (run.machine.close .cancelled awake.around).2 key
      { run with machine := run.machine.ended, parked := false }
    rw [hclose]
    exact (congrArg (finish · key (.error (.cancelled reason))) hset).trans (finish_detached ..)

/-- Several runs are cancelled alike. -/
theorem cancelAll_detached (engine : Engine σ ρ) (reason : CancelReason) (keys : List RunKey) :
    engine.detached.cancelAll reason keys = detachedAside (engine.cancelAll reason keys) := by
  induction keys generalizing engine with
  | nil => rfl
  | cons key rest ih =>
    simp only [cancelAll, cancel_detached, detachedAside, ih]

/-- The runs of an actor are stopped alike. -/
theorem disconnect_detached (engine : Engine σ ρ) (actor : Actor) :
    engine.detached.disconnect actor = detachedAside (engine.disconnect actor) := by
  rw [disconnect, keysWhere_detached _ _ fun _ => rfl, cancelAll_detached, disconnect]

/-- All runs are stopped alike. -/
theorem shutdown_detached (engine : Engine σ ρ) :
    engine.detached.shutdown = detachedAside engine.shutdown := by
  unfold shutdown
  rw [keysWhere_detached _ _ fun _ => rfl, cancelAll_detached]
  rfl

/-- A late run ends alike. -/
theorem expire_detached (engine : Engine σ ρ) (key : RunKey) :
    engine.detached.expire key = detachedAside (engine.expire key) := by
  unfold expire
  rw [get?_detached]
  cases engine.runs.get? key with
  | none => rfl
  | some run =>
    have hcheck : run.detached.machine.checkDeadlines engine.detached.around =
        ((run.machine.checkDeadlines engine.around).1,
          (run.machine.checkDeadlines engine.around).2.1.detached,
          (run.machine.checkDeadlines engine.around).2.2) := Machine.checkDeadlines_detached ..
    simp only [Option.map_some, hcheck]
    rcases run.machine.checkDeadlines engine.around with ⟨result, machine, around⟩
    cases result with
    | ok => rfl
    | error error =>
      have hunpark := unpark_detached { engine with around } key { run with machine }
      exact (congrArg (finish · key (.error (.limit error))) hunpark).trans (finish_detached ..)

/-- Several late runs end alike. -/
theorem expireAll_detached (engine : Engine σ ρ) (keys : List RunKey) :
    engine.detached.expireAll keys = detachedAside (engine.expireAll keys) := by
  induction keys generalizing engine with
  | nil => rfl
  | cons key rest ih =>
    simp only [expireAll, expire_detached, detachedAside, ih]

end Host

/-- The end of a run. -/
theorem actions_finish (engine : Engine σ ρ) (key : RunKey)
    (result : Except RunError (Option Value)) :
    (engine.finish key result).2.actions = engine.actions := by
  unfold finish
  split
  · rfl
  · cases result <;> rfl

/-- The adoption of machines that were split off. -/
theorem actions_adopt (engine : Engine σ ρ) (machines : List Machine) :
    (engine.adopt machines).actions = engine.actions := by
  induction machines generalizing engine with
  | nil => rfl
  | cons machine rest ih =>
    unfold adopt
    split
    · exact ih engine
    · exact ih _

/-- What a slice leads to. -/
theorem actions_conclude (engine : Engine σ ρ) (key : RunKey) (run : Run) (slice : Slice σ ρ) :
    (engine.conclude key run slice).2.actions = engine.actions := by
  unfold conclude
  dsimp only
  split
  · exact actions_adopt _ _
  · exact (actions_finish _ _ _).trans (actions_adopt _ _)

section Host

variable [Host σ]

/-- The cancellation of a run. -/
theorem actions_cancel (engine : Engine σ ρ) (key : RunKey) (reason : CancelReason) :
    (engine.cancel key reason).2.actions = engine.actions := by
  unfold cancel
  split
  · rfl
  · refine (actions_finish _ _ _).trans ?_
    dsimp only
    split <;> rfl

/-- The cancellation of several runs. -/
theorem actions_cancelAll (engine : Engine σ ρ) (reason : CancelReason) (keys : List RunKey) :
    (engine.cancelAll reason keys).2.actions = engine.actions := by
  induction keys generalizing engine with
  | nil => rfl
  | cons key rest ih => exact (ih _).trans (actions_cancel engine key reason)

/-- The end of a late run. -/
theorem actions_expire (engine : Engine σ ρ) (key : RunKey) :
    (engine.expire key).2.actions = engine.actions := by
  unfold expire
  split
  · rfl
  · split
    · rfl
    · exact actions_finish _ _ _

/-- The end of several late runs. -/
theorem actions_expireAll (engine : Engine σ ρ) (keys : List RunKey) :
    (engine.expireAll keys).2.actions = engine.actions := by
  induction keys generalizing engine with
  | nil => rfl
  | cons key rest ih => exact (ih _).trans (actions_expire engine key)

end Host

variable [Host σ] [RandomSource ρ]

/-- Engines whose runs differ in identities and cells at most, with actions that look at
neither. -/
structure Alike (first second : Engine σ ρ) : Prop where
  /-- All else is the same. -/
  same : first.detached = second.detached
  /-- The actions do not look at identities and cells. -/
  actions : first.actions.Detached

/-- The same result beside engines that are alike. -/
def AlikeAside {α : Type} (first second : α × Engine σ ρ) : Prop :=
  first.1 = second.1 ∧ Alike first.2 second.2

namespace Alike

variable {first second : Engine σ ρ} {α : Type}

/-- Whatever does not look at nodes is the same. -/
theorem field {β : Type} (h : Alike first second) (view : Engine σ ρ → β)
    (hd : ∀ engine, view engine.detached = view engine) : view first = view second := by
  rw [← hd first, h.same, hd]

/-- Whatever can be done before or after the nodes were detached. -/
theorem aside (h : Alike first second) (change : Engine σ ρ → α × Engine σ ρ)
    (hd : ∀ engine, change engine.detached = detachedAside (change engine))
    (ha : ∀ engine, (change engine).2.actions = engine.actions) :
    AlikeAside (change first) (change second) := by
  have hsame : detachedAside (change first) = detachedAside (change second) := by
    rw [← hd, h.same, hd]
  obtain ⟨hresult, hengine⟩ := Prod.ext_iff.1 hsame
  exact ⟨hresult, hengine, (ha first).symm ▸ h.actions⟩

/-- The same without a result. -/
theorem update (h : Alike first second) (change : Engine σ ρ → Engine σ ρ)
    (hd : ∀ engine, change engine.detached = (change engine).detached)
    (ha : ∀ engine, (change engine).actions = engine.actions) :
    Alike (change first) (change second) :=
  ⟨by rw [← hd, h.same, hd], (ha first).symm ▸ h.actions⟩

/-- Under a key both engines have no run, or runs that differ in identities and cells at
most. -/
theorem get?_cases (h : Alike first second) (key : RunKey) :
    (first.runs.get? key = none ∧ second.runs.get? key = none) ∨
      ∃ run other, first.runs.get? key = some run ∧ second.runs.get? key = some other ∧
        run.detached = other.detached := by
  have hget : (first.runs.get? key).map Run.detached = (second.runs.get? key).map Run.detached := by
    rw [← get?_detached, h.same, get?_detached]
  cases hfirst : first.runs.get? key with
  | none =>
    rw [hfirst, Option.map_none, eq_comm, Option.map_eq_none_iff] at hget
    exact .inl ⟨rfl, hget⟩
  | some run =>
    rw [hfirst, Option.map_some, eq_comm, Option.map_eq_some_iff] at hget
    obtain ⟨other, hsecond, hrun⟩ := hget
    exact .inr ⟨run, other, rfl, hsecond, hrun.symm⟩

/-- A run of engines that are alike executes the same slice. It cannot be executed on the detached
run, where a call that is pushed keeps its nodes, so the slices are compared when they are over. -/
theorem runSlice (h : Alike first second) (key : RunKey) :
    AlikeAside (first.runSlice key) (second.runSlice key) := by
  unfold Engine.runSlice
  obtain ⟨hfirst, hsecond⟩ | ⟨run, other, hfirst, hsecond, hrun⟩ := h.get?_cases key
  · rw [hfirst, hsecond]
    exact ⟨rfl, h⟩
  · have hmachine : run.machine.detached = other.machine.detached := (Run.mk.inj hrun).1
    have hactor : run.actor = other.actor := (Run.mk.inj hrun).2.1
    have hslice : (first.sliceOf run).detached = (second.sliceOf other).detached := by
      unfold sliceOf ledger
      rw [h.field Engine.around fun _ => rfl, ← h.field Engine.actions fun _ => rfl, hactor]
      exact Machine.slice_alike h.actions _ _ _ hmachine _ rfl
    have hconclude : detachedAside (first.conclude key run (first.sliceOf run)) =
        detachedAside (second.conclude key other (second.sliceOf other)) := by
      rw [← conclude_detached, ← conclude_detached, h.same, hslice, hrun]
    rw [hfirst, hsecond]
    obtain ⟨hreport, hengine⟩ := Prod.ext_iff.1 hconclude
    exact ⟨hreport, hengine, (actions_conclude ..).symm ▸ h.actions⟩

/-- The queue is worked off alike. -/
theorem drain (h : Alike first second) (fuel : Nat) (reports : List RunReport) :
    Option.Rel AlikeAside (first.drain fuel reports) (second.drain fuel reports) := by
  induction fuel generalizing first second reports with
  | zero =>
    unfold Engine.drain
    rw [h.field Engine.ready fun _ => rfl]
    split
    · exact .some ⟨rfl, h⟩
    · exact .none
  | succ fuel ih =>
    unfold Engine.drain
    rw [h.field Engine.ready fun _ => rfl]
    cases second.ready with
    | nil => exact .some ⟨rfl, h⟩
    | cons key rest =>
      have hnext : Alike { first with ready := rest } { second with ready := rest } :=
        h.update (fun engine => { engine with ready := rest }) (fun _ => rfl) fun _ => rfl
      obtain ⟨hreport, hengine⟩ := hnext.runSlice key
      dsimp only
      rw [hreport]
      exact ih hengine _

/-- One part of an operation after another. -/
theorem rel_bind {β : Type} {one other : Option (α × Engine σ ρ)}
    (h : Option.Rel AlikeAside one other)
    {next next' : α × Engine σ ρ → Option (β × Engine σ ρ)}
    (hn : ∀ result (first second : Engine σ ρ), Alike first second →
      Option.Rel AlikeAside (next (result, first)) (next' (result, second))) :
    Option.Rel AlikeAside (one.bind next) (other.bind next') := by
  cases h with
  | none => exact .none
  | @some left right hpair =>
    obtain ⟨result, engine⟩ := left
    obtain ⟨same, twin⟩ := right
    obtain ⟨rfl, halike⟩ := hpair
    exact hn _ engine twin halike

/-- A run of machines that are alike starts alike. -/
theorem start (h : Alike first second) (fuel : Nat) {machine other : Machine}
    (hm : machine.detached = other.detached) (actor : Actor) (origin : Place) :
    Option.Rel AlikeAside (first.start fuel machine actor origin)
      (second.start fuel other actor origin) := by
  have hspawn : detachedAside (first.spawn machine actor origin) =
      detachedAside (second.spawn other actor origin) := by
    rw [← spawn_detached, ← spawn_detached, h.same, hm]
  obtain ⟨hkey, hspawned⟩ := Prod.ext_iff.1 hspawn
  have hstarted : Alike (first.spawn machine actor origin).2 (second.spawn other actor origin).2 :=
    ⟨hspawned, h.actions⟩
  unfold Engine.start
  generalize first.spawn machine actor origin = started at hkey hstarted ⊢
  generalize second.spawn other actor origin = twin at hkey hstarted ⊢
  obtain ⟨key, engine⟩ := started
  obtain ⟨key', engine'⟩ := twin
  obtain rfl : key = key' := hkey
  obtain ⟨hreport, hsliced⟩ := hstarted.runSlice key
  dsimp only at hreport hsliced ⊢
  rw [hreport]
  refine rel_bind (hsliced.drain fuel []) fun forked first second halike => ?_
  refine .some ⟨rfl, halike.update (fun engine =>
    { engine with pending := engine.pending ++ forked }) (fun _ => rfl) fun _ => rfl⟩

/-- A run that is due is taken up alike. -/
theorem takeUp (h : Alike first second) (key : RunKey) :
    AlikeAside (first.takeUp key) (second.takeUp key) := by
  unfold Engine.takeUp
  obtain ⟨hfirst, hsecond⟩ | ⟨run, other, hfirst, hsecond, hrun⟩ := h.get?_cases key
  · rw [hfirst, hsecond]
    exact ⟨rfl, h⟩
  · have hactor : run.actor = other.actor := (Run.mk.inj hrun).2.1
    have hawake : Alike (first.unpark key run) (second.unpark key other) :=
      ⟨by rw [← unpark_detached, ← unpark_detached, h.same, hrun], h.actions⟩
    rw [hfirst, hsecond]
    dsimp only
    rw [hactor, hawake.field (·.around.host) fun _ => rfl]
    split
    · have hresumed : Alike
          ((first.unpark key run).record (.resumed key (first.unpark key run).tick))
          ((second.unpark key other).record (.resumed key (second.unpark key other).tick)) :=
        hawake.update (fun engine => engine.record (.resumed key engine.tick))
          (fun _ => rfl) fun _ => rfl
      exact hresumed.runSlice key
    · exact hawake.aside (·.cancel key (.disconnected other.actor))
        (fun engine => cancel_detached engine key _) fun engine => actions_cancel engine key _

/-- All runs that are due are taken up alike. -/
theorem resumeDue (h : Alike first second) (fuel : Nat) (reports : List RunReport) :
    Option.Rel AlikeAside (first.resumeDue fuel reports) (second.resumeDue fuel reports) := by
  induction fuel generalizing first second reports with
  | zero =>
    unfold Engine.resumeDue
    rw [h.field Engine.firstDue? fun _ => rfl]
    split
    · exact .some ⟨rfl, h⟩
    · exact .none
  | succ fuel ih =>
    unfold Engine.resumeDue
    rw [h.field Engine.firstDue? fun _ => rfl]
    cases second.firstDue? with
    | none => exact .some ⟨rfl, h⟩
    | some found =>
      obtain ⟨due, key⟩ := found
      have hnext : Alike { first with sleeping := first.sleeping.erase due }
          { second with sleeping := second.sleeping.erase due } :=
        h.update (fun engine => { engine with sleeping := engine.sleeping.erase due })
          (fun _ => rfl) fun _ => rfl
      obtain ⟨hreport, hengine⟩ := hnext.takeUp key
      dsimp only
      rw [hreport]
      exact ih hengine _

/-- The next tick comes alike. -/
theorem nextTick (h : Alike first second) (fuel : Nat) :
    Option.Rel AlikeAside (first.nextTick fuel) (second.nextTick fuel) := by
  have hnext : Alike { first with tick := first.tick + 1, pending := [] }
      { second with tick := second.tick + 1, pending := [] } :=
    h.update (fun engine => { engine with tick := engine.tick + 1, pending := [] })
      (fun _ => rfl) fun _ => rfl
  unfold Engine.nextTick
  rw [h.field Engine.pending fun _ => rfl]
  generalize ({ first with tick := first.tick + 1, pending := [] } : Engine σ ρ) = one at hnext ⊢
  generalize ({ second with tick := second.tick + 1, pending := [] } : Engine σ ρ) = other
    at hnext ⊢
  have hkeys := hnext.field (·.runs.keysWhere (·.parked))
    fun engine => keysWhere_detached engine _ fun _ => rfl
  dsimp only at hkeys ⊢
  rw [hkeys]
  obtain ⟨hexpired, hengine⟩ := hnext.aside (·.expireAll (other.runs.keysWhere (·.parked)))
    (fun engine => expireAll_detached engine _) fun engine => actions_expireAll engine _
  rw [hexpired]
  exact rel_bind (hengine.resumeDue fuel _) fun reports first second halike =>
    halike.drain fuel reports

/-- Programs of one structure run alike. -/
theorem execute (h : Alike first second) (fuel : Nat) {program other : Program}
    (hp : program.sameStructure other = true) (actor : Actor) (origin : Place) :
    Option.Rel AlikeAside (first.execute fuel program actor origin)
      (second.execute fuel other actor origin) := by
  have hmachine (script : Script) : (Machine.ofScript script (.start actor origin .empty)).detached =
      .ofScript script.detached (.start actor origin .empty) := rfl
  refine h.start fuel ?_ actor origin
  rw [hmachine, hmachine, Script.detached_ofProgram hp]

/-- A function runs alike. -/
theorem callFunction (h : Alike first second) (fuel : Nat) (name : String) (actor : Actor)
    (origin : Place) (args : ArrivalMap String Value) :
    Option.Rel AlikeAside (first.callFunction fuel name actor origin args)
      (second.callFunction fuel name actor origin args) := by
  have hplace (around : Surroundings σ ρ) : Alike { first with around } { second with around } :=
    h.update (fun engine => { engine with around }) (fun _ => rfl) fun _ => rfl
  unfold Engine.callFunction ledger
  rw [h.field Engine.around fun _ => rfl]
  split
  · exact .some ⟨rfl, h⟩
  · split
    · exact .some ⟨rfl, hplace _⟩
    · split
      · exact .some ⟨rfl, hplace _⟩
      · refine rel_bind ((hplace _).start fuel rfl actor origin) fun execution _ _ halike => ?_
        exact .some ⟨rfl, halike⟩

/-- What the cache gave is taken up alike. -/
theorem accept {β : Type} (h : Alike first second) (served : Served β) :
    Alike (first.accept served) (second.accept served) := by
  have hfold (findings : List CompileError) (engine : Engine σ ρ) :
      findings.foldl (fun engine finding => engine.note (.finding finding)) engine.detached =
        (findings.foldl (fun engine finding => engine.note (.finding finding)) engine).detached := by
    induction findings generalizing engine with
    | nil => rfl
    | cons finding rest ih => exact ih (engine.note (.finding finding))
  refine h.update (·.accept served) (fun engine => ?_) fun engine => ?_
  · exact hfold served.findings { engine with cache := served.cache, ids := served.ids }
  · obtain ⟨notices, haccept⟩ := engine.accept_eq served
    rw [haccept]

/-- A line of code runs alike. -/
theorem fireLine (h : Alike first second) (fuel : Nat) (world : World) (entry : Position)
    (actor : Actor) :
    Option.Rel AlikeAside (first.fireLine fuel world entry actor)
      (second.fireLine fuel world entry actor) := by
  have hserved := h.field (fun engine => engine.cache.line (engine.workshop world) entry engine.ids)
    fun _ => rfl
  unfold Engine.fireLine
  dsimp only at hserved ⊢
  rw [hserved]
  generalize second.cache.line (second.workshop world) entry second.ids = served
  have haccept := h.accept served
  split
  · exact .some ⟨rfl, haccept⟩
  · split
    · exact .some ⟨rfl, haccept⟩
    · refine rel_bind (haccept.start fuel rfl actor _) fun execution _ _ halike => ?_
      exact .some ⟨rfl, halike⟩

/-- Several programs run alike. -/
theorem executeAll (h : Alike first second) (fuel : Nat) (actor : Actor)
    (programs : List Program) :
    Option.Rel AlikeAside (first.executeAll fuel actor programs)
      (second.executeAll fuel actor programs) := by
  induction programs generalizing first second with
  | nil => exact .some ⟨rfl, h⟩
  | cons program rest ih =>
    refine rel_bind (h.start fuel rfl actor program.origin) fun execution _ _ halike => ?_
    refine rel_bind (ih halike) fun executions _ _ hrest => ?_
    exact .some ⟨rfl, hrest⟩

/-- What a region has for an event runs alike. -/
theorem fireEvent (h : Alike first second) (fuel : Nat) (world : World) (region : Region)
    (event : String) (actor : Actor) :
    Option.Rel AlikeAside (first.fireEvent fuel world region event actor)
      (second.fireEvent fuel world region event actor) := by
  have hserved := h.field
    (fun engine => engine.cache.region (engine.workshop world) region engine.ids) fun _ => rfl
  unfold Engine.fireEvent
  dsimp only at hserved ⊢
  rw [hserved]
  exact (h.accept _).executeAll fuel actor _

/-- Functions are registered alike. -/
theorem mapRegistry (h : Alike first second) (change : FunctionRegistry → FunctionRegistry) :
    Alike (first.mapRegistry change) (second.mapRegistry change) :=
  h.update (·.mapRegistry change) (fun _ => rfl) fun _ => rfl

/-- A function is registered from its compiled program alike. -/
theorem registerCompiled (h : Alike first second) (program : Program) (owner : Actor)
    (scope : FunctionScope) (replace : Bool) :
    AlikeAside (first.registerCompiled program owner scope replace)
      (second.registerCompiled program owner scope replace) := by
  refine h.aside (·.registerCompiled program owner scope replace) (fun engine => ?_) fun engine => ?_
  · have hids : engine.detached.ids = engine.ids := rfl
    simp only [Engine.registerCompiled, hids, ledger]
    cases FunctionDefinition.ofProgram program owner scope engine.ids with
    | error error => rfl
    | ok made =>
      dsimp only
      have hledger : engine.detached.around = engine.around := rfl
      rw [hledger]
      cases engine.around.ledger.registry.register made.1 replace <;> rfl
  · unfold Engine.registerCompiled
    split
    · rfl
    · dsimp only
      split <;> rfl

/-- Functions are registered from several programs alike. -/
theorem registerPrograms (h : Alike first second) (owner : Actor) (scope : FunctionScope)
    (replace : Bool) (programs : List Program) :
    AlikeAside (first.registerPrograms owner scope replace programs)
      (second.registerPrograms owner scope replace programs) := by
  induction programs generalizing first second with
  | nil => exact ⟨rfl, h⟩
  | cons program rest ih =>
    obtain ⟨hresult, hengine⟩ := h.registerCompiled program owner scope replace
    obtain ⟨hresults, hlast⟩ := ih hengine
    exact ⟨congrArg₂ List.cons hresult hresults, hlast⟩

/-- The functions of a region are registered alike. -/
theorem registerRegion (h : Alike first second) (world : World) (region : Region) (owner : Actor)
    (scope : FunctionScope) (replace : Bool) :
    AlikeAside (first.registerRegion world region owner scope replace)
      (second.registerRegion world region owner scope replace) := by
  have hserved := h.field
    (fun engine => engine.cache.region (engine.workshop world) region engine.ids) fun _ => rfl
  unfold Engine.registerRegion
  dsimp only at hserved ⊢
  rw [hserved]
  exact (h.accept _).registerPrograms owner scope replace _

/-- Every operation is performed alike. -/
theorem perform (h : Alike first second) (fuel : Nat) (operation : Operation σ) :
    Option.Rel AlikeAside (first.perform fuel operation) (second.perform fuel operation) := by
  cases operation with
  | execute program actor origin =>
    refine rel_bind (h.start fuel rfl actor origin) fun execution _ _ halike => ?_
    exact .some ⟨rfl, halike⟩
  | call name actor origin args =>
    refine rel_bind (h.callFunction fuel name actor origin args) fun result _ _ halike => ?_
    exact .some ⟨rfl, halike⟩
  | fireLine world entry actor =>
    refine rel_bind (h.fireLine fuel world entry actor) fun result _ _ halike => ?_
    exact .some ⟨rfl, halike⟩
  | fireEvent world region event actor =>
    refine rel_bind (h.fireEvent fuel world region event actor) fun executions _ _ halike => ?_
    exact .some ⟨rfl, halike⟩
  | tick => exact h.nextTick fuel
  | stop key =>
    obtain ⟨hreport, hengine⟩ := h.aside (·.cancel key .stopped)
      (fun engine => cancel_detached engine key _) fun engine => actions_cancel engine key _
    exact .some ⟨congrArg Option.toList hreport, hengine⟩
  | disconnect actor =>
    exact .some (h.aside (·.disconnect actor) (fun engine => disconnect_detached engine actor)
      fun engine => actions_cancelAll engine _ _)
  | shutdown =>
    exact .some (h.aside Engine.shutdown shutdown_detached
      fun engine => actions_cancelAll engine _ _)
  | register definition replace =>
    have hledger : first.ledger = second.ledger := h.field ledger fun _ => rfl
    simp only [Engine.perform, hledger]
    split
    · rename_i registry _
      exact .some ⟨rfl, h.mapRegistry fun _ => registry⟩
    · exact .some ⟨rfl, h⟩
  | unregister name scope owner =>
    exact .some ⟨rfl, h.mapRegistry fun registry => (registry.unregister name scope owner).2⟩
  | restore definitions =>
    exact .some ⟨rfl, h.mapRegistry fun registry => (registry.restore definitions).2⟩
  | clear => exact .some ⟨rfl, h.mapRegistry _⟩
  | registerCompiled program owner scope replace =>
    exact .some ⟨rfl, (h.registerCompiled program owner scope replace).2⟩
  | registerRegion world region owner scope replace =>
    exact .some ⟨rfl, (h.registerRegion world region owner scope replace).2⟩
  | reloadCatalogue other =>
    refine .some ⟨rfl, h.update (fun engine => (engine.reloadCatalogue? other).getD engine)
      (fun engine => ?_) fun engine => ?_⟩
    · change ((engine.catalogue.reload? other).map _).getD _ = Engine.detached
        (((engine.catalogue.reload? other).map _).getD _)
      cases engine.catalogue.reload? other <;> rfl
    · obtain ⟨catalogue, cache, hreload⟩ := engine.exists_reloadCatalogue other
      rw [hreload]
  | host change => exact .some ⟨rfl, h.update (·.mapHost change) (fun _ => rfl) fun _ => rfl⟩

/-- Operations in a row are performed alike. -/
theorem performAll (h : Alike first second) (fuel : Nat) (returned : List RunReport)
    (operations : List (Operation σ)) :
    Option.Rel AlikeAside (first.performAll fuel returned operations)
      (second.performAll fuel returned operations) := by
  induction operations generalizing first second returned with
  | nil => exact .some ⟨rfl, h⟩
  | cons operation rest ih =>
    exact rel_bind (h.perform fuel operation) fun reports _ _ halike => ih halike _

/-- What is done alike gives the same, with all nodes detached. -/
theorem map_detachedAside {one other : Option (α × Engine σ ρ)}
    (h : Option.Rel AlikeAside one other) : one.map detachedAside = other.map detachedAside := by
  cases h with
  | none => rfl
  | some hpair => exact congrArg some (Prod.ext hpair.1 hpair.2.same)

end Alike

/-- Programs of one structure run identically in every engine whose actions look at
neither identities nor cells: the same execution comes of them, and engines that differ in
identities and cells on the stacks of their runs at most, with the same host, random
source, ledger, notices, reports and journal. A host may write down whatever it is asked,
so it is asked the same in the same order. Whatever is done with the two engines
afterwards gives the same reports and engines that still differ in nothing else. -/
theorem same_structure_runs_alike {program other : Program}
    (h : program.sameStructure other = true) (engine : Engine σ ρ) (ha : engine.actions.Detached)
    (fuel : Nat) (actor : Actor) (origin : Place) :
    (engine.execute fuel program actor origin).map detachedAside =
        (engine.execute fuel other actor origin).map detachedAside ∧
      ∀ execution after twin,
        engine.execute fuel program actor origin = some (execution, after) →
        engine.execute fuel other actor origin = some (execution, twin) →
        ∀ more returned operations,
          (after.performAll more returned operations).map detachedAside =
            (twin.performAll more returned operations).map detachedAside := by
  have hself : Alike engine engine := ⟨rfl, ha⟩
  have hruns := hself.execute fuel h actor origin
  refine ⟨Alike.map_detachedAside hruns, fun execution after twin hafter htwin more => ?_⟩
  rw [hafter, htwin] at hruns
  obtain ⟨-, halike⟩ : AlikeAside (execution, after) (execution, twin) := by
    cases hruns with
    | some hpair => exact hpair
  exact fun returned operations =>
    Alike.map_detachedAside (halike.performAll more returned operations)

end Engine

/-- A program that waits for a tick, with the identities and the cell of its nodes. -/
def pausingProgram (first second : NodeId) (cell : Option Position) : Program where
  kind := .event "start"
  root := .mk ⟨first, "start", .event, none, .empty, .plain, cell⟩ []
    (some (.mk ⟨second, "wait", .control, some "wait", .empty, .plain, cell⟩ [] none))
  origin := default
  catalogueVersion := 0

/-- The program waits under any identities, and after the next tick nothing tells the
engines apart but those. -/
theorem Engine.same_structure_runs_alike_pausing :
    ∃ (execution : Execution) (after twin : Engine MinimalHost ReplaySource),
      History.quietEngine.execute 3 (pausingProgram 1 2 none) ⟨"alice"⟩ default =
        some (execution, after) ∧
      History.quietEngine.execute 3 (pausingProgram 20 30 (some ⟨1, 2, 3⟩)) ⟨"alice"⟩ default =
        some (execution, twin) ∧
      after.runs.size = 1 ∧ after.detached = twin.detached ∧
      (after.performAll 3 [] [.tick]).map detachedAside =
        (twin.performAll 3 [] [.tick]).map detachedAside := by
  have hsize : ((History.quietEngine.execute 3 (pausingProgram 1 2 none) ⟨"alice"⟩ default).map
      fun last => last.2.runs.size) = some 1 := by decide +kernel
  obtain ⟨⟨execution, after⟩, hafter, hruns⟩ := Option.map_eq_some_iff.1 hsize
  have hstructure : (pausingProgram 1 2 none).sameStructure
      (pausingProgram 20 30 (some ⟨1, 2, 3⟩)) = true := by decide +kernel
  obtain ⟨hsame, hlater⟩ := same_structure_runs_alike hstructure History.quietEngine
    ActionTable.detached_standard 3 ⟨"alice"⟩ default
  rw [hafter, Option.map_some, eq_comm, Option.map_eq_some_iff] at hsame
  obtain ⟨⟨other, twin⟩, htwin, hpair⟩ := hsame
  obtain ⟨hexecution, hengine⟩ := Prod.ext_iff.1 hpair
  obtain rfl : other = execution := hexecution
  exact ⟨other, after, twin, hafter, htwin, hruns, hengine.symm,
    hlater other after twin hafter htwin 3 [] [.tick]⟩

end GridScript
