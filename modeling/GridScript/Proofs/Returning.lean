import GridScript.Proofs.Serving
import Mathlib.Logic.Function.Iterate

/-!
# Operations that return

The runs in the queue are served in the order in which they were split off, so they
come in generations. If a run fits into a depth, what it splits off fits into a
smaller one, and the queue is empty after finitely many generations. A tick takes
up every sleeping run once, since a run that waits again is due later.

So every operation returns if the registered functions can be layered, unless the
tick is the last one there is: a run that waits in it is due again at once.
-/

namespace GridScript.Engine

variable {σ ρ : Type} [Host σ] [RandomSource ρ]

/-- More fuel does not change what serving the queue comes to. -/
theorem drain_mono {fuel more : Nat} (hle : fuel ≤ more) {engine : Engine σ ρ}
    {reports : List RunReport} {result : List RunReport × Engine σ ρ}
    (h : engine.drain fuel reports = some result) : engine.drain more reports = some result := by
  induction fuel generalizing engine reports more with
  | zero =>
    unfold drain at h
    split at h
    · rename_i hready
      rw [List.isEmpty_iff] at hready
      cases more with
      | zero => simpa [drain, hready] using h
      | succ more => simpa [drain, hready] using h
    · cases h
  | succ fuel ih =>
    obtain ⟨rest, rfl⟩ : ∃ rest, more = rest + 1 := ⟨more - 1, by omega⟩
    unfold drain at h ⊢
    split at h
    · exact h
    · exact ih (by omega) h

/-- More fuel does not change what taking up the runs that are due comes to. -/
theorem resumeDue_mono {fuel more : Nat} (hle : fuel ≤ more) {engine : Engine σ ρ}
    {reports : List RunReport} {result : List RunReport × Engine σ ρ}
    (h : engine.resumeDue fuel reports = some result) :
    engine.resumeDue more reports = some result := by
  induction fuel generalizing engine reports more with
  | zero =>
    unfold resumeDue at h
    split at h
    · rename_i hnone
      rw [Option.isNone_iff_eq_none] at hnone
      cases more with
      | zero => simpa [resumeDue, hnone] using h
      | succ more => simpa [resumeDue, hnone] using h
    · cases h
  | succ fuel ih =>
    obtain ⟨rest, rfl⟩ : ∃ rest, more = rest + 1 := ⟨more - 1, by omega⟩
    unfold resumeDue at h ⊢
    split at h
    · exact h
    · exact ih (by omega) h

/-- Lets the first run in the queue execute its slice. -/
def serveNext (engine : Engine σ ρ) : Engine σ ρ :=
  match engine.ready with
  | [] => engine
  | key :: rest => ({ engine with ready := rest }.runSlice key).2

/-- Lets all runs that are in the queue now execute their slices. The queue then
holds the next generation: the runs that they split off. -/
def nextGeneration (engine : Engine σ ρ) : Engine σ ρ :=
  serveNext^[engine.ready.length] engine

/-- Some generation has no runs. -/
def DiesOut (engine : Engine σ ρ) : Prop :=
  ∃ count, (nextGeneration^[count] engine).ready = []

/-- Nothing is done without runs in the queue. -/
theorem serveNext_of_nil {engine : Engine σ ρ} (h : engine.ready = []) :
    engine.serveNext = engine := by
  unfold serveNext
  rw [h]

/-- An empty queue stays empty. -/
theorem ready_iterate_serveNext {engine : Engine σ ρ} (h : engine.ready = []) (count : Nat) :
    (serveNext^[count] engine).ready = [] := by
  rw [Function.iterate_fixed (serveNext_of_nil h), h]

/-- Serving the queue takes as much fuel as it has runs until it is empty. -/
theorem isSome_drain_iff (fuel : Nat) (engine : Engine σ ρ) (reports : List RunReport) :
    (engine.drain fuel reports).isSome ↔ (serveNext^[fuel] engine).ready = [] := by
  induction fuel generalizing engine reports with
  | zero =>
    unfold drain
    rw [Function.iterate_zero_apply, ← List.isEmpty_iff]
    split <;> simp_all
  | succ fuel ih =>
    rw [Function.iterate_succ_apply]
    unfold drain
    cases hready : engine.ready with
    | nil =>
      rw [serveNext_of_nil hready]
      exact ⟨fun _ => ready_iterate_serveNext hready fuel, fun _ => rfl⟩
    | cons key rest =>
      have hserve : engine.serveNext = ({ engine with ready := rest }.runSlice key).2 := by
        unfold serveNext
        rw [hready]
      rw [hserve]
      exact ih _ _

/-- Generations are served run by run. -/
theorem exists_iterate_serveNext (count : Nat) (engine : Engine σ ρ) :
    ∃ served, nextGeneration^[count] engine = serveNext^[served] engine := by
  induction count generalizing engine with
  | zero => exact ⟨0, rfl⟩
  | succ count ih =>
    obtain ⟨served, hserved⟩ := ih engine.nextGeneration
    refine ⟨served + engine.ready.length, ?_⟩
    rw [Function.iterate_succ_apply, hserved, Function.iterate_add_apply]
    rfl

/-- There are not more generations than runs. -/
theorem ready_iterate_nextGeneration {count : Nat} {engine : Engine σ ρ}
    (h : (serveNext^[count] engine).ready = []) : (nextGeneration^[count] engine).ready = [] := by
  induction count generalizing engine with
  | zero => exact h
  | succ count ih =>
    rw [Function.iterate_succ_apply]
    refine ih ?_
    unfold nextGeneration
    rw [← Function.iterate_add_apply]
    cases hready : engine.ready with
    | nil => exact ready_iterate_serveNext hready _
    | cons key rest =>
      rw [List.length_cons, show count + (rest.length + 1) = rest.length + (count + 1) by omega,
        Function.iterate_add_apply]
      exact ready_iterate_serveNext h rest.length

/-- Serving the queue comes to an end exactly if some generation has no runs. -/
theorem drain_returns_iff (engine : Engine σ ρ) (reports : List RunReport) :
    (∃ fuel, (engine.drain fuel reports).isSome) ↔ engine.DiesOut := by
  constructor
  · rintro ⟨fuel, hfuel⟩
    exact ⟨fuel, ready_iterate_nextGeneration ((isSome_drain_iff fuel engine reports).1 hfuel)⟩
  · rintro ⟨count, hcount⟩
    obtain ⟨served, hserved⟩ := exists_iterate_serveNext count engine
    refine ⟨served, (isSome_drain_iff served engine reports).2 ?_⟩
    rw [← hserved]
    exact hcount

section Queue

variable {registry : FunctionRegistry} {level : FunctionEntry → Nat}

/-- The runs of some keys fit into depths below a bound. -/
def Below (engine : Engine σ ρ) (registry : FunctionRegistry) (level : FunctionEntry → Nat)
    (bound : Nat) (keys : List RunKey) : Prop :=
  ∀ key ∈ keys, ∀ run, engine.runs.get? key = some run →
    ∃ depth, depth < bound ∧ run.machine.Stands (Node.FitsAll registry level depth)

/-- Serving a run that fits into a depth leaves runs below a bound that is at least
as great, and puts runs below the depth into the queue. -/
theorem Below.runSlice {engine : Engine σ ρ} {bound depth : Nat} {keys : List RunKey}
    (h : engine.Below registry level bound keys)
    (hs : engine.Standing registry fun _ => True) (hl : registry.Linked)
    (hlayered : registry.Layered level) {key : RunKey} {run : Run}
    (hk : engine.runs.get? key = some run)
    (hfits : run.machine.Stands (Node.FitsAll registry level depth)) (hle : depth ≤ bound) :
    (engine.runSlice key).2.Below registry level bound keys ∧
      ∃ fresh, (engine.runSlice key).2.ready = engine.ready ++ fresh ∧
        (engine.runSlice key).2.Below registry level depth fresh := by
  unfold Engine.runSlice
  rw [hk]
  have hserved := served_conclude hs.tidy hk (engine.sliceOf run)
  have hslice := hs.slice hl (handed_fitsAll hlayered depth) hfits
  obtain ⟨fresh, hready, hfresh⟩ := hserved.ready
  refine ⟨fun other hm found hfound => ?_, fresh, hready, fun other hm found hfound => ?_⟩
  · rcases hserved.runs other found hfound with hfork | ⟨rfl, hsame⟩ | hold
    · obtain ⟨inner, hinner, hstands⟩ := (hslice.forks _ hfork).fits
      exact ⟨inner, by omega, hstands⟩
    · obtain ⟨inner, hinner, hstands⟩ := h other hm run hk
      rw [hsame]
      exact ⟨inner, hinner, (hs.slice hl (handed_fitsAll hlayered inner) hstands).machine⟩
    · exact h other hm found hold
  · exact (hslice.forks _ (hfresh other hm found hfound)).fits

/-- A queue of runs that are no longer there becomes empty. -/
theorem ready_serve_absent (keys : List RunKey) (engine : Engine σ ρ) (hr : engine.ready = keys)
    (hk : ∀ key ∈ keys, engine.runs.get? key = none) :
    (serveNext^[keys.length] engine).ready = [] := by
  induction keys generalizing engine with
  | nil => exact hr
  | cons key rest ih =>
    obtain ⟨hkey, hrest⟩ := List.forall_mem_cons.1 hk
    have hserve : engine.serveNext = { engine with ready := rest } := by
      unfold serveNext runSlice
      rw [hr]
      dsimp only
      rw [hkey]
    rw [List.length_cons, Function.iterate_succ_apply, hserve]
    exact ih _ rfl hrest

/-- Serving what is old leaves a queue of what was split off, which fits into a
smaller depth. -/
theorem Below.serve (hl : registry.Linked) (hlayered : registry.Layered level) {depth : Nat}
    (old fresh : List RunKey) {engine : Engine σ ρ} (hs : engine.Standing registry fun _ => True)
    (hready : engine.ready = old ++ fresh) (hold : engine.Below registry level (depth + 1) old)
    (hfresh : engine.Below registry level depth fresh) :
    (serveNext^[old.length] engine).Standing registry (fun _ => True) ∧
      (serveNext^[old.length] engine).Below registry level depth
        (serveNext^[old.length] engine).ready := by
  induction old generalizing fresh engine with
  | nil =>
    rw [List.nil_append] at hready
    rw [List.length_nil, Function.iterate_zero_apply, hready]
    exact ⟨hs, hfresh⟩
  | cons key old ih =>
    have hpopped : ({ engine with ready := old ++ fresh } : Engine σ ρ).Standing registry
        fun _ => True := ⟨hs.tidy, hs.actions, hs.functions, hs.runs⟩
    have hrest : ({ engine with ready := old ++ fresh } : Engine σ ρ).Below registry level
        (depth + 1) old := fun other hm => hold other (List.mem_cons_of_mem _ hm)
    have hqueued : ({ engine with ready := old ++ fresh } : Engine σ ρ).Below registry level
        depth fresh := hfresh
    have hserve : engine.serveNext =
        ({ engine with ready := old ++ fresh }.runSlice key).2 := by
      unfold serveNext
      rw [hready]
      rfl
    rw [List.length_cons, Function.iterate_succ_apply, hserve]
    cases hk : engine.runs.get? key with
    | none =>
      have hsame : ({ engine with ready := old ++ fresh }.runSlice key).2 =
          { engine with ready := old ++ fresh } := by
        unfold Engine.runSlice
        dsimp only
        rw [hk]
      rw [hsame]
      exact ih fresh hpopped rfl hrest hqueued
    | some run =>
      obtain ⟨inner, hinner, hfits⟩ := hold key List.mem_cons_self run hk
      have hserved := (hpopped.runSlice hl (handed_true registry) key).1
      obtain ⟨hold, more, hmore, hbelow⟩ :=
        hrest.runSlice hpopped hl hlayered hk hfits (by omega)
      obtain ⟨hfresh, -⟩ := hqueued.runSlice hpopped hl hlayered hk hfits (by omega)
      refine ih (fresh ++ more) hserved (hmore.trans (List.append_assoc ..)) hold ?_
      intro other hm found hfound
      rcases List.mem_append.1 hm with hm | hm
      · exact hfresh other hm found hfound
      · obtain ⟨low, hlow, hstands⟩ := hbelow other hm found hfound
        exact ⟨low, by omega, hstands⟩

/-- Some generation has no runs if those of the first fit into some depth. -/
theorem Below.diesOut (hl : registry.Linked) (hlayered : registry.Layered level) {bound : Nat}
    {engine : Engine σ ρ} (hs : engine.Standing registry fun _ => True)
    (h : engine.Below registry level bound engine.ready) : engine.DiesOut := by
  induction bound generalizing engine with
  | zero =>
    refine ⟨1, ready_serve_absent engine.ready engine rfl fun key hm => ?_⟩
    cases hk : engine.runs.get? key with
    | none => rfl
    | some run =>
      obtain ⟨depth, hdepth, -⟩ := h key hm run hk
      omega
  | succ depth ih =>
    obtain ⟨hnext, hbelow⟩ := h.serve hl hlayered engine.ready [] hs (List.append_nil _).symm
      fun _ hm => by cases hm
    obtain ⟨count, hcount⟩ := ih hnext hbelow
    exact ⟨count + 1, hcount⟩

end Queue

/-- Every machine that stands in a program fits into some depth. -/
theorem exists_machine_fits (registry : FunctionRegistry) (level : FunctionEntry → Nat)
    {machine : Machine} (h : machine.Stands fun _ => True) :
    ∃ depth, machine.Stands (Node.FitsAll registry level depth) := by
  obtain ⟨bound, hbound⟩ := exists_common
    (fun (entry : FunctionEntry) _ _ hle (h : level entry ≤ _) => Nat.le_trans h hle)
    registry.registered fun entry _ => ⟨level entry, Nat.le_refl _⟩
  refine exists_common (fun _ _ _ hle h frame hf => ?_) machine.stack fun activation ha => ?_
  · obtain ⟨nodes, hfollows, hfits⟩ := h frame hf
    exact ⟨nodes, hfollows, hfits.mono hle⟩
  · refine exists_common (fun _ _ _ hle h => ?_) activation.frames fun frame hf => ?_
    · obtain ⟨nodes, hfollows, hfits⟩ := h
      exact ⟨nodes, hfollows, hfits.mono hle⟩
    · obtain ⟨nodes, hfollows, -⟩ := h activation ha frame hf
      obtain ⟨depth, -, hfits⟩ := Node.exists_fitsAll registry hbound nodes
      exact ⟨depth, nodes, hfollows, hfits⟩

/-- All runs of an engine fit into some depth. -/
theorem Standing.exists_fits {registry : FunctionRegistry} (level : FunctionEntry → Nat)
    {engine : Engine σ ρ} (h : engine.Standing registry fun _ => True) :
    ∃ depth, engine.Standing registry (Node.FitsAll registry level depth) := by
  have hall := exists_common
    (fun (entry : RunKey × Run) less more hle
      (hf : entry.2.machine.Stands (Node.FitsAll registry level less)) => hf.mono hle)
    engine.runs.entries fun entry he =>
      exists_machine_fits registry level (h.runs entry.1 entry.2 (SlotMap.mem_entries.1 he))
  obtain ⟨depth, hdepth⟩ := hall
  exact ⟨depth, h.tidy, h.actions, h.functions, fun key run hk =>
    hdepth (key, run) (SlotMap.mem_entries.2 hk)⟩

/-- The generations of an engine come to an end if the functions are layered. -/
theorem Standing.diesOut {registry : FunctionRegistry} {level : FunctionEntry → Nat}
    {engine : Engine σ ρ} (h : engine.Standing registry fun _ => True) (hl : registry.Linked)
    (hlayered : registry.Layered level) : engine.DiesOut := by
  obtain ⟨depth, hfits⟩ := h.exists_fits level
  have hbelow : engine.Below registry level (depth + 1) engine.ready := fun key _ run hk =>
    ⟨depth, Nat.lt_succ_self depth, hfits.runs key run hk⟩
  exact hbelow.diesOut hl hlayered h

/-- A tick that lies ahead is later, unless the last one is reached. -/
theorem lt_dueTick {now : UInt64} (hn : now.toNat + 1 < UInt64.size) {ticks : Nat}
    (ht : 0 < ticks) : now < dueTick now ticks := by
  unfold dueTick
  rw [UInt64.lt_iff_toNat_lt, UInt64.toNat_ofNat_of_lt' (by omega)]
  omega

/-- The number of sleeping entries that are due. -/
def overdue (engine : Engine σ ρ) : Nat :=
  engine.sleeping.entries.countP fun entry => entry.1.tick ≤ engine.tick

omit [Host σ] [RandomSource ρ] in
/-- Taking out the first entry that is due leaves one less. -/
theorem overdue_erase {engine : Engine σ ρ} {due : Due} {key : RunKey}
    (h : engine.firstDue? = some (due, key)) :
    ({ engine with sleeping := engine.sleeping.erase due } : Engine σ ρ).overdue + 1 =
      engine.overdue := by
  obtain ⟨⟨rest, hentries⟩, hdue⟩ := entries_of_firstDue? h
  have hrest := entries_erase_head hentries
  unfold overdue
  rw [hentries, List.countP_cons_of_pos (by simpa using hdue)]
  dsimp only
  rw [hrest]

omit [Host σ] [RandomSource ρ] in
/-- A run that had its turn does not come due again. -/
theorem Turn.overdue {before after : Engine σ ρ} {key : RunKey} (h : Turn before after key)
    (ht : before.tick.toNat + 1 < UInt64.size) : after.overdue = before.overdue := by
  unfold Engine.overdue
  rw [h.tick]
  rcases h.sleeping with hsame | ⟨ticks, due, hticks, hdue, hinsert⟩
  · rw [hsame]
  · have hlater := lt_dueTick ht hticks
    rw [← hdue] at hlater
    rw [hinsert]
    exact Entries.countP_insert (fun due : Due => due.tick ≤ before.tick) key
      (by simpa using hlater) _

/-- All runs that are due have their turn. -/
theorem Standing.resumeDue_returns {registry : FunctionRegistry} {kind : List Node → Prop}
    {engine : Engine σ ρ} (h : engine.Standing registry kind) (hl : registry.Linked)
    (hk : Handed registry kind) (ht : engine.tick.toNat + 1 < UInt64.size)
    (reports : List RunReport) :
    (engine.resumeDue engine.overdue reports).isSome := by
  induction hcount : engine.overdue generalizing engine reports with
  | zero =>
    unfold Engine.resumeDue
    cases hfirst : engine.firstDue? with
    | none => rfl
    | some entry =>
      have herase := overdue_erase hfirst
      omega
  | succ count ih =>
    unfold Engine.resumeDue
    cases hfirst : engine.firstDue? with
    | none => rfl
    | some entry =>
      have herase := overdue_erase hfirst
      have hwoken : ({ engine with sleeping := engine.sleeping.erase entry.1 } :
          Engine σ ρ).Standing registry kind := ⟨h.tidy, h.actions, h.functions, h.runs⟩
      obtain ⟨hstanding, hturn⟩ := hwoken.takeUp hl hk entry.2
      have hcounted := hturn.overdue ht
      exact ih hstanding (by rw [hturn.tick]; exact ht) _ (by omega)

/-- Takes up the first run that is due. -/
def wakeNext (engine : Engine σ ρ) : Engine σ ρ :=
  match engine.firstDue? with
  | none => engine
  | some (due, key) => ({ engine with sleeping := engine.sleeping.erase due }.takeUp key).2

/-- Taking up the runs that are due takes as much fuel as it has turns until none
is left. -/
theorem resumeDue_iff (fuel : Nat) (engine after : Engine σ ρ) (reports : List RunReport) :
    (∃ all, engine.resumeDue fuel reports = some (all, after)) ↔
      wakeNext^[fuel] engine = after ∧ after.firstDue? = none := by
  induction fuel generalizing engine reports with
  | zero =>
    unfold Engine.resumeDue
    rw [Function.iterate_zero_apply]
    constructor
    · rintro ⟨all, h⟩
      split at h
      · cases h
        exact ⟨rfl, Option.isNone_iff_eq_none.1 ‹_›⟩
      · cases h
    · rintro ⟨rfl, h⟩
      rw [h]
      exact ⟨reports, rfl⟩
  | succ fuel ih =>
    rw [Function.iterate_succ_apply]
    unfold Engine.resumeDue
    cases hfirst : engine.firstDue? with
    | none =>
      have hwake : engine.wakeNext = engine := by
        unfold wakeNext
        rw [hfirst]
      rw [hwake, Function.iterate_fixed hwake]
      constructor
      · rintro ⟨all, h⟩
        cases h
        exact ⟨rfl, hfirst⟩
      · rintro ⟨rfl, -⟩
        exact ⟨reports, rfl⟩
    | some entry =>
      have hwake : engine.wakeNext =
          ({ engine with sleeping := engine.sleeping.erase entry.1 }.takeUp entry.2).2 := by
        unfold wakeNext
        rw [hfirst]
      rw [hwake]
      exact ih _ _

/-- A run that was just started and had its first slice. -/
def launch (engine : Engine σ ρ) (machine : Machine) (actor : Actor) (origin : Place) :
    Engine σ ρ :=
  let (key, engine) := engine.spawn machine actor origin
  (engine.runSlice key).2

/-- Starting a run comes to an end exactly if the generations it leads to do. -/
theorem start_returns_iff (engine : Engine σ ρ) (machine : Machine) (actor : Actor)
    (origin : Place) :
    (∃ fuel, (engine.start fuel machine actor origin).isSome) ↔
      (engine.launch machine actor origin).DiesOut := by
  rw [← drain_returns_iff _ []]
  refine exists_congr fun fuel => ?_
  unfold start launch
  dsimp only
  generalize ((engine.spawn machine actor origin).2.runSlice _).2.drain fuel [] = served
  cases served with
  | none => exact Iff.rfl
  | some result => exact ⟨fun _ => rfl, fun _ => rfl⟩

/-- The engine in its next tick, before runs are taken up. -/
def turnTick (engine : Engine σ ρ) : Engine σ ρ :=
  ({ engine with tick := engine.tick + 1, pending := [] }.expireAll
    (engine.runs.keysWhere (·.parked))).2

/-- A tick takes up the runs that are due and serves the queue. -/
theorem exists_nextTick_eq (engine : Engine σ ρ) : ∃ reports, ∀ fuel, engine.nextTick fuel =
    (engine.turnTick.resumeDue fuel reports).bind fun result => result.2.drain fuel result.1 :=
  ⟨_, fun _ => rfl⟩

/-- A tick comes to an end exactly if no run is due after some turns, and the
generations that these lead to do. -/
theorem nextTick_returns_iff (engine : Engine σ ρ) :
    (∃ fuel, (engine.nextTick fuel).isSome) ↔
      ∃ turns, (wakeNext^[turns] engine.turnTick).firstDue? = none ∧
        (wakeNext^[turns] engine.turnTick).DiesOut := by
  obtain ⟨first, hnext⟩ := engine.exists_nextTick_eq
  constructor
  · rintro ⟨fuel, hfuel⟩
    obtain ⟨result, hresult⟩ := Option.isSome_iff_exists.1 hfuel
    rw [hnext, Option.bind_eq_some_iff] at hresult
    obtain ⟨⟨reports, woken⟩, hresume, hdrain⟩ := hresult
    obtain ⟨rfl, hnone⟩ := (resumeDue_iff ..).1 ⟨reports, hresume⟩
    refine ⟨fuel, hnone, (drain_returns_iff _ reports).1 ⟨fuel, ?_⟩⟩
    exact Option.isSome_iff_exists.2 ⟨result, hdrain⟩
  · rintro ⟨turns, hnone, hdies⟩
    obtain ⟨reports, hresume⟩ := (resumeDue_iff turns engine.turnTick _ first).2 ⟨rfl, hnone⟩
    obtain ⟨served, hserved⟩ := (drain_returns_iff _ reports).2 hdies
    obtain ⟨result, hdrain⟩ := Option.isSome_iff_exists.1 hserved
    refine ⟨turns + served, Option.isSome_iff_exists.2 ⟨result, ?_⟩⟩
    rw [hnext, resumeDue_mono (Nat.le_add_right turns served) hresume]
    exact drain_mono (Nat.le_add_left served turns) hdrain

/-- More fuel does not change what starting a run comes to. -/
theorem start_mono {fuel more : Nat} (hle : fuel ≤ more) {engine : Engine σ ρ}
    {machine : Machine} {actor : Actor} {origin : Place} {result : Execution × Engine σ ρ}
    (h : engine.start fuel machine actor origin = some result) :
    engine.start more machine actor origin = some result := by
  unfold start at h ⊢
  simp only [Option.bind_eq_bind, Option.bind_eq_some_iff] at h ⊢
  obtain ⟨served, hdrain, hend⟩ := h
  exact ⟨served, drain_mono hle hdrain, hend⟩

/-- More fuel does not change what running several programs comes to. -/
theorem executeAll_mono {fuel more : Nat} (hle : fuel ≤ more) {actor : Actor}
    {programs : List Program} {engine : Engine σ ρ} {result : List Execution × Engine σ ρ}
    (h : engine.executeAll fuel actor programs = some result) :
    engine.executeAll more actor programs = some result := by
  induction programs generalizing engine result with
  | nil => exact h
  | cons program rest ih =>
    unfold executeAll at h ⊢
    simp only [Option.bind_eq_bind, Option.bind_eq_some_iff] at h ⊢
    obtain ⟨first, hfirst, others, hothers, hend⟩ := h
    exact ⟨first, start_mono hle hfirst, others, ih hothers, hend⟩

namespace Standing

variable {registry : FunctionRegistry} {level : FunctionEntry → Nat} {engine : Engine σ ρ}

/-- Starting a run comes to an end. -/
theorem start_returns (h : engine.Standing registry fun _ => True) (hl : registry.Linked)
    (hlayered : registry.Layered level) {machine : Machine} (hm : machine.Stands fun _ => True)
    (actor : Actor) (origin : Place) :
    ∃ fuel, (engine.start fuel machine actor origin).isSome := by
  have hstarted := h.spawn hm actor origin
  rw [start_returns_iff]
  exact (hstarted.runSlice hl (handed_true registry) _).1.diesOut hl hlayered

/-- Running a program comes to an end. -/
theorem execute_returns (h : engine.Standing registry fun _ => True) (hl : registry.Linked)
    (hlayered : registry.Layered level) (program : Program) (actor : Actor) (origin : Place) :
    ∃ fuel, (engine.execute fuel program actor origin).isSome :=
  h.start_returns hl hlayered (Machine.stands_ofScript _ _ trivial _) actor origin

/-- Running several programs comes to an end. -/
theorem executeAll_returns (h : engine.Standing registry fun _ => True) (hl : registry.Linked)
    (hlayered : registry.Layered level) (actor : Actor) (programs : List Program) :
    ∃ fuel, (engine.executeAll fuel actor programs).isSome := by
  induction programs generalizing engine with
  | nil => exact ⟨0, rfl⟩
  | cons program rest ih =>
    obtain ⟨fuel, hfuel⟩ := h.execute_returns hl hlayered program actor program.origin
    obtain ⟨⟨execution, next⟩, hfirst⟩ := Option.isSome_iff_exists.1 hfuel
    have hnext := h.start hl (handed_true registry) (Machine.stands_ofScript _ _ trivial _) hfirst
    obtain ⟨more, hmore⟩ := ih hnext
    obtain ⟨others, hrest⟩ := Option.isSome_iff_exists.1 hmore
    refine ⟨fuel + more, ?_⟩
    have hone : engine.execute (fuel + more) program actor program.origin =
        some (execution, next) := start_mono (Nat.le_add_right fuel more) hfirst
    unfold executeAll
    rw [hone]
    dsimp only [Option.bind_eq_bind, Option.bind_some]
    rw [executeAll_mono (Nat.le_add_left more fuel) hrest]
    rfl

/-- Running a function comes to an end. -/
theorem callFunction_returns (h : engine.Standing registry fun _ => True) (hl : registry.Linked)
    (hlayered : registry.Layered level) (name : String) (actor : Actor) (origin : Place)
    (args : ArrivalMap String Value) :
    ∃ fuel, (engine.callFunction fuel name actor origin args).isSome := by
  unfold callFunction
  cases hlookup : engine.ledger.registry.lookup? name actor origin.world with
  | none => exact ⟨0, rfl⟩
  | some entry =>
    dsimp only
    cases hargs : entry.definition.bindArgs args [] with
    | error error => exact ⟨0, rfl⟩
    | ok locals =>
      dsimp only
      have hacquired := engine.around.functions_acquire entry actor
      generalize engine.around.acquire entry actor = claim at hacquired ⊢
      match claim with
      | (.error error, around) => exact ⟨0, rfl⟩
      | (.ok call, around) =>
        obtain ⟨hfunctions, hentry⟩ := hacquired
        have hready : ({ engine with around } : Engine σ ρ).Standing registry fun _ => True :=
          ⟨h.tidy, h.actions, hfunctions.trans h.functions, h.runs⟩
        have hfound := (FunctionRegistry.lookup?_congr h.functions name actor
          origin.world).symm.trans hlookup
        have hregistered : call.entry ∈ registry.registered := by
          rw [hentry call rfl]
          exact FunctionRegistry.mem_registered hfound
        obtain ⟨fuel, hfuel⟩ := hready.start_returns hl hlayered
          (Machine.stands_ofCall hl hregistered trivial (.start actor origin locals)) actor origin
        obtain ⟨result, hresult⟩ := Option.isSome_iff_exists.1 hfuel
        refine ⟨fuel, ?_⟩
        dsimp only
        rw [hresult]
        rfl

/-- Taking up compiled programs leaves all runs where they are. -/
theorem accept {α : Type} {kind : List Node → Prop} (h : engine.Standing registry kind)
    (served : GridScript.Served α) : (engine.accept served).Standing registry kind := by
  obtain ⟨notices, he⟩ := engine.accept_eq served
  rw [he]
  exact ⟨h.tidy, h.actions, h.functions, h.runs⟩

/-- Running the line of code at a cell comes to an end. -/
theorem fireLine_returns (h : engine.Standing registry fun _ => True) (hl : registry.Linked)
    (hlayered : registry.Layered level) (world : World) (entry : Position) (actor : Actor) :
    ∃ fuel, (engine.fireLine fuel world entry actor).isSome := by
  have haccepted := h.accept (engine.cache.line (engine.workshop world) entry engine.ids)
  unfold fireLine
  dsimp only
  generalize engine.cache.line (engine.workshop world) entry engine.ids = served at haccepted ⊢
  cases hvalue : served.value with
  | error error => exact ⟨0, rfl⟩
  | ok program =>
    dsimp only
    cases program.kind with
    | function outline => exact ⟨0, rfl⟩
    | event name =>
      obtain ⟨fuel, hfuel⟩ :=
        haccepted.execute_returns hl hlayered program actor program.origin
      obtain ⟨result, hresult⟩ := Option.isSome_iff_exists.1 hfuel
      refine ⟨fuel, ?_⟩
      dsimp only
      rw [hresult]
      rfl

/-- A tick comes to an end, unless it is the last one. -/
theorem nextTick_returns (h : engine.Standing registry fun _ => True) (hl : registry.Linked)
    (hlayered : registry.Layered level) (ht : (engine.tick + 1).toNat + 1 < UInt64.size) :
    ∃ fuel, (engine.nextTick fuel).isSome := by
  have hmoved : ({ engine with tick := engine.tick + 1, pending := [] } :
      Engine σ ρ).Standing registry fun _ => True := ⟨h.tidy, h.actions, h.functions, h.runs⟩
  have hreduced := reduced_expireAll (engine.runs.keysWhere (·.parked))
    { engine with tick := engine.tick + 1, pending := [] }
  have hturned : engine.turnTick.Standing registry fun _ => True := hmoved.reduced hreduced
  have htick : engine.turnTick.tick = engine.tick + 1 := hreduced.tick
  have hresumed := hturned.resumeDue_returns hl (handed_true registry) (by rw [htick]; exact ht) []
  obtain ⟨⟨reports, woken⟩, hresume⟩ := Option.isSome_iff_exists.1 hresumed
  have hwoken := hturned.resumeDue hl (handed_true registry) hresume
  obtain ⟨rfl, hnone⟩ := (resumeDue_iff ..).1 ⟨reports, hresume⟩
  exact (nextTick_returns_iff engine).2 ⟨_, hnone, hwoken.diesOut hl hlayered⟩

/-- Every operation comes to an end, unless it is the last tick. -/
theorem perform_returns (h : engine.Standing registry fun _ => True) (hl : registry.Linked)
    (hlayered : registry.Layered level) (operation : Operation σ)
    (ht : operation = .tick → (engine.tick + 1).toNat + 1 < UInt64.size) :
    ∃ fuel, (engine.perform fuel operation).isSome := by
  have hthen {α : Type} {run : Nat → Option α} {next : α → List RunReport × Engine σ ρ}
      (hrun : ∃ fuel, (run fuel).isSome) :
      ∃ fuel, (do let result ← run fuel; return next result).isSome := by
    obtain ⟨fuel, hfuel⟩ := hrun
    obtain ⟨result, hresult⟩ := Option.isSome_iff_exists.1 hfuel
    exact ⟨fuel, by rw [hresult]; rfl⟩
  cases operation with
  | execute program actor origin => exact hthen (h.execute_returns hl hlayered program actor origin)
  | call name actor origin args =>
    exact hthen (h.callFunction_returns hl hlayered name actor origin args)
  | fireLine world entry actor => exact hthen (h.fireLine_returns hl hlayered world entry actor)
  | fireEvent world region event actor =>
    exact hthen ((h.accept _).executeAll_returns hl hlayered actor _)
  | tick => exact h.nextTick_returns hl hlayered (ht rfl)
  | register definition replace =>
    refine ⟨0, ?_⟩
    unfold perform
    dsimp only
    split <;> rfl
  | stop | disconnect | shutdown | unregister | restore | clear | registerCompiled |
    registerRegion | reloadCatalogue | host => exact ⟨0, rfl⟩

end Standing

end GridScript.Engine
