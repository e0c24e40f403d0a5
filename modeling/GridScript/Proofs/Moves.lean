import GridScript.Proofs.Courses
import GridScript.Proofs.Incidents
import GridScript.Proofs.Registration

/-!
# Moves of an engine

The smallest things an engine does: the machine of a run is stepped, a run is
started, suspended, taken up or ended, a call is asked for from outside, functions
are registered or removed, and the ledger is given up. Every move says what happens
to calls in it. Between two moves in a slice the engine is seen midway, with the run
that executes in the state it has reached.

What a move does to runs, calls, suspensions and statistics is said once, in
`Engine.Moved`; whatever holds at every moment is derived from that.
-/

namespace GridScript

open Incident Journal

namespace SlotMap

variable {α : Type}

/-- One value at most takes the place of another one. -/
structure Swap (before : SlotMap α) (old new : Option α) (after : SlotMap α) : Prop where
  /-- The slots stay in order. -/
  tidy : before.Tidy → after.Tidy
  /-- The old value was there. -/
  held : ∀ value, old = some value → ∃ key, before.get? key = some value
  /-- All values but the new one were there. -/
  kept : before.Tidy → ∀ key value, after.get? key = some value →
    before.get? key = some value ∨ new = some value
  /-- Every sum moves by the difference of the two. -/
  total : before.Tidy → ∀ weight : α → Nat,
    after.total weight + (old.map weight).getD 0 = before.total weight + (new.map weight).getD 0

/-- Nothing takes the place of anything. -/
theorem swap_refl (map : SlotMap α) : map.Swap none none map :=
  ⟨id, nofun, fun _ _ _ hk => .inl hk, fun _ _ => rfl⟩

/-- A value is replaced. -/
theorem swap_set {map : SlotMap α} {key : SlotKey} {old : α} (hk : map.get? key = some old)
    (new : α) : map.Swap (some old) (some new) (map.set key new) where
  tidy ht := tidy_set ht key new
  held value hv := ⟨key, hk.trans hv⟩
  kept _ other value ho := by
    rw [get?_set hk] at ho
    split at ho
    · exact .inr ho
    · exact .inl ho
  total _ weight := total_set hk weight new

/-- A value is added. -/
theorem swap_insert (map : SlotMap α) (new : α) : map.Swap none (some new) (map.insert new).2 where
  tidy ht := tidy_insert ht new
  held := nofun
  kept ht other value ho := by
    rw [get?_insert ht] at ho
    split at ho
    · exact .inr ho
    · exact .inl ho
  total ht weight := total_insert ht weight new

/-- A value is removed. -/
theorem swap_erase {map : SlotMap α} {key : SlotKey} {old : α} (hk : map.get? key = some old) :
    map.Swap (some old) none (map.erase key) where
  tidy ht := tidy_erase ht key
  held value hv := ⟨key, hk.trans hv⟩
  kept _ other value ho := by
    rw [get?_erase] at ho
    split at ho
    · cases ho
    · exact .inl ho
  total _ weight := total_erase hk weight

end SlotMap

namespace Engine

variable {σ ρ : Type}

/-- The engine in the middle of a slice, with the machine of the run that executes and
what surrounds it as they are by then. -/
def midway (engine : Engine σ ρ) (key : RunKey) (run : Run) (machine : Machine)
    (around : Surroundings σ ρ) : Engine σ ρ :=
  { engine with around, runs := engine.runs.set key { run with machine } }

/-- Nothing happens that concerns calls, functions or suspended runs. -/
structure Idles (before after : Engine σ ρ) : Prop where
  /-- The limits are the same. -/
  settings : after.ledger.settings = before.ledger.settings
  /-- The functions and their statistics are the same. -/
  registry : after.ledger.registry = before.ledger.registry
  /-- The number of active calls is the same. -/
  activeCalls : after.ledger.activeCalls = before.ledger.activeCalls
  /-- The numbers of suspended runs are the same. -/
  suspensions : ∀ actor, after.ledger.suspensionCount actor = before.ledger.suspensionCount actor
  /-- The runs are the same. -/
  runs : after.runs = before.runs
  /-- The actions are the same. -/
  actions : after.actions = before.actions
  /-- The journal is continued. -/
  journal : before.journal <:+ after.journal

variable [Host σ]

/-- The engine after a call was asked for from outside: one that is accepted has a run
of its own. -/
def invoke (engine : Engine σ ρ) (name : String) (actor : Actor) (origin : Place)
    (args : ArrivalMap String Value) : Engine σ ρ :=
  match engine.ledger.registry.lookup? name actor origin.world with
  | none => engine
  | some entry =>
    match entry.definition.bindArgs args [] with
    | .error _ => { engine with around := engine.around.reject entry }
    | .ok locals =>
      match engine.around.acquire entry actor with
      | (.error _, around) => { engine with around }
      | (.ok call, around) =>
        (spawn { engine with around } (.ofCall call (.start actor origin locals)) actor origin).2

variable [RandomSource ρ]

/-- A move of an engine, with what happens to calls in it. -/
inductive Moves : Engine σ ρ → List Incident → Engine σ ρ → Prop where
  /-- The machine of a run is stepped. -/
  | step {engine : Engine σ ρ} {key : RunKey} {run : Run}
    (found : engine.runs.get? key = some run) :
    Moves engine (run.machine.incidents engine.actions engine.around)
      (engine.midway key run (run.machine.step engine.actions engine.around).machine
        (run.machine.step engine.actions engine.around).around)
  /-- A run that is out of steps, that may not wait or that is stopped ends with all
  its calls. -/
  | close {engine : Engine σ ρ} {key : RunKey} {run : Run}
    (found : engine.runs.get? key = some run) {outcome : CallOutcome}
    (forced : outcome = .failure ∨ outcome = .cancelled) :
    Moves engine (endings outcome (run.machine.close outcome engine.around).2.now run.machine.calls)
      (engine.midway key run (run.machine.close outcome engine.around).1
        (run.machine.close outcome engine.around).2)
  /-- A run without calls is started. -/
  | spawn {engine : Engine σ ρ} {machine : Machine} {actor : Actor} (origin : Place)
    (owned : machine.Owned actor) (free : machine.calls = []) :
    Moves engine [] (engine.spawn machine actor origin).2
  /-- A call is asked for from outside. -/
  | call (engine : Engine σ ρ) (name : String) (actor : Actor) (origin : Place)
    (args : ArrivalMap String Value) :
    Moves engine (engine.around.attempt (.start actor origin .empty) ⟨name, none, args, []⟩)
      (engine.invoke name actor origin args)
  /-- A run that holds no calls any more is removed. -/
  | finish {engine : Engine σ ρ} {key : RunKey} {run : Run}
    (found : engine.runs.get? key = some run) (free : run.machine.calls = [])
    (result : Except RunError (Option Value)) :
    Moves engine [] (engine.finish key result).2
  /-- A run that may wait is suspended. -/
  | suspend {engine : Engine σ ρ} {key : RunKey} {run : Run} {ledger : Ledger}
    (found : engine.runs.get? key = some run)
    (claimed : engine.ledger.suspend run.actor = (.ok (), ledger)) :
    Moves engine [] { engine with
      around := { engine.around with ledger }
      runs := engine.runs.set key { run with parked := true } }
  /-- A suspended run is taken up. -/
  | unpark {engine : Engine σ ρ} {key : RunKey} {run : Run}
    (found : engine.runs.get? key = some run)
    (parked : Unworn engine.journal → run.parked = true) :
    Moves engine [] (engine.unpark key run)
  /-- The steps of a run are counted. -/
  | count {engine : Engine σ ρ} {key : RunKey} {run : Run}
    (found : engine.runs.get? key = some run) (steps : Nat) :
    Moves engine [] { engine with runs := engine.runs.set key { run with steps } }
  /-- A function is registered or removed. -/
  | request (engine : Engine σ ρ) (request : FunctionRegistry.Request) :
    Moves engine [] (engine.mapRegistry fun registry => (registry.answer request).2)
  /-- All functions are removed. -/
  | clear (engine : Engine σ ρ) : Moves engine [] (engine.mapRegistry .clear)
  /-- The ledger is given up. -/
  | reset (engine : Engine σ ρ) :
    Moves engine [.cleared engine.ledger] (engine.mapLedger .shutdown)
  /-- Nothing happens that concerns calls, functions or suspended runs. -/
  | idle {engine after : Engine σ ρ} (idles : engine.Idles after) : Moves engine [] after

end Engine

/-- A suspension is claimed only below the limit. -/
theorem Ledger.suspend_eq_ok {ledger after : Ledger} {actor : Actor}
    (h : ledger.suspend actor = (.ok (), after)) :
    ledger.suspensionCount actor < ledger.settings.maxSuspensionsPerActor ∧
      after = { ledger with suspensions := ledger.suspensions.add actor } := by
  unfold suspend at h
  dsimp only at h
  split at h
  · cases h
  · rename_i hroom
    cases h
    exact ⟨Nat.lt_of_not_le hroom, rfl⟩

namespace Incident

/-- The number of active calls that were counted when ledgers were given up. -/
def forgottenCalls (incidents : List Incident) : Nat :=
  ((clearances incidents).map (·.activeCalls)).sum

/-- The number of suspended runs of an actor that were counted when ledgers were given
up. -/
def forgottenSuspensions (actor : Actor) (incidents : List Incident) : Nat :=
  ((clearances incidents).map (·.suspensionCount actor)).sum

end Incident

namespace Engine

variable {σ ρ : Type}

/-- What a move does. -/
structure Moved (before : Engine σ ρ) (incidents : List Incident) (after : Engine σ ρ) : Prop where
  /-- One run at most takes the place of another one. It belongs to its actor if the
  other one did, and its calls are those of the other one and the accepted ones,
  without those that ended. What is claimed and given back covers whether it is
  parked. -/
  runs : ∃ old new : Option Run, before.runs.Swap old new after.runs ∧
    ((∀ run, old = some run → run.machine.Owned run.actor) →
      ∀ run, new = some run → run.machine.Owned run.actor) ∧
    admissions incidents ++ (old.map (·.machine.calls)).getD [] =
      departures incidents ++ (new.map (·.machine.calls)).getD [] ∧
    ∀ actor, Unworn before.journal →
      (new.map (Run.restsFor actor)).getD 0 + before.ledger.suspensionCount actor ≤
        (old.map (Run.restsFor actor)).getD 0 + after.ledger.suspensionCount actor +
          forgottenSuspensions actor incidents
  /-- The limits are the same. -/
  settings : after.ledger.settings = before.ledger.settings
  /-- The actions are the same. -/
  actions : after.actions = before.actions
  /-- The journal is continued. -/
  journal : before.journal <:+ after.journal
  /-- The incidents are entered in the statistics, or functions are registered or
  removed. -/
  registry : after.ledger.registry = before.ledger.registry.enterAll incidents ∨
    incidents = [] ∧ ((∃ request,
      after.ledger.registry = (before.ledger.registry.answer request).2) ∨
      after.ledger.registry = before.ledger.registry.clear)
  /-- Calls are asked for of registered functions. -/
  asked : ∀ incident ∈ incidents, ∀ entry, incident.asked? = some entry →
    entry ∈ before.ledger.registry.registered
  /-- Active calls that are not counted any more have ended or are forgotten. -/
  calls : before.ledger.activeCalls + (admissions incidents).length ≤
    after.ledger.activeCalls + (departures incidents).length + forgottenCalls incidents
  /-- The limit on active calls is kept. -/
  callLimit : before.ledger.activeCalls ≤ before.ledger.settings.maxActiveCalls →
    after.ledger.activeCalls ≤ before.ledger.settings.maxActiveCalls
  /-- The limit on suspended runs is kept. -/
  suspensionLimit : ∀ actor,
    before.ledger.suspensionCount actor ≤ before.ledger.settings.maxSuspensionsPerActor →
    after.ledger.suspensionCount actor ≤ before.ledger.settings.maxSuspensionsPerActor

namespace Moved

variable {before after : Engine σ ρ} {incidents : List Incident} {old new : Option Run}

/-- A move after which the ledger is that of the incidents. -/
theorem of_enters (hs : before.runs.Swap old new after.runs)
    (ho : (∀ run, old = some run → run.machine.Owned run.actor) →
      ∀ run, new = some run → run.machine.Owned run.actor)
    (hc : admissions incidents ++ (old.map (·.machine.calls)).getD [] =
      departures incidents ++ (new.map (·.machine.calls)).getD [])
    (hp : ∀ actor, (new.map (Run.restsFor actor)).getD 0 ≤ (old.map (Run.restsFor actor)).getD 0)
    (he : before.ledger.Enters incidents after.ledger) (ha : after.actions = before.actions)
    (hj : before.journal <:+ after.journal)
    (hasked : ∀ incident ∈ incidents, ∀ entry, incident.asked? = some entry →
      entry ∈ before.ledger.registry.registered) : Moved before incidents after where
  runs := by
    refine ⟨old, new, hs, ho, hc, fun actor _ => ?_⟩
    have hparked := hp actor
    have hsame := he.suspensions actor
    omega
  settings := he.settings
  actions := ha
  journal := hj
  registry := .inl he.registry
  asked := hasked
  calls := by
    have hcalls := he.calls
    omega
  callLimit hl := by
    have hcalls := he.calls
    by_cases hn : admissions incidents = []
    · rw [hn, List.length_nil] at hcalls
      omega
    · have hroom := he.room hn
      rw [he.settings] at hroom
      exact hroom
  suspensionLimit actor hl := by
    rw [he.suspensions]
    exact hl

/-- A move in which nothing happens to calls and nothing is claimed or given back. -/
theorem of_quiet (hs : before.runs.Swap old new after.runs)
    (ho : (∀ run, old = some run → run.machine.Owned run.actor) →
      ∀ run, new = some run → run.machine.Owned run.actor)
    (hc : (old.map (·.machine.calls)).getD [] = (new.map (·.machine.calls)).getD [])
    (hp : ∀ actor, (new.map (Run.restsFor actor)).getD 0 ≤ (old.map (Run.restsFor actor)).getD 0)
    (hsettings : after.ledger.settings = before.ledger.settings)
    (hregistry : after.ledger.registry = before.ledger.registry)
    (hactive : after.ledger.activeCalls = before.ledger.activeCalls)
    (hsuspended : ∀ actor,
      after.ledger.suspensionCount actor = before.ledger.suspensionCount actor)
    (ha : after.actions = before.actions) (hj : before.journal <:+ after.journal) :
    Moved before [] after := by
  have he : before.ledger.Enters [] after.ledger :=
    ⟨hsettings, hregistry, hsuspended, hactive, fun h => absurd rfl h⟩
  refine of_enters hs ho ?_ hp he ha hj (by simp)
  exact hc

/-- A change of the registered functions. -/
theorem of_registry (before : Engine σ ρ) (change : FunctionRegistry → FunctionRegistry)
    (h : (∃ request, change before.ledger.registry = (before.ledger.registry.answer request).2) ∨
      change before.ledger.registry = before.ledger.registry.clear) :
    Moved before [] (before.mapRegistry change) where
  runs := by
    have hsuspended (actor : Actor) : (before.mapRegistry change).ledger.suspensionCount actor =
        before.ledger.suspensionCount actor := rfl
    exact ⟨none, none, SlotMap.swap_refl _, fun _ => nofun, rfl,
      fun actor _ => by simp [hsuspended]⟩
  settings := rfl
  actions := rfl
  journal := List.suffix_rfl
  registry := .inr ⟨rfl, h⟩
  asked := by simp
  calls := by
    have hactive : (before.mapRegistry change).ledger.activeCalls =
        before.ledger.activeCalls := rfl
    simp [hactive]
  callLimit hl := hl
  suspensionLimit _ hl := hl

end Moved

/-- A run that is suspended claims a suspension of its actor, within the limit. -/
theorem moved_suspend {engine : Engine σ ρ} {key : RunKey} {run : Run} {ledger : Ledger}
    (hk : engine.runs.get? key = some run)
    (hc : engine.ledger.suspend run.actor = (.ok (), ledger)) :
    Moved engine [] { engine with
      around := { engine.around with ledger }
      runs := engine.runs.set key { run with parked := true } } := by
  obtain ⟨hroom, hledger⟩ := Ledger.suspend_eq_ok hc
  have hcount (actor : Actor) : ledger.suspensionCount actor =
      engine.ledger.suspensionCount actor + if actor = run.actor then 1 else 0 := by
    rw [hledger]
    exact ActorCounts.count_add _ run.actor actor
  have hcalls : ledger.activeCalls = engine.ledger.activeCalls := by rw [hledger]
  refine ⟨⟨some run, some _, SlotMap.swap_set hk _, fun ho next hn => ?_, rfl, fun actor _ => ?_⟩,
    by rw [hledger]; rfl, rfl, List.suffix_rfl, .inl (by rw [hledger]; rfl), by simp, ?_, ?_, ?_⟩
  · cases hn
    exact ho run rfl
  · change _ + _ ≤ _ + ledger.suspensionCount actor + _
    rw [hcount]
    by_cases ha : actor = run.actor
    · simp [Run.restsFor, ha]
      omega
    · simp [Run.restsFor, Ne.symm ha, ha]
  · exact Nat.le_of_eq hcalls.symm
  · intro hl
    change ledger.activeCalls ≤ _
    rw [hcalls]
    exact hl
  · intro actor hl
    change ledger.suspensionCount actor ≤ _
    rw [hcount]
    split
    · rename_i ha
      subst ha
      omega
    · exact hl

/-- A run that is taken up gives its suspension back. -/
theorem moved_unpark {engine : Engine σ ρ} {key : RunKey} {run : Run}
    (hk : engine.runs.get? key = some run)
    (hp : Unworn engine.journal → run.parked = true) :
    Moved engine [] (engine.unpark key run) := by
  have hcount (actor : Actor) : (engine.unpark key run).ledger.suspensionCount actor =
      engine.ledger.suspensionCount actor - if actor = run.actor then 1 else 0 :=
    ActorCounts.count_remove _ run.actor actor
  refine ⟨⟨some run, some _, SlotMap.swap_set hk _, fun ho next hn => ?_, rfl,
    fun actor hu => ?_⟩, rfl, rfl, List.suffix_rfl, .inl rfl, by simp, Nat.le_refl _, id,
    fun actor hl => ?_⟩
  · cases hn
    exact ho run rfl
  · rw [hcount]
    by_cases ha : actor = run.actor
    · simp [Run.restsFor, ha, hp hu]
      omega
    · simp [Run.restsFor, Ne.symm ha, ha]
  · rw [hcount]
    omega

variable [Host σ]

/-- A call that is asked for from outside is accepted, with a run of its own, or
refused. -/
theorem moved_invoke (engine : Engine σ ρ) (name : String) (actor : Actor) (origin : Place)
    (args : ArrivalMap String Value) :
    Moved engine (engine.around.attempt (.start actor origin .empty) ⟨name, none, args, []⟩)
      (engine.invoke name actor origin args) := by
  have hasked : ∀ incident ∈ engine.around.attempt (.start actor origin .empty)
      ⟨name, none, args, []⟩, ∀ entry, incident.asked? = some entry →
        entry ∈ engine.ledger.registry.registered := by
    intro incident hm entry ha
    obtain ⟨found, hregistered, hasked⟩ := Surroundings.exists_asked hm
    cases hasked.symm.trans ha
    exact hregistered
  have hrefused {around : Surroundings σ ρ} {incidents : List Incident}
      (he : engine.ledger.Enters incidents around.ledger)
      (hi : admissions incidents = departures incidents)
      (ha : ∀ incident ∈ incidents, ∀ entry, incident.asked? = some entry →
        entry ∈ engine.ledger.registry.registered) :
      Moved engine incidents { engine with around } :=
    .of_enters (SlotMap.swap_refl _) (fun _ => nofun) (congrArg (· ++ []) hi)
      (fun _ => Nat.le_refl _) he rfl List.suffix_rfl ha
  have hsame : engine.around.ledger = engine.ledger := rfl
  unfold invoke Surroundings.attempt at *
  dsimp only [Context.start] at hasked ⊢
  rw [hsame] at hasked ⊢
  cases hfound : engine.ledger.registry.lookup? name actor origin.world with
  | none => exact hrefused (.refl _) rfl (by simp)
  | some entry =>
    rw [hfound] at hasked
    dsimp only at hasked ⊢
    cases hargs : entry.definition.bindArgs args [] with
    | error error =>
      rw [hargs] at hasked
      exact hrefused (Surroundings.enters_reject _ entry) rfl hasked
    | ok locals =>
      rw [hargs] at hasked
      dsimp only at hasked ⊢
      have hacquired := engine.around.enters_acquire entry actor
      have hactor (call : ActiveCall) (around : Surroundings σ ρ)
          (h : engine.around.acquire entry actor = (.ok call, around)) : call.actor = actor :=
        Machine.actor_of_acquire h
      generalize engine.around.acquire entry actor = claim at hacquired hactor hasked ⊢
      obtain ⟨answer, around⟩ := claim
      cases answer with
      | error error => exact hrefused hacquired.2 rfl hasked
      | ok call =>
        obtain ⟨-, -, henters⟩ := hacquired
        have howned : (Machine.ofCall call (.start actor origin locals)).Owned actor :=
          (Machine.owned_ofCall (hactor call around rfl)).1
        refine .of_enters (SlotMap.swap_insert _ _) (fun _ run hrun => ?_) rfl
          (fun actor => by simp [Run.restsFor]) ?_ rfl (List.suffix_cons _ _) hasked
        · cases hrun
          exact howned
        · exact ⟨henters.settings, henters.registry, henters.suspensions, henters.calls,
            henters.room⟩

variable [RandomSource ρ]

/-- What happens in a step of a run. -/
theorem moved_step {engine : Engine σ ρ} (ht : engine.actions.Keeps) {key : RunKey} {run : Run}
    (hk : engine.runs.get? key = some run) :
    Moved engine (run.machine.incidents engine.actions engine.around)
      (engine.midway key run (run.machine.step engine.actions engine.around).machine
        (run.machine.step engine.actions engine.around).around) := by
  have htells := Machine.tells_step ht run.machine engine.around
  refine .of_enters (SlotMap.swap_set hk _) (fun ho next hn => ?_) htells.stack
    (fun _ => Nat.le_refl _) htells.ledger rfl List.suffix_rfl
    fun incident hm entry ha => Machine.asked_incidents ht hm ha
  cases hn
  exact (Machine.settled_step ht (ho run rfl) engine.around).owned

omit [RandomSource ρ] in
/-- What happens when a run ends with all its calls. -/
theorem moved_close {engine : Engine σ ρ} {key : RunKey} {run : Run}
    (hk : engine.runs.get? key = some run) (outcome : CallOutcome) :
    Moved engine (endings outcome (run.machine.close outcome engine.around).2.now run.machine.calls)
      (engine.midway key run (run.machine.close outcome engine.around).1
        (run.machine.close outcome engine.around).2) := by
  have henters := run.machine.enters_close outcome engine.around
  refine .of_enters (SlotMap.swap_set hk _) (fun _ next hn => ?_) ?_ (fun _ => Nat.le_refl _)
    henters rfl List.suffix_rfl fun incident hm entry ha => ?_
  · cases hn
    exact Machine.owned_of_empty rfl
  · rw [admissions_endings, departures_endings]
    exact (List.append_nil _).symm
  · rw [asked?_endings hm] at ha
    cases ha

/-- What each move does. -/
theorem Moves.moved {engine after : Engine σ ρ} {incidents : List Incident}
    (h : Moves engine incidents after) (ht : engine.actions.Keeps) :
    Moved engine incidents after := by
  cases h with
  | step found => exact moved_step ht found
  | close found forced => exact moved_close found _
  | @spawn machine actor origin owned free =>
    refine .of_quiet (SlotMap.swap_insert _ _) (fun _ run hrun => ?_) free.symm
      (fun _ => by simp [Run.restsFor]) rfl rfl rfl (fun _ => rfl) rfl (List.suffix_cons _ _)
    cases hrun
    exact owned
  | call name actor origin args => exact moved_invoke engine name actor origin args
  | @finish key run found free result =>
    obtain ⟨-, hruns, hjournal, hledger, hquiet⟩ := finish_of_get? found result
    have hswap : engine.runs.Swap (some run) none (engine.finish key result).2.runs := by
      rw [hruns]
      exact SlotMap.swap_erase found
    refine .of_quiet hswap (fun _ next hn => ?_) free (fun _ => Nat.zero_le _) ?_ ?_ ?_
      (fun _ => ?_) hquiet.actions ?_
    · cases hn
    · rw [hledger]
      rfl
    · rw [hledger]
      rfl
    · rw [hledger]
      rfl
    · rw [hledger]
      rfl
    · rw [hjournal]
      exact List.suffix_cons _ _
  | suspend found claimed => exact moved_suspend found claimed
  | unpark found parked => exact moved_unpark found parked
  | @count key run found steps =>
    refine .of_quiet (SlotMap.swap_set found _) (fun ho next hn => ?_) rfl
      (fun _ => Nat.le_refl _) rfl rfl rfl (fun _ => rfl) rfl List.suffix_rfl
    cases hn
    exact ho run rfl
  | request request => exact .of_registry engine _ (.inl ⟨request, rfl⟩)
  | clear => exact .of_registry engine _ (.inr rfl)
  | reset =>
    have hcleared : clearances [.cleared engine.ledger] = [engine.ledger] := rfl
    refine ⟨⟨none, none, SlotMap.swap_refl _, fun _ next hn => ?_, rfl, fun actor _ => ?_⟩, rfl,
      rfl, List.suffix_rfl, .inl rfl, ?_, ?_, fun _ => Nat.zero_le _, fun _ _ => Nat.zero_le _⟩
    · cases hn
    · simp [forgottenSuspensions, hcleared]
    · intro incident hm entry ha
      cases List.mem_singleton.1 hm
      cases ha
    · have hnone : admissions [.cleared engine.ledger] = [] := rfl
      simp [forgottenCalls, hcleared, hnone]
  | idle idles =>
    have hswap : engine.runs.Swap none none after.runs := by
      rw [idles.runs]
      exact SlotMap.swap_refl _
    refine .of_quiet hswap (fun _ next hn => ?_) rfl (fun _ => Nat.le_refl _) idles.settings
      idles.registry idles.activeCalls idles.suspensions idles.actions idles.journal
    cases hn

end Engine

end GridScript
