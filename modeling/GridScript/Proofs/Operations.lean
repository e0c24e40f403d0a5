import GridScript.Engine.Trigger
import GridScript.Proofs.Lifecycle

/-!
# Operations and histories

Everything that can be done with an engine from outside: triggers, ticks, stopping
runs, changes of the registered functions, and whatever happens to the host in
between. An operation that does not come to an end has no result. A history is a
sequence of operations that did, starting from an engine without runs, together
with all reports that were handed out.
-/

namespace GridScript

open Journal

/-- What can be done with an engine whose host has states of type `σ`. -/
inductive Operation (σ : Type) where
  /-- Run a program. -/
  | execute (program : Program) (actor : Actor) (origin : Place)
  /-- Run a function. -/
  | call (name : String) (actor : Actor) (origin : Place) (args : ArrivalMap String Value)
  /-- Run the line of code at a cell. -/
  | fireLine (world : World) (entry : Position) (actor : Actor)
  /-- Run what a region has for an event. -/
  | fireEvent (world : World) (region : Region) (event : String) (actor : Actor)
  /-- Move to the next tick. -/
  | tick
  /-- Stop a run. -/
  | stop (key : RunKey)
  /-- Stop the runs of an actor. -/
  | disconnect (actor : Actor)
  /-- Stop all runs. -/
  | shutdown
  /-- Register a function. -/
  | register (definition : FunctionDefinition) (replace : Bool)
  /-- Remove a function. -/
  | unregister (name : String) (scope : FunctionScope) (owner : Actor)
  /-- Put other functions in the place of all. -/
  | restore (definitions : List FunctionDefinition)
  /-- Remove all functions. -/
  | clear
  /-- Register a function from its compiled program. -/
  | registerCompiled (program : Program) (owner : Actor) (scope : FunctionScope) (replace : Bool)
  /-- Register the functions of a region. -/
  | registerRegion (world : World) (region : Region) (owner : Actor) (scope : FunctionScope)
    (replace : Bool)
  /-- Replace the catalogue; where that is not possible everything stays as it is. -/
  | reloadCatalogue (catalogue : Catalogue)
  /-- Something happens to the host. -/
  | host (change : σ → σ)

namespace Engine

variable {σ ρ : Type}

/-- The engine with other functions. -/
def mapRegistry (engine : Engine σ ρ) (change : FunctionRegistry → FunctionRegistry) :
    Engine σ ρ :=
  engine.mapLedger fun ledger => { ledger with registry := change ledger.registry }

/-- The engine with a changed host. -/
def mapHost (engine : Engine σ ρ) (change : σ → σ) : Engine σ ρ :=
  { engine with around := { engine.around with host := change engine.around.host } }

variable [Host σ] [RandomSource ρ]

/-- Performs an operation, with the reports it hands out. -/
def perform (fuel : Nat) (engine : Engine σ ρ) :
    Operation σ → Option (List RunReport × Engine σ ρ)
  | .execute program actor origin => do
    let (execution, engine) ← engine.execute fuel program actor origin
    return (execution.report?.toList, engine)
  | .call name actor origin args => do
    let (result, engine) ← engine.callFunction fuel name actor origin args
    return ((result.toOption.bind Execution.report?).toList, engine)
  | .fireLine world entry actor => do
    let (result, engine) ← engine.fireLine fuel world entry actor
    return ((result.toOption.bind Execution.report?).toList, engine)
  | .fireEvent world region event actor => do
    let (executions, engine) ← engine.fireEvent fuel world region event actor
    return (executions.filterMap Execution.report?, engine)
  | .tick => engine.nextTick fuel
  | .stop key =>
    let (report, engine) := engine.stop key
    some (report.toList, engine)
  | .disconnect actor => some (engine.disconnect actor)
  | .shutdown => some engine.shutdown
  | .register definition replace =>
    match engine.ledger.registry.register definition replace with
    | .ok (_, registry) => some ([], engine.mapRegistry fun _ => registry)
    | .error _ => some ([], engine)
  | .unregister name scope owner =>
    some ([], engine.mapRegistry fun registry => (registry.unregister name scope owner).2)
  | .restore definitions =>
    some ([], engine.mapRegistry fun registry => (registry.restore definitions).2)
  | .clear => some ([], engine.mapRegistry FunctionRegistry.clear)
  | .registerCompiled program owner scope replace =>
    some ([], (engine.registerCompiled program owner scope replace).2)
  | .registerRegion world region owner scope replace =>
    some ([], (engine.registerRegion world region owner scope replace).2)
  | .reloadCatalogue catalogue => some ([], (engine.reloadCatalogue? catalogue).getD engine)
  | .host change => some ([], engine.mapHost change)

omit [Host σ] [RandomSource ρ] in
/-- Replacing the catalogue changes nothing but the catalogue and what was compiled with it. -/
theorem exists_reloadCatalogue (engine : Engine σ ρ) (other : Catalogue) :
    ∃ catalogue cache,
      (engine.reloadCatalogue? other).getD engine = { engine with catalogue, cache } := by
  unfold reloadCatalogue?
  cases engine.catalogue.reload? other with
  | none => exact ⟨_, _, rfl⟩
  | some catalogue => exact ⟨_, _, rfl⟩

end Engine

/-- An engine that some operations led to, with all reports they handed out. -/
inductive History {σ ρ : Type} [Host σ] [RandomSource ρ] :
    Engine σ ρ → List RunReport → Prop where
  /-- An engine without runs and a ledger with nothing in use. -/
  | initial (host : σ) (random : ρ) (settings : Settings) (catalogue : Catalogue)
    (layout : Layout) :
    History (Engine.initial host random (Ledger.initial settings) catalogue layout) []
  /-- One more operation that came to an end. -/
  | step {engine after : Engine σ ρ} {returned reports : List RunReport} {fuel : Nat}
    {operation : Operation σ} (past : History engine returned)
    (performed : engine.perform fuel operation = some (reports, after)) :
    History after (returned ++ reports)

namespace Engine

variable {σ ρ : Type} [Host σ] [RandomSource ρ]

/-- An operation that leaves the engine at rest: in order, with nothing in the
queue, and with a report, handed out or pending, for every run that ended. -/
structure Settles (before : Engine σ ρ) (reports : List RunReport) (after : Engine σ ρ) :
    Prop where
  /-- Everything is in order. -/
  sound : after.Sound []
  /-- The queue is empty. -/
  ready : after.ready = []
  /-- The journal is continued. -/
  journal : ∃ news, after.journal = news ++ before.journal
  /-- Reports that were not pending before are of the runs that ended. -/
  reports : ((reports ++ after.pending).map (·.key) ++ endings before.journal).Perm
    (before.pending.map (·.key) ++ endings after.journal)

/-- An operation that leaves the engine at rest and hands out no report that was
pending before. -/
structure Accrues (before : Engine σ ρ) (reports : List RunReport) (after : Engine σ ρ) :
    Prop extends Settles before reports after where
  /-- What was pending is still so. -/
  pending : before.pending <+: after.pending

namespace Accrues

/-- Two operations in a row are as good as one. -/
theorem trans {first second third : Engine σ ρ} {reports more : List RunReport}
    (h₁ : Accrues first reports second) (h₂ : Accrues second more third) :
    Accrues first (reports ++ more) third := by
  obtain ⟨news, hn⟩ := h₁.journal
  obtain ⟨later, hl⟩ := h₂.journal
  refine ⟨⟨h₂.sound, h₂.ready, ⟨later ++ news, by rw [hl, hn, List.append_assoc]⟩, ?_⟩,
    h₁.pending.trans h₂.pending⟩
  have hfirst := h₁.reports
  have hsecond := h₂.reports
  rw [List.perm_iff_count] at hfirst hsecond ⊢
  intro key
  have hone := hfirst key
  have htwo := hsecond key
  simp only [List.map_append, List.count_append] at hone htwo ⊢
  omega

/-- What leads to an engine with an empty queue leaves it at rest. -/
theorem of_leads {before after : Engine σ ρ} {reports : List RunReport} (hs : after.Sound [])
    (hr : after.ready = []) (hl : Leads before after reports) :
    Accrues before reports after := by
  refine ⟨⟨hs, hr, hl.journal, ?_⟩, hl.pending ▸ List.prefix_rfl⟩
  have hreports := hl.reports
  rw [List.perm_iff_count] at hreports ⊢
  intro key
  have hone := hreports key
  simp only [hl.pending, List.map_append, List.count_append] at hone ⊢
  omega

/-- A change that has nothing to do with runs leaves the engine at rest. -/
theorem of_congr {before after : Engine σ ρ} (hs : before.Sound []) (hr : before.ready = [])
    (hl : after.ledger.settings = before.ledger.settings ∧
      after.ledger.activeRuns = before.ledger.activeRuns ∧
      after.ledger.activeCalls = before.ledger.activeCalls ∧
      after.ledger.depths = before.ledger.depths ∧
      after.ledger.suspensions = before.ledger.suspensions)
    (hruns : after.runs = before.runs) (hq : Undisturbed before after)
    (hj : after.journal = before.journal) : Accrues before [] after := by
  obtain ⟨hsettings, hactive, hcalls, hdepths, hsuspensions⟩ := hl
  have hdepth (actor : Actor) : after.ledger.callDepth actor = before.ledger.callDepth actor :=
    congrArg (ActorCounts.count · actor) hdepths
  have hcount (actor : Actor) :
      after.ledger.suspensionCount actor = before.ledger.suspensionCount actor :=
    congrArg (ActorCounts.count · actor) hsuspensions
  refine of_leads ⟨?_, fun actor => ?_⟩ (hq.ready.trans hr) (.of_news [] hj rfl hq.pending)
  · exact hs.congr hruns hq.sleeping hq.ready hq.sequence hj hq.actions hcount
  · rw [hruns]
    exact (hs.balanced actor).of_counts hsettings hactive hcalls hdepth
      fun other => Nat.le_of_eq (hcount other)

end Accrues

/-- A run that is started leaves the engine at rest, whatever was claimed for it before. -/
theorem Kept.accrues_start {fuel : Nat} {before engine after : Engine σ ρ} {machine : Machine}
    {actor : Actor} {origin : Place} {execution : Execution} (h : engine.Kept [])
    (ho : machine.Owned actor)
    (hb : Balanced engine.ledger engine.runs actor machine.callDepth)
    (hj : engine.journal = before.journal) (hp : engine.pending = before.pending)
    (hs : engine.start fuel machine actor origin = some (execution, after)) :
    Accrues before execution.report?.toList after := by
  obtain ⟨hsound, hready, forked, hpending, hjournal, hreports⟩ := h.start ho hb hs
  rw [hj] at hjournal hreports
  rw [hp] at hpending
  refine ⟨⟨hsound, hready, hjournal, ?_⟩, forked, hpending.symm⟩
  rw [List.perm_iff_count] at hreports ⊢
  intro key
  have hone := hreports key
  simp only [hpending, List.map_append, List.count_append] at hone ⊢
  omega

/-- Running a program leaves the engine at rest. -/
theorem Sound.accrues_execute {fuel : Nat} {engine after : Engine σ ρ} {program : Program}
    {actor : Actor} {origin : Place} {execution : Execution} (h : engine.Sound [])
    (he : engine.execute fuel program actor origin = some (execution, after)) :
    Accrues engine execution.report?.toList after := by
  obtain ⟨howned, hdepth⟩ :=
    Machine.owned_ofScript (.ofProgram program) (.start actor origin .empty)
  refine h.accrues_start howned ?_ rfl rfl he
  rw [hdepth]
  exact h.balanced _

/-- Running several programs leaves the engine at rest. -/
theorem Sound.accrues_executeAll {fuel : Nat} {engine after : Engine σ ρ} {actor : Actor}
    {programs : List Program} {executions : List Execution} (h : engine.Sound [])
    (hr : engine.ready = [])
    (he : engine.executeAll fuel actor programs = some (executions, after)) :
    Accrues engine (executions.filterMap Execution.report?) after := by
  induction programs generalizing engine executions with
  | nil =>
    cases he
    exact .of_leads h hr (.refl _)
  | cons program rest ih =>
    unfold executeAll at he
    simp only [Option.bind_eq_bind, Option.bind_eq_some_iff, Option.pure_def, Option.some.injEq]
      at he
    obtain ⟨⟨execution, next⟩, hfirst, ⟨more, last⟩, hrest, hend⟩ := he
    cases hend
    have hone := h.accrues_execute hfirst
    have hall := hone.trans (ih hone.sound hone.ready hrest)
    rw [Execution.filterMap_cons]
    exact hall

/-- Running a function leaves the engine at rest, also if it is refused. -/
theorem Sound.accrues_callFunction {fuel : Nat} {engine after : Engine σ ρ} {name : String}
    {actor : Actor} {origin : Place} {args : ArrivalMap String Value}
    {result : Except RunError Execution} (h : engine.Sound []) (hr : engine.ready = [])
    (hc : engine.callFunction fuel name actor origin args = some (result, after)) :
    Accrues engine (result.toOption.bind Execution.report?).toList after := by
  unfold callFunction at hc
  split at hc
  · cases hc
    exact .of_leads h hr (.refl engine)
  · rename_i entry _
    split at hc
    · cases hc
      exact .of_congr h hr ⟨rfl, rfl, rfl, rfl, rfl⟩ rfl ⟨rfl, rfl, rfl, rfl, rfl, rfl⟩ rfl
    · rename_i locals _
      have hacquired :=
        Ledger.exchange_acquire engine.around.ledger entry actor engine.around.now 0
      unfold Surroundings.acquire at hc
      generalize engine.around.ledger.acquire entry actor engine.around.now = claim
        at hacquired hc
      obtain ⟨answer, ledger⟩ := claim
      cases answer with
      | error error =>
        cases hc
        have hb (other : Actor) : Balanced ledger engine.runs other 0 :=
          ((h.balanced actor).exchange hacquired).anyone other
        refine .of_leads ⟨?_, hb⟩ hr (.of_news [] rfl rfl rfl)
        exact h.congr rfl rfl rfl rfl rfl rfl hacquired.suspensions
      | ok call =>
        obtain ⟨hactor, hx⟩ := hacquired
        simp only [Option.bind_eq_bind, Option.bind_eq_some_iff, Option.pure_def,
          Option.some.injEq] at hc
        obtain ⟨⟨execution, last⟩, hstart, hend⟩ := hc
        cases hend
        have hmachine : (Machine.ofCall call (.start actor origin locals)).Owned actor ∧
            (Machine.ofCall call (.start actor origin locals)).callDepth = 1 :=
          Machine.owned_ofCall hactor
        obtain ⟨howned, hdepth⟩ := hmachine
        have hkept : ({ engine with around := { engine.around with ledger } } :
            Engine σ ρ).Kept [] := h.congr rfl rfl rfl rfl rfl rfl hx.suspensions
        refine hkept.accrues_start howned ?_ rfl rfl hstart
        rw [hdepth]
        exact (h.balanced actor).exchange hx

omit [Host σ] [RandomSource ρ] in
/-- Taking up compiled programs changes nothing but cache, identities and
notices. -/
theorem accept_eq {α : Type} (engine : Engine σ ρ) (served : Served α) :
    ∃ notices, engine.accept served = { engine with
      cache := served.cache
      ids := served.ids
      around := { engine.around with notices } } := by
  have hfold : ∀ (findings : List CompileError) (engine : Engine σ ρ), ∃ notices,
      findings.foldl (fun engine finding => engine.note (.finding finding)) engine =
        { engine with around := { engine.around with notices } } := by
    intro findings
    induction findings with
    | nil => exact fun engine => ⟨engine.around.notices, rfl⟩
    | cons finding rest ih =>
      intro engine
      obtain ⟨notices, hrest⟩ := ih (engine.note (.finding finding))
      exact ⟨notices, hrest⟩
  exact hfold served.findings _

/-- Taking up compiled programs leaves the engine at rest. -/
theorem Sound.accrues_accept {α : Type} {engine : Engine σ ρ} (h : engine.Sound [])
    (hr : engine.ready = []) (served : Served α) : Accrues engine [] (engine.accept served) := by
  obtain ⟨notices, he⟩ := engine.accept_eq served
  rw [he]
  exact .of_congr h hr ⟨rfl, rfl, rfl, rfl, rfl⟩ rfl ⟨rfl, rfl, rfl, rfl, rfl, rfl⟩ rfl

/-- A line of code that is run is compiled first; it is refused or executed. -/
theorem fireLine_cases {fuel : Nat} {engine after : Engine σ ρ} {world : World}
    {entry : Position} {actor : Actor} {result : Except RunError Execution}
    (h : engine.fireLine fuel world entry actor = some (result, after)) :
    ∃ served : Served (Except CompileError Program),
      (result.toOption = none ∧ after = engine.accept served) ∨
        ∃ program execution, result = .ok execution ∧
          (engine.accept served).execute fuel program actor program.origin =
            some (execution, after) := by
  refine ⟨engine.cache.line (engine.workshop world) entry engine.ids, ?_⟩
  unfold fireLine at h
  dsimp only at h
  split at h
  · cases h
    exact .inl ⟨rfl, rfl⟩
  · split at h
    · cases h
      exact .inl ⟨rfl, rfl⟩
    · simp only [Option.bind_eq_bind, Option.bind_eq_some_iff] at h
      obtain ⟨⟨execution, last⟩, hexecute, hend⟩ := h
      cases hend
      exact .inr ⟨_, execution, rfl, hexecute⟩

/-- Changing the registered functions leaves the engine at rest. -/
theorem Sound.accrues_mapRegistry {engine : Engine σ ρ} (h : engine.Sound [])
    (hr : engine.ready = []) (change : FunctionRegistry → FunctionRegistry) :
    Accrues engine [] (engine.mapRegistry change) :=
  .of_congr h hr ⟨rfl, rfl, rfl, rfl, rfl⟩ rfl ⟨rfl, rfl, rfl, rfl, rfl, rfl⟩ rfl

/-- Registering a compiled function leaves the engine at rest. -/
theorem Sound.accrues_registerCompiled {engine : Engine σ ρ} (h : engine.Sound [])
    (hr : engine.ready = []) (program : Program) (owner : Actor) (scope : FunctionScope)
    (replace : Bool) :
    Accrues engine [] (engine.registerCompiled program owner scope replace).2 := by
  unfold registerCompiled
  split
  · exact .of_leads h hr (.refl engine)
  · dsimp only
    split
    · exact .of_congr h hr ⟨rfl, rfl, rfl, rfl, rfl⟩ rfl ⟨rfl, rfl, rfl, rfl, rfl, rfl⟩ rfl
    · exact .of_congr h hr ⟨rfl, rfl, rfl, rfl, rfl⟩ rfl ⟨rfl, rfl, rfl, rfl, rfl, rfl⟩ rfl

/-- Registering several compiled functions leaves the engine at rest. -/
theorem Sound.accrues_registerPrograms {engine : Engine σ ρ} (h : engine.Sound [])
    (hr : engine.ready = []) (owner : Actor) (scope : FunctionScope) (replace : Bool)
    (programs : List Program) :
    Accrues engine [] (engine.registerPrograms owner scope replace programs).2 := by
  induction programs generalizing engine with
  | nil => exact .of_leads h hr (.refl engine)
  | cons program rest ih =>
    have hone := h.accrues_registerCompiled hr program owner scope replace
    exact hone.trans (ih hone.sound hone.ready)

omit [RandomSource ρ] in
/-- What is under way after a run was cancelled is another run that was under way
before. -/
theorem get?_of_cancel {engine : Engine σ ρ} {key other : RunKey} {reason : CancelReason}
    {run : Run} (h : (engine.cancel key reason).2.runs.get? other = some run) :
    other ≠ key ∧ engine.runs.get? other = some run := by
  unfold cancel at h
  cases hk : engine.runs.get? key with
  | none =>
    simp only [hk] at h
    refine ⟨?_, h⟩
    rintro rfl
    rw [hk] at h
    cases h
  | some found =>
    simp only [hk, (finish_runs _ _ _).1, SlotMap.get?_erase] at h
    split at h
    · cases h
    · rename_i hne
      refine ⟨hne, ?_⟩
      rw [← h]
      split
      · have hput := SlotMap.get?_set hk { found with parked := false } key
        rw [if_pos rfl] at hput
        refine (((SlotMap.get?_set hput _ other).trans (if_neg hne)).trans ?_).symm
        exact (SlotMap.get?_set hk _ other).trans (if_neg hne)
      · exact ((SlotMap.get?_set hk _ other).trans (if_neg hne)).symm

omit [RandomSource ρ] in
/-- What is under way after some runs were cancelled is none of them. -/
theorem get?_of_cancelAll {keys : List RunKey} {engine : Engine σ ρ} {other : RunKey}
    {reason : CancelReason} {run : Run}
    (h : (engine.cancelAll reason keys).2.runs.get? other = some run) :
    other ∉ keys ∧ engine.runs.get? other = some run := by
  induction keys generalizing engine with
  | nil => exact ⟨by simp, h⟩
  | cons key rest ih =>
    obtain ⟨hrest, hget⟩ := ih h
    obtain ⟨hne, hget⟩ := get?_of_cancel hget
    exact ⟨by simp [hne, hrest], hget⟩

omit [RandomSource ρ] in
/-- Nothing is under way after all runs were stopped. -/
theorem get?_shutdown (engine : Engine σ ρ) (key : RunKey) :
    engine.shutdown.2.runs.get? key = none := by
  cases hk : engine.shutdown.2.runs.get? key with
  | none => rfl
  | some run =>
    obtain ⟨hnot, hget⟩ := get?_of_cancelAll hk
    exact absurd (SlotMap.mem_keysWhere.2 ⟨run, hget, rfl⟩) hnot

/-- Stopping all runs leaves the engine at rest. -/
theorem Sound.accrues_shutdown {engine : Engine σ ρ} (h : engine.Sound [])
    (hr : engine.ready = []) : Accrues engine engine.shutdown.1 engine.shutdown.2 := by
  obtain ⟨hsound, hleads, -⟩ := h.cancelAll .shutdown (engine.runs.keysWhere fun _ => true) hr
  refine .of_leads ⟨⟨hsound.chronicle, fun _ => ?_, hsound.rested, hsound.actions⟩,
    hsound.balanced⟩ rfl ⟨hleads.journal, hleads.reports, hleads.pending⟩
  exact Scheduled.of_none engine.get?_shutdown

/-- A tick leaves the engine at rest. -/
theorem Sound.settles_nextTick {fuel : Nat} {engine after : Engine σ ρ}
    {reports : List RunReport} (h : engine.Sound [])
    (hd : engine.nextTick fuel = some (reports, after)) : Settles engine reports after := by
  obtain ⟨hsound, hready, hpending, more, hmore, hjournal, hreports⟩ := h.nextTick hd
  refine ⟨hsound, hready, hjournal, ?_⟩
  rw [List.perm_iff_count] at hreports ⊢
  intro key
  have hone := hreports key
  simp only [hmore, hpending, List.append_nil, List.map_append, List.count_append] at hone ⊢
  omega

/-- Every operation but a tick leaves the engine at rest and hands out no report
that was pending. -/
theorem Sound.accrues_perform {fuel : Nat} {engine after : Engine σ ρ}
    {operation : Operation σ} {reports : List RunReport} (h : engine.Sound [])
    (hr : engine.ready = []) (ht : operation ≠ .tick)
    (hp : engine.perform fuel operation = some (reports, after)) :
    Accrues engine reports after := by
  cases operation with
  | execute program actor origin =>
    simp only [perform, Option.bind_eq_bind, Option.bind_eq_some_iff] at hp
    obtain ⟨⟨execution, last⟩, hexecute, hend⟩ := hp
    cases hend
    exact h.accrues_execute hexecute
  | call name actor origin args =>
    simp only [perform, Option.bind_eq_bind, Option.bind_eq_some_iff] at hp
    obtain ⟨⟨result, last⟩, hcall, hend⟩ := hp
    cases hend
    exact h.accrues_callFunction hr hcall
  | fireLine world entry actor =>
    simp only [perform, Option.bind_eq_bind, Option.bind_eq_some_iff] at hp
    obtain ⟨⟨result, last⟩, hfire, hend⟩ := hp
    cases hend
    obtain ⟨served, ⟨hnone, rfl⟩ | ⟨program, execution, rfl, hexecute⟩⟩ := fireLine_cases hfire
    · rw [hnone]
      exact h.accrues_accept hr served
    · have haccept := h.accrues_accept hr served
      exact haccept.trans (haccept.sound.accrues_execute hexecute)
  | fireEvent world region event actor =>
    simp only [perform, Option.bind_eq_bind, Option.bind_eq_some_iff] at hp
    obtain ⟨⟨executions, last⟩, hfire, hend⟩ := hp
    cases hend
    have haccept := h.accrues_accept hr
      (engine.cache.region (engine.workshop world) region engine.ids)
    exact haccept.trans (haccept.sound.accrues_executeAll haccept.ready hfire)
  | tick => exact absurd rfl ht
  | stop key =>
    cases hp
    obtain ⟨hsound, hleads⟩ := h.cancel key .stopped (by simp [hr]) fun _ => rfl
    exact .of_leads hsound ((cancel_ready engine key .stopped).trans hr) hleads
  | disconnect actor =>
    obtain ⟨rfl, rfl⟩ := Prod.ext_iff.1 (Option.some.inj hp)
    obtain ⟨hsound, hleads, hready⟩ := h.cancelAll (.disconnected actor)
      (engine.runs.keysWhere fun run => run.actor == actor) hr
    exact .of_leads hsound hready hleads
  | shutdown =>
    cases hp
    exact h.accrues_shutdown hr
  | register definition replace =>
    simp only [perform] at hp
    split at hp
    · cases hp
      exact h.accrues_mapRegistry hr _
    · cases hp
      exact .of_leads h hr (.refl _)
  | unregister name scope owner =>
    cases hp
    exact h.accrues_mapRegistry hr _
  | restore definitions =>
    cases hp
    exact h.accrues_mapRegistry hr _
  | clear =>
    cases hp
    exact h.accrues_mapRegistry hr _
  | registerCompiled program owner scope replace =>
    cases hp
    exact h.accrues_registerCompiled hr program owner scope replace
  | registerRegion world region owner scope replace =>
    cases hp
    have haccept := h.accrues_accept hr
      (engine.cache.region (engine.workshop world) region engine.ids)
    exact haccept.trans
      (haccept.sound.accrues_registerPrograms haccept.ready owner scope replace _)
  | reloadCatalogue other =>
    obtain ⟨catalogue, cache, hreload⟩ := engine.exists_reloadCatalogue other
    simp only [perform, hreload] at hp
    cases hp
    exact .of_congr h hr ⟨rfl, rfl, rfl, rfl, rfl⟩ rfl ⟨rfl, rfl, rfl, rfl, rfl, rfl⟩ rfl
  | host change =>
    cases hp
    exact .of_congr h hr ⟨rfl, rfl, rfl, rfl, rfl⟩ rfl ⟨rfl, rfl, rfl, rfl, rfl, rfl⟩ rfl

/-- Every operation leaves the engine at rest. -/
theorem Sound.settles_perform {fuel : Nat} {engine after : Engine σ ρ}
    {operation : Operation σ} {reports : List RunReport} (h : engine.Sound [])
    (hr : engine.ready = []) (hp : engine.perform fuel operation = some (reports, after)) :
    Settles engine reports after := by
  by_cases ht : operation = .tick
  · subst ht
    exact h.settles_nextTick hp
  · exact (h.accrues_perform hr ht hp).toSettles

end Engine

namespace History

variable {σ ρ : Type} [Host σ] [RandomSource ρ]

/-- After every history the engine is in order, nothing is in the queue, and the
reports handed out and pending are those of the runs that ended. -/
theorem settled {engine : Engine σ ρ} {returned : List RunReport} (h : History engine returned) :
    engine.Sound [] ∧ engine.ready = [] ∧
      ((returned ++ engine.pending).map (·.key)).Perm (endings engine.journal) := by
  induction h with
  | initial host random settings catalogue layout =>
    refine ⟨⟨⟨.initial, fun _ => Scheduled.of_none fun _ => rfl, fun _ _ => rfl,
      ActionTable.keeps_standard⟩, fun actor => .initial settings actor⟩, rfl, .refl _⟩
  | step past performed ih =>
    obtain ⟨hsound, hready, hreports⟩ := ih
    have hsettles := hsound.settles_perform hready performed
    refine ⟨hsettles.sound, hsettles.ready, ?_⟩
    have hnew := hsettles.reports
    rw [List.perm_iff_count] at hreports hnew ⊢
    intro key
    have hold := hreports key
    have hone := hnew key
    simp only [List.map_append, List.count_append] at hold hone ⊢
    omega

end History

end GridScript
