import GridScript.Proofs.Histories
import GridScript.Proofs.Passages

/-!
# Careers of an engine

A career is a sequence of operations that came to an end, with the ledger given up at
any moment in between, whatever runs are under way. It consists of moves, and a record
of it is the list of everything that happened to calls in them. This module shows that
every career has a record, and of the operations that stop runs that nothing happens to
calls in them but that some are cancelled.
-/

namespace GridScript

open Incident Journal

namespace Engine

variable {σ ρ : Type} [Host σ] [RandomSource ρ] {engine after : Engine σ ρ} {fuel : Nat}
  {kind : Incident → Prop}

/-- Serving the queue empties it. -/
theorem ready_of_drain {reports all : List RunReport}
    (h : engine.drain fuel reports = some (all, after)) : after.ready = [] := by
  induction fuel generalizing engine reports with
  | zero =>
    unfold drain at h
    split at h
    · rename_i hempty
      cases h
      exact List.isEmpty_iff.1 hempty
    · cases h
  | succ fuel ih =>
    unfold drain at h
    split at h
    · rename_i hempty
      cases h
      exact hempty
    · exact ih h

/-- Nothing is being executed, and nothing is in the queue. -/
structure AtRest (engine : Engine σ ρ) : Prop where
  /-- Runs, sleeping entries and journal are in order. -/
  inOrder : engine.InOrder []
  /-- The queue is empty. -/
  ready : engine.ready = []

omit [Host σ] [RandomSource ρ] in
/-- A change of what runs share leaves the engine at rest. -/
theorem AtRest.of_around (h : engine.AtRest) (around : Surroundings σ ρ) :
    ({ engine with around } : Engine σ ρ).AtRest :=
  ⟨h.inOrder.congr rfl rfl rfl rfl rfl, h.ready⟩

/-- An engine gets from one state to another, in which it is at rest, by moves in which
only such things happen to calls. -/
structure Completes (engine : Engine σ ρ) (kind : Incident → Prop) (after : Engine σ ρ) :
    Prop where
  /-- It makes moves. -/
  goes : engine.Goes kind after
  /-- It comes to rest. -/
  atRest : after.AtRest

/-- What comes to rest can be led up to by other moves. -/
theorem Completes.of_goes {first second third : Engine σ ρ} (h₁ : first.Goes kind second)
    (h₂ : second.Completes kind third) : first.Completes kind third :=
  ⟨h₁.trans h₂.goes, h₂.atRest⟩

/-- What happens once a run was started: it executes its first slice, and the queue is
served. -/
theorem completes_start {machine : Machine} {actor : Actor} {origin : Place} {execution : Execution}
    (hi : engine.InOrder []) (hp : (engine.spawn machine actor origin).2.Proper)
    (h : engine.start fuel machine actor origin = some (execution, after)) :
    (engine.spawn machine actor origin).2.Completes IsCall after := by
  unfold start at h
  simp only [Option.bind_eq_bind, Option.bind_eq_some_iff, Option.pure_def, Option.some.injEq] at h
  obtain ⟨⟨forked, last⟩, hdrain, hend⟩ := h
  cases hend
  have hsliced := goes_runSlice hp (engine.spawn machine actor origin).1
  have hinOrder := (hi.spawn machine actor origin).runSlice.1
  have hready : last.ready = [] := ready_of_drain hdrain
  generalize ((engine.spawn machine actor origin).2.runSlice
    (engine.spawn machine actor origin).1).2 = first at hdrain hsliced hinOrder
  have hdoes := does_drain hdrain
  have hserved : first.Goes IsCall last := by
    refine hdoes.goes hinOrder (hsliced.proper hp) fun deed hdeed => ?_
    cases deed with
    | serve => exact ⟨rfl, fun _ => id⟩
    | _ => cases hdeed
  have hkept : last.Goes IsCall { last with pending := last.pending ++ forked } :=
    .of_same rfl rfl rfl List.suffix_rfl
  obtain ⟨deeds, hcourse, -⟩ := hdoes
  exact ⟨hsliced.trans (hserved.trans hkept),
    (hcourse.inOrder hinOrder).1.congr rfl rfl rfl rfl rfl, hready⟩

/-- Running a program. -/
theorem completes_execute {program : Program} {actor : Actor} {origin : Place}
    {execution : Execution} (hi : engine.InOrder []) (hp : engine.Proper)
    (h : engine.execute fuel program actor origin = some (execution, after)) :
    engine.Completes IsCall after := by
  obtain ⟨howned, hdepth⟩ :=
    Machine.owned_ofScript (.ofProgram program) (.start actor origin .empty)
  have hspawned : engine.Goes IsCall (engine.spawn
      (.ofScript (.ofProgram program) (.start actor origin .empty)) actor origin).2 :=
    .of_quiet (.spawn origin howned (Machine.calls_of_callDepth hdepth))
  exact .of_goes hspawned (completes_start hi (hspawned.proper hp) h)

/-- Running several programs. -/
theorem completes_executeAll {actor : Actor} {programs : List Program} {executions : List Execution}
    (hr : engine.AtRest) (hp : engine.Proper)
    (h : engine.executeAll fuel actor programs = some (executions, after)) :
    engine.Completes IsCall after := by
  induction programs generalizing engine executions with
  | nil =>
    cases h
    exact ⟨.refl _ _, hr⟩
  | cons program rest ih =>
    unfold executeAll at h
    simp only [Option.bind_eq_bind, Option.bind_eq_some_iff, Option.pure_def, Option.some.injEq]
      at h
    obtain ⟨⟨execution, next⟩, hfirst, ⟨more, last⟩, hrest, hend⟩ := h
    cases hend
    have hone := completes_execute hr.inOrder hp hfirst
    exact .of_goes hone.goes (ih hone.atRest (hone.goes.proper hp) hrest)

/-- Running a function. -/
theorem completes_callFunction {name : String} {actor : Actor} {origin : Place}
    {args : ArrivalMap String Value} {result : Except RunError Execution} (hr : engine.AtRest)
    (hp : engine.Proper)
    (h : engine.callFunction fuel name actor origin args = some (result, after)) :
    engine.Completes IsCall after := by
  have hasked : engine.Goes IsCall (engine.invoke name actor origin args) :=
    .of_moves (.call engine name actor origin args) fun _ hm => by
      obtain ⟨_, -, hasked⟩ := Surroundings.exists_asked hm
      exact isCall_of_asked hasked
  unfold callFunction at h
  unfold invoke at hasked
  split at h
  · cases h
    exact ⟨.refl _ _, hr⟩
  · rename_i entry hfound
    rw [hfound] at hasked
    dsimp only at hasked
    split at h
    · rename_i error hargs
      rw [hargs] at hasked
      cases h
      exact ⟨hasked, hr.of_around _⟩
    · rename_i locals hargs
      rw [hargs] at hasked
      dsimp only at hasked
      split at h
      · rename_i error around hclaim
        rw [hclaim] at hasked
        cases h
        exact ⟨hasked, hr.of_around around⟩
      · rename_i call around hclaim
        rw [hclaim] at hasked
        simp only [Option.bind_eq_bind, Option.bind_eq_some_iff, Option.pure_def,
          Option.some.injEq] at h
        obtain ⟨⟨execution, last⟩, hstart, hend⟩ := h
        cases hend
        have hproper := hasked.proper hp
        exact .of_goes hasked (completes_start (hr.of_around around).inOrder hproper hstart)

/-- Taking up compiled programs. -/
theorem completes_accept {α : Type} (hr : engine.AtRest) (served : Served α) :
    engine.Completes IsCall (engine.accept served) := by
  obtain ⟨notices, haccept⟩ := engine.accept_eq served
  rw [haccept]
  exact ⟨.of_same rfl rfl rfl List.suffix_rfl,
    hr.inOrder.congr rfl rfl rfl rfl rfl, hr.ready⟩

/-- Registering a function. -/
theorem goes_register {definition : FunctionDefinition} {replace : Bool} {entry : FunctionEntry}
    {registry : FunctionRegistry}
    (h : engine.ledger.registry.register definition replace = .ok (entry, registry)) :
    engine.Goes IsCall (engine.mapRegistry fun _ => registry) := by
  have hmoves := Moves.request engine (.register definition replace)
  have hanswer : (engine.ledger.registry.answer (.register definition replace)).2 = registry := by
    simp [FunctionRegistry.answer, h]
  have hsame : (engine.mapRegistry fun registry =>
      (registry.answer (.register definition replace)).2) =
        engine.mapRegistry fun _ => registry := by
    unfold mapRegistry mapLedger
    dsimp only
    rw [← hanswer]
    rfl
  exact hsame ▸ .of_quiet hmoves

/-- Registering definitions one by one. -/
theorem goes_registerAll (engine : Engine σ ρ) (definitions : List FunctionDefinition) :
    engine.Goes IsCall
      (engine.mapRegistry fun registry => (registry.registerAll definitions).2) := by
  induction definitions generalizing engine with
  | nil => exact .refl engine IsCall
  | cons definition rest ih =>
    cases hregister : engine.ledger.registry.register definition false with
    | error error =>
      have hsame : (engine.mapRegistry fun registry =>
          (registry.registerAll (definition :: rest)).2) = engine := by
        have hrefused : (engine.around.ledger.registry.registerAll (definition :: rest)).2 =
            engine.around.ledger.registry := by
          simp only [ledger] at hregister
          simp [FunctionRegistry.registerAll, hregister]
        unfold mapRegistry mapLedger
        dsimp only
        rw [hrefused]
      rw [hsame]
      exact .refl engine IsCall
    | ok result =>
      obtain ⟨entry, registry⟩ := result
      have hsame : (engine.mapRegistry fun registry =>
          (registry.registerAll (definition :: rest)).2) =
            (engine.mapRegistry fun _ => registry).mapRegistry fun registry =>
              (registry.registerAll rest).2 := by
        have hgranted : (engine.around.ledger.registry.registerAll (definition :: rest)).2 =
            (registry.registerAll rest).2 := by
          simp only [ledger] at hregister
          simp [FunctionRegistry.registerAll, hregister]
        unfold mapRegistry mapLedger
        dsimp only
        rw [hgranted]
      rw [hsame]
      exact (goes_register hregister).trans (ih _)

/-- Registering a compiled function. -/
theorem completes_registerCompiled (hr : engine.AtRest) (program : Program) (owner : Actor)
    (scope : FunctionScope) (replace : Bool) :
    engine.Completes IsCall (engine.registerCompiled program owner scope replace).2 := by
  unfold registerCompiled
  split
  · exact ⟨.refl engine IsCall, hr⟩
  · rename_i definition ids _
    have hids : engine.Goes IsCall { engine with ids } := .of_same rfl rfl rfl List.suffix_rfl
    have hrest : ({ engine with ids } : Engine σ ρ).AtRest :=
      ⟨hr.inOrder.congr rfl rfl rfl rfl rfl, hr.ready⟩
    dsimp only
    split
    · exact ⟨hids, hrest⟩
    · rename_i entry registry hregister
      exact ⟨hids.trans (goes_register hregister), hrest.of_around _⟩

/-- Registering compiled functions. -/
theorem completes_registerPrograms (hr : engine.AtRest) (owner : Actor) (scope : FunctionScope)
    (replace : Bool) (programs : List Program) :
    engine.Completes IsCall (engine.registerPrograms owner scope replace programs).2 := by
  induction programs generalizing engine with
  | nil => exact ⟨.refl engine IsCall, hr⟩
  | cons program rest ih =>
    have hfirst := completes_registerCompiled hr program owner scope replace
    exact .of_goes hfirst.goes (ih hfirst.atRest)

omit [RandomSource ρ] in
/-- Cancelling a run leaves the engine at rest. -/
theorem AtRest.cancel (h : engine.AtRest) (key : RunKey) (reason : CancelReason) :
    (engine.cancel key reason).2.AtRest := by
  cases hk : engine.runs.get? key with
  | none =>
    unfold Engine.cancel
    rw [hk]
    exact h
  | some run =>
    have hgone := dismissed_cancel hk reason
    refine ⟨h.inOrder.dismiss (hk ▸ rfl) hgone fun _ => ?_, hgone.ready.trans h.ready⟩
    rw [h.ready]
    rfl

/-- Cancelling runs. -/
theorem completes_cancelAll (hr : engine.AtRest) (reason : CancelReason) (keys : List RunKey) :
    engine.Completes IsCancellation (engine.cancelAll reason keys).2 := by
  induction keys generalizing engine with
  | nil => exact ⟨.refl engine _, hr⟩
  | cons key rest ih =>
    exact .of_goes (goes_cancel engine key reason) (ih (hr.cancel key reason))

/-- Stopping all runs. -/
theorem completes_shutdown (hr : engine.AtRest) :
    engine.Completes IsCancellation engine.shutdown.2 := by
  have hcancelled := completes_cancelAll hr .shutdown (engine.runs.keysWhere fun _ => true)
  have hforget : (engine.cancelAll .shutdown (engine.runs.keysWhere fun _ => true)).2.Admits
      (.forget : Deed σ ρ) := engine.get?_shutdown
  exact .of_goes hcancelled.goes ⟨.of_same rfl rfl rfl List.suffix_rfl,
    (hcancelled.atRest.inOrder.outcome hforget).inOrder, rfl⟩

/-- Moving to the next tick. -/
theorem completes_nextTick {reports : List RunReport} (hr : engine.AtRest) (hp : engine.Proper)
    (h : engine.nextTick fuel = some (reports, after)) :
    engine.Completes IsCall after := by
  obtain ⟨late, due, first, middle, htick, -⟩ := exists_tickCourse hr.ready h
  have hperforms := htick.performs
  have hready : after.ready = [] := by
    unfold nextTick at h
    simp only [Option.bind_eq_bind, Option.bind_eq_some_iff] at h
    obtain ⟨_, -, hdrain⟩ := h
    exact ready_of_drain hdrain
  have hdoes : engine.Does (·.BelongsTo .tick) after := ⟨_, hperforms.course, hperforms.belongs⟩
  refine ⟨hdoes.goes hr.inOrder hp fun deed hdeed => ?_,
    (hperforms.course.inOrder hr.inOrder).1, hready⟩
  cases deed with
  | launch => cases hdeed
  | adjust => exact absurd rfl hdeed
  | serve | wake | expire => exact ⟨rfl, fun _ => id⟩
  | cancel => exact ⟨rfl, fun _ => IsCancellation.isCall⟩
  | discard | advance | forget => exact ⟨rfl, fun _ => False.elim⟩

end Engine

/-- Whether an operation stops runs from outside. -/
def Operation.isStop {σ : Type} : Operation σ → Bool
  | .stop _ | .disconnect _ | .shutdown => true
  | _ => false

/-- What can happen in an operation. -/
def Operation.Brings {σ : Type} (operation : Operation σ) (incident : Incident) : Prop :=
  incident.IsCall ∧ (operation.isStop → incident.IsCancellation)

namespace Engine

variable {σ ρ : Type} [Host σ] [RandomSource ρ] {engine after : Engine σ ρ} {fuel : Nat}

/-- Every operation is made of moves. In those that stop runs nothing happens to calls
but that some are cancelled. -/
theorem completes_perform {operation : Operation σ} {reports : List RunReport}
    (hr : engine.AtRest) (hp : engine.Proper)
    (h : engine.perform fuel operation = some (reports, after)) :
    engine.Completes operation.Brings after := by
  have hany (hs : operation.isStop = false) (hg : engine.Completes IsCall after) :
      engine.Completes operation.Brings after := by
    refine ⟨hg.goes.mono fun incident hi => ⟨hi, fun hstop => ?_⟩, hg.atRest⟩
    rw [hs] at hstop
    cases hstop
  have hstop (hg : engine.Completes IsCancellation after) :
      engine.Completes operation.Brings after :=
    ⟨hg.goes.mono fun incident hi => ⟨hi.isCall, fun _ => hi⟩, hg.atRest⟩
  cases operation with
  | execute program actor origin =>
    simp only [perform, Option.bind_eq_bind, Option.bind_eq_some_iff] at h
    obtain ⟨⟨execution, last⟩, hexecute, hend⟩ := h
    cases hend
    exact hany rfl (completes_execute hr.inOrder hp hexecute)
  | call name actor origin args =>
    simp only [perform, Option.bind_eq_bind, Option.bind_eq_some_iff] at h
    obtain ⟨⟨result, last⟩, hcall, hend⟩ := h
    cases hend
    exact hany rfl (completes_callFunction hr hp hcall)
  | fireLine world entry actor =>
    simp only [perform, Option.bind_eq_bind, Option.bind_eq_some_iff] at h
    obtain ⟨⟨result, last⟩, hfire, hend⟩ := h
    cases hend
    obtain ⟨served, ⟨-, rfl⟩ | ⟨program, execution, -, hexecute⟩⟩ := fireLine_cases hfire
    · exact hany rfl (completes_accept hr served)
    · have haccept := completes_accept hr served
      exact hany rfl (.of_goes haccept.goes
        (completes_execute haccept.atRest.inOrder (haccept.goes.proper hp) hexecute))
  | fireEvent world region event actor =>
    simp only [perform, Option.bind_eq_bind, Option.bind_eq_some_iff] at h
    obtain ⟨⟨executions, last⟩, hfire, hend⟩ := h
    cases hend
    have haccept := completes_accept hr
      (engine.cache.region (engine.workshop world) region engine.ids)
    exact hany rfl (.of_goes haccept.goes
      (completes_executeAll haccept.atRest (haccept.goes.proper hp) hfire))
  | tick => exact hany rfl (completes_nextTick hr hp h)
  | stop key =>
    cases h
    exact hstop ⟨goes_cancel engine key .stopped, hr.cancel key .stopped⟩
  | disconnect actor =>
    obtain ⟨-, rfl⟩ := Prod.ext_iff.1 (Option.some.inj h)
    exact hstop (completes_cancelAll hr _ _)
  | shutdown =>
    cases h
    exact hstop (completes_shutdown hr)
  | register definition replace =>
    simp only [perform] at h
    split at h
    · rename_i hregister
      cases h
      exact hany rfl ⟨goes_register hregister, hr.of_around _⟩
    · cases h
      exact hany rfl ⟨.refl _ _, hr⟩
  | unregister name scope owner =>
    cases h
    exact hany rfl ⟨.of_quiet (.request engine (.unregister name scope owner)), hr.of_around _⟩
  | restore definitions =>
    cases h
    have hcleared : engine.Goes IsCall (engine.mapRegistry .clear) := .of_quiet (.clear engine)
    exact hany rfl ⟨hcleared.trans (goes_registerAll _ definitions), hr.of_around _⟩
  | clear =>
    cases h
    exact hany rfl ⟨.of_quiet (.clear engine), hr.of_around _⟩
  | registerCompiled program owner scope replace =>
    cases h
    exact hany rfl (completes_registerCompiled hr program owner scope replace)
  | registerRegion world region owner scope replace =>
    cases h
    have haccept := completes_accept hr
      (engine.cache.region (engine.workshop world) region engine.ids)
    exact hany rfl (.of_goes haccept.goes
      (completes_registerPrograms haccept.atRest owner scope replace _))
  | reloadCatalogue other =>
    obtain ⟨catalogue, cache, hreload⟩ := engine.exists_reloadCatalogue other
    simp only [perform, hreload] at h
    cases h
    exact hany rfl ⟨.of_same rfl rfl rfl List.suffix_rfl,
      hr.inOrder.congr rfl rfl rfl rfl rfl, hr.ready⟩
  | host change =>
    cases h
    exact hany rfl ⟨.of_same rfl rfl rfl List.suffix_rfl,
      hr.of_around _⟩

end Engine

/-- An engine that some operations led to, with the ledger given up any number of times
in between, and what the ledger was each time. -/
inductive Career {σ ρ : Type} [Host σ] [RandomSource ρ] : Engine σ ρ → List Ledger → Prop where
  /-- An engine without runs and a ledger with nothing in use. -/
  | initial (host : σ) (random : ρ) (settings : Settings) (catalogue : Catalogue)
    (layout : Layout) :
    Career (Engine.initial host random (Ledger.initial settings) catalogue layout) []
  /-- One more operation that came to an end. -/
  | step {engine after : Engine σ ρ} {cleared : List Ledger} {fuel : Nat}
    {operation : Operation σ} {reports : List RunReport} (past : Career engine cleared)
    (performed : engine.perform fuel operation = some (reports, after)) : Career after cleared
  /-- The ledger is given up. -/
  | reset {engine : Engine σ ρ} {cleared : List Ledger} (past : Career engine cleared) :
    Career (engine.mapLedger .shutdown) (cleared ++ [engine.ledger])

/-- An engine that some moves led to, with everything that has happened to calls. -/
inductive Recorded {σ ρ : Type} [Host σ] [RandomSource ρ] :
    Engine σ ρ → List Incident → Prop where
  /-- An engine without runs and a ledger with nothing in use. -/
  | initial (host : σ) (random : ρ) (settings : Settings) (catalogue : Catalogue)
    (layout : Layout) :
    Recorded (Engine.initial host random (Ledger.initial settings) catalogue layout) []
  /-- One more move. -/
  | move {engine after : Engine σ ρ} {log incidents : List Incident} (past : Recorded engine log)
    (moves : engine.Moves incidents after) : Recorded after (log ++ incidents)

variable {σ ρ : Type} [Host σ] [RandomSource ρ] {engine after : Engine σ ρ}

/-- Moves in a row continue a record. -/
theorem Recorded.proceed {log incidents : List Incident} (h : Recorded engine log)
    (hp : engine.Proceeds incidents after) : Recorded after (log ++ incidents) := by
  induction hp with
  | stay =>
    rw [List.append_nil]
    exact h
  | move _ moves ih =>
    rw [← List.append_assoc]
    exact ih.move moves

/-- Every run on record belongs to its actor. -/
theorem Recorded.proper {log : List Incident} (h : Recorded engine log) : engine.Proper := by
  induction h with
  | initial host random settings catalogue layout =>
    exact ⟨SlotMap.tidy_empty, fun _ _ => nofun, ActionTable.keeps_standard⟩
  | move _ moves ih => exact (moves.moved ih.actions).proper ih

namespace Career

variable {cleared : List Ledger}

/-- Every career has a record, in which nothing else is given up, and the engine is at
rest in between. -/
theorem exists_recorded (h : Career engine cleared) :
    (∃ log, Recorded engine log ∧ clearances log = cleared) ∧ engine.AtRest := by
  induction h with
  | initial host random settings catalogue layout =>
    refine ⟨⟨[], .initial .., rfl⟩, ⟨SlotMap.tidy_empty, .initial, nofun, fun _ => ?_⟩, rfl⟩
    exact Scheduled.of_none fun _ => rfl
  | step _ performed ih =>
    obtain ⟨⟨log, hlog, hcleared⟩, hrest⟩ := ih
    obtain ⟨⟨incidents, hproceeds, hbrings⟩, hlast⟩ :=
      Engine.completes_perform hrest hlog.proper performed
    refine ⟨⟨log ++ incidents, hlog.proceed hproceeds, ?_⟩, hlast⟩
    rw [clearances_append, clearances_of_calls fun incident hm => (hbrings incident hm).1,
      List.append_nil, hcleared]
  | reset _ ih =>
    obtain ⟨⟨log, hlog, hcleared⟩, hrest⟩ := ih
    refine ⟨⟨_, hlog.move (.reset _), ?_⟩, hrest.of_around _⟩
    rw [clearances_append, hcleared]
    rfl

/-- Operations in a row continue a career. -/
theorem performAll (h : Career engine cleared) {fuel : Nat} {returned all : List RunReport}
    {operations : List (Operation σ)}
    (hp : engine.performAll fuel returned operations = some (all, after)) :
    Career after cleared := by
  induction operations generalizing engine returned with
  | nil =>
    cases hp
    exact h
  | cons operation rest ih =>
    simp only [Engine.performAll, Option.bind_eq_bind, Option.bind_eq_some_iff] at hp
    obtain ⟨⟨reports, next⟩, hone, hrest⟩ := hp
    exact ih (h.step hone) hrest

/-- An operation that stops runs is on record with cancelled calls only. -/
theorem exists_cancelled (h : Career engine cleared) {fuel : Nat} {operation : Operation σ}
    {reports : List RunReport} (ho : operation.isStop)
    (hp : engine.perform fuel operation = some (reports, after)) :
    ∃ incidents, (∀ incident ∈ incidents, incident.IsCancellation) ∧
      ∀ log, Recorded engine log → Recorded after (log ++ incidents) := by
  obtain ⟨⟨log, hlog, -⟩, hrest⟩ := h.exists_recorded
  obtain ⟨⟨incidents, hproceeds, hbrings⟩, -⟩ := Engine.completes_perform hrest hlog.proper hp
  exact ⟨incidents, fun incident hm => (hbrings incident hm).2 ho,
    fun other ho => ho.proceed hproceeds⟩

end Career

end GridScript
