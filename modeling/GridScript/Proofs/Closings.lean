import GridScript.Proofs.Outermost

/-!
# What reports show

A run ends in a slice of its own, or for a reason that lies outside of it. Its report shows
the variables of its program: those that the activation at the bottom of the stack has right
before the step or the operation that ends the run, with what that step itself writes there.
This holds of every deed, and so of everything that an engine ever does, also if its actions
are exchanged in between.
-/

namespace GridScript

variable {σ ρ : Type} [Host σ] [RandomSource ρ]

/-- Why a run ends that does not end in a slice of its own. -/
inductive RunError.Outer : RunError → Prop
  /-- It is cancelled. -/
  | cancelled (reason : CancelReason) : Outer (.cancelled reason)
  /-- It is parked, and one of its calls is late. -/
  | late (call : ActiveCall) : Outer (.limit call.timeoutError)

namespace Engine

omit [Host σ] [RandomSource ρ] in
/-- No machine of a run under way has ended. -/
def Grounded (engine : Engine σ ρ) : Prop :=
  ∀ key run, engine.runs.get? key = some run → run.machine.Grounded

/-- How a run ends that is reported, with the activation that is at the bottom of its stack
right before. -/
inductive Closing (before : Engine σ ρ) (staging : Option (Staging σ ρ)) (told : RunReport)
    (bottom : Activation) : Prop
  /-- It ends in its slice. -/
  | slice {stage : Staging σ ρ} (staged : staging = some stage) (own : stage.key = told.key)
      (closes : stage.run.machine.Closes stage.engine.actions stage.limit stage.run.actor
        stage.engine.around bottom told.result told.locals)
  /-- It ends without executing a slice. -/
  | outside {run : Run} {error : RunError} (idle : staging = none)
      (found : before.runs.get? told.key = some run)
      (supports : bottom.Supports run.machine.stack) (failed : told.result = .error error)
      (outer : error.Outer) (locals : told.locals = bottom.context.locals)

/-- A deed leaves no ended machine behind, and a report that it gives shows the outermost
variables. -/
structure Shows (before : Engine σ ρ) (staging : Option (Staging σ ρ))
    (report : Option RunReport) (after : Engine σ ρ) : Prop where
  /-- No machine of a run under way has ended. -/
  grounded : after.Grounded
  /-- The report is of a run that ends in this way. -/
  told : ∀ told, report = some told → ∃ bottom, before.Closing staging told bottom

section

variable {engine middle : Engine σ ρ} {key : RunKey} {run : Run}

omit [Host σ] [RandomSource ρ] in
/-- A run that is started has a machine that has not ended. -/
theorem Grounded.spawn (hg : engine.Grounded) (ht : engine.runs.Tidy) {machine : Machine}
    (hm : machine.Grounded) (actor : Actor) (origin : Place) :
    (engine.spawn machine actor origin).2.Grounded := by
  intro other found hother
  have hget := (SlotMap.get?_insert ht ⟨machine, actor, origin, 0, false⟩ other).symm.trans hother
  split at hget
  · cases hget
    exact hm
  · exact hg other found hget

omit [Host σ] [RandomSource ρ] in
/-- A run that is put back has a machine that has not ended. -/
theorem Grounded.set (hg : engine.Grounded) (hk : engine.runs.get? key = some run) {next : Run}
    (hr : middle.runs = engine.runs.set key next) (hm : next.machine.Grounded) :
    middle.Grounded := by
  intro other found hother
  rw [hr, SlotMap.get?_set hk] at hother
  split at hother
  · cases hother
    exact hm
  · exact hg other found hother

/-- Where no run ends there is no report. -/
theorem Grounded.quiet (hg : engine.Grounded) (hr : middle.runs = engine.runs)
    (staging : Option (Staging σ ρ)) : Shows engine staging none middle := by
  refine ⟨fun key run hk => hg key run ?_, fun _ htold => (nomatch htold)⟩
  rw [← hr]
  exact hk

/-- What a slice of a run leads to: nothing that has ended is left behind, and a report is
of the run and of how its machine ends. -/
theorem Grounded.conclude (hg : engine.Grounded) (ht : engine.runs.Tidy)
    (hk : engine.runs.get? key = some run) (before : Engine σ ρ) :
    Shows before (some ⟨key, engine, run⟩) (engine.conclude key run (engine.sliceOf run)).1
      (engine.conclude key run (engine.sliceOf run)).2 := by
  obtain ⟨hemerges, hforks⟩ : run.machine.Emerges engine.actions
      engine.ledger.settings.maxStepsPerTick run.actor engine.around
      (engine.sliceOf run).ending (engine.sliceOf run).machine ∧
        ∀ fork ∈ (engine.sliceOf run).forks, fork.Grounded :=
    Machine.emerges_slice (hg key run hk) run.actor _
  have hruns : (engine.afterSlice key run (engine.sliceOf run)).runs =
      engine.runs.set key (run.afterSlice (engine.sliceOf run)) := rfl
  unfold Engine.conclude
  dsimp only
  generalize engine.afterSlice key run (engine.sliceOf run) = served at hruns ⊢
  generalize engine.sliceOf run = slice at hemerges hforks hruns ⊢
  have hput : served.runs.get? key = some (run.afterSlice slice) := by
    rw [hruns, SlotMap.get?_set hk, if_pos rfl]
  have htidy : served.runs.Tidy := hruns ▸ SlotMap.tidy_set ht _ _
  generalize hlast : slice.machine = last at hemerges
  generalize slice.ending = ending at hemerges ⊢
  cases hemerges with
  | waits ticks grounded =>
    subst hlast
    have hagain : (served.park key (run.afterSlice slice) ticks).runs =
        engine.runs.set key { run.afterSlice slice with parked := true } := by
      rw [← SlotMap.set_set hk (run.afterSlice slice), ← hruns]
      rfl
    have hparked : (served.park key (run.afterSlice slice) ticks).Grounded :=
      hg.set hk hagain grounded
    have hstill : (served.park key (run.afterSlice slice) ticks).runs.Tidy :=
      SlotMap.tidy_set htidy _ _
    refine ⟨fun other found hother => ?_, fun _ htold => (nomatch htold)⟩
    rcases (adopted_adopt slice.forks hstill).runs other found hother with hm | hthere
    · exact hforks _ hm
    · exact hparked other found hthere
  | @ends _ bottom result locals closes keeps =>
    subst hlast
    have hadopted := adopted_adopt slice.forks htidy
    dsimp only
    refine ⟨fun other found hother => ?_, fun told htold => ?_⟩
    · rw [(finish_runs _ _ _).1, SlotMap.get?_erase] at hother
      split at hother
      · cases hother
      · rename_i hne
        rcases hadopted.runs other found hother with hm | hthere
        · exact hforks _ hm
        · rw [hruns, SlotMap.get?_set hk, if_neg hne] at hthere
          exact hg other found hthere
    · obtain ⟨hreport, -⟩ := finish_of_get? (hadopted.kept key _ hput) result
      obtain rfl := Option.some.inj (hreport.symm.trans htold)
      have hlocals : (report key (run.afterSlice slice) result).locals = locals :=
        Machine.takeLocals_of_locals? keeps
      refine ⟨bottom, .slice rfl rfl ?_⟩
      rw [hlocals]
      exact closes

/-- What serving a run leads to. -/
theorem Grounded.runSlice (hg : engine.Grounded) (ht : engine.runs.Tidy) (key : RunKey)
    (before : Engine σ ρ) : Shows before ((engine.runs.get? key).map fun run => ⟨key, engine, run⟩)
      (engine.runSlice key).1 (engine.runSlice key).2 := by
  unfold Engine.runSlice
  cases hk : engine.runs.get? key with
  | none => exact ⟨hg, fun _ htold => (nomatch htold)⟩
  | some run => exact hg.conclude ht hk before

/-- What cancelling a run leads to. -/
theorem Grounded.cancel (hg : engine.Grounded) (key : RunKey) (reason : CancelReason) :
    Shows engine none (engine.cancel key reason).1 (engine.cancel key reason).2 := by
  refine ⟨fun other found hother => hg other found (get?_of_cancel hother).2, fun told htold => ?_⟩
  cases hk : engine.runs.get? key with
  | none =>
    unfold Engine.cancel at htold
    rw [hk] at htold
    cases htold
  | some run =>
    obtain ⟨bottom, hb⟩ := hg key run hk
    obtain ⟨hfound, hcancel⟩ := cancel_eq hk reason
    generalize (if run.parked then engine.unpark key run else engine) = awake at hfound hcancel
    have hclosed := get?_midway hfound (run.machine.close .cancelled awake.around).1
      (run.machine.close .cancelled awake.around).2
    obtain ⟨hreport, -⟩ := finish_of_get? hclosed (.error (.cancelled reason))
    rw [hcancel] at htold
    obtain rfl := Option.some.inj (hreport.symm.trans htold)
    exact ⟨bottom, .outside rfl hk hb rfl (.cancelled reason)
      (Machine.takeLocals_of_locals? hb.locals?_ended)⟩

/-- What looking at the deadlines of a run leads to. -/
theorem Grounded.expire (hg : engine.Grounded) (key : RunKey) :
    Shows engine none (engine.expire key).1 (engine.expire key).2 := by
  refine ⟨fun other found hother => hg other found (get?_of_expire hother), fun told htold => ?_⟩
  cases hk : engine.runs.get? key with
  | none =>
    unfold Engine.expire at htold
    rw [hk] at htold
    cases htold
  | some run =>
    obtain ⟨bottom, hb⟩ := hg key run hk
    cases hlate : run.machine.outermostLate? engine.around.now with
    | none =>
      unfold Engine.expire at htold
      rw [hk] at htold
      dsimp only at htold
      rw [Machine.checkDeadlines_of_none hlate] at htold
      cases htold
    | some late =>
      obtain ⟨hreport, -⟩ := expire_of_some hk hlate
      obtain rfl := Option.some.inj (hreport.symm.trans htold)
      have hlocals : (run.expired key late).locals = bottom.context.locals := by
        dsimp only [Run.expired]
        rw [hb.locals?_eq]
        rfl
      exact ⟨bottom, .outside rfl hk hb rfl (.late late) hlocals⟩

/-- A run that was taken up before it is cancelled has the same machine. -/
theorem Shows.of_unparked {after : Engine σ ρ} {report : Option RunReport}
    (h : Shows middle none report after) (hk : engine.runs.get? key = some run)
    (hr : middle.runs = engine.runs.set key { run with parked := false }) :
    Shows engine none report after := by
  refine ⟨h.grounded, fun told htold => ?_⟩
  obtain ⟨bottom, hclosing⟩ := h.told told htold
  cases hclosing with
  | slice staged => cases staged
  | outside idle found supports failed outer locals =>
    rw [hr, SlotMap.get?_set hk] at found
    split at found
    · rename_i hsame
      cases found
      have hfound : engine.runs.get? told.key = some run := hsame ▸ hk
      exact ⟨bottom, .outside rfl hfound supports failed outer locals⟩
    · exact ⟨bottom, .outside rfl found supports failed outer locals⟩

/-- Every deed leaves no ended machine behind, and its report shows the outermost variables of
the run that ends. -/
theorem InOrder.shows {deed : Deed σ ρ} (h : engine.InOrder []) (hg : engine.Grounded)
    (ha : engine.Admits deed) (hd : deed.FromEntry) :
    Shows engine (engine.stagingOf? deed) (engine.reportOf? deed) (engine.carryOut deed) := by
  cases deed with
  | launch key machine actor origin =>
    have hm : machine.Grounded := by
      cases hd key machine actor origin rfl with
      | program script context => exact Machine.grounded_ofScript script context
      | call call context => exact Machine.grounded_ofCall call context
    have htidy : (engine.spawn machine actor origin).2.runs.Tidy := SlotMap.tidy_insert h.tidy _
    exact (hg.spawn h.tidy hm actor origin).runSlice htidy key engine
  | serve key =>
    have hpopped : ({ engine with ready := engine.ready.tail } : Engine σ ρ).Grounded := hg
    exact hpopped.runSlice h.tidy key engine
  | wake due key =>
    obtain ⟨run, hk⟩ := Option.isSome_iff_exists.1 ha.2
    have hwoken : ((({ engine with sleeping := engine.sleeping.erase due } : Engine σ ρ).unpark
        key run).record (.resumed key engine.tick)).Grounded := hg.set hk rfl (hg key run hk)
    have hunparked : (({ engine with sleeping := engine.sleeping.erase due } :
        Engine σ ρ).unpark key run).Grounded := hwoken
    have htidy : ((({ engine with sleeping := engine.sleeping.erase due } : Engine σ ρ).unpark
        key run).record (.resumed key engine.tick)).runs.Tidy := SlotMap.tidy_set h.tidy _ _
    unfold stagingOf? staging? reportOf? carryOut takeUp
    dsimp only
    rw [hk]
    dsimp only
    rw [Option.bind_some]
    split
    · exact hwoken.runSlice htidy key engine
    · exact (hunparked.cancel key _).of_unparked hk rfl
  | discard | advance | forget | adjust =>
    refine hg.quiet ?_ _
    rfl
  | expire key => exact hg.expire key
  | cancel key reason => exact hg.cancel key reason

end

section

variable {engine after : Engine σ ρ} {fuel : Nat}

/-- Starting a run serves the queue. -/
theorem ready_start {machine : Machine} {actor : Actor} {origin : Place} {execution : Execution}
    (h : engine.start fuel machine actor origin = some (execution, after)) :
    after.ready = [] := by
  unfold start at h
  simp only [Option.bind_eq_bind, Option.bind_eq_some_iff, Option.pure_def, Option.some.injEq] at h
  obtain ⟨⟨forked, last⟩, hdrain, hend⟩ := h
  cases hend
  have hready : last.ready = [] := ready_of_drain hdrain
  exact hready

/-- So does running several programs, one after the other. -/
theorem ready_executeAll (hr : engine.ready = []) {actor : Actor} {programs : List Program}
    {executions : List Execution}
    (h : engine.executeAll fuel actor programs = some (executions, after)) :
    after.ready = [] := by
  induction programs generalizing engine executions with
  | nil =>
    cases h
    exact hr
  | cons program rest ih =>
    unfold executeAll at h
    simp only [Option.bind_eq_bind, Option.bind_eq_some_iff, Option.pure_def, Option.some.injEq]
      at h
    obtain ⟨⟨execution, next⟩, hfirst, ⟨more, last⟩, hrest, hend⟩ := h
    cases hend
    exact ih (ready_start hfirst) hrest

/-- A function that is run or refused leaves nothing in the queue. -/
theorem ready_callFunction (hr : engine.ready = []) {name : String} {actor : Actor}
    {origin : Place} {args : ArrivalMap String Value} {result : Except RunError Execution}
    (h : engine.callFunction fuel name actor origin args = some (result, after)) :
    after.ready = [] := by
  unfold callFunction at h
  split at h
  · cases h
    exact hr
  · split at h
    · cases h
      exact hr
    · split at h
      · cases h
        exact hr
      · simp only [Option.bind_eq_bind, Option.bind_eq_some_iff, Option.pure_def,
          Option.some.injEq] at h
        obtain ⟨⟨execution, last⟩, hstart, hend⟩ := h
        cases hend
        exact ready_start hstart

omit [Host σ] [RandomSource ρ] in
/-- Taking up compiled programs leaves the queue alone. -/
theorem ready_accept {α : Type} (engine : Engine σ ρ) (served : GridScript.Served α) :
    (engine.accept served).ready = engine.ready := by
  obtain ⟨notices, haccept⟩ := engine.accept_eq served
  rw [haccept]

omit [Host σ] [RandomSource ρ] in
/-- Registering a compiled function leaves the queue alone. -/
theorem ready_registerCompiled (engine : Engine σ ρ) (program : Program) (owner : Actor)
    (scope : FunctionScope) (replace : Bool) :
    (engine.registerCompiled program owner scope replace).2.ready = engine.ready := by
  unfold registerCompiled
  split
  · rfl
  · dsimp only
    split
    · rfl
    · rfl

omit [Host σ] [RandomSource ρ] in
/-- Registering compiled functions leaves the queue alone. -/
theorem ready_registerPrograms (engine : Engine σ ρ) (owner : Actor) (scope : FunctionScope)
    (replace : Bool) (programs : List Program) :
    (engine.registerPrograms owner scope replace programs).2.ready = engine.ready := by
  induction programs generalizing engine with
  | nil => rfl
  | cons program rest ih =>
    exact (ih _).trans (ready_registerCompiled engine program owner scope replace)

omit [RandomSource ρ] in
/-- Cancelling runs leaves the queue alone. -/
theorem ready_cancelAll (reason : CancelReason) (keys : List RunKey) (engine : Engine σ ρ) :
    (engine.cancelAll reason keys).2.ready = engine.ready := by
  induction keys generalizing engine with
  | nil => rfl
  | cons key rest ih => exact (ih _).trans (cancel_ready engine key reason)

/-- Nothing is in the queue after an operation that came to an end. -/
theorem ready_perform (hr : engine.ready = []) {operation : Operation σ}
    {reports : List RunReport} (h : engine.perform fuel operation = some (reports, after)) :
    after.ready = [] := by
  cases operation with
  | execute program actor origin =>
    simp only [perform, Option.bind_eq_bind, Option.bind_eq_some_iff] at h
    obtain ⟨⟨execution, last⟩, hexecute, hend⟩ := h
    cases hend
    exact ready_start hexecute
  | call name actor origin args =>
    simp only [perform, Option.bind_eq_bind, Option.bind_eq_some_iff] at h
    obtain ⟨⟨result, last⟩, hcall, hend⟩ := h
    cases hend
    exact ready_callFunction hr hcall
  | fireLine world entry actor =>
    simp only [perform, Option.bind_eq_bind, Option.bind_eq_some_iff] at h
    obtain ⟨⟨result, last⟩, hfire, hend⟩ := h
    cases hend
    obtain ⟨served, ⟨-, rfl⟩ | ⟨program, execution, -, hexecute⟩⟩ := fireLine_cases hfire
    · exact (ready_accept engine served).trans hr
    · exact ready_start hexecute
  | fireEvent world region event actor =>
    simp only [perform, Option.bind_eq_bind, Option.bind_eq_some_iff] at h
    obtain ⟨⟨executions, last⟩, hfire, hend⟩ := h
    cases hend
    exact ready_executeAll ((ready_accept engine _).trans hr) hfire
  | tick =>
    simp only [perform, nextTick, Option.bind_eq_bind, Option.bind_eq_some_iff] at h
    obtain ⟨_, -, hdrain⟩ := h
    exact ready_of_drain hdrain
  | stop key =>
    cases h
    exact (cancel_ready engine key .stopped).trans hr
  | disconnect actor =>
    obtain ⟨-, rfl⟩ := Prod.ext_iff.1 (Option.some.inj h)
    exact (ready_cancelAll _ _ engine).trans hr
  | shutdown =>
    cases h
    rfl
  | register definition replace =>
    simp only [perform] at h
    split at h
    · cases h
      exact hr
    · cases h
      exact hr
  | registerCompiled program owner scope replace =>
    cases h
    exact (ready_registerCompiled engine program owner scope replace).trans hr
  | registerRegion world region owner scope replace =>
    cases h
    exact (ready_registerPrograms _ owner scope replace _).trans ((ready_accept engine _).trans hr)
  | unregister | restore | clear | host =>
    cases h
    exact hr
  | reloadCatalogue other =>
    obtain ⟨catalogue, cache, hreload⟩ := engine.exists_reloadCatalogue other
    simp only [perform, hreload] at h
    cases h
    exact hr

end

end Engine

/-- An engine that some operations led to, with all reports they handed out, where the actions
that programs perform themselves may be exchanged between operations. -/
inductive EquippedHistory : Engine σ ρ → List RunReport → Prop where
  /-- An engine without runs and a ledger with nothing in use. -/
  | initial (host : σ) (random : ρ) (settings : Settings) (catalogue : Catalogue)
    (layout : Layout) :
    EquippedHistory (Engine.initial host random (Ledger.initial settings) catalogue layout) []
  /-- One more operation that came to an end. -/
  | step {engine after : Engine σ ρ} {returned reports : List RunReport} {fuel : Nat}
    {operation : Operation σ} (past : EquippedHistory engine returned)
    (performed : engine.perform fuel operation = some (reports, after)) :
    EquippedHistory after (returned ++ reports)
  /-- The actions are exchanged. -/
  | equip {engine : Engine σ ρ} {returned : List RunReport}
    (past : EquippedHistory engine returned) (actions : ActionTable σ ρ) :
    EquippedHistory { engine with actions } returned

/-- A history is one in which the actions are never exchanged. -/
theorem History.equipped {engine : Engine σ ρ} {returned : List RunReport}
    (h : History engine returned) : EquippedHistory engine returned := by
  induction h with
  | initial host random settings catalogue layout => exact .initial ..
  | step past performed ih => exact ih.step performed

/-- A deed, at the moment when it is done. -/
structure Moment (σ ρ : Type) where
  /-- The engine right before. -/
  engine : Engine σ ρ
  /-- The deed. -/
  deed : Deed σ ρ

namespace Moment

/-- The run that executes a slice, if there is one. -/
def staging? (moment : Moment σ ρ) : Option (Staging σ ρ) :=
  moment.engine.stagingOf? moment.deed

/-- The report that is given, if a run ends. -/
def report? (moment : Moment σ ρ) : Option RunReport :=
  moment.engine.reportOf? moment.deed

/-- A report that is given shows the variables that the activation at the bottom of the stack
of its run has right before, with what the last step writes there. The standard actions write
nothing there that end a run. -/
def ShowsOutermost (moment : Moment σ ρ) : Prop :=
  ∀ told, moment.report? = some told → ∃ bottom : Activation,
    moment.engine.Closing moment.staging? told bottom ∧
      (moment.engine.actions = .standard → told.locals = bottom.context.locals)

end Moment

/-- The moments of some deeds in a row, in order. -/
def Engine.moments (engine : Engine σ ρ) : List (Deed σ ρ) → List (Moment σ ρ)
  | [] => []
  | deed :: rest => ⟨engine, deed⟩ :: (engine.carryOut deed).moments rest

/-- Their reports are those that the deeds give. -/
theorem Engine.filterMap_moments (engine : Engine σ ρ) (deeds : List (Deed σ ρ)) :
    (engine.moments deeds).filterMap Moment.report? = engine.reported deeds := by
  induction deeds generalizing engine with
  | nil => rfl
  | cons deed rest ih =>
    have hone : Moment.report? ⟨engine, deed⟩ = engine.reportOf? deed := rfl
    have hrest : (engine.carryOut deed).gather reportOf? rest =
        ((engine.carryOut deed).moments rest).filterMap Moment.report? := (ih _).symm
    rw [moments, reported, gather, hrest]
    cases hreport : engine.reportOf? deed with
    | none => exact List.filterMap_cons_none (hone.trans hreport)
    | some told => exact List.filterMap_cons_some (hone.trans hreport)

omit [RandomSource ρ] in
/-- What leads up to a slice leaves the actions alone. -/
theorem Engine.actions_of_stagingOf? {engine : Engine σ ρ} {deed : Deed σ ρ}
    {stage : Staging σ ρ} (h : engine.stagingOf? deed = some stage) :
    stage.engine.actions = engine.actions := by
  obtain ⟨⟨key, staged⟩, hstaging, hfound⟩ := Option.bind_eq_some_iff.1 h
  obtain ⟨run, -, rfl⟩ := Option.map_eq_some_iff.1 hfound
  exact staging?_actions hstaging

/-- With the standard actions the variables are those that the activation has right before. -/
theorem Engine.Closing.of_standard {engine : Engine σ ρ} {deed : Deed σ ρ} {told : RunReport}
    {bottom : Activation} (h : engine.Closing (engine.stagingOf? deed) told bottom)
    (ha : engine.actions = .standard) : told.locals = bottom.context.locals := by
  cases h with
  | outside idle found supports failed outer locals => exact locals
  | slice staged own closes =>
    rw [actions_of_stagingOf? staged, ha] at closes
    exact closes.of_standard

/-- Every deed of a course shows the outermost variables of the run that ends in it. -/
theorem Course.showsOutermost {engine after : Engine σ ρ} {deeds : List (Deed σ ρ)}
    (h : Course engine deeds after) (hi : engine.InOrder []) (hg : engine.Grounded)
    (hd : ∀ deed ∈ deeds, deed.FromEntry) :
    after.Grounded ∧ ∀ moment ∈ engine.moments deeds, moment.ShowsOutermost := by
  induction h with
  | done => exact ⟨hg, List.forall_mem_nil _⟩
  | @next engine after deed rest admitted others ih =>
    obtain ⟨hfirst, hrest⟩ := List.forall_mem_cons.1 hd
    have hshows := hi.shows hg admitted hfirst
    obtain ⟨hlast, hmoments⟩ := ih (hi.outcome admitted).inOrder hshows.grounded hrest
    refine ⟨hlast, List.forall_mem_cons.2 ⟨fun told htold => ?_, hmoments⟩⟩
    obtain ⟨bottom, hclosing⟩ := hshows.told told htold
    exact ⟨bottom, hclosing, hclosing.of_standard⟩

/-- A history with all deeds written out. -/
inductive Annals : Engine σ ρ → List RunReport → List (Moment σ ρ) → Prop where
  /-- Nothing was done yet. -/
  | initial (host : σ) (random : ρ) (settings : Settings) (catalogue : Catalogue)
    (layout : Layout) :
    Annals (Engine.initial host random (Ledger.initial settings) catalogue layout) [] []
  /-- One more operation that came to an end, with its deeds. -/
  | step {engine after : Engine σ ρ} {returned reports : List RunReport}
    {moments : List (Moment σ ρ)} {fuel : Nat} {operation : Operation σ}
    {deeds : List (Deed σ ρ)} (past : Annals engine returned moments)
    (performed : engine.perform fuel operation = some (reports, after))
    (performs : Performs engine operation deeds after) :
    Annals after (returned ++ reports) (moments ++ engine.moments deeds)
  /-- The actions are exchanged. -/
  | equip {engine : Engine σ ρ} {returned : List RunReport} {moments : List (Moment σ ρ)}
    (past : Annals engine returned moments) (actions : ActionTable σ ρ) :
    Annals { engine with actions } returned moments

namespace EquippedHistory

/-- Reports show the outermost variables at the moment the run ended. Whatever operations are
performed and whatever actions there are, every report that was handed out or is pending is
given by one of the deeds that were done, and every report of a deed shows what the activation
at the bottom of the stack of its run has right before the step or the operation that ends the
run, with what that step itself writes there. -/
theorem reports_show_outermost {engine : Engine σ ρ} {returned : List RunReport}
    (h : EquippedHistory engine returned) : ∃ moments : List (Moment σ ρ),
      Annals engine returned moments ∧
      (returned ++ engine.pending).Perm (moments.filterMap Moment.report?) ∧
      ∀ moment ∈ moments, moment.ShowsOutermost := by
  have hall : engine.InOrder [] ∧ engine.ready = [] ∧ engine.Grounded ∧
      ∃ moments : List (Moment σ ρ), Annals engine returned moments ∧
        (returned ++ engine.pending).Perm (moments.filterMap Moment.report?) ∧
        ∀ moment ∈ moments, moment.ShowsOutermost := by
    induction h with
    | initial host random settings catalogue layout =>
      exact ⟨⟨SlotMap.tidy_empty, .initial, nofun, fun _ => Scheduled.of_none fun _ => rfl⟩, rfl,
        fun _ _ hk => (nomatch hk), [], .initial .., .refl _, List.forall_mem_nil _⟩
    | @step engine after returned reports fuel operation past performed ih =>
      obtain ⟨hi, hr, hg, moments, hannals, hreports, hshows⟩ := ih
      obtain ⟨deeds, hperforms, htells, hentries⟩ := Engine.exists_tells hr performed
      obtain ⟨hgrounded, hnew⟩ := hperforms.course.showsOutermost hi hg hentries
      refine ⟨(hperforms.course.inOrder hi).1, Engine.ready_perform hr performed, hgrounded, _,
        hannals.step performed hperforms, ?_, List.forall_mem_append.2 ⟨hshows, hnew⟩⟩
      rw [List.filterMap_append, engine.filterMap_moments, List.append_assoc]
      refine (htells.reports.append_left returned).trans ?_
      rw [← List.append_assoc]
      exact hreports.append_right _
    | equip past actions ih =>
      obtain ⟨hi, hr, hg, moments, hannals, hreports, hshows⟩ := ih
      exact ⟨hi.congr rfl rfl rfl rfl rfl, hr, hg, moments, hannals.equip actions, hreports,
        hshows⟩
  exact hall.2.2.2

/-- A function that sets a variable and then waits. -/
def hidingFunction : FunctionDefinition :=
  .plain "hide" ⟨"alice"⟩ .everyone
    (some (.mk ⟨1, "set", .assignment, some "set", (ArrivalMap.empty.insert "name"
      (.text "inner")).insert "value" (.bool true), .plain, none⟩ []
        (some (.mk ⟨2, "wait", .control, some "wait", .empty, .plain, none⟩ [] none))))

/-- A program that sets a variable and then does something else. -/
def outerProgram (last : Node) : Program where
  kind := .event "start"
  root := .mk ⟨3, "start", .event, none, .empty, .plain, none⟩ [] (some (.mk ⟨4, "set",
    .assignment, some "set", (ArrivalMap.empty.insert "name" (.text "outer")).insert "value"
      (.bool true), .plain, none⟩ [] (some last)))
  origin := default
  catalogueVersion := 0

/-- All runs are stopped while one waits inside a call. -/
def stoppedInside : List (Operation MinimalHost) :=
  [.register hidingFunction false, .execute (outerProgram (.mk ⟨5, "call", .call, some "call",
    ArrivalMap.empty.insert "function" (.text "hide"), .plain, none⟩ [] none)) ⟨"alice"⟩ default,
    .shutdown]

/-- A run ends with an action of its own. -/
def quitting : Operation MinimalHost :=
  .execute (outerProgram (.mk ⟨5, "quit", .action, some "quit", .empty, .plain, none⟩ [] none))
    ⟨"alice"⟩ default

/-- The action sets a variable and ends the run. -/
def quittingTable : ActionTable MinimalHost ReplaySource :=
  ActionTable.standard.setAction "quit" fun _ => do
    Act.define "last" (.bool true)
    return .stop

/-- The report of the first run lacks the variable of the call, and that of the second run has
the one that its last step set. -/
theorem reports_show_outermost_quitting : ∃ (engine : Engine MinimalHost ReplaySource)
    (returned : List RunReport) (moments : List (Moment MinimalHost ReplaySource)),
      EquippedHistory engine returned ∧ Annals engine returned moments ∧
      returned.map (·.locals.keys) = [["outer"], ["last", "outer"]] ∧
      (returned ++ engine.pending).Perm (moments.filterMap Moment.report?) ∧
      ∀ moment ∈ moments, moment.ShowsOutermost := by
  have hkeys : ((History.quietEngine.performAll 3 [] stoppedInside).bind fun first =>
      (({ first.2 with actions := quittingTable } : Engine MinimalHost ReplaySource).perform 3
        quitting).map fun second => (first.1 ++ second.1).map (·.locals.keys)) =
      some [["outer"], ["last", "outer"]] := by decide +kernel
  obtain ⟨⟨returned, stopped⟩, hfirst, hrest⟩ := Option.bind_eq_some_iff.1 hkeys
  obtain ⟨⟨reports, engine⟩, hsecond, hend⟩ := Option.map_eq_some_iff.1 hrest
  have hpast : History stopped returned := (History.initial ..).performAll hfirst
  have h : EquippedHistory engine (returned ++ reports) :=
    (hpast.equipped.equip quittingTable).step hsecond
  obtain ⟨moments, hannals, hreports, hshows⟩ := reports_show_outermost h
  exact ⟨engine, returned ++ reports, moments, h, hannals, hend, hreports, hshows⟩

end EquippedHistory

end GridScript
