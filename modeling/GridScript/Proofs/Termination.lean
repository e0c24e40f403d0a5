import GridScript.Proofs.Histories
import GridScript.Proofs.Regeneration
import GridScript.Proofs.Registration
import GridScript.Proofs.Returning

/-!
# Which operations come to an end

After every history all runs stand in their programs and all registered functions
are linked. So an operation comes to an end exactly if some generation of the runs
it splits off is empty, which is so if no function regenerates.

Otherwise it need not be: a function that calls itself from inside of a loop that is
split off keeps the engine busy forever, with one run at a time. The limits do not
help there, because each run that is split off has a budget of its own and holds
none of the calls it came from.
-/

namespace GridScript

namespace FunctionRegistry

variable {registry other : FunctionRegistry}

/-- Functions that can be called are linked if they could be called before. -/
theorem Linked.of_subset (h : registry.Linked)
    (hs : ∀ entry ∈ other.registered, entry ∈ registry.registered) : other.Linked :=
  fun entry he => h entry (hs entry he)

/-- The same functions are linked. -/
theorem Linked.congr (h : registry.Linked) (hf : other.functions = registry.functions) :
    other.Linked := by
  refine h.of_subset fun entry he => ?_
  unfold registered at he ⊢
  rwa [hf] at he

/-- No functions are linked. -/
theorem linked_clear (registry : FunctionRegistry) : registry.clear.Linked :=
  fun _ he => by cases he

/-- A function that is registered is linked. -/
theorem Linked.register (h : registry.Linked) {definition : FunctionDefinition} {replace : Bool}
    {entry : FunctionEntry} (hr : registry.register definition replace = .ok (entry, other)) :
    other.Linked := by
  have hok := register_eq_ok.1 hr
  cases hok.2.2
  intro found hfound
  obtain ⟨⟨key, value⟩, hm, rfl⟩ := List.mem_map.1 hfound
  rcases Entries.value_mem_insert hm with hnew | ⟨old, ho, hold⟩
  · rw [hnew]
    rfl
  · rw [← hold]
    exact h old.2 (List.mem_map_of_mem ho)

/-- A function that is removed leaves linked ones. -/
theorem Linked.unregister (h : registry.Linked) (name : String) (scope : FunctionScope)
    (owner : Actor) : (registry.unregister name scope owner).2.Linked := by
  unfold FunctionRegistry.unregister
  dsimp only
  split
  · split
    · refine h.of_subset fun entry he => ?_
      obtain ⟨pair, hm, rfl⟩ := List.mem_map.1 he
      exact List.mem_map_of_mem (List.mem_filter.1 hm).1
    · exact h
  · exact h

/-- Functions that are registered one by one are linked. -/
theorem Linked.registerAll (h : registry.Linked) (definitions : List FunctionDefinition) :
    (registry.registerAll definitions).2.Linked := by
  induction definitions generalizing registry with
  | nil => exact h
  | cons definition rest ih =>
    unfold FunctionRegistry.registerAll
    split
    · exact ih (h.register ‹_›)
    · exact h

end FunctionRegistry

namespace Engine

variable {σ ρ : Type} [Host σ] [RandomSource ρ]

/-- All functions are linked, and all runs stand in their programs. -/
structure InPrograms (engine : Engine σ ρ) : Prop where
  /-- The functions are linked. -/
  linked : engine.ledger.registry.Linked
  /-- The runs stand in their programs. -/
  standing : engine.Standing engine.ledger.registry fun _ => True

namespace InPrograms

variable {engine after : Engine σ ρ}

/-- Runs that stand in their programs with the same functions. -/
theorem of_standing (h : engine.InPrograms)
    (hs : after.Standing engine.ledger.registry fun _ => True) : after.InPrograms :=
  ⟨h.linked.congr hs.functions, hs.tidy, hs.actions, rfl, hs.runs⟩

/-- Runs that stand in their programs with other functions. -/
theorem of_linked (h : engine.InPrograms) (hl : after.ledger.registry.Linked)
    (hr : after.runs = engine.runs) (ha : after.actions = engine.actions) :
    after.InPrograms := by
  refine ⟨hl, ?_, ha.trans h.standing.actions, rfl, ?_⟩
  · rw [hr]
    exact h.standing.tidy
  · rw [hr]
    exact h.standing.runs

/-- Taking runs away. -/
theorem reduced (h : engine.InPrograms) (hr : Reduced engine after) : after.InPrograms :=
  h.of_standing (h.standing.reduced hr)

/-- Taking up compiled programs. -/
theorem accept {α : Type} (h : engine.InPrograms) (served : GridScript.Served α) :
    (engine.accept served).InPrograms :=
  h.of_standing (h.standing.accept served)

/-- Running a program. -/
theorem execute (h : engine.InPrograms) {fuel : Nat} {program : Program} {actor : Actor}
    {origin : Place} {execution : Execution}
    (he : engine.execute fuel program actor origin = some (execution, after)) :
    after.InPrograms :=
  h.of_standing (h.standing.start h.linked (handed_true _)
    (Machine.stands_ofScript _ _ trivial _) he)

/-- Running several programs. -/
theorem executeAll {fuel : Nat} {actor : Actor} {programs : List Program}
    {executions : List Execution} {engine : Engine σ ρ} (h : engine.InPrograms)
    (he : engine.executeAll fuel actor programs = some (executions, after)) :
    after.InPrograms := by
  induction programs generalizing engine executions with
  | nil =>
    cases he
    exact h
  | cons program rest ih =>
    unfold Engine.executeAll at he
    simp only [Option.bind_eq_bind, Option.bind_eq_some_iff] at he
    obtain ⟨⟨execution, next⟩, hfirst, ⟨others, last⟩, hrest, hend⟩ := he
    cases hend
    exact ih (h.execute hfirst) hrest

/-- Running a function. -/
theorem callFunction (h : engine.InPrograms) {fuel : Nat} {name : String} {actor : Actor}
    {origin : Place} {args : ArrivalMap String Value} {result : Except RunError Execution}
    (hc : engine.callFunction fuel name actor origin args = some (result, after)) :
    after.InPrograms := by
  unfold Engine.callFunction at hc
  split at hc
  · cases hc
    exact h
  · rename_i entry hlookup
    split at hc
    · cases hc
      exact h.of_linked (h.linked.congr rfl) rfl rfl
    · have hacquired := engine.around.functions_acquire entry actor
      generalize engine.around.acquire entry actor = claim at hacquired hc
      match claim, hc with
      | (.error error, around), hc =>
        cases hc
        exact h.of_linked (h.linked.congr hacquired.1) rfl rfl
      | (.ok call, around), hc =>
        obtain ⟨hfunctions, hentry⟩ := hacquired
        simp only [Option.bind_eq_bind, Option.bind_eq_some_iff] at hc
        obtain ⟨⟨execution, last⟩, hstart, hend⟩ := hc
        cases hend
        have hclaimed : ({ engine with around } : Engine σ ρ).Standing engine.ledger.registry
            fun _ => True := ⟨h.standing.tidy, h.standing.actions, hfunctions, h.standing.runs⟩
        have hregistered : call.entry ∈ engine.ledger.registry.registered := by
          rw [hentry call rfl]
          exact FunctionRegistry.mem_registered hlookup
        exact h.of_standing (hclaimed.start h.linked (handed_true _)
          (Machine.stands_ofCall h.linked hregistered trivial _) hstart)

/-- Registering a compiled function. -/
theorem registerCompiled (h : engine.InPrograms) (program : Program) (owner : Actor)
    (scope : FunctionScope) (replace : Bool) :
    (engine.registerCompiled program owner scope replace).2.InPrograms := by
  unfold Engine.registerCompiled
  split
  · exact h
  · dsimp only
    split
    · exact h.of_linked h.linked rfl rfl
    · exact h.of_linked (h.linked.register ‹_›) rfl rfl

/-- Registering several compiled functions. -/
theorem registerPrograms {engine : Engine σ ρ} (h : engine.InPrograms) (owner : Actor)
    (scope : FunctionScope) (replace : Bool) (programs : List Program) :
    (engine.registerPrograms owner scope replace programs).2.InPrograms := by
  induction programs generalizing engine with
  | nil => exact h
  | cons program rest ih => exact ih (h.registerCompiled program owner scope replace)

/-- Every operation leaves linked functions and runs that stand in their programs. -/
theorem perform (h : engine.InPrograms) {fuel : Nat} {operation : Operation σ}
    {reports : List RunReport} (hp : engine.perform fuel operation = some (reports, after)) :
    after.InPrograms := by
  cases operation with
  | execute program actor origin =>
    simp only [Engine.perform, Option.bind_eq_bind, Option.bind_eq_some_iff] at hp
    obtain ⟨⟨execution, last⟩, hexecute, hend⟩ := hp
    cases hend
    exact h.execute hexecute
  | call name actor origin args =>
    simp only [Engine.perform, Option.bind_eq_bind, Option.bind_eq_some_iff] at hp
    obtain ⟨⟨result, last⟩, hcall, hend⟩ := hp
    cases hend
    exact h.callFunction hcall
  | fireLine world entry actor =>
    simp only [Engine.perform, Option.bind_eq_bind, Option.bind_eq_some_iff] at hp
    obtain ⟨⟨result, last⟩, hfire, hend⟩ := hp
    cases hend
    obtain ⟨served, ⟨-, rfl⟩ | ⟨program, execution, -, hexecute⟩⟩ := fireLine_cases hfire
    · exact h.accept served
    · exact (h.accept served).execute hexecute
  | fireEvent world region event actor =>
    simp only [Engine.perform, Option.bind_eq_bind, Option.bind_eq_some_iff] at hp
    obtain ⟨⟨executions, last⟩, hfire, hend⟩ := hp
    cases hend
    exact (h.accept _).executeAll hfire
  | tick => exact h.of_standing (h.standing.nextTick h.linked (handed_true _) hp)
  | stop key =>
    cases hp
    exact h.reduced (engine.reduced_cancel key .stopped)
  | disconnect actor =>
    obtain ⟨rfl, rfl⟩ := Prod.ext_iff.1 (Option.some.inj hp)
    exact h.reduced (reduced_cancelAll (.disconnected actor) _ engine)
  | shutdown =>
    cases hp
    have hstopped := h.reduced
      (reduced_cancelAll .shutdown (engine.runs.keysWhere fun _ => true) engine)
    exact hstopped.of_linked hstopped.linked rfl rfl
  | register definition replace =>
    simp only [Engine.perform] at hp
    split at hp
    · cases hp
      exact h.of_linked (h.linked.register ‹_›) rfl rfl
    · cases hp
      exact h
  | unregister name scope owner =>
    cases hp
    exact h.of_linked (h.linked.unregister name scope owner) rfl rfl
  | restore definitions =>
    cases hp
    exact h.of_linked ((FunctionRegistry.linked_clear _).registerAll definitions) rfl rfl
  | clear =>
    cases hp
    exact h.of_linked (FunctionRegistry.linked_clear _) rfl rfl
  | registerCompiled program owner scope replace =>
    cases hp
    exact h.registerCompiled program owner scope replace
  | registerRegion world region owner scope replace =>
    cases hp
    exact (h.accept _).registerPrograms owner scope replace _
  | reloadCatalogue other =>
    obtain ⟨catalogue, cache, hreload⟩ := engine.exists_reloadCatalogue other
    simp only [Engine.perform, hreload] at hp
    cases hp
    exact h.of_linked h.linked rfl rfl
  | host change =>
    cases hp
    exact h.of_linked h.linked rfl rfl

end InPrograms

end Engine

namespace Machine

variable {σ ρ : Type} [Host σ] [RandomSource ρ] {table : ActionTable σ ρ} {actor : Actor}
  {limit budget : Nat} {machine next : Machine} {around after : Surroundings σ ρ}
  {forks : List Machine}

/-- A slice takes at most as many steps as a run may in one tick. -/
theorem slice_steps_le : (machine.slice table actor limit budget around forks).steps ≤ limit := by
  induction budget generalizing machine around forks with
  | zero => exact Nat.le_refl limit
  | succ budget ih =>
    rw [slice]
    dsimp only
    split
    · exact ih
    · exact ih
    · exact Nat.sub_le limit budget
    · exact Nat.sub_le limit budget
    · exact Nat.sub_le limit budget
    · exact Nat.sub_le limit budget

/-- A slice goes on after a step. -/
theorem slice_normal (h : machine.step table around = ⟨.ok .normal, next, after⟩) :
    machine.slice table actor limit (budget + 1) around forks =
      next.slice table actor limit budget after forks := by
  rw [slice, h]

/-- A slice goes on after a step that splits off a loop. -/
theorem slice_fork {child : Machine}
    (h : machine.step table around = ⟨.ok (.fork child), next, after⟩) :
    machine.slice table actor limit (budget + 1) around forks =
      next.slice table actor limit budget after (forks ++ [child]) := by
  rw [slice, h]

/-- A slice ends with the program. -/
theorem slice_terminate {result : Option Value}
    (h : machine.step table around = ⟨.ok (.terminate result), next, after⟩) :
    machine.slice table actor limit (budget + 1) around forks =
      ⟨.done (.ok result), next, after, forks, limit - budget⟩ := by
  rw [slice, h]

end Machine

namespace History

variable {σ ρ : Type} [Host σ] [RandomSource ρ]

/-- After every history functions are linked and runs stand in their programs. -/
theorem inPrograms {engine : Engine σ ρ} {returned : List RunReport}
    (h : History engine returned) : engine.InPrograms := by
  induction h with
  | initial host random settings catalogue layout =>
    refine ⟨FunctionRegistry.linked_clear .empty, SlotMap.tidy_empty, rfl, rfl, ?_⟩
    exact fun _ _ hk => by cases hk
  | step past performed ih => exact ih.perform performed

/-- After every history, running a program comes to an end exactly if some
generation of the runs that are split off is empty, and so does a tick, if in
addition some number of turns leaves no run that is due. If no function leads back
to itself through a loop that may be split off, every operation comes to an end,
except that the last tick there is may take up runs forever. The limit on steps
bounds what each run does when it has its turn. -/
theorem operations_return {engine : Engine σ ρ} {returned : List RunReport}
    (h : History engine returned) :
    (∀ program actor origin,
      (∃ fuel, (engine.execute fuel program actor origin).isSome) ↔
        (engine.launch (.ofScript (.ofProgram program) (.start actor origin .empty)) actor
          origin).DiesOut) ∧
      ((∃ fuel, (engine.nextTick fuel).isSome) ↔
        ∃ turns, (Engine.wakeNext^[turns] engine.turnTick).firstDue? = none ∧
          (Engine.wakeNext^[turns] engine.turnTick).DiesOut) ∧
      ((∀ entry ∈ engine.ledger.registry.registered,
          ¬engine.ledger.registry.Regenerates entry) →
        ∀ operation : Operation σ,
          (operation = .tick → (engine.tick + 1).toNat + 1 < UInt64.size) →
          ∃ fuel, (engine.perform fuel operation).isSome) ∧
      ∀ run, (engine.sliceOf run).steps ≤ engine.ledger.settings.maxStepsPerTick := by
  obtain ⟨hlinked, hstanding⟩ := h.inPrograms
  refine ⟨fun program actor origin => ?_, engine.nextTick_returns_iff, ?_,
    fun run => Machine.slice_steps_le⟩
  · exact engine.start_returns_iff _ actor origin
  · intro hn operation ht
    obtain ⟨level, hlayered⟩ := engine.ledger.registry.exists_layered_iff.2 hn
    exact hstanding.perform_returns hlinked hlayered operation ht

/-- A function whose loop is split off and calls a function. -/
def splitCall (name called : String) : FunctionDefinition :=
  .plain name ⟨"alice"⟩ .everyone (some (.mk ⟨6, "loop", .loop, some "for_each",
    (ArrivalMap.empty.insert "list" (.list [.bool true])).insert "async" (.bool true), .plain,
    none⟩ [.mk ⟨7, "call", .call, some "call",
      ArrivalMap.empty.insert "function" (.text called), .plain, none⟩ [] none] none))

/-- A function that splits off a call of the one that waits. -/
def spreadFunction : FunctionDefinition :=
  splitCall "spread" "rest"

/-- An engine with both functions. -/
def layeredEngine : Engine MinimalHost ReplaySource :=
  quietEngine.mapRegistry fun _ => (FunctionRegistry.empty.add restFunction).add spreadFunction

/-- Their levels. -/
def spreadLevel (entry : FunctionEntry) : Nat :=
  if entry.definition.name = "spread" then 1 else 0

/-- The two functions are layered. -/
theorem layered_spreadLevel : layeredEngine.ledger.registry.Layered spreadLevel := by
  have hregistered : layeredEngine.ledger.registry.registered =
      [FunctionRegistry.empty.newEntry restFunction,
        (FunctionRegistry.empty.add restFunction).newEntry spreadFunction] := rfl
  intro entry he
  rw [hregistered] at he
  simp only [List.mem_cons, List.not_mem_nil, or_false] at he
  rcases he with rfl | rfl
  · refine ⟨?_, ⟨0, by decide, trivial⟩, trivial⟩
    rintro entry ⟨name, caller, world, ⟨hcategory, -⟩, -⟩
    cases hcategory
  · refine ⟨?_, ⟨0, by decide, ⟨?_, ⟨0, by decide, trivial⟩, trivial⟩, trivial⟩, trivial⟩
    · rintro entry ⟨name, caller, world, ⟨hcategory, -⟩, -⟩
      cases hcategory
    · rintro entry ⟨name, caller, world, ⟨-, arg, harg, hread⟩, hlookup⟩
      cases harg
      cases hread
      have hrest : layeredEngine.ledger.registry.lookup? "rest" caller world =
          some (FunctionRegistry.empty.newEntry restFunction) := rfl
      cases hrest.symm.trans hlookup
      decide

/-- Calling the function that splits off another comes to an end, and so does running
a program that splits off a loop of its own. -/
theorem operations_return_layered : History layeredEngine [] ∧
    (∃ fuel, (layeredEngine.perform fuel (.call "spread" ⟨"alice"⟩ default .empty)).isSome) ∧
    (layeredEngine.launch (.ofScript (.ofProgram splitProgram)
      (.start ⟨"alice"⟩ default .empty)) ⟨"alice"⟩ default).DiesOut := by
  have hrest : quietEngine.perform 0 (.register restFunction false) =
      some ([], quietEngine.mapRegistry fun _ => FunctionRegistry.empty.add restFunction) := rfl
  have hspread : (quietEngine.mapRegistry fun _ =>
      FunctionRegistry.empty.add restFunction).perform 0 (.register spreadFunction false) =
        some ([], layeredEngine) := rfl
  have h : History layeredEngine [] := ((History.initial ..).step hrest).step hspread
  obtain ⟨hexecute, -, hall, -⟩ := operations_return h
  have hn := layeredEngine.ledger.registry.exists_layered_iff.1 ⟨_, layered_spreadLevel⟩
  refine ⟨h, hall hn _ nofun, ?_⟩
  refine (hexecute splitProgram ⟨"alice"⟩ default).1 ⟨1, ?_⟩
  decide +kernel

/-- A function that calls itself from inside of a loop that is split off. -/
def echoFunction : FunctionDefinition :=
  splitCall "echo" "echo"

/-- A program that calls it. -/
def echoProgram : Program where
  kind := .event "start"
  root := .mk ⟨8, "start", .event, none, .empty, .plain, none⟩ [] (some (.mk ⟨9, "call", .call,
    some "call", ArrivalMap.empty.insert "function" (.text "echo"), .plain, none⟩ [] none))
  origin := default
  catalogueVersion := 0

/-- The function as it is registered. -/
def echoEntry : FunctionEntry :=
  FunctionRegistry.empty.newEntry echoFunction

/-- The loop of the function after a number of iterations. -/
def echoLoop (iteration : Nat) : Frame :=
  .loop ⟨0, some 1, .forEach [.bool true] "item", iteration, 0, false⟩

/-- A machine inside of the loop that was split off. -/
def echoInside (locals : Locals) (frames : List Frame) : Machine :=
  ⟨[⟨echoEntry.script, .start ⟨"alice"⟩ default locals, frames, none⟩], none⟩

/-- The machine that is split off. -/
def echoMachine : Machine :=
  echoInside .empty [echoLoop 0]

/-- A call of the function from a program or loop. -/
def echoCall (frames : List Frame) (caller : Script) (context : Context)
    (outer : List Frame) : Machine :=
  ⟨[⟨echoEntry.script, .start ⟨"alice"⟩ default .empty, frames,
    some ⟨⟨echoEntry, ⟨"alice"⟩, 0, 5000⟩, none⟩⟩, ⟨caller, context, outer, none⟩], none⟩

/-- What surrounds the machines; statistics and counts change. -/
def echoAround (tallies : Array Tally) (activeRuns activeCalls : Nat) (depths : ActorCounts) :
    Surroundings MinimalHost ReplaySource where
  host := ⟨⟨0⟩⟩
  random := ⟨[], 0⟩
  ledger := { Ledger.initial default with
    registry := ⟨SortedMap.empty.insert echoFunction.key echoEntry, tallies⟩
    activeRuns, activeCalls, depths }
  notices := #[]

/-- A call of the function splits its loop off and returns. -/
theorem slice_echoCall (limit budget : Nat) (caller : Script) (context : Context) (outer : List Frame)
    (tallies : Array Tally) (activeRuns : Nat) (forks : List Machine) :
    (echoCall [.block ⟨some 0, .root, false⟩] caller context outer).slice .standard ⟨"alice"⟩
        limit (budget + 3)
        (echoAround tallies activeRuns 1 (ActorCounts.add .empty ⟨"alice"⟩)) forks =
      (⟨[⟨caller, context, outer, none⟩], none⟩ : Machine).slice .standard ⟨"alice"⟩ limit budget
        (echoAround (tallies.modify 0 (·.finish .success 0)) activeRuns 0 .empty)
        (forks ++ [echoMachine]) := by
  have hfork : (echoCall [.block ⟨some 0, .root, false⟩] caller context outer).step .standard
      (echoAround tallies activeRuns 1 (ActorCounts.add .empty ⟨"alice"⟩)) =
        ⟨.ok (.fork echoMachine), echoCall [.block ⟨none, .root, false⟩] caller context outer,
          echoAround tallies activeRuns 1 (ActorCounts.add .empty ⟨"alice"⟩)⟩ := rfl
  have hleave : (echoCall [.block ⟨none, .root, false⟩] caller context outer).step .standard
      (echoAround tallies activeRuns 1 (ActorCounts.add .empty ⟨"alice"⟩)) =
        ⟨.ok .normal, echoCall [] caller context outer,
          echoAround tallies activeRuns 1 (ActorCounts.add .empty ⟨"alice"⟩)⟩ := rfl
  have hreturn : (echoCall [] caller context outer).step .standard
      (echoAround tallies activeRuns 1 (ActorCounts.add .empty ⟨"alice"⟩)) =
        ⟨.ok .normal, ⟨[⟨caller, context, outer, none⟩], none⟩,
          echoAround (tallies.modify 0 (·.finish .success 0)) activeRuns 0
            ((ActorCounts.add .empty ⟨"alice"⟩).remove ⟨"alice"⟩)⟩ := rfl
  have hgone : (ActorCounts.add .empty ⟨"alice"⟩).remove ⟨"alice"⟩ = .empty := by decide +kernel
  rw [Machine.slice_fork hfork, Machine.slice_normal hleave, Machine.slice_normal hreturn, hgone]

/-- A machine that splits off the loop in a few steps and ends. -/
def Echoes (machine : Machine) : Prop :=
  ∀ tallies activeRuns, ∃ last counted steps, steps < 1000 ∧
    machine.slice .standard ⟨"alice"⟩ 10000 10000 (echoAround tallies activeRuns 0 .empty) [] =
      ⟨.done (.ok none), last, echoAround counted activeRuns 0 .empty, [echoMachine], steps⟩

/-- What was split off splits off the same again and ends. -/
theorem echoes_echoMachine : Echoes echoMachine := by
  intro tallies activeRuns
  let locals : Locals := SortedMap.empty.insert "item" (.bool true)
  have hiterate : echoMachine.step .standard (echoAround tallies activeRuns 0 .empty) =
      ⟨.ok .normal, echoInside locals [.block ⟨some 1, .loopBody, false⟩, echoLoop 1],
        echoAround tallies activeRuns 0 .empty⟩ := rfl
  have hcall : (echoInside locals [.block ⟨some 1, .loopBody, false⟩, echoLoop 1]).step .standard
      (echoAround tallies activeRuns 0 .empty) =
        ⟨.ok .normal, echoCall [.block ⟨some 0, .root, false⟩] echoEntry.script
          (.start ⟨"alice"⟩ default locals) [.block ⟨none, .loopBody, false⟩, echoLoop 1],
          echoAround (tallies.modify 0 Tally.start) activeRuns 1
            (ActorCounts.add .empty ⟨"alice"⟩)⟩ := rfl
  have hleave (tallies : Array Tally) :
      (echoInside locals [.block ⟨none, .loopBody, false⟩, echoLoop 1]).step .standard
        (echoAround tallies activeRuns 0 .empty) =
          ⟨.ok .normal, echoInside locals [echoLoop 1], echoAround tallies activeRuns 0 .empty⟩ :=
    rfl
  have hover (tallies : Array Tally) : (echoInside locals [echoLoop 1]).step .standard
      (echoAround tallies activeRuns 0 .empty) =
        ⟨.ok .normal, echoInside locals [], echoAround tallies activeRuns 0 .empty⟩ := rfl
  have hend (tallies : Array Tally) : (echoInside locals []).step .standard
      (echoAround tallies activeRuns 0 .empty) =
        ⟨.ok (.terminate none), ⟨[], some locals⟩, echoAround tallies activeRuns 0 .empty⟩ := rfl
  refine ⟨⟨[], some locals⟩, (tallies.modify 0 Tally.start).modify 0 (·.finish .success 0), 8,
    by decide, ?_⟩
  rw [Machine.slice_normal hiterate, Machine.slice_normal hcall, slice_echoCall]
  exact (Machine.slice_normal (hleave _)).trans
    ((Machine.slice_normal (hover _)).trans (Machine.slice_terminate (hend _)))

/-- The program splits the loop off and ends. -/
theorem echoes_echoProgram :
    Echoes (.ofScript (.ofProgram echoProgram) (.start ⟨"alice"⟩ default .empty)) := by
  intro tallies activeRuns
  let context : Context := .start ⟨"alice"⟩ default .empty
  let standing (frames : List Frame) : Machine :=
    ⟨[⟨.ofProgram echoProgram, context, frames, none⟩], none⟩
  have hcall : (Machine.ofScript (.ofProgram echoProgram) context).step .standard
      (echoAround tallies activeRuns 0 .empty) =
        ⟨.ok .normal, echoCall [.block ⟨some 0, .root, false⟩] (.ofProgram echoProgram) context
          [.block ⟨none, .root, false⟩], echoAround (tallies.modify 0 Tally.start) activeRuns 1
            (ActorCounts.add .empty ⟨"alice"⟩)⟩ := rfl
  have hleave (tallies : Array Tally) : (standing [.block ⟨none, .root, false⟩]).step .standard
      (echoAround tallies activeRuns 0 .empty) =
        ⟨.ok .normal, standing [], echoAround tallies activeRuns 0 .empty⟩ := rfl
  have hend (tallies : Array Tally) : (standing []).step .standard
      (echoAround tallies activeRuns 0 .empty) =
        ⟨.ok (.terminate none), ⟨[], some .empty⟩, echoAround tallies activeRuns 0 .empty⟩ := rfl
  refine ⟨⟨[], some .empty⟩, (tallies.modify 0 Tally.start).modify 0 (·.finish .success 0), 6,
    by decide, ?_⟩
  rw [Machine.slice_normal hcall, slice_echoCall]
  exact (Machine.slice_normal (hleave _)).trans (Machine.slice_terminate (hend _))

/-- An engine with the function and nothing else, and no call under way. -/
structure Echoless (engine : Engine MinimalHost ReplaySource) : Prop where
  /-- The slots are in order. -/
  tidy : engine.runs.Tidy
  /-- The actions are the standard ones. -/
  actions : engine.actions = .standard
  /-- No call is under way. -/
  around : ∃ tallies activeRuns, engine.around = echoAround tallies activeRuns 0 .empty

/-- Such an engine whose queue holds nothing but the machine that was split off. -/
structure Echoing (engine : Engine MinimalHost ReplaySource) : Prop extends Echoless engine where
  /-- The machine is the only one in the queue. -/
  ready : ∃ key run, engine.ready = [key] ∧ engine.runs.get? key = some run ∧
    run.machine = echoMachine ∧ run.actor = ⟨"alice"⟩

/-- A run that splits the machine off leaves it in the queue. -/
theorem Echoless.runSlice {engine : Engine MinimalHost ReplaySource} (h : Echoless engine)
    (hr : engine.ready = []) {key : RunKey} {run : Run} (hk : engine.runs.get? key = some run)
    (hm : Echoes run.machine) (ha : run.actor = ⟨"alice"⟩) : Echoing (engine.runSlice key).2 := by
  obtain ⟨tallies, activeRuns, haround⟩ := h.around
  obtain ⟨last, counted, steps, hsteps, hslice⟩ := hm tallies activeRuns
  have hs : engine.sliceOf run = ⟨.done (.ok none), last, echoAround counted activeRuns 0 .empty,
      [echoMachine], steps⟩ := by
    unfold Engine.sliceOf Engine.ledger
    rw [haround, h.actions, ha]
    exact hslice
  have hserved := Engine.served_conclude h.tidy hk (engine.sliceOf run)
  have hledger : (echoAround counted activeRuns 0 .empty).ledger.recordSteps run.origin steps =
      (echoAround counted activeRuns 0 .empty).ledger := if_pos hsteps
  have hconclude : engine.runSlice key = engine.conclude key run (engine.sliceOf run) := by
    unfold Engine.runSlice
    rw [hk]
  rw [hconclude]
  refine ⟨⟨hserved.tidy, hserved.actions.trans h.actions, ?_⟩, ?_⟩
  · rw [hs]
    unfold Engine.conclude Engine.finish Engine.afterSlice Engine.mapLedger
    dsimp only
    rw [hledger]
    split
    · exact ⟨_, _, rfl⟩
    · exact ⟨_, _, rfl⟩
  · obtain ⟨fresh, hready, hfresh⟩ := Engine.conclude_fork h.tidy hk (congrArg Slice.ending hs)
      (congrArg Slice.forks hs) rfl
    rw [hr] at hready
    exact ⟨fresh, _, hready, hfresh, rfl, rfl⟩

/-- The machine in the queue is followed by another one. -/
theorem Echoing.serveNext {engine : Engine MinimalHost ReplaySource} (h : Echoing engine) :
    Echoing engine.serveNext := by
  obtain ⟨key, run, hready, hk, hmachine, hactor⟩ := h.ready
  have hserve : engine.serveNext = ({ engine with ready := [] }.runSlice key).2 := by
    unfold Engine.serveNext
    rw [hready]
  have hpopped : Echoless { engine with ready := [] } := ⟨h.tidy, h.actions, h.around⟩
  rw [hserve]
  refine hpopped.runSlice rfl hk ?_ hactor
  rw [hmachine]
  exact echoes_echoMachine

/-- Its generations never end. -/
theorem Echoing.not_diesOut {engine : Engine MinimalHost ReplaySource} (h : Echoing engine) :
    ¬engine.DiesOut := by
  rintro ⟨count, hcount⟩
  obtain ⟨served, hserved⟩ := Engine.exists_iterate_serveNext count engine
  have hstill : Echoing (Engine.serveNext^[served] engine) :=
    Function.Iterate.rec Echoing h (fun _ => Echoing.serveNext) served
  obtain ⟨key, run, hready, -⟩ := hstill.ready
  rw [← hserved, hcount] at hready
  cases hready

/-- An engine on which the function is registered. -/
def echoEngine : Engine MinimalHost ReplaySource :=
  quietEngine.mapRegistry fun _ => FunctionRegistry.empty.add echoFunction

/-- The function leads back to itself through its loop. -/
theorem regenerates_echoEntry : echoEngine.ledger.registry.Regenerates echoEntry := by
  have hlookup : echoEngine.ledger.registry.lookup? "echo" ⟨"alice"⟩ "" = some echoEntry := rfl
  refine ⟨echoEntry, echoEntry, .refl, .inr (.inl (.inl (.inl ⟨rfl, ?_⟩))), .refl⟩
  exact ⟨"echo", ⟨"alice"⟩, "", ⟨rfl, _, rfl, rfl⟩, hlookup⟩

/-- Running a program need not come to an end: here every run splits off another
one, although it takes only a few steps and no call is left under way. -/
theorem operations_return_echo : History echoEngine [] ∧
    echoEngine.ledger.registry.Regenerates echoEntry ∧
    ∀ fuel, echoEngine.execute fuel echoProgram ⟨"alice"⟩ default = none := by
  have hregister : quietEngine.perform 0 (.register echoFunction false) =
      some ([], echoEngine) := rfl
  refine ⟨(History.initial ..).step hregister, regenerates_echoEntry, fun fuel => ?_⟩
  let machine : Machine := .ofScript (.ofProgram echoProgram) (.start ⟨"alice"⟩ default .empty)
  have hspawned : Echoless (echoEngine.spawn machine ⟨"alice"⟩ default).2 :=
    ⟨SlotMap.tidy_insert SlotMap.tidy_empty _, rfl, #[.zero], 1, rfl⟩
  have hrun : (echoEngine.spawn machine ⟨"alice"⟩ default).2.runs.get?
      (echoEngine.spawn machine ⟨"alice"⟩ default).1 =
        some ⟨machine, ⟨"alice"⟩, default, 0, false⟩ := rfl
  have hechoing := hspawned.runSlice rfl hrun echoes_echoProgram rfl
  rw [← Option.not_isSome_iff_eq_none]
  intro hfuel
  exact hechoing.not_diesOut ((echoEngine.start_returns_iff _ _ _).1 ⟨fuel, hfuel⟩)

end History

end GridScript
