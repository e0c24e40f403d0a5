import GridScript.Proofs.Incidents
import GridScript.Proofs.Shifts

/-!
# What calls ask for and what comes of it

The node of a call evaluates its parameters, which changes nothing but the random source,
and asks for a call. Whether the call is granted is decided in a fixed order: there has to
be such a function, its arguments have to fit, and neither the actor nor all actors
together may have too many calls under way. A request that is refused leaves nothing behind
but a count of it.
-/

namespace GridScript

/-- The depth of calls up to which a function may be called. -/
def Ledger.depthLimit (ledger : Ledger) (entry : FunctionEntry) : Nat :=
  (entry.definition.maxDepth.map UInt64.toNat).getD ledger.settings.maxCallDepth

/-- The time a call of a function may take. -/
def Ledger.timeLimit (ledger : Ledger) (entry : FunctionEntry) : UInt64 :=
  entry.definition.maxTimeMs.getD ledger.settings.callTimeoutMs

namespace Ledger

variable {ledger : Ledger} {entry : FunctionEntry} {actor : Actor} {now : UInt64}

/-- A call that is too deep is refused. -/
theorem acquire_of_deep (h : ledger.depthLimit entry ≤ ledger.callDepth actor) :
    ledger.acquire entry actor now =
      (.error (.callDepth entry.definition.name (ledger.depthLimit entry)),
        { ledger with depths := ledger.depths.touch actor }.updateTally entry.handle
          Tally.reject) := by
  unfold acquire enterCall
  dsimp only
  rw [← depthLimit, if_pos h]

/-- Another one is refused if there are too many. -/
theorem acquire_of_many (hd : ledger.callDepth actor < ledger.depthLimit entry)
    (h : ledger.settings.maxActiveCalls ≤ ledger.activeCalls) :
    ledger.acquire entry actor now =
      (.error (.concurrency ledger.settings.maxActiveCalls),
        { ledger with depths := ledger.depths.prune actor }.updateTally entry.handle
          Tally.reject) := by
  unfold acquire enterCall
  dsimp only
  rw [← depthLimit, if_neg (Nat.not_le_of_lt hd), if_pos h]

/-- All others are accepted. -/
theorem acquire_of_room (hd : ledger.callDepth actor < ledger.depthLimit entry)
    (h : ledger.activeCalls < ledger.settings.maxActiveCalls) :
    ledger.acquire entry actor now =
      (.ok ⟨entry, actor, now, ledger.timeLimit entry⟩,
        { ledger with
          activeCalls := ledger.activeCalls + 1
          depths := ledger.depths.add actor }.updateTally entry.handle Tally.start) := by
  unfold acquire enterCall
  dsimp only
  rw [← depthLimit, if_neg (Nat.not_le_of_lt hd), if_neg (Nat.not_le_of_lt h)]
  rfl

/-- A call that is accepted is one of the function for the actor, from now on and for as
long as the function may take. -/
theorem acquire_eq_ok {call : ActiveCall} (h : (ledger.acquire entry actor now).1 = .ok call) :
    call = ⟨entry, actor, now, ledger.timeLimit entry⟩ := by
  by_cases hdeep : ledger.depthLimit entry ≤ ledger.callDepth actor
  · rw [acquire_of_deep hdeep] at h
    cases h
  · have hroom := Nat.lt_of_not_le hdeep
    by_cases hmany : ledger.settings.maxActiveCalls ≤ ledger.activeCalls
    · rw [acquire_of_many hroom hmany] at h
      cases h
    · rw [acquire_of_room hroom (Nat.lt_of_not_le hmany)] at h
      cases h
      rfl

end Ledger

namespace Act

variable {σ ρ α β : Type}

/-- A computation that changes nothing but the random source. -/
def Reads (act : Act σ ρ α) : Prop :=
  ∀ scene : Scene σ ρ, ∃ random, (act scene).2 = { scene with random }

/-- Giving a value back changes nothing. -/
theorem reads_pure (value : α) : Reads (pure value : Act σ ρ α) :=
  fun scene => ⟨scene.random, rfl⟩

/-- A fault changes nothing. -/
theorem reads_throw (fault : Fault) : Reads (throw fault : Act σ ρ α) :=
  fun scene => ⟨scene.random, rfl⟩

/-- Two computations in a row read if both do. -/
theorem Reads.bind {act : Act σ ρ α} {next : α → Act σ ρ β} (h : act.Reads)
    (hn : ∀ value, (next value).Reads) : Reads (act >>= next) := by
  intro scene
  obtain ⟨random, hs⟩ := h scene
  rw [bind_apply]
  cases ha : act scene with
  | mk result after =>
    rw [ha] at hs
    cases hs
    cases result with
    | error fault => exact ⟨random, rfl⟩
    | ok value => exact hn value _

/-- What was read leaves the invocation as it is. -/
theorem Reads.context_eq {act : Act σ ρ α} (h : act.Reads) {scene last : Scene σ ρ}
    {result : Except Fault α} (heq : act scene = (result, last)) :
    last.context = scene.context := by
  obtain ⟨random, hread⟩ := h scene
  rw [heq] at hread
  change last = _ at hread
  rw [hread]

variable [RandomSource ρ]

/-- Evaluating a parameter that may be missing changes nothing but the random source. -/
theorem reads_arg? (op : Op) (name : String) : Reads (arg? op name : Act σ ρ (Option Value)) := by
  unfold arg?
  split
  · exact reads_pure none
  · rw [map_eq_pure_bind]
    exact Reads.bind (fun scene => ⟨_, rfl⟩) fun value => reads_pure _

/-- The same for a parameter that must be there. -/
theorem reads_arg (op : Op) (name : String) : Reads (arg op name : Act σ ρ Value) := by
  refine (reads_arg? op name).bind fun value => ?_
  cases value with
  | none => exact reads_throw _
  | some value => exact reads_pure value

end Act

namespace Stage

variable {σ ρ : Type} [RandomSource ρ]

omit [RandomSource ρ] in
/-- A computation that reads leaves the activation alone. -/
theorem run_of_reads {α : Type} {act : Act σ ρ α} (h : act.Reads) (stage : Stage σ ρ) :
    ∃ random, act ⟨stage.activation.context, stage.around.host, stage.around.random⟩ =
        ((stage.run act).1, ⟨stage.activation.context, stage.around.host, random⟩) ∧
      (stage.run act).2 = ⟨stage.activation, { stage.around with random }⟩ := by
  obtain ⟨random, hread⟩ :=
    h ⟨stage.activation.context, stage.around.host, stage.around.random⟩
  refine ⟨random, Prod.ext rfl hread, ?_⟩
  have hrun : (stage.run act).2 = ⟨{ stage.activation with context := (act _).2.context },
    { stage.around with host := (act _).2.host, random := (act _).2.random }⟩ := rfl
  rw [hrun, hread]

/-- The same for the arguments of a call. -/
theorem reads_namedArgs (op : Op) (values : ArrivalMap String Value) (names : List String) :
    (namedArgs op values names : Act σ ρ (ArrivalMap String Value)).Reads := by
  induction names generalizing values with
  | nil => exact Act.reads_pure values
  | cons name rest ih =>
    unfold namedArgs
    split
    · exact ih values
    · exact (Act.reads_arg op name).bind fun _ => ih _

/-- Putting a call together changes nothing but the random source. -/
theorem reads_callRequest (op : Op) : (callRequest op : Act σ ρ CallRequest).Reads :=
  ((Act.reads_arg op _).bind fun _ => Act.reads_pure _).bind fun _ =>
    (Act.reads_arg? op _).bind fun _ => (Act.reads_arg? op _).bind fun _ =>
      (reads_namedArgs op _ _).bind fun _ => Act.reads_pure _

/-- The variable that takes the value is the one that the parameter `result` names, if it is
there and not empty. -/
theorem callRequest_result {op : Op} {scene last : Scene σ ρ} {request : CallRequest}
    (h : callRequest op scene = (.ok request, last)) :
    ∃ (first second : Scene σ ρ) (answer : Option Value), first.context = scene.context ∧
      Act.arg? op "result" first = (.ok answer, second) ∧
      request.result = (answer.map Value.toText).filter (!·.isEmpty) := by
  obtain ⟨name, first, hname, h⟩ := Act.bind_eq_ok h
  obtain ⟨answer, second, hanswer, h⟩ := Act.bind_eq_ok h
  obtain ⟨args, third, -, h⟩ := Act.bind_eq_ok h
  obtain ⟨named, fourth, -, h⟩ := Act.bind_eq_ok h
  cases h
  have hread : (Act.textArg op "function" : Act σ ρ String).Reads :=
    (Act.reads_arg op _).bind fun _ => Act.reads_pure _
  obtain ⟨random, hfirst⟩ := hread scene
  rw [hname] at hfirst
  cases hfirst
  exact ⟨{ scene with random }, second, answer, rfl, hanswer, rfl⟩

/-- The node of a call asks for it and leaves the activation alone. -/
theorem requestCall_eq_call {stage after : Stage σ ρ} {op : Op} {request : CallRequest}
    (h : stage.requestCall op = (.call request, after)) :
    ∃ random, callRequest op
        ⟨stage.activation.context, stage.around.host, stage.around.random⟩ =
        (.ok request, ⟨stage.activation.context, stage.around.host, random⟩) ∧
      after = ⟨stage.activation, { stage.around with random }⟩ := by
  obtain ⟨random, hasked, hstage⟩ := run_of_reads (reads_callRequest op) stage
  unfold requestCall at h
  generalize stage.run (callRequest op) = result at h hasked hstage
  obtain ⟨answer, last⟩ := result
  cases answer with
  | error fault => cases h
  | ok asked =>
    cases h
    exact ⟨random, hasked, hstage⟩

variable [Host σ] {table : ActionTable σ ρ}

/-- A call is asked for by the node of a call that comes next in a block, and nothing but
the random source changes. -/
theorem advance_eq_call {stage after : Stage σ ρ} {request : CallRequest}
    (h : stage.advance table = (.call request, after)) :
    ∃ chain outer index op random, stage.activation.Facing chain outer index op ∧
      op.category = .call ∧ op.action.isSome ∧
      callRequest op ⟨stage.activation.context, stage.around.host, stage.around.random⟩ =
        (.ok request, ⟨stage.activation.context, stage.around.host, random⟩) ∧
      after = ⟨{ stage.activation with frames := .block ⟨op.next, chain.kind, false⟩ :: outer },
        { stage.around with random }⟩ := by
  unfold advance at h
  split at h
  · cases h
  · rename_i frame outer hframes
    have heffect := congrArg Prod.fst h
    obtain hnormal | ⟨ticks, -, hwait⟩ := loopBoundary_effect stage frame
    · cases hnormal.symm.trans heffect
    · cases hwait.symm.trans heffect
  · rename_i chain outer hframes
    split at h
    · cases h
    · rename_i index hnext
      dsimp only at h
      split at h
      · cases h
      · rename_i op hnode
        rw [hnode] at h
        unfold exec at h
        split at h
        · cases h
        · split at h
          · cases h
          · rename_i action haction
            obtain ⟨-, heffect⟩ | ⟨hcall, -⟩ | heffect :=
              execAction_effect (congrArg Prod.fst h) Effect.noConfusion
            · unfold enterLoop at heffect
              split at heffect <;> cases heffect
            · unfold execAction at h
              rw [hcall] at h
              obtain ⟨random, hasked, rfl⟩ := requestCall_eq_call h
              exact ⟨chain, outer, index, op, random, ⟨hframes, hnext, hnode⟩, hcall,
                Option.isSome_of_eq_some haction, hasked, rfl⟩
            · obtain hnormal | hstop | ⟨ticks, hwait, -⟩ := perform_effect table _ op action
              · cases hnormal.symm.trans heffect
              · cases hstop.symm.trans heffect
              · cases hwait.symm.trans heffect

end Stage

namespace Surroundings

variable {σ ρ : Type}

/-- Why a call is refused, with the error and the function that was asked for, if there is
one. -/
inductive Refuses (around : Surroundings σ ρ) (context : Context) (request : CallRequest) :
    RunError → Option FunctionEntry → Prop where
  /-- There is no such function. -/
  | unknown (missing : around.ledger.registry.lookup? request.function context.actor
      context.origin.world = none) :
    Refuses around context request (.validation (.unknownFunction request.function)) none
  /-- The arguments do not fit. -/
  | unfit {entry : FunctionEntry} {error : ValidationError}
    (found : around.ledger.registry.lookup? request.function context.actor
      context.origin.world = some entry)
    (unbound : entry.definition.bindArgs request.named request.positional = .error error) :
    Refuses around context request (.validation error) (some entry)
  /-- The actor has too many calls under way. -/
  | tooDeep {entry : FunctionEntry} {locals : Locals}
    (found : around.ledger.registry.lookup? request.function context.actor
      context.origin.world = some entry)
    (bound : entry.definition.bindArgs request.named request.positional = .ok locals)
    (deep : around.ledger.depthLimit entry ≤ around.ledger.callDepth context.actor) :
    Refuses around context request
      (.limit (.callDepth entry.definition.name (around.ledger.depthLimit entry))) (some entry)
  /-- There are too many calls under way altogether. -/
  | tooMany {entry : FunctionEntry} {locals : Locals}
    (found : around.ledger.registry.lookup? request.function context.actor
      context.origin.world = some entry)
    (bound : entry.definition.bindArgs request.named request.positional = .ok locals)
    (room : around.ledger.callDepth context.actor < around.ledger.depthLimit entry)
    (many : around.ledger.settings.maxActiveCalls ≤ around.ledger.activeCalls) :
    Refuses around context request
      (.limit (.concurrency around.ledger.settings.maxActiveCalls)) (some entry)

/-- What a refused call leaves behind: the refusal is counted for the function that was
asked for. But for notices nothing else has changed. -/
structure Spares (before : Surroundings σ ρ) (asked : Option FunctionEntry)
    (after : Surroundings σ ρ) : Prop where
  /-- The host is the same. -/
  host : after.host = before.host
  /-- The random source is the same. -/
  random : after.random = before.random
  /-- The limits are the same. -/
  settings : after.ledger.settings = before.ledger.settings
  /-- The refusal is counted. -/
  registry : after.ledger.registry = (asked.map fun entry =>
    before.ledger.registry.updateTally entry.handle Tally.reject).getD before.ledger.registry
  /-- The number of runs is the same. -/
  activeRuns : after.ledger.activeRuns = before.ledger.activeRuns
  /-- The number of calls is the same. -/
  activeCalls : after.ledger.activeCalls = before.ledger.activeCalls
  /-- The number of calls of every actor is the same. -/
  callDepth : ∀ actor, after.ledger.callDepth actor = before.ledger.callDepth actor
  /-- The numbers of suspended runs are the same. -/
  suspensions : after.ledger.suspensions = before.ledger.suspensions
  /-- The loads are the same. -/
  loads : after.ledger.loads = before.ledger.loads

variable [Host σ]

/-- The ledger decides whether a call is accepted. -/
theorem fst_acquire (around : Surroundings σ ρ) (entry : FunctionEntry) (actor : Actor) :
    (around.acquire entry actor).1 = (around.ledger.acquire entry actor around.now).1 := by
  unfold acquire
  dsimp only
  split
  · rename_i hok
    rw [hok]
  · rename_i herror
    rw [herror]

/-- What comes of a request for a call: the call and the variables it starts with, or why
it is refused. -/
def grant (around : Surroundings σ ρ) (context : Context) (request : CallRequest) :
    Except RunError (ActiveCall × Locals) × Surroundings σ ρ :=
  match around.ledger.registry.lookup? request.function context.actor context.origin.world with
  | none => (.error (.validation (.unknownFunction request.function)), around)
  | some entry =>
    match entry.definition.bindArgs request.named request.positional with
    | .error error => (.error (.validation error), around.reject entry)
    | .ok locals =>
      match around.acquire entry context.actor with
      | (.error error, after) => (.error (.limit error), after)
      | (.ok call, after) => (.ok (call, locals), after)

/-- A call for which there is a reason is refused for it. -/
theorem grant_of_refuses {around : Surroundings σ ρ} {context : Context} {request : CallRequest}
    {error : RunError} {asked : Option FunctionEntry}
    (h : around.Refuses context request error asked) :
    ∃ after, around.grant context request = (.error error, after) ∧
      around.Spares asked after := by
  unfold grant
  cases h with
  | unknown missing =>
    rw [missing]
    exact ⟨_, rfl, ⟨rfl, rfl, rfl, rfl, rfl, rfl, fun _ => rfl, rfl, rfl⟩⟩
  | unfit found unbound =>
    rw [found]
    dsimp only
    rw [unbound]
    exact ⟨_, rfl, ⟨rfl, rfl, rfl, rfl, rfl, rfl, fun _ => rfl, rfl, rfl⟩⟩
  | @tooDeep entry locals found bound deep =>
    rw [found]
    dsimp only
    rw [bound, acquire, Ledger.acquire_of_deep deep]
    exact ⟨_, rfl, ⟨rfl, rfl, rfl, rfl, rfl, rfl, fun _ => ActorCounts.count_touch .., rfl, rfl⟩⟩
  | @tooMany entry locals found bound room many =>
    rw [found]
    dsimp only
    rw [bound, acquire, Ledger.acquire_of_many room many]
    exact ⟨_, rfl, ⟨rfl, rfl, rfl, rfl, rfl, rfl, fun _ => ActorCounts.count_prune .., rfl, rfl⟩⟩

/-- A call for which there is no reason to refuse it is granted. -/
theorem refuses_or_grants (around : Surroundings σ ρ) (context : Context) (request : CallRequest) :
    (∃ error asked, around.Refuses context request error asked) ∨
    ∃ entry locals ledger, around.grant context request =
        (.ok (⟨entry, context.actor, around.now, around.ledger.timeLimit entry⟩, locals),
          { around with ledger }) ∧
      around.ledger.registry.lookup? request.function context.actor context.origin.world =
        some entry ∧
      entry.definition.bindArgs request.named request.positional = .ok locals := by
  cases hfound : around.ledger.registry.lookup? request.function context.actor
      context.origin.world with
  | none => exact .inl ⟨_, _, .unknown hfound⟩
  | some entry =>
    cases hbound : entry.definition.bindArgs request.named request.positional with
    | error error => exact .inl ⟨_, _, .unfit hfound hbound⟩
    | ok locals =>
      by_cases hdeep : around.ledger.depthLimit entry ≤ around.ledger.callDepth context.actor
      · exact .inl ⟨_, _, .tooDeep hfound hbound hdeep⟩
      · have hroom := Nat.lt_of_not_le hdeep
        by_cases hmany : around.ledger.settings.maxActiveCalls ≤ around.ledger.activeCalls
        · exact .inl ⟨_, _, .tooMany hfound hbound hroom hmany⟩
        · obtain ⟨ledger, hclaim⟩ : ∃ ledger, around.ledger.acquire entry context.actor around.now =
              (.ok ⟨entry, context.actor, around.now, around.ledger.timeLimit entry⟩, ledger) :=
            ⟨_, Ledger.acquire_of_room hroom (Nat.lt_of_not_le hmany)⟩
          refine .inr ⟨entry, locals, ledger, ?_, rfl, hbound⟩
          unfold grant
          rw [hfound]
          dsimp only
          rw [hbound, acquire, hclaim]

/-- A call is refused only if there is a reason. -/
theorem refuses_of_grant {around after : Surroundings σ ρ} {context : Context}
    {request : CallRequest} {error : RunError}
    (h : around.grant context request = (.error error, after)) :
    ∃ asked, around.Refuses context request error asked ∧ around.Spares asked after := by
  rcases around.refuses_or_grants context request with ⟨_, asked, hrefuses⟩ | ⟨_, _, _, hgrant, -⟩
  · obtain ⟨_, hrefused, hspares⟩ := grant_of_refuses hrefuses
    cases hrefused.symm.trans h
    exact ⟨asked, hrefuses, hspares⟩
  · cases hgrant.symm.trans h

end Surroundings

namespace Machine

variable {σ ρ : Type} [Host σ]

/-- A call that is granted is pushed, and one that is refused ends the machine. -/
theorem call_eq (machine : Machine) (context : Context) (request : CallRequest)
    (around : Surroundings σ ρ) : machine.call context request around =
      match around.grant context request with
      | (.error error, after) => machine.failWith error after
      | (.ok (accepted, locals), after) =>
        ⟨.ok .normal, { machine with
          stack := .start accepted.entry.script (.start context.actor context.origin locals)
            (some ⟨accepted, request.result⟩) :: machine.stack }, after⟩ := by
  unfold call Surroundings.grant
  cases around.ledger.registry.lookup? request.function context.actor context.origin.world with
  | none => rfl
  | some entry =>
    dsimp only
    cases entry.definition.bindArgs request.named request.positional with
    | error error => rfl
    | ok locals =>
      dsimp only
      have haccepted := Surroundings.enters_acquire around entry context.actor
      generalize around.acquire entry context.actor = claim at haccepted ⊢
      obtain ⟨answer, after⟩ := claim
      cases answer with
      | error error => rfl
      | ok accepted =>
        dsimp only at haccepted ⊢
        rw [haccepted.2.1]

end Machine

end GridScript
