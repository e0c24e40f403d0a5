import GridScript.Host.Recording
import GridScript.Proofs.Enclosure
import GridScript.Proofs.Expiry
import GridScript.Proofs.Requests

/-!
# Failed actions change nothing

Every action of the standard table reads and computes first, and changes a variable or
shows a text only when nothing can fail any more. What is left to the host is asked of it
once, and its answer is stored only if it performed the action. So an action that fails has
the effect of a node without an action: the variables of all activations and their frames
are the same, and the next node comes next.
-/

namespace GridScript

namespace Act

variable {σ ρ α β : Type}

/-- A computation that, if it fails, has changed nothing but the random source. -/
def Spotless (act : Act σ ρ α) : Prop :=
  ∀ (scene last : Scene σ ρ) (fault : Fault), act scene = (.error fault, last) →
    ∃ random, last = { scene with random }

/-- A computation that never fails. -/
def Certain (act : Act σ ρ α) : Prop :=
  ∀ (scene last : Scene σ ρ) (fault : Fault), act scene ≠ (.error fault, last)

/-- What only reads is spotless. -/
theorem Reads.spotless {act : Act σ ρ α} (h : act.Reads) : act.Spotless := by
  intro scene last fault hfails
  obtain ⟨random, hlast⟩ := h scene
  rw [hfails] at hlast
  exact ⟨random, hlast⟩

/-- What never fails is spotless, whatever it changes. -/
theorem Certain.spotless {act : Act σ ρ α} (h : act.Certain) : act.Spotless :=
  fun scene last fault hfails => absurd hfails (h scene last fault)

/-- Two computations in a row fail if the first does, or the second on what the first left. -/
theorem bind_eq_error {act : Act σ ρ α} {next : α → Act σ ρ β} {scene last : Scene σ ρ}
    {fault : Fault} (h : (act >>= next) scene = (.error fault, last)) :
    act scene = (.error fault, last) ∨
      ∃ value middle, act scene = (.ok value, middle) ∧
        next value middle = (.error fault, last) := by
  rw [bind_apply] at h
  cases ha : act scene with
  | mk result middle =>
    rw [ha] at h
    cases result with
    | error first =>
      cases h
      exact .inl rfl
    | ok value => exact .inr ⟨value, middle, rfl, h⟩

/-- Reading comes before everything else. -/
theorem Reads.bind_spotless {act : Act σ ρ α} {next : α → Act σ ρ β} (h : act.Reads)
    (hn : ∀ value, (next value).Spotless) : (act >>= next).Spotless := by
  intro scene last fault hfails
  obtain ⟨random, hread⟩ := h scene
  rcases bind_eq_error hfails with hfirst | ⟨value, middle, hfirst, hsecond⟩
  · rw [hfirst] at hread
    exact ⟨random, hread⟩
  · rw [hfirst] at hread
    cases hread
    obtain ⟨later, rfl⟩ := hn value _ _ _ hsecond
    exact ⟨later, rfl⟩

/-- Giving a value back does not fail. -/
theorem certain_pure (value : α) : Certain (pure value : Act σ ρ α) :=
  fun _ _ _ h => by cases h

/-- Two computations in a row do not fail if neither does. -/
theorem Certain.bind {act : Act σ ρ α} {next : α → Act σ ρ β} (h : act.Certain)
    (hn : ∀ value, (next value).Certain) : (act >>= next).Certain := by
  intro scene last fault hfails
  rcases bind_eq_error hfails with hfirst | ⟨value, middle, -, hsecond⟩
  · exact h _ _ _ hfirst
  · exact hn value _ _ _ hsecond

/-- Setting a variable does not fail. -/
theorem certain_define (name : String) (value : Value) :
    Certain (define name value : Act σ ρ Unit) :=
  fun _ _ _ h => by cases h

/-- Removing a variable does not fail. -/
theorem certain_erase (name : String) : Certain (erase name : Act σ ρ Unit) :=
  fun _ _ _ h => by cases h

/-- Showing a text does not fail. -/
theorem certain_print [Host σ] (text : String) : Certain (print text : Act σ ρ Unit) :=
  fun _ _ _ h => by cases h

/-- A result from elsewhere changes nothing. -/
theorem reads_lift (result : Except Fault α) : Reads (lift result : Act σ ρ α) :=
  fun scene => ⟨scene.random, rfl⟩

/-- Looking a variable up changes nothing. -/
theorem reads_lookup? (name : String) : Reads (lookup? name : Act σ ρ (Option Value)) :=
  fun scene => ⟨scene.random, rfl⟩

/-- Looking at the invocation changes nothing. -/
theorem reads_context : Reads (context : Act σ ρ Context) :=
  fun scene => ⟨scene.random, rfl⟩

variable [RandomSource ρ]

/-- Evaluating a parameter as a text changes nothing but the random source. -/
theorem reads_textArg (op : Op) (name : String) : Reads (textArg op name : Act σ ρ String) :=
  (reads_arg op name).bind fun _ => reads_pure _

/-- Evaluating several parameters changes nothing but the random source. -/
theorem reads_evalAll (values : ArrivalMap String Value) (args : List (String × Arg)) :
    Reads (evalAll values args : Act σ ρ (ArrivalMap String Value)) := by
  induction args generalizing values with
  | nil => exact reads_pure values
  | cons entry rest ih => exact Reads.bind (fun scene => ⟨_, rfl⟩) fun _ => ih _

/-- Putting a request together changes nothing but the random source. -/
theorem reads_request (op : Op) (action : String) :
    Reads (request op action : Act σ ρ ActionRequest) :=
  (reads_evalAll .empty _).bind fun _ => reads_context.bind fun _ => reads_pure _

end Act

namespace Actions

open Act

variable {σ ρ : Type} [RandomSource ρ]

/-- A failed attempt to set a variable changes nothing. -/
theorem spotless_set (op : Op) : Spotless (set op : Act σ ρ Flow) :=
  (reads_textArg op _).bind_spotless fun name => (reads_arg op _).bind_spotless fun value =>
    ((certain_define name value).bind fun _ => certain_pure _).spotless

/-- A failed attempt to add to a variable changes nothing. -/
theorem spotless_add (op : Op) : Spotless (add op : Act σ ρ Flow) := by
  refine (reads_textArg op _).bind_spotless fun name =>
    (reads_arg? op _).bind_spotless fun given => ?_
  have hstore (current amount : Number) : Spotless (do
      let sum ← Act.lift (Fault.ofNumber (current.toFloat + amount.toFloat))
      Act.define name (.number sum)
      return Flow.proceed : Act σ ρ Flow) :=
    (reads_lift _).bind_spotless fun sum =>
      ((certain_define name _).bind fun _ => certain_pure _).spotless
  cases given with
  | none =>
    refine (reads_pure _).bind_spotless fun amount =>
      (reads_lookup? name).bind_spotless fun found => ?_
    cases found with
    | none => exact (reads_pure _).bind_spotless fun current => hstore current amount
    | some value => exact (reads_lift _).bind_spotless fun current => hstore current amount
  | some value =>
    refine (reads_lift _).bind_spotless fun amount =>
      (reads_lookup? name).bind_spotless fun found => ?_
    cases found with
    | none => exact (reads_pure _).bind_spotless fun current => hstore current amount
    | some value => exact (reads_lift _).bind_spotless fun current => hstore current amount

/-- A failed attempt to append to a list changes nothing. -/
theorem spotless_append (op : Op) : Spotless (append op : Act σ ρ Flow) := by
  refine (reads_textArg op _).bind_spotless fun name => (reads_arg op _).bind_spotless fun value =>
    (reads_lookup? name).bind_spotless fun found => ?_
  split
  · exact ((certain_define name _).bind fun _ => certain_pure _).spotless
  · exact (reads_throw _).bind_spotless fun _ => (certain_pure _).spotless
  · exact ((certain_define name _).bind fun _ => certain_pure _).spotless

/-- A failed attempt to put into a map changes nothing. -/
theorem spotless_put (op : Op) : Spotless (put op : Act σ ρ Flow) := by
  refine (reads_textArg op _).bind_spotless fun name =>
    (reads_textArg op _).bind_spotless fun key => (reads_arg op _).bind_spotless fun value =>
      (reads_lookup? name).bind_spotless fun found => ?_
  split
  · exact ((certain_define name _).bind fun _ => certain_pure _).spotless
  · exact (reads_throw _).bind_spotless fun _ => (certain_pure _).spotless
  · exact ((certain_define name _).bind fun _ => certain_pure _).spotless

/-- A failed attempt to remove a variable changes nothing. -/
theorem spotless_remove (op : Op) : Spotless (remove op : Act σ ρ Flow) :=
  (reads_textArg op _).bind_spotless fun name =>
    ((certain_erase name).bind fun _ => certain_pure _).spotless

/-- A failed attempt to show a text shows nothing. -/
theorem spotless_log [Host σ] (op : Op) : Spotless (log op : Act σ ρ Flow) :=
  (reads_textArg op _).bind_spotless fun text =>
    ((certain_print text).bind fun _ => certain_pure _).spotless

/-- Waiting changes nothing but the random source. -/
theorem reads_wait (op : Op) : Reads (wait op : Act σ ρ Flow) := by
  refine (reads_arg? op _).bind fun ticks => ?_
  cases ticks with
  | none => exact (reads_pure _).bind fun _ => reads_pure _
  | some value => exact (reads_lift _).bind fun _ => reads_pure _

/-- What a failed action leaves of the host. -/
inductive Declined [Host σ] (action : String) (fault : Fault) (before : σ) : σ → Prop
  /-- Nothing was asked of it. -/
  | unasked : Declined action fault before before
  /-- It was asked once, to perform the action, and failed to. -/
  | refused {request : ActionRequest} {after : σ} (asked : request.action = action)
      (failed : Host.perform request before = (.error fault, after)) :
      Declined action fault before after

/-- A request is one for the action. -/
theorem action_request {op : Op} {action : String} {scene last : Scene σ ρ}
    {request : ActionRequest} (h : Act.request op action scene = (.ok request, last)) :
    request.action = action := by
  obtain ⟨args, first, -, h⟩ := bind_eq_ok h
  obtain ⟨context, second, -, h⟩ := bind_eq_ok h
  cases h
  rfl

/-- What the host fails to perform changes nothing but the random source and the host. -/
theorem declined_byHost [Host σ] {action : String} {op : Op} {scene last : Scene σ ρ}
    {fault : Fault} (h : byHost action op scene = (.error fault, last)) :
    ∃ host random, Declined action fault scene.host host ∧ last = { scene with host, random } := by
  obtain ⟨random, hread⟩ := (reads_request op action : Reads (Act.request op action)) scene
  rcases bind_eq_error h with hearly | ⟨request, middle, hrequest, h⟩
  · rw [hearly] at hread
    exact ⟨scene.host, random, .unasked, hread⟩
  · rw [hrequest] at hread
    cases hread
    rcases bind_eq_error h with hfailed | ⟨answer, after, -, h⟩
    · have hanswer : (Host.perform request scene.host).1 = .error fault :=
        congrArg Prod.fst hfailed
      have hlast : last = { scene with host := (Host.perform request scene.host).2, random } :=
        (congrArg Prod.snd hfailed).symm
      exact ⟨_, random, .refused (action_request hrequest) (Prod.ext hanswer rfl), hlast⟩
    · refine absurd h ((?_ : Act.Certain _) _ _ _)
      split
      · exact (certain_define _ _).bind fun _ => certain_pure _
      · exact certain_pure _

end Actions

open Act Actions

/-- An action of the standard table that fails, or one that the host fails to perform,
changes nothing but the random source and, by that one request, the host. -/
theorem ActionTable.declined_standard {σ ρ : Type} [Host σ] [RandomSource ρ] {action : String}
    {op : Op} {scene last : Scene σ ρ} {fault : Fault}
    (h : ActionTable.standard.action action op scene = (.error fault, last)) :
    ∃ host random, Declined action fault scene.host host ∧ last = { scene with host, random } := by
  have hown {handler : Op → Act σ ρ Flow} (hs : ∀ op, (handler op).Spotless)
      (hfails : handler op scene = (.error fault, last)) :
      ∃ host random, Declined action fault scene.host host ∧
        last = { scene with host, random } := by
    obtain ⟨random, rfl⟩ := hs op _ _ _ hfails
    exact ⟨scene.host, random, .unasked, rfl⟩
  refine getD_ofList (motive := fun handler : Op → Act σ ρ Flow =>
    handler op scene = (.error fault, last) → ∃ host random,
      Declined action fault scene.host host ∧ last = { scene with host, random })
    ?_ declined_byHost action h
  simp only [List.mem_cons, List.not_mem_nil, or_false, forall_eq_or_imp, forall_eq]
  exact ⟨hown spotless_set, hown spotless_add, hown spotless_append, hown spotless_put,
    hown spotless_remove, hown spotless_log, hown fun op => (reads_wait op).spotless,
    hown fun _ => (certain_pure _).spotless⟩

/-- A node that has its action performed by a handler: requests that concern loops and
returns have none. -/
structure Op.Acts (op : Op) (action : String) : Prop where
  /-- This is its action. -/
  named : op.action = some action
  /-- This is its role. -/
  category : op.category = .action ∨ op.category = .assignment ∨
    op.category = .control ∧ action ≠ "break" ∧ action ≠ "continue" ∧ action ≠ "return"

/-- Such a node is no alternative, with this action or without any. -/
theorem Op.Acts.isPlainElse {op : Op} {action : String} (h : op.Acts action)
    (other : Option String) : Stage.isPlainElse { op with action := other } = false := by
  rcases h.category with hc | hc | ⟨hc, -⟩ <;> simp [Stage.isPlainElse, hc]

/-- The script with the action of one node unset. -/
def Script.mute (script : Script) (index : Nat) : Script :=
  { script with ops := script.ops.modify index ({ · with action := none }) }

/-- The machine with the action of one node of its innermost activation unset. -/
def Machine.mute (machine : Machine) (index : Nat) : Machine :=
  { machine with stack := machine.stack.modifyHead fun top =>
      { top with script := top.script.mute index } }

/-- The node has no action any more. -/
theorem Script.op?_mute {script : Script} {index : Nat} {op : Op}
    (h : script.op? index = some op) :
    (script.mute index).op? index = some { op with action := none } := by
  unfold op? at h ⊢
  rw [mute, Array.getElem?_modify, if_pos rfl, h]
  rfl

/-- The calls are the same. -/
theorem Machine.calls_mute (machine : Machine) (index : Nat) :
    (machine.mute index).calls = machine.calls := by
  unfold calls mute Surroundings.callsIn
  cases machine.stack <;> rfl

section

variable {σ ρ : Type} [Host σ] [RandomSource ρ] {table : ActionTable σ ρ}

/-- A node that acts has its action performed. -/
theorem Stage.exec_of_acts {op : Op} {action : String} (h : op.Acts action) (stage : Stage σ ρ)
    (index : Nat) (armed : Bool) :
    stage.exec table index op armed = stage.perform table op action := by
  unfold exec
  rw [h.isPlainElse op.action, h.named, if_neg Bool.false_ne_true]
  dsimp only [execAction]
  rcases h.category with hc | hc | ⟨hc, hbreak, hcontinue, hreturn⟩
  · rw [hc]
  · rw [hc]
  · rw [hc]
    dsimp only
    split
    · exact absurd rfl hbreak
    · exact absurd rfl hcontinue
    · exact absurd rfl hreturn
    · rfl

/-- A step in front of a node executes it and moves on. -/
theorem Machine.step_of_facing {machine : Machine} {around : Surroundings σ ρ} {top : Activation}
    {callers : List Activation} {chain : Block} {outer : List Frame} {index : Nat} {op : Op}
    {stage : Stage σ ρ} (hs : machine.stack = top :: callers)
    (hp : ∀ call ∈ machine.calls, call.isLate around.now = false)
    (hf : top.Facing chain outer index op)
    (he : Stage.exec table
      ⟨{ top with frames := .block ⟨op.next, chain.kind, false⟩ :: outer }, around⟩ index op
      chain.elseArmed = (.normal, stage)) :
    machine.step table around =
      ⟨.ok .normal, { machine with stack := stage.activation :: callers }, stage.around⟩ := by
  have hadvance : Stage.advance table ⟨top, around⟩ = (.normal, stage) :=
    (Stage.advance_of_facing hf).trans he
  rw [step_eq_advance hp]
  unfold advance
  rw [hs]
  dsimp only
  rw [hf.frames, List.isEmpty_cons, if_neg Bool.false_ne_true, hadvance]

namespace Machine

/-- Failed actions change nothing. Whatever a machine is doing, if its innermost activation
is in front of a node that acts, no call is late, and the handler of the standard table or
the host fails, then a step only moves on to the next node and writes the fault down: the
variables of all activations, all frames and the ledger are the same. It is the step of the
same machine with the action of that node unset. Nothing is printed: the host is as it was,
or as it is after it failed to perform the action, and no more is asked of it. -/
theorem failed_actions_change_nothing {machine : Machine} {around : Surroundings σ ρ}
    {top : Activation} {callers : List Activation} {chain : Block} {outer : List Frame}
    {index : Nat} {op : Op} {action : String} {fault : Fault} {last : Scene σ ρ}
    (hs : machine.stack = top :: callers)
    (hp : ∀ call ∈ machine.calls, call.isLate around.now = false)
    (hf : top.Facing chain outer index op) (ha : op.Acts action)
    (h : ActionTable.standard.action action op ⟨top.context, around.host, around.random⟩ =
      (.error fault, last)) :
    (∃ host random, Actions.Declined action fault around.host host ∧
      machine.step .standard around = ⟨.ok .normal,
        { machine with stack :=
            { top with frames := .block ⟨op.next, chain.kind, false⟩ :: outer } :: callers },
        Surroundings.note { around with host, random } (.actionFailed ⟨action, fault⟩)⟩) ∧
    (machine.mute index).step .standard around =
      ⟨.ok .normal, (machine.step .standard around).machine.mute index, around⟩ ∧
    ∀ {α : Type} (printed : σ → α),
      (∀ request host, printed (Host.perform request host).2 = printed host) →
      printed (machine.step .standard around).around.host = printed around.host := by
  obtain ⟨host, random, hdeclined, rfl⟩ := ActionTable.declined_standard h
  have hperform : Stage.exec .standard
      ⟨{ top with frames := .block ⟨op.next, chain.kind, false⟩ :: outer }, around⟩ index op
      chain.elseArmed =
        (.normal, ⟨{ top with frames := .block ⟨op.next, chain.kind, false⟩ :: outer },
          Surroundings.note { around with host, random } (.actionFailed ⟨action, fault⟩)⟩) := by
    rw [Stage.exec_of_acts ha]
    unfold Stage.perform
    have hrun : Stage.run
        ⟨{ top with frames := .block ⟨op.next, chain.kind, false⟩ :: outer }, around⟩
        (ActionTable.standard.action action op) =
          (.error fault, ⟨{ top with frames := .block ⟨op.next, chain.kind, false⟩ :: outer },
            { around with host, random }⟩) := by
      unfold Stage.run
      dsimp only [ExceptT.run, StateT.run]
      rw [show ActionTable.standard.action action op ⟨top.context, around.host, around.random⟩ = _
        from h]
    rw [hrun]
    rfl
  have hstep := step_of_facing hs hp hf hperform
  refine ⟨⟨host, random, hdeclined, hstep⟩, ?_, fun printed hprinted => ?_⟩
  · have hmuted : (machine.mute index).stack =
        { top with script := top.script.mute index } :: callers := by
      rw [mute, hs]
      rfl
    have hpunctual : ∀ call ∈ (machine.mute index).calls, call.isLate around.now = false := by
      rw [calls_mute]
      exact hp
    have hfacing : Activation.Facing { top with script := top.script.mute index } chain outer index
        { op with action := none } := ⟨hf.frames, hf.next, Script.op?_mute hf.node⟩
    have hidle : Stage.exec .standard
        ⟨{ top with
            script := top.script.mute index
            frames := .block ⟨op.next, chain.kind, false⟩ :: outer }, around⟩ index
        { op with action := none } chain.elseArmed =
          (.normal, ⟨{ top with
            script := top.script.mute index
            frames := .block ⟨op.next, chain.kind, false⟩ :: outer }, around⟩) := by
      unfold Stage.exec
      rw [ha.isPlainElse none, if_neg Bool.false_ne_true]
    rw [hstep, step_of_facing hmuted hpunctual hfacing hidle]
    rfl
  · rw [hstep]
    cases hdeclined with
    | unasked => rfl
    | @refused request after asked failed =>
      have hsame := hprinted request around.host
      rw [failed] at hsame
      exact hsame

end Machine

end

/-- The texts that were shown, in order. -/
def RecordingHost.shown (host : RecordingHost) : List (Actor × String) :=
  host.events.toList.filterMap fun event =>
    match event with
    | .print actor text => some (actor, text)
    | _ => none

/-- Performing an action shows nothing. -/
theorem RecordingHost.shown_perform (request : ActionRequest) (host : RecordingHost) :
    (Host.perform request host).2.shown = host.shown := by
  have hasked : (host.record (.perform request)).shown = host.shown := by
    simp [shown, record]
  change (RecordingHost.perform request host).2.shown = host.shown
  unfold perform
  split
  case h_5 => simp [shown, record]
  case h_7 =>
    cases request.args.get? "actor" with
    | none => exact hasked
    | some value =>
      dsimp only
      cases value.asActor with
      | error error => exact hasked
      | ok actor =>
        unfold disconnect
        dsimp only
        split <;> exact hasked
  all_goals exact hasked

namespace Machine

/-- A program whose first action the host fails to perform. -/
def explodingMachine : Machine :=
  ofScript (.ofBody "start" default (some (.mk ⟨1, "explode", .action, some "explode",
      ArrivalMap.empty.insert "result" (.text "x"), .plain, none⟩ []
    (some (.mk ⟨2, "log", .action, some "log", ArrivalMap.empty.insert "text" (.text "done"),
      .plain, none⟩ [] none)))))
    (.start ⟨"alice"⟩ default (SortedMap.empty.insert "x" (.bool true)))

/-- What surrounds it. -/
def explodingSurroundings : Surroundings RecordingHost ReplaySource :=
  ⟨.atTime 0, ⟨[], 0⟩, .initial default, #[]⟩

/-- Its first step changes nothing and prints nothing. -/
theorem failed_actions_change_nothing_explode :
    (explodingMachine.step .standard explodingSurroundings).outcome = .ok .normal ∧
    (explodingMachine.mute 0).step .standard explodingSurroundings = ⟨.ok .normal,
      (explodingMachine.step .standard explodingSurroundings).machine.mute 0,
      explodingSurroundings⟩ ∧
    (explodingMachine.step .standard explodingSurroundings).around.host.shown = [] := by
  have hpunctual : ∀ call ∈ explodingMachine.calls,
      call.isLate explodingSurroundings.now = false := fun _ hm => by cases hm
  obtain ⟨⟨host, random, -, hstep⟩, hmuted, hshown⟩ :=
    @failed_actions_change_nothing _ _ _ _ explodingMachine explodingSurroundings _ _ _ _ 0 _
      "explode" _ _ rfl hpunctual ⟨rfl, rfl, rfl⟩ ⟨rfl, .inl rfl⟩ rfl
  refine ⟨by rw [hstep], hmuted, ?_⟩
  rw [hshown RecordingHost.shown RecordingHost.shown_perform]
  rfl

end Machine

end GridScript
