import GridScript.Machine.Node
import GridScript.Proofs.Counts

/-!
# What actions leave alone

Actions change variables, host and random source. The actor and the origin of an
invocation and the requests to its loops are out of their reach: no primitive of
actions touches them, and whatever is put together from primitives does not
either. From the standard table this carries over to every node a machine
executes.
-/

namespace GridScript

/-- Two contexts of one invocation that differ in variables at most. -/
structure Context.SameInvocation (before after : Context) : Prop where
  /-- The actor is the same. -/
  actor : after.actor = before.actor
  /-- The origin is the same. -/
  origin : after.origin = before.origin
  /-- The requests to loops are the same. -/
  flags : after.flags = before.flags

namespace Context.SameInvocation

/-- Every context is of its own invocation. -/
theorem refl (context : Context) : context.SameInvocation context :=
  ⟨rfl, rfl, rfl⟩

/-- Two changes of variables are one. -/
theorem trans {first second third : Context} (h₁ : first.SameInvocation second)
    (h₂ : second.SameInvocation third) : first.SameInvocation third :=
  ⟨h₂.actor.trans h₁.actor, h₂.origin.trans h₁.origin, h₂.flags.trans h₁.flags⟩

end Context.SameInvocation

namespace Act

variable {σ ρ α β : Type}

/-- A computation that stays in its invocation whatever it does and however it
ends. -/
def Keeps (act : Act σ ρ α) : Prop :=
  ∀ scene : Scene σ ρ, scene.context.SameInvocation (act scene).2.context

/-- A computation that touches nothing keeps the invocation. -/
theorem keeps_of_scene {act : Act σ ρ α} (h : ∀ scene, (act scene).2.context = scene.context) :
    Keeps act := by
  intro scene
  rw [h scene]
  exact .refl _

/-- Giving a value back keeps the invocation. -/
theorem keeps_pure (value : α) : Keeps (pure value : Act σ ρ α) :=
  keeps_of_scene fun _ => rfl

/-- A fault keeps the invocation. -/
theorem keeps_throw (fault : Fault) : Keeps (throw fault : Act σ ρ α) :=
  keeps_of_scene fun _ => rfl

/-- One computation after the other: the second runs on the scene the first one
left, unless that failed. -/
theorem bind_apply (act : Act σ ρ α) (next : α → Act σ ρ β) (scene : Scene σ ρ) :
    (act >>= next) scene =
      match act scene with
      | (.ok value, scene) => next value scene
      | (.error fault, scene) => (.error fault, scene) := by
  change ExceptT.bindCont next (act scene).1 (act scene).2 = _
  cases h : act scene with
  | mk result after => cases result <;> rfl

/-- Two computations in a row succeed only if the first does, and the second on
what the first left. -/
theorem bind_eq_ok {act : Act σ ρ α} {next : α → Act σ ρ β} {scene last : Scene σ ρ} {result : β}
    (h : (act >>= next) scene = (.ok result, last)) :
    ∃ value middle, act scene = (.ok value, middle) ∧ next value middle = (.ok result, last) := by
  rw [bind_apply] at h
  cases ha : act scene with
  | mk first middle =>
    rw [ha] at h
    cases first with
    | error fault => cases h
    | ok value => exact ⟨value, middle, rfl, h⟩

/-- Two computations in a row keep the invocation if both do. -/
theorem keeps_bind {act : Act σ ρ α} {next : α → Act σ ρ β} (h : Keeps act)
    (hn : ∀ value, Keeps (next value)) : Keeps (act >>= next) := by
  intro scene
  have hs := h scene
  rw [bind_apply]
  cases ha : act scene with
  | mk result after =>
    rw [ha] at hs
    cases result with
    | error fault => exact hs
    | ok value => exact hs.trans (hn value after)

/-- Changing the value of a computation keeps the invocation. -/
theorem keeps_map (change : α → β) {act : Act σ ρ α} (h : Keeps act) :
    Keeps (change <$> act) := by
  have he : (change <$> act) = act >>= fun value => pure (change value) :=
    map_eq_pure_bind change act
  rw [he]
  exact keeps_bind h fun value => keeps_pure _

/-- A result from elsewhere keeps the invocation. -/
theorem keeps_lift (result : Except Fault α) : Keeps (lift result : Act σ ρ α) :=
  keeps_of_scene fun _ => rfl

/-- Looking at the context keeps the invocation. -/
theorem keeps_context : Keeps (context : Act σ ρ Context) :=
  keeps_of_scene fun _ => rfl

/-- Looking a variable up keeps the invocation. -/
theorem keeps_lookup? (name : String) : Keeps (lookup? name : Act σ ρ (Option Value)) :=
  keeps_of_scene fun _ => rfl

/-- Setting a variable keeps the invocation. -/
theorem keeps_define (name : String) (value : Value) : Keeps (define name value : Act σ ρ Unit) :=
  fun _ => ⟨rfl, rfl, rfl⟩

/-- Removing a variable keeps the invocation. -/
theorem keeps_erase (name : String) : Keeps (erase name : Act σ ρ Unit) :=
  fun _ => ⟨rfl, rfl, rfl⟩

section Host

variable [Host σ]

/-- An action of the host keeps the invocation. -/
theorem keeps_perform (request : ActionRequest) :
    Keeps (perform request : Act σ ρ (Option Value)) :=
  keeps_of_scene fun _ => rfl

/-- A condition of the host keeps the invocation. -/
theorem keeps_check (request : ActionRequest) : Keeps (check request : Act σ ρ Bool) :=
  keeps_of_scene fun _ => rfl

/-- Asking who is connected keeps the invocation. -/
theorem keeps_isConnected (actor : Actor) : Keeps (isConnected actor : Act σ ρ Bool) :=
  keeps_of_scene fun _ => rfl

/-- Printing keeps the invocation. -/
theorem keeps_print (text : String) : Keeps (print text : Act σ ρ Unit) :=
  keeps_of_scene fun _ => rfl

end Host

section Parameters

variable [RandomSource ρ]

/-- Evaluating a parameter keeps the invocation. -/
theorem keeps_eval (arg : Arg) : Keeps (eval arg : Act σ ρ Value) :=
  keeps_of_scene fun _ => rfl

/-- Evaluating a parameter that may be missing keeps the invocation. -/
theorem keeps_arg? (op : Op) (name : String) : Keeps (arg? op name : Act σ ρ (Option Value)) := by
  unfold arg?
  split
  · exact keeps_pure none
  · exact keeps_map some (keeps_eval _)

/-- Evaluating a parameter that must be there keeps the invocation. -/
theorem keeps_arg (op : Op) (name : String) : Keeps (arg op name : Act σ ρ Value) := by
  refine keeps_bind (keeps_arg? op name) fun value => ?_
  cases value with
  | none => exact keeps_throw _
  | some value => exact keeps_pure value

/-- Reading a text keeps the invocation. -/
theorem keeps_textArg (op : Op) (name : String) : Keeps (textArg op name : Act σ ρ String) :=
  keeps_bind (keeps_arg op name) fun _ => keeps_pure _

/-- Reading a truth value keeps the invocation. -/
theorem keeps_flag (op : Op) (name : String) : Keeps (flag op name : Act σ ρ Bool) := by
  refine keeps_bind (keeps_arg? op name) fun value => ?_
  cases value with
  | none => exact keeps_pure false
  | some value => exact keeps_lift _

/-- Evaluating several parameters keeps the invocation. -/
theorem keeps_evalAll (values : ArrivalMap String Value) (args : List (String × Arg)) :
    Keeps (evalAll values args : Act σ ρ (ArrivalMap String Value)) := by
  induction args generalizing values with
  | nil => exact keeps_pure values
  | cons head rest ih =>
    obtain ⟨name, arg⟩ := head
    exact keeps_bind (keeps_eval arg) fun value => ih _

/-- Putting a request together keeps the invocation. -/
theorem keeps_request (op : Op) (action : String) :
    Keeps (request op action : Act σ ρ ActionRequest) :=
  keeps_bind (keeps_evalAll _ _) fun _ => keeps_bind keeps_context fun _ => keeps_pure _

end Parameters

end Act

namespace Actions

open Act

variable {σ ρ : Type} [RandomSource ρ]

/-- Setting a variable keeps the invocation. -/
theorem keeps_set (op : Op) : Keeps (set op : Act σ ρ Flow) :=
  keeps_bind (keeps_textArg op _) fun name => keeps_bind (keeps_arg op _) fun value =>
    keeps_bind (keeps_define name value) fun _ => keeps_pure _

/-- Adding to a variable keeps the invocation. -/
theorem keeps_add (op : Op) : Keeps (add op : Act σ ρ Flow) := by
  refine keeps_bind (keeps_textArg op _) fun name => keeps_bind (keeps_arg? op _) fun given => ?_
  have hnumber (value : Value) :
      Keeps (Act.lift (Fault.ofConversion value.asNumber) : Act σ ρ Number) := keeps_lift _
  have hstore (current amount : Number) : Keeps (do
      let sum ← Act.lift (Fault.ofNumber (current.toFloat + amount.toFloat))
      Act.define name (.number sum)
      return Flow.proceed : Act σ ρ Flow) :=
    keeps_bind (keeps_lift _) fun sum => keeps_bind (keeps_define name _) fun _ => keeps_pure _
  cases given with
  | none =>
    refine keeps_bind (keeps_pure _) fun amount => keeps_bind (keeps_lookup? name) fun found => ?_
    cases found with
    | none => exact keeps_bind (keeps_pure _) fun current => hstore current amount
    | some value => exact keeps_bind (hnumber value) fun current => hstore current amount
  | some value =>
    refine keeps_bind (hnumber value) fun amount => keeps_bind (keeps_lookup? name) fun found => ?_
    cases found with
    | none => exact keeps_bind (keeps_pure _) fun current => hstore current amount
    | some value => exact keeps_bind (hnumber value) fun current => hstore current amount

/-- Appending to a list keeps the invocation. -/
theorem keeps_append (op : Op) : Keeps (append op : Act σ ρ Flow) := by
  refine keeps_bind (keeps_textArg op _) fun name => keeps_bind (keeps_arg op _) fun value =>
    keeps_bind (keeps_lookup? name) fun found => ?_
  split
  · exact keeps_bind (keeps_define name _) fun _ => keeps_pure _
  · exact keeps_bind (keeps_throw _) fun _ => keeps_pure _
  · exact keeps_bind (keeps_define name _) fun _ => keeps_pure _

/-- Putting into a map keeps the invocation. -/
theorem keeps_put (op : Op) : Keeps (put op : Act σ ρ Flow) := by
  refine keeps_bind (keeps_textArg op _) fun name => keeps_bind (keeps_textArg op _) fun key =>
    keeps_bind (keeps_arg op _) fun value => keeps_bind (keeps_lookup? name) fun found => ?_
  split
  · exact keeps_bind (keeps_define name _) fun _ => keeps_pure _
  · exact keeps_bind (keeps_throw _) fun _ => keeps_pure _
  · exact keeps_bind (keeps_define name _) fun _ => keeps_pure _

/-- Removing a variable keeps the invocation. -/
theorem keeps_remove (op : Op) : Keeps (remove op : Act σ ρ Flow) :=
  keeps_bind (keeps_textArg op _) fun name => keeps_bind (keeps_erase name) fun _ => keeps_pure _

/-- Waiting keeps the invocation. -/
theorem keeps_wait (op : Op) : Keeps (wait op : Act σ ρ Flow) := by
  refine keeps_bind (keeps_arg? op _) fun ticks => ?_
  cases ticks with
  | none => exact keeps_bind (keeps_pure _) fun _ => keeps_pure _
  | some value => exact keeps_bind (keeps_lift _) fun _ => keeps_pure _

/-- Comparing keeps the invocation. -/
theorem keeps_compare (op : Op) : Keeps (compare op : Act σ ρ Bool) := by
  refine keeps_bind (keeps_arg op _) fun left => keeps_bind (keeps_arg op _) fun right => ?_
  split
  · exact keeps_bind (keeps_pure _) fun _ => keeps_lift _
  · exact keeps_bind (keeps_pure _) fun _ => keeps_lift _
  · exact keeps_bind (keeps_textArg op _) fun _ => keeps_lift _

/-- Leaving an action to the host keeps the invocation. -/
theorem keeps_byHost [Host σ] (action : String) (op : Op) :
    Keeps (byHost action op : Act σ ρ Flow) := by
  refine keeps_bind (keeps_request op action) fun request =>
    keeps_bind (keeps_perform request) fun answer => ?_
  split
  · exact keeps_bind (keeps_define _ _) fun _ => keeps_pure _
  · exact keeps_pure _

/-- Leaving a condition to the host keeps the invocation. -/
theorem keeps_byHostCondition [Host σ] (action : String) (op : Op) :
    Keeps (byHostCondition action op : Act σ ρ Bool) :=
  keeps_bind (keeps_request op action) fun request => keeps_check request

end Actions

namespace ActionTable

open Act Actions

variable {σ ρ : Type} [Host σ] [RandomSource ρ]

/-- Whatever a table does under any name keeps the invocation. -/
structure Keeps (table : ActionTable σ ρ) : Prop where
  /-- Actions keep it. -/
  action : ∀ name op, Act.Keeps (table.action name op)
  /-- Conditions keep it. -/
  condition : ∀ name op, Act.Keeps (table.condition name op)

/-- What is found under a name is one of the values a map was made of. -/
theorem getD_ofList {α : Type} {entries : List (String × α)} {motive : α → Prop} {other : α}
    (h : ∀ entry ∈ entries, motive entry.2) (ho : motive other) (name : String) :
    motive (((SortedMap.ofList entries).get? name).getD other) := by
  cases hf : (SortedMap.ofList entries).get? name with
  | none => exact ho
  | some value =>
    obtain ⟨key, -, hm⟩ := Entries.exists_of_find? hf
    obtain ⟨given, hg, he⟩ := SortedMap.value_mem_ofList hm
    have hv := h given hg
    rw [he] at hv
    exact hv

/-- The standard table keeps the invocation. -/
theorem keeps_standard : (standard : ActionTable σ ρ).Keeps where
  action name := by
    refine getD_ofList (motive := fun handler : Op → Act σ ρ Flow => ∀ op, (handler op).Keeps)
      ?_ (keeps_byHost name) name
    simp only [List.mem_cons, List.not_mem_nil, or_false, forall_eq_or_imp, forall_eq]
    exact ⟨keeps_set, keeps_add, keeps_append, keeps_put, keeps_remove,
      fun op => keeps_bind (keeps_textArg op _) fun _ =>
        keeps_bind (keeps_print _) fun _ => keeps_pure _,
      keeps_wait, fun _ => keeps_pure _⟩
  condition name := by
    refine getD_ofList (motive := fun handler : Op → Act σ ρ Bool => ∀ op, (handler op).Keeps)
      ?_ (keeps_byHostCondition name) name
    simp only [List.mem_cons, List.not_mem_nil, or_false, forall_eq_or_imp, forall_eq]
    exact ⟨keeps_compare, fun op => keeps_bind (keeps_arg op _) fun _ => keeps_pure _,
      fun op => keeps_bind (keeps_textArg op _) fun name =>
        keeps_bind (keeps_lookup? name) fun _ => keeps_pure _,
      fun op => keeps_bind (keeps_arg op _) fun _ => keeps_lift _,
      fun op => keeps_bind (keeps_arg op _) fun _ =>
        keeps_bind (keeps_lift _) fun actor => keeps_isConnected actor⟩

end ActionTable

namespace Stage

variable {σ ρ : Type}

/-- What executing a node cannot change: the script, the call, the actor and the
origin of the activation, and the ledger. -/
structure Local (before after : Stage σ ρ) : Prop where
  /-- The script is the same. -/
  script : after.activation.script = before.activation.script
  /-- The call is the same. -/
  call : after.activation.call = before.activation.call
  /-- The actor is the same. -/
  actor : after.activation.context.actor = before.activation.context.actor
  /-- The origin is the same. -/
  origin : after.activation.context.origin = before.activation.context.origin
  /-- The ledger is the same. -/
  ledger : after.around.ledger = before.around.ledger

namespace Local

/-- Doing nothing is local. -/
theorem refl (stage : Stage σ ρ) : Local stage stage :=
  ⟨rfl, rfl, rfl, rfl, rfl⟩

/-- Two local changes are one. -/
theorem trans {first second third : Stage σ ρ} (h₁ : Local first second)
    (h₂ : Local second third) : Local first third :=
  ⟨h₂.script.trans h₁.script, h₂.call.trans h₁.call, h₂.actor.trans h₁.actor,
    h₂.origin.trans h₁.origin, h₂.ledger.trans h₁.ledger⟩

end Local

/-- An action that keeps the invocation is local. -/
theorem local_run {α : Type} {act : Act σ ρ α} (h : act.Keeps) (stage : Stage σ ρ) :
    Local stage (stage.run act).2 := by
  have hs := h ⟨stage.activation.context, stage.around.host, stage.around.random⟩
  exact ⟨rfl, rfl, hs.actor, hs.origin, rfl⟩

/-- A notice is local. -/
theorem local_note (stage : Stage σ ρ) (notice : Notice) : Local stage (stage.note notice) :=
  ⟨rfl, rfl, rfl, rfl, rfl⟩

/-- Entering a block is local. -/
theorem local_enter (stage : Stage σ ρ) (body : Option Nat) (kind : BlockKind) :
    Local stage (stage.mapActivation (·.enter body kind)) :=
  ⟨rfl, rfl, rfl, rfl, rfl⟩

/-- Leaving a frame is local. -/
theorem local_leave (stage : Stage σ ρ) : Local stage (stage.mapActivation (·.leave)) :=
  ⟨rfl, rfl, rfl, rfl, rfl⟩

/-- Letting an alternative run is local. -/
theorem local_armElse (stage : Stage σ ρ) : Local stage (stage.mapActivation (·.armElse)) := by
  have h : ∀ activation : Activation, activation.armElse.script = activation.script ∧
      activation.armElse.call = activation.call ∧
      activation.armElse.context = activation.context := by
    intro activation
    unfold Activation.armElse
    split
    · exact ⟨rfl, rfl, rfl⟩
    · exact ⟨rfl, rfl, rfl⟩
  obtain ⟨hs, hc, hx⟩ := h stage.activation
  exact ⟨hs, hc, congrArg Context.actor hx, congrArg Context.origin hx, rfl⟩

/-- Setting a variable is local. -/
theorem local_define (stage : Stage σ ρ) (name : String) (value : Value) :
    Local stage (stage.define name value) :=
  ⟨rfl, rfl, rfl, rfl, rfl⟩

/-- Leaving or continuing a loop is local. -/
theorem local_exitLoop (stage : Stage σ ρ) (isBreak : Bool) :
    Local stage (stage.exitLoop isBreak).2 := by
  unfold exitLoop
  split
  · exact local_note _ _
  · exact ⟨rfl, rfl, rfl, rfl, rfl⟩

/-- Beginning an iteration is local. -/
theorem local_iterate (stage : Stage σ ρ) (frame : LoopFrame) :
    Local stage (stage.iterate frame) := by
  have hset (stage : Stage σ ρ) (kind : LoopKind) (iteration : Nat) :
      Local stage (stage.setLoopVariable kind iteration) := by
    unfold setLoopVariable
    split
    · exact local_define _ _ _
    · split
      · exact local_define _ _ _
      · exact .refl stage
    · exact .refl stage
  refine Local.trans (Local.trans ?_ (hset _ _ _)) (local_enter _ _ _)
  exact ⟨rfl, rfl, rfl, rfl, rfl⟩

variable [RandomSource ρ]

/-- Finding out how a loop goes on keeps the invocation. -/
theorem keeps_loopKind (settings : Settings) (op : Op) (action : String) :
    (loopKind settings op action : Act σ ρ LoopKind).Keeps := by
  unfold loopKind
  split
  · exact Act.keeps_bind (Act.keeps_arg op _) fun _ => Act.keeps_bind (Act.keeps_lift _)
      fun _ => Act.keeps_bind (Act.keeps_arg? op _) fun _ => Act.keeps_pure _
  · refine Act.keeps_bind (Act.keeps_arg? op _) fun limit => ?_
    cases limit with
    | none => exact Act.keeps_pure _
    | some value => exact Act.keeps_bind (Act.keeps_lift _) fun _ => Act.keeps_pure _
  · exact Act.keeps_bind (Act.keeps_arg op _) fun _ => Act.keeps_bind (Act.keeps_lift _)
      fun _ => Act.keeps_bind (Act.keeps_arg? op _) fun _ => Act.keeps_pure _
  · exact Act.keeps_pure _
  · exact Act.keeps_throw _

/-- Setting a loop up keeps the invocation. -/
theorem keeps_newLoop (settings : Settings) (index : Nat) (op : Op) (action : String) :
    (newLoop settings index op action : Act σ ρ (LoopFrame × Bool)).Keeps := by
  refine Act.keeps_bind (Act.keeps_arg? op _) fun delay => ?_
  have hrest (delay : Nat) : Act.Keeps (do
      let fork ← Act.flag op "async"
      let kind ← loopKind settings op action
      return ((⟨index, op.body, kind, 0, delay, false⟩ : LoopFrame), fork) :
        Act σ ρ (LoopFrame × Bool)) :=
    Act.keeps_bind (Act.keeps_flag op _) fun _ =>
      Act.keeps_bind (keeps_loopKind settings op action) fun _ => Act.keeps_pure _
  cases delay with
  | none => exact Act.keeps_bind (Act.keeps_pure _) hrest
  | some value => exact Act.keeps_bind (Act.keeps_lift _) hrest

/-- Executing the node of a loop is local. -/
theorem local_enterLoop (stage : Stage σ ρ) (index : Nat) (op : Op) (action : String) :
    Local stage (stage.enterLoop index op action).2 := by
  have h := local_run (keeps_newLoop stage.around.ledger.settings index op action) stage
  unfold enterLoop
  split <;> rename_i heq <;> rw [heq] at h
  · exact h.trans (local_note _ _)
  · exact h
  · exact h.trans ⟨rfl, rfl, rfl, rfl, rfl⟩

/-- Evaluating the arguments of a call keeps the invocation. -/
theorem keeps_namedArgs (op : Op) (values : ArrivalMap String Value) (names : List String) :
    (namedArgs op values names : Act σ ρ (ArrivalMap String Value)).Keeps := by
  induction names generalizing values with
  | nil => exact Act.keeps_pure values
  | cons name rest ih =>
    unfold namedArgs
    split
    · exact ih values
    · exact Act.keeps_bind (Act.keeps_arg op name) fun _ => ih _

/-- Putting a call together keeps the invocation. -/
theorem keeps_callRequest (op : Op) : (callRequest op : Act σ ρ CallRequest).Keeps :=
  Act.keeps_bind (Act.keeps_textArg op _) fun _ => Act.keeps_bind (Act.keeps_arg? op _)
    fun _ => Act.keeps_bind (Act.keeps_arg? op _) fun _ =>
      Act.keeps_bind (keeps_namedArgs op _ _) fun _ => Act.keeps_pure _

/-- Executing the node of a call is local. -/
theorem local_requestCall (stage : Stage σ ρ) (op : Op) :
    Local stage (stage.requestCall op).2 := by
  have h := local_run (keeps_callRequest op) stage
  unfold requestCall
  split <;> rename_i heq <;> rw [heq] at h
  · exact h
  · exact h.trans (local_note _ _)

/-- A return is local. -/
theorem local_leaveActivation (stage : Stage σ ρ) (op : Op) :
    Local stage (stage.leaveActivation op).2 := by
  have h := local_run (Act.keeps_arg? op "value") stage
  unfold leaveActivation
  generalize stage.run (Act.arg? op "value") = answer at h ⊢
  obtain ⟨result, after⟩ := answer
  refine h.trans ?_
  cases result with
  | error fault => exact ⟨rfl, rfl, rfl, rfl, rfl⟩
  | ok value =>
    cases value with
    | none => exact ⟨rfl, rfl, rfl, rfl, rfl⟩
    | some value => exact ⟨rfl, rfl, rfl, rfl, rfl⟩

/-- Evaluating the condition of a loop keeps the invocation. -/
theorem keeps_loopCondition (op : Option Op) : (loopCondition op : Act σ ρ Bool).Keeps := by
  unfold loopCondition
  split
  · exact Act.keeps_throw _
  · exact Act.keeps_bind (Act.keeps_eval _) fun _ => Act.keeps_lift _

/-- Evaluating the condition of a loop is local. -/
theorem local_keepsOn (stage : Stage σ ρ) (frame : LoopFrame) :
    Local stage (stage.keepsOn frame).2 := by
  unfold keepsOn
  split
  · have h := local_run (keeps_loopCondition (stage.activation.script.op? frame.op)) stage
    split <;> rename_i heq <;> rw [heq] at h
    · exact h
    · exact h.trans (local_note _ _)
  · exact .refl stage

/-- What happens between two iterations is local. -/
theorem local_loopBoundary (stage : Stage σ ρ) (frame : LoopFrame) :
    Local stage (stage.loopBoundary frame).2 := by
  unfold loopBoundary
  dsimp only
  have hclear : Local stage (stage.mapActivation fun activation =>
      { activation with context := { activation.context with flags := .none } }) :=
    ⟨rfl, rfl, rfl, rfl, rfl⟩
  refine hclear.trans ?_
  generalize stage.mapActivation _ = cleared
  split
  · exact local_leave cleared
  · split
    · refine Local.trans ?_ (local_leave _)
      split
      · exact local_note cleared _
      · exact .refl cleared
    · split
      · exact ⟨rfl, rfl, rfl, rfl, rfl⟩
      · have h := local_keepsOn cleared frame
        split <;> rename_i heq <;> rw [heq] at h
        · exact h.trans (local_leave _)
        · exact h.trans (local_iterate _ frame)

variable [Host σ] {table : ActionTable σ ρ}

/-- Performing an action is local. -/
theorem local_perform (ht : table.Keeps) (stage : Stage σ ρ) (op : Op) (action : String) :
    Local stage (stage.perform table op action).2 := by
  have h := local_run (ht.action action op) stage
  unfold perform
  split <;> rename_i heq <;> rw [heq] at h
  · exact h
  · exact h
  · exact h
  · exact h.trans (local_note _ _)

/-- Deciding a condition keeps the invocation. -/
theorem keeps_decision (ht : table.Keeps) (op : Op) (action : String) :
    (decision table op action).Keeps :=
  Act.keeps_bind (ht.condition action op) fun _ =>
    Act.keeps_bind (Act.keeps_flag op _) fun _ => Act.keeps_pure _

/-- Deciding a condition is local. -/
theorem local_decide (ht : table.Keeps) (stage : Stage σ ρ) (op : Op) (action : String) :
    Local stage (stage.decide table op action).2 := by
  have h := local_run (keeps_decision ht op action) stage
  unfold decide
  split <;> rename_i heq <;> rw [heq] at h
  · exact h
  · exact h.trans (local_note _ _)

/-- Executing a condition is local. -/
theorem local_branch (ht : table.Keeps) (stage : Stage σ ρ) (op : Op) (action : String) :
    Local stage (stage.branch table op action).2 := by
  have h := local_decide ht stage op action
  unfold branch
  split <;> rename_i heq <;> rw [heq] at h
  · exact h.trans (local_enter _ _ _)
  · exact h.trans (local_armElse _)

/-- Executing a node that has an action is local. -/
theorem local_execAction (ht : table.Keeps) (stage : Stage σ ρ) (index : Nat) (op : Op)
    (armed : Bool) (action : String) :
    Local stage (stage.execAction table index op armed action).2 := by
  unfold execAction
  split
  · exact .refl stage
  · exact .refl stage
  · exact .refl stage
  · exact local_branch ht stage op action
  · split
    · exact local_branch ht stage op action
    · exact .refl stage
  · exact local_enterLoop stage index op action
  · exact local_requestCall stage op
  · split
    · exact local_exitLoop stage true
    · exact local_exitLoop stage false
    · exact local_leaveActivation stage op
    · exact local_perform ht stage op action
  · exact local_perform ht stage op action
  · exact local_perform ht stage op action

/-- Executing a node is local. -/
theorem local_exec (ht : table.Keeps) (stage : Stage σ ρ) (index : Nat) (op : Op)
    (armed : Bool) : Local stage (stage.exec table index op armed).2 := by
  unfold exec
  split
  · cases armed with
    | true => exact local_enter stage op.body .branch
    | false => exact .refl stage
  · split
    · exact .refl stage
    · exact local_execAction ht stage index op armed _

/-- Executing one node or transition is local. -/
theorem local_advance (ht : table.Keeps) (stage : Stage σ ρ) :
    Local stage (stage.advance table).2 := by
  unfold advance
  split
  · exact .refl stage
  · exact local_loopBoundary stage _
  · split
    · exact local_leave stage
    · dsimp only
      split
      · exact ⟨rfl, rfl, rfl, rfl, rfl⟩
      · refine Local.trans ?_ (local_exec ht _ _ _ _)
        exact ⟨rfl, rfl, rfl, rfl, rfl⟩

end Stage

end GridScript
