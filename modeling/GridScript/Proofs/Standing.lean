import GridScript.Proofs.Frames
import GridScript.Proofs.Ownership

/-!
# Where machines stand in their programs

What holds of the trees ahead of all frames, and is handed on to children, to
successors and to the bodies of called functions, holds after every step and every
slice. A machine that is split off stands in front of the children of a loop that
may be split off.
-/

namespace GridScript

/-- What is handed on from trees that are to run to all that they lead to: their
children, what follows them, and the functions they call. -/
structure Handed (registry : FunctionRegistry) (kind : List Node → Prop) : Prop where
  /-- Nothing to run is of the kind. -/
  nil : kind []
  /-- Children are. -/
  children : ∀ {head children next rest}, kind (.mk head children next :: rest) → kind children
  /-- What follows is. -/
  successors : ∀ {head children next rest}, kind (.mk head children next :: rest) →
    kind (next.toList ++ rest)
  /-- The body of a called function is. -/
  called : ∀ {head children next rest entry}, kind (.mk head children next :: rest) →
    registry.MayCall head.alone entry → kind entry.definition.body.toList

/-- Every kind of trees at all is handed on. -/
theorem handed_true (registry : FunctionRegistry) : Handed registry fun _ => True :=
  ⟨trivial, fun _ => trivial, fun _ => trivial, fun _ _ => trivial⟩

/-- Trees that fit into a depth lead to trees that do. -/
theorem handed_fitsAll {registry : FunctionRegistry} {level : FunctionEntry → Nat}
    (h : registry.Layered level) (depth : Nat) :
    Handed registry (Node.FitsAll registry level depth) where
  nil := trivial
  children {head children next rest} hn := by
    obtain ⟨⟨-, ⟨inner, hinner, hchildren⟩, -⟩, -⟩ := hn
    exact hchildren.mono (by omega)
  successors {head children next rest} hn := by
    obtain ⟨⟨-, -, hnext⟩, hrest⟩ := hn
    exact Node.fitsAll_append.2 ⟨hnext, hrest⟩
  called {head children next rest entry} hn hc := by
    obtain ⟨⟨hcalls, -⟩, -⟩ := hn
    have hlevel := hcalls entry hc
    obtain ⟨name, caller, world, -, hlookup⟩ := hc
    exact ((h entry (FunctionRegistry.mem_registered hlookup)).mono hlevel).toList

/-- Every function that can be called was linked from its definition. -/
def FunctionRegistry.Linked (registry : FunctionRegistry) : Prop :=
  ∀ entry ∈ registry.registered, entry.script =
    .ofBody entry.definition.name entry.definition.origin entry.definition.body

/-- The trees ahead of a node are of some kind. -/
def Script.Ahead (script : Script) (kind : List Node → Prop) (next : Option Nat) : Prop :=
  ∃ nodes, script.Follows next nodes ∧ kind nodes

namespace Machine

/-- The trees ahead of all frames of a machine are of some kind. -/
def Stands (machine : Machine) (kind : List Node → Prop) : Prop :=
  ∀ activation ∈ machine.stack, activation.Meets (activation.script.Ahead kind)

/-- A machine that executes nothing but the children of a loop that may be split
off. -/
def SplitOff (child : Machine) (kind : List Node → Prop) : Prop :=
  ∃ head children next rest, kind (.mk head children next :: rest) ∧
    head.alone.maySplit = true ∧
    ∀ other : List Node → Prop, other children → child.Stands other

variable {registry : FunctionRegistry} {kind : List Node → Prop}

/-- A machine that fits into a depth fits into a greater one. -/
theorem Stands.mono {level : FunctionEntry → Nat} {machine : Machine} {depth more : Nat}
    (h : machine.Stands (Node.FitsAll registry level depth)) (hle : depth ≤ more) :
    machine.Stands (Node.FitsAll registry level more) := by
  intro activation ha frame hf
  obtain ⟨nodes, hfollows, hfits⟩ := h activation ha frame hf
  exact ⟨nodes, hfollows, hfits.mono hle⟩

/-- What is split off stands in front of trees of the kind. -/
theorem SplitOff.stands (hk : Handed registry kind) {child : Machine} (h : child.SplitOff kind) :
    child.Stands kind := by
  obtain ⟨head, children, next, rest, hnodes, -, hstands⟩ := h
  exact hstands kind (hk.children hnodes)

/-- What is split off from trees that fit into a depth fits into a smaller one. -/
theorem SplitOff.fits {level : FunctionEntry → Nat} {depth : Nat} {child : Machine}
    (h : child.SplitOff (Node.FitsAll registry level depth)) :
    ∃ inner, inner < depth ∧ child.Stands (Node.FitsAll registry level inner) := by
  obtain ⟨head, children, next, rest, hnodes, hsplit, hstands⟩ := h
  obtain ⟨⟨-, ⟨inner, hinner, hchildren⟩, -⟩, -⟩ := hnodes
  rw [hsplit] at hinner
  exact ⟨inner, hinner, hstands _ hchildren⟩

/-- What is ahead is handed on along links. -/
theorem ahead_links (hk : Handed registry kind) {script : Script} {index : Nat} {op : Op}
    (h : script.Ahead kind (some index)) (hop : script.op? index = some op) :
    script.Ahead kind op.next ∧ script.Ahead kind op.body := by
  obtain ⟨nodes, hfollows, hnodes⟩ := h
  obtain ⟨head, children, next, rest, found, rfl, hfound, -, hbody, hnext⟩ := hfollows.cons
  obtain rfl : found = op := Option.some.inj (hfound.symm.trans hop)
  exact ⟨⟨_, hnext, hk.successors hnodes⟩, ⟨_, hbody, hk.children hnodes⟩⟩

/-- A function that is called stands in front of its body. -/
theorem meets_start (hl : registry.Linked) {entry : FunctionEntry}
    (he : entry ∈ registry.registered) (hb : kind entry.definition.body.toList)
    (context : Context) (call : Option PendingCall) :
    (Activation.start entry.script context call).Meets (entry.script.Ahead kind) := by
  refine List.forall_mem_cons.2 ⟨⟨_, ?_, hb⟩, fun _ hm => by cases hm⟩
  rw [hl entry he]
  exact Script.follows_ofBody _ _ _

/-- A machine of a program stands in front of its body. -/
theorem stands_ofScript (name : String) (origin : Place) {body : Option Node}
    (hb : kind body.toList) (context : Context) :
    (ofScript (.ofBody name origin body) context).Stands kind := by
  refine List.forall_mem_cons.2 ⟨?_, fun _ hm => by cases hm⟩
  exact List.forall_mem_cons.2
    ⟨⟨_, Script.follows_ofBody _ _ _, hb⟩, fun _ hm => by cases hm⟩

/-- A machine of a call stands in front of the body of the function. -/
theorem stands_ofCall (hl : registry.Linked) {call : ActiveCall}
    (he : call.entry ∈ registry.registered) (hb : kind call.entry.definition.body.toList)
    (context : Context) : (ofCall call context).Stands kind :=
  List.forall_mem_cons.2 ⟨meets_start hl he hb context _, fun _ hm => by cases hm⟩

/-- A machine that has ended stands nowhere. -/
theorem stands_of_empty {machine : Machine} (h : machine.stack = []) : machine.Stands kind := by
  unfold Stands
  rw [h]
  exact fun _ hm => by cases hm

/-- What a node that comes next in a block stands for: the first of some trees of the
kind, linked to its children. -/
theorem node_of_next {top : Activation} (h : top.Meets (top.script.Ahead kind)) {block : Block}
    {index : Nat} {op : Op} (hframes : top.frames.head? = some (.block block))
    (hnext : block.next = some index) (hop : top.script.op? index = some op) :
    ∃ head children next rest, kind (.mk head children next :: rest) ∧
      op = head.link op.body op.next ∧ top.script.Follows op.body children := by
  have hblock : top.script.Ahead kind block.next := h (.block block) (List.mem_of_head? hframes)
  rw [hnext] at hblock
  obtain ⟨nodes, hfollows, hnodes⟩ := hblock
  obtain ⟨head, children, next, rest, found, rfl, hfound, hlinked, hbody, -⟩ := hfollows.cons
  obtain rfl : found = op := Option.some.inj (hfound.symm.trans hop)
  exact ⟨head, children, next, rest, hnodes, hlinked, hbody⟩

/-- A machine is split off from a loop that may be, and executes its children. -/
theorem splitOff_of_split {σ ρ : Type} [RandomSource ρ] {top : Activation} {around : Surroundings σ ρ}
    (h : top.Meets (top.script.Ahead kind)) {child : Machine} {block : Block} {index : Nat}
    {op : Op} {frame : LoopFrame}
    (hs : Stage.Split (⟨top, around⟩ : Stage σ ρ) child block index op frame) :
    child.SplitOff kind := by
  obtain ⟨head, children, next, rest, hnodes, hlinked, hbody⟩ :=
    node_of_next h hs.frames hs.next hs.node
  obtain ⟨before, last, hasked⟩ := hs.asked
  have hsplit : op.maySplit = true := by
    unfold Op.maySplit
    rw [hs.category, Act.flag_eq_true hasked]
    rfl
  rw [hlinked] at hsplit
  refine ⟨head, children, next, rest, hnodes, hsplit, fun other ho => ?_⟩
  obtain ⟨after, hlocal, rfl⟩ := hs.child
  refine List.forall_mem_cons.2 ⟨?_, fun _ hm => by cases hm⟩
  refine List.forall_mem_cons.2 ⟨⟨children, ?_, ho⟩, fun _ hm => by cases hm⟩
  have hscript : after.activation.script = top.script := hlocal.script
  have hstart : (Frame.loop frame).start = op.body := hs.body
  rw [hstart]
  dsimp only
  rw [hscript]
  exact hbody

/-- A function that a node calls is one whose body is of the kind. -/
theorem body_of_call (hk : Handed registry kind) {top : Activation}
    (h : top.Meets (top.script.Ahead kind)) {block : Block} {index : Nat} {op : Op}
    (hframes : top.frames.head? = some (.block block)) (hnext : block.next = some index)
    (hop : top.script.op? index = some op) {name : String} (hname : op.MayName name)
    {caller : Actor} {world : String} {entry : FunctionEntry}
    (hlookup : registry.lookup? name caller world = some entry) :
    kind entry.definition.body.toList := by
  obtain ⟨head, children, next, rest, hnodes, hlinked, -⟩ := node_of_next h hframes hnext hop
  rw [hlinked] at hname
  exact hk.called hnodes ⟨name, caller, world, hname, hlookup⟩

end Machine

namespace Surroundings

variable {σ ρ : Type}

/-- The functions that can be called. -/
def functions (around : Surroundings σ ρ) : SortedMap TierKey FunctionEntry :=
  around.ledger.registry.functions

variable [Host σ]

/-- Ending calls leaves the functions alone. -/
theorem functions_releaseAll (outcome : CallOutcome) (activations : List Activation)
    (around : Surroundings σ ρ) :
    (around.releaseAll outcome activations).functions = around.functions := by
  induction activations generalizing around with
  | nil => rfl
  | cons activation outer ih =>
    unfold releaseAll
    split
    · exact ih _
    · exact ih _

/-- Claiming a call leaves the functions alone, and the call is of the function. -/
theorem functions_acquire (around : Surroundings σ ρ) (entry : FunctionEntry) (actor : Actor) :
    (around.acquire entry actor).2.functions = around.functions ∧
      ∀ call, (around.acquire entry actor).1 = .ok call → call.entry = entry := by
  have hexchange := Ledger.exchange_acquire around.ledger entry actor around.now 0
  have hentry : ∀ call, (around.ledger.acquire entry actor around.now).1 = .ok call →
      call.entry = entry := by
    intro call h
    unfold Ledger.acquire at h
    dsimp only at h
    split at h
    · cases h
    · cases h
      rfl
  unfold acquire
  generalize around.ledger.acquire entry actor around.now = claim at hexchange hentry ⊢
  match claim with
  | (.ok call, ledger) =>
    exact ⟨hexchange.2.functions, fun other h => hentry other (congrArg _ (Except.ok.inj h))⟩
  | (.error error, ledger) => exact ⟨hexchange.functions, fun other h => by cases h⟩

end Surroundings

/-- A step leaves the functions alone and the machine in front of trees of the kind,
splits off only loops that may be, and does not wait for no ticks. -/
structure Stepped.Standing {σ ρ : Type} (stepped : Stepped σ ρ) (before : Surroundings σ ρ)
    (kind : List Node → Prop) : Prop where
  /-- The machine stands in front of trees of the kind. -/
  machine : stepped.machine.Stands kind
  /-- The functions are the same. -/
  functions : stepped.around.functions = before.functions
  /-- A machine that is split off executes the children of a loop. -/
  forks : ∀ child, stepped.outcome = .ok (.fork child) → child.SplitOff kind
  /-- A wait is for at least one tick. -/
  waits : ∀ ticks, stepped.outcome = .ok (.suspend ticks) → 0 < ticks

namespace Machine

variable {σ ρ : Type} [Host σ] {registry : FunctionRegistry} {kind : List Node → Prop}

/-- A machine that fails stands nowhere. -/
theorem standing_failWith (machine : Machine) (error : RunError)
    {around before : Surroundings σ ρ} (hf : around.functions = before.functions) :
    (machine.failWith error around).Standing before kind where
  machine := stands_of_empty rfl
  functions := (Surroundings.functions_releaseAll .failure machine.stack around).trans hf
  forks _ := nofun
  waits _ := nofun

/-- An activation that is finished leaves its callers where they stand. -/
theorem standing_finish {machine : Machine} {top : Activation} {callers : List Activation}
    (h : ∀ activation ∈ callers, activation.Meets (activation.script.Ahead kind))
    (around : Surroundings σ ρ) :
    (machine.finish top callers around).Standing around kind := by
  unfold finish
  dsimp only
  split
  · exact ⟨h, rfl, fun _ => nofun, fun _ => nofun⟩
  · rename_i pending hcall
    have hfunctions : ((returned pending.call (top.context.locals.get? Stage.returnName)
        around).2.release pending.call .success).functions = around.functions := by
      have hledger := returned_ledger pending.call
        (top.context.locals.get? Stage.returnName) around
      exact congrArg (·.registry.functions) hledger
    split
    · exact ⟨stands_of_empty rfl, hfunctions, fun _ => nofun, fun _ => nofun⟩
    · rename_i caller outer
      refine ⟨?_, hfunctions, fun _ => nofun, fun _ => nofun⟩
      obtain ⟨hcaller, houter⟩ := List.forall_mem_cons.1 h
      refine List.forall_mem_cons.2 ⟨?_, houter⟩
      unfold receive
      split
      · exact hcaller
      · exact hcaller

/-- A function that is called stands in front of its body. -/
theorem standing_call (hl : registry.Linked) {machine : Machine} (h : machine.Stands kind)
    (context : Context) {request : CallRequest} {around : Surroundings σ ρ}
    (hr : around.functions = registry.functions)
    (hb : ∀ entry, registry.lookup? request.function context.actor context.origin.world =
      some entry → kind entry.definition.body.toList) :
    (machine.call context request around).Standing around kind := by
  unfold call
  split
  · exact standing_failWith machine _ rfl
  · rename_i entry hlookup
    rw [FunctionRegistry.lookup?_congr hr] at hlookup
    split
    · exact standing_failWith machine _ rfl
    · rename_i locals hlocals
      obtain ⟨hfunctions, hentry⟩ := around.functions_acquire entry context.actor
      split
      · rename_i error after heq
        rw [heq] at hfunctions
        exact standing_failWith machine _ hfunctions
      · rename_i accepted after heq
        rw [heq] at hfunctions hentry
        refine ⟨List.forall_mem_cons.2 ⟨?_, h⟩, hfunctions, fun _ => nofun,
          fun _ => nofun⟩
        exact meets_start hl (FunctionRegistry.mem_registered hlookup) (hb entry hlookup) _ _

/-- A machine with a late call stands nowhere. -/
theorem standing_checkDeadlines {machine after : Machine} {around last : Surroundings σ ρ}
    {error : LimitError} (h : machine.checkDeadlines around = (.error error, after, last)) :
    after.stack = [] ∧ last.functions = around.functions := by
  unfold checkDeadlines at h
  dsimp only at h
  split at h
  · cases h
  · cases h
    refine ⟨rfl, ?_⟩
    rw [Surroundings.functions_releaseAll, Surroundings.functions_releaseAll]
    rfl

variable [RandomSource ρ] {table : ActionTable σ ρ}

/-- Executing a node or a transition leaves a machine in front of trees of the
kind. -/
theorem standing_advance (ht : table.Keeps) (hp : table.Paced) (hl : registry.Linked)
    (hk : Handed registry kind) {machine : Machine} (h : machine.Stands kind)
    {around : Surroundings σ ρ} (hr : around.functions = registry.functions) :
    (machine.advance table around).Standing around kind := by
  unfold advance
  cases hs : machine.stack with
  | nil => exact ⟨h, rfl, fun _ => nofun, fun _ => nofun⟩
  | cons top callers =>
    unfold Stands at h
    rw [hs, List.forall_mem_cons] at h
    obtain ⟨htop, hcallers⟩ := h
    dsimp only
    split
    · exact standing_finish hcallers around
    · have hlocal := Stage.local_advance ht ⟨top, around⟩
      have hmeets : (Stage.advance table ⟨top, around⟩).2.activation.Meets
          (top.script.Ahead kind) :=
        Stage.meets_advance htop (fun index op => ahead_links hk)
          ⟨[], Script.follows_none _, hk.nil⟩
      have hfunctions : (Stage.advance table ⟨top, around⟩).2.around.functions =
          around.functions := congrArg (·.registry.functions) hlocal.ledger
      have hstands : Stands ⟨(Stage.advance table ⟨top, around⟩).2.activation :: callers,
          machine.finalLocals⟩ kind := by
        refine List.forall_mem_cons.2 ⟨?_, hcallers⟩
        rw [hlocal.script]
        exact hmeets
      have hfork : ∀ child, (Stage.advance table ⟨top, around⟩).1 = .fork child →
          child.SplitOff kind := by
        intro child hchild
        obtain ⟨block, index, op, frame, hsplit⟩ := Stage.advance_fork hchild
        exact splitOff_of_split htop hsplit
      have hcall : ∀ request, (Stage.advance table ⟨top, around⟩).1 = .call request →
          ∀ caller world entry, registry.lookup? request.function caller world = some entry →
            kind entry.definition.body.toList := by
        intro request hrequest caller world entry hlookup
        obtain ⟨block, index, op, hframes, hnext, hop, hname⟩ := Stage.advance_call hrequest
        exact body_of_call hk htop hframes hnext hop hname hlookup
      have hwait : ∀ ticks, (Stage.advance table ⟨top, around⟩).1 = .suspend ticks → 0 < ticks :=
        fun ticks => Stage.advance_suspend hp
      generalize Stage.advance table ⟨top, around⟩ = result
        at hlocal hmeets hfunctions hstands hfork hcall hwait ⊢
      obtain ⟨effect, stage⟩ := result
      dsimp only at hlocal hmeets hfunctions hstands hfork hcall hwait ⊢
      cases effect with
      | normal => exact ⟨hstands, hfunctions, fun _ => nofun, fun _ => nofun⟩
      | suspend ticks =>
        refine ⟨hstands, hfunctions, fun _ => nofun, fun other ho => ?_⟩
        cases ho
        exact hwait ticks rfl
      | fork child =>
        refine ⟨hstands, hfunctions, fun other ho => ?_, fun _ => nofun⟩
        cases ho
        exact hfork child rfl
      | stop =>
        exact ⟨stands_of_empty rfl, (Surroundings.functions_releaseAll ..).trans hfunctions,
          fun _ => nofun, fun _ => nofun⟩
      | call request =>
        have hcalled := standing_call hl hstands stage.activation.context (hfunctions.trans hr)
          (hcall request rfl _ _)
        exact { hcalled with functions := hcalled.functions.trans hfunctions }

/-- A step leaves a machine in front of trees of the kind. -/
theorem standing_step (ht : table.Keeps) (hp : table.Paced) (hl : registry.Linked)
    (hk : Handed registry kind) {machine : Machine} (h : machine.Stands kind)
    {around : Surroundings σ ρ} (hr : around.functions = registry.functions) :
    (machine.step table around).Standing around kind := by
  unfold step
  split
  · exact ⟨h, rfl, fun _ => nofun, fun _ => nofun⟩
  · split
    · rename_i error after last heq
      obtain ⟨hs, hf⟩ := standing_checkDeadlines heq
      exact ⟨stands_of_empty hs, hf, fun _ => nofun, fun _ => nofun⟩
    · rename_i after last heq
      unfold checkDeadlines at heq
      dsimp only at heq
      split at heq
      · cases heq
        exact standing_advance ht hp hl hk h hr
      · cases heq

end Machine

/-- A slice leaves the functions alone and the machine in front of trees of the
kind, splits off only loops that may be, and does not wait for no ticks. -/
structure Slice.Standing {σ ρ : Type} (slice : Slice σ ρ) (before : Surroundings σ ρ)
    (kind : List Node → Prop) : Prop where
  /-- The machine stands in front of trees of the kind. -/
  machine : slice.machine.Stands kind
  /-- The functions are the same. -/
  functions : slice.around.functions = before.functions
  /-- Machines that are split off execute the children of loops. -/
  forks : ∀ child ∈ slice.forks, child.SplitOff kind
  /-- A wait is for at least one tick. -/
  waits : ∀ ticks, slice.ending = .parked ticks → 0 < ticks

namespace Machine

variable {σ ρ : Type} [Host σ] [RandomSource ρ] {registry : FunctionRegistry}
  {kind : List Node → Prop} {table : ActionTable σ ρ}

/-- A slice leaves a machine in front of trees of the kind. -/
theorem standing_slice (ht : table.Keeps) (hp : table.Paced) (hl : registry.Linked)
    (hk : Handed registry kind) (actor : Actor) (limit budget : Nat) {machine : Machine}
    (h : machine.Stands kind) {around : Surroundings σ ρ}
    (hr : around.functions = registry.functions) {forks : List Machine}
    (hf : ∀ child ∈ forks, child.SplitOff kind) :
    (machine.slice table actor limit budget around forks).Standing around kind := by
  induction budget generalizing machine around forks with
  | zero =>
    exact ⟨stands_of_empty rfl, Surroundings.functions_releaseAll .., hf,
      fun _ => SliceEnd.noConfusion⟩
  | succ budget ih =>
    have hstep := standing_step ht hp hl hk h hr
    unfold slice
    dsimp only
    generalize machine.step table around = stepped at hstep ⊢
    obtain ⟨outcome, machine, after⟩ := stepped
    obtain ⟨hmachine, hfunctions, hchild, hwait⟩ := hstep
    dsimp only at hmachine hfunctions hchild hwait ⊢
    have hgoes {forks : List Machine} (hf : ∀ child ∈ forks, child.SplitOff kind) :
        (machine.slice table actor limit budget after forks).Standing around kind := by
      have hrest := ih hmachine (hfunctions.trans hr) hf
      exact { hrest with functions := hrest.functions.trans hfunctions }
    rcases outcome with error | step
    · exact ⟨hmachine, hfunctions, hf, fun _ => SliceEnd.noConfusion⟩
    cases step with
    | normal => exact hgoes hf
    | fork child =>
      refine hgoes (List.forall_mem_append.2 ⟨hf, ?_⟩)
      exact List.forall_mem_singleton.2 (hchild child rfl)
    | idle => exact ⟨hmachine, hfunctions, hf, fun _ => SliceEnd.noConfusion⟩
    | terminate result => exact ⟨hmachine, hfunctions, hf, fun _ => SliceEnd.noConfusion⟩
    | suspend ticks =>
      have hsuspend : (after.ledger.suspend actor).2.registry = after.ledger.registry := by
        unfold Ledger.suspend
        dsimp only
        split <;> rfl
      unfold pause
      generalize after.ledger.suspend actor = claim at hsuspend ⊢
      obtain ⟨result, ledger⟩ := claim
      have hledger : ledger.registry.functions = around.functions :=
        (congrArg (·.functions) hsuspend).trans hfunctions
      cases result with
      | ok =>
        refine ⟨hmachine, hledger, hf, fun other ho => ?_⟩
        cases ho
        exact hwait ticks rfl
      | error error =>
        exact ⟨stands_of_empty rfl, (Surroundings.functions_releaseAll ..).trans hledger, hf,
          fun _ => SliceEnd.noConfusion⟩

end Machine

end GridScript
