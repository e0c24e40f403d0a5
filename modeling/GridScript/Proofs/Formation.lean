import GridScript.Host.Minimal
import GridScript.Proofs.Shifts

/-!
# How stacks are built

The frames of an activation stand on one another in a fixed way: the whole program is
the outermost one, a condition or alternative stands on a block, an iteration on its
loop, and a loop on a block. Every step keeps them that way, with all indices inside of
the script. A request to a loop is honoured by the very next step, so no other loop
ever sees it. All inner activations are calls, and a machine says that it ended exactly
when nothing is left on its stack.
-/

namespace GridScript

/-- Frames that stand on one another as they should, innermost first. The outermost
one is the whole program, or a loop that was split off. -/
inductive Frame.Stacked : List Frame → Prop
  /-- Nothing is left to do. -/
  | empty : Stacked []
  /-- The whole program or function. -/
  | root {chain : Block} (hkind : chain.kind = .root) : Stacked [.block chain]
  /-- A loop that has a machine of its own. -/
  | split (cycle : LoopFrame) : Stacked [.loop cycle]
  /-- A condition or alternative stands on a block. -/
  | branch {chain below : Block} {outer : List Frame} (hkind : chain.kind = .branch)
      (h : Stacked (.block below :: outer)) : Stacked (.block chain :: .block below :: outer)
  /-- An iteration stands on its loop. -/
  | iteration {chain : Block} {cycle : LoopFrame} {outer : List Frame}
      (hkind : chain.kind = .loopBody) (h : Stacked (.loop cycle :: outer)) :
      Stacked (.block chain :: .loop cycle :: outer)
  /-- A loop stands on a block. -/
  | loop (cycle : LoopFrame) {below : Block} {outer : List Frame}
      (h : Stacked (.block below :: outer)) : Stacked (.loop cycle :: .block below :: outer)

namespace Frame.Stacked

variable {outer : List Frame}

/-- The innermost frame can be given up. -/
theorem tail {frame : Frame} (h : Stacked (frame :: outer)) : Stacked outer := by
  cases h with
  | root hkind => exact .empty
  | split cycle => exact .empty
  | branch hkind h => exact h
  | iteration hkind h => exact h
  | loop cycle h => exact h

/-- Several frames can be given up. -/
theorem suffix {inner : List Frame} (h : Stacked (inner ++ outer)) : Stacked outer := by
  induction inner with
  | nil => exact h
  | cons frame rest ih => exact ih h.tail

/-- Everything inside of the innermost loop can be given up. -/
theorem fromLoop {frames : List Frame} (h : Stacked frames) : Stacked (Frame.fromLoop frames) := by
  induction frames with
  | nil => exact .empty
  | cons frame outer ih =>
    cases frame with
    | loop cycle => exact h
    | block chain => exact ih h.tail

/-- A block can move on as long as it stays what it is. -/
theorem moveOn {chain other : Block} (h : Stacked (.block chain :: outer))
    (hkind : other.kind = chain.kind) : Stacked (.block other :: outer) := by
  cases h with
  | root hroot => exact .root (hkind.trans hroot)
  | branch hbranch h => exact .branch (hkind.trans hbranch) h
  | iteration hbody h => exact .iteration (hkind.trans hbody) h

/-- A loop can go on. -/
theorem goOn {cycle : LoopFrame} (h : Stacked (.loop cycle :: outer)) (other : LoopFrame) :
    Stacked (.loop other :: outer) := by
  cases h with
  | split => exact .split other
  | loop _ h => exact .loop other h

end Frame.Stacked

/-- The places a frame has in a script are nodes of it: what it stands in front of and,
for a loop, its own node. -/
def Script.Places (script : Script) (frame : Frame) : Prop :=
  script.Ahead (fun _ => True) frame.start ∧
    ∀ cycle, frame = .loop cycle → (script.op? cycle.op).isSome

namespace Script.Places

variable {script : Script}

/-- A block has a place where there are nodes ahead. -/
theorem block {chain : Block} (h : script.Ahead (fun _ => True) chain.next) :
    script.Places (.block chain) :=
  ⟨h, nofun⟩

/-- A loop has a place where there are nodes ahead of its body and its own node is
there. -/
theorem loop {cycle : LoopFrame} (h : script.Ahead (fun _ => True) cycle.body)
    (hop : (script.op? cycle.op).isSome) : script.Places (.loop cycle) :=
  ⟨h, fun _ hsame => by cases hsame; exact hop⟩

/-- A loop keeps its place when it goes on. -/
theorem goOn {cycle other : LoopFrame} (h : script.Places (.loop cycle))
    (hop : other.op = cycle.op) (hbody : other.body = cycle.body) : script.Places (.loop other) :=
  .loop (hbody ▸ h.1) (hop ▸ h.2 cycle rfl)

/-- An index that nodes are ahead of is one of the script. -/
theorem lt_size {index : Nat} (h : script.Ahead (fun _ => True) (some index)) :
    index < script.ops.size := by
  obtain ⟨nodes, hfollows, -⟩ := h
  obtain ⟨head, children, next, rest, op, -, hop, -⟩ := hfollows.cons
  exact (Array.getElem?_eq_some_iff.1 hop).1

end Script.Places

/-- An activation whose frames stand as they should, at nodes of its script. -/
structure Activation.Formed (activation : Activation) : Prop where
  /-- The frames stand on one another as they should. -/
  stacked : Frame.Stacked activation.frames
  /-- All their places are nodes. -/
  placed : ∀ frame ∈ activation.frames, activation.script.Places frame

/-- A request is open only while the loop it is for is the innermost frame. -/
def Activation.Heard (activation : Activation) : Prop :=
  activation.context.flags ≠ .none → ∃ cycle outer, activation.frames = .loop cycle :: outer

namespace Activation

variable {before after : Activation} {spared : Prop} {effect : Effect}

/-- Inside of a block no request is open. -/
theorem Heard.none_of_block {activation : Activation} (h : activation.Heard) {chain : Block}
    {outer : List Frame} (hframes : activation.frames = .block chain :: outer) :
    activation.context.flags = .none := by
  by_contra hset
  obtain ⟨cycle, rest, hloop⟩ := h hset
  rw [hframes] at hloop
  cases hloop

/-- Without requests nothing is left unheard. -/
theorem heard_of_none {activation : Activation} (h : activation.context.flags = .none) :
    activation.Heard :=
  fun hset => absurd h hset

/-- From a node that comes next, links lead to nodes. -/
theorem Formed.links (h : before.Formed) {chain : Block} {outer : List Frame} {index : Nat}
    {op : Op} (hf : before.Facing chain outer index op) :
    before.script.Ahead (fun _ => True) op.next ∧ before.script.Ahead (fun _ => True) op.body := by
  have hchain := (h.placed (.block chain) (by rw [hf.frames]; exact .head _)).1
  change before.script.Ahead _ chain.next at hchain
  rw [hf.next] at hchain
  exact Machine.ahead_links (handed_true .empty) hchain hf.node

/-- A node comes next wherever one should. -/
theorem Formed.node (h : before.Formed) {chain : Block} {outer : List Frame} {index : Nat}
    (hframes : before.frames = .block chain :: outer) (hnext : chain.next = some index) :
    before.script.op? index ≠ none := by
  have hchain := (h.placed (.block chain) (by rw [hframes]; exact .head _)).1
  change before.script.Ahead _ chain.next at hchain
  rw [hnext] at hchain
  obtain ⟨nodes, hfollows, -⟩ := hchain
  obtain ⟨head, children, next, rest, op, -, hop, -⟩ := hfollows.cons
  simp [hop]

/-- Frames that stand as they should still do after a step, at nodes of the same
script. -/
theorem Formed.shift (h : before.Formed) (hs : before.Shift spared after effect)
    (hscript : after.script = before.script) : after.Formed := by
  have hstacked := h.stacked
  have hplaced := h.placed
  suffices hall : Frame.Stacked after.frames ∧ ∀ frame ∈ after.frames, before.script.Places frame by
    exact ⟨hall.1, fun frame hm => hscript ▸ hall.2 frame hm⟩
  cases hs with
  | finished hbefore hafter =>
    rw [hbefore] at hstacked hplaced
    rw [hafter]
    exact ⟨hstacked.tail, (List.forall_mem_cons.1 hplaced).2⟩
  | exhausted hbefore hafter =>
    rw [hbefore] at hstacked hplaced
    rw [hafter]
    exact ⟨hstacked.tail, (List.forall_mem_cons.1 hplaced).2⟩
  | waits hbefore hafter =>
    rw [hbefore] at hstacked hplaced
    rw [hafter]
    obtain ⟨hloop, houter⟩ := List.forall_mem_cons.1 hplaced
    exact ⟨hstacked.goOn _, List.forall_mem_cons.2 ⟨hloop.goOn rfl rfl, houter⟩⟩
  | iterates hbefore hafter =>
    rw [hbefore] at hstacked hplaced
    rw [hafter]
    obtain ⟨hloop, houter⟩ := List.forall_mem_cons.1 hplaced
    exact ⟨.iteration rfl (hstacked.goOn _), List.forall_mem_cons.2
      ⟨.block hloop.1, List.forall_mem_cons.2 ⟨hloop.goOn rfl rfl, houter⟩⟩⟩
  | strays hbefore hnext hnode => exact absurd hnode (h.node hbefore hnext)
  | passes hbefore hafter =>
    obtain ⟨hnext, -⟩ := h.links hbefore
    rw [hbefore.frames] at hstacked hplaced
    rw [hafter]
    exact ⟨hstacked.moveOn rfl, List.forall_mem_cons.2
      ⟨.block hnext, (List.forall_mem_cons.1 hplaced).2⟩⟩
  | splits hbefore hafter =>
    obtain ⟨hnext, -⟩ := h.links hbefore
    rw [hbefore.frames] at hstacked hplaced
    rw [hafter]
    exact ⟨hstacked.moveOn rfl, List.forall_mem_cons.2
      ⟨.block hnext, (List.forall_mem_cons.1 hplaced).2⟩⟩
  | branches hbefore hafter =>
    obtain ⟨hnext, hbody⟩ := h.links hbefore
    rw [hbefore.frames] at hstacked hplaced
    rw [hafter]
    exact ⟨.branch rfl (hstacked.moveOn rfl), List.forall_mem_cons.2 ⟨.block hbody,
      List.forall_mem_cons.2 ⟨.block hnext, (List.forall_mem_cons.1 hplaced).2⟩⟩⟩
  | enters hbefore hafter hflags hop hbody =>
    obtain ⟨hnext, hinside⟩ := h.links hbefore
    have hown : before.script.Places (.loop _) :=
      .loop (hbody ▸ hinside) (by rw [hop, hbefore.node]; rfl)
    rw [hbefore.frames] at hstacked hplaced
    rw [hafter]
    exact ⟨.loop _ (hstacked.moveOn rfl), List.forall_mem_cons.2 ⟨hown,
      List.forall_mem_cons.2 ⟨.block hnext, (List.forall_mem_cons.1 hplaced).2⟩⟩⟩
  | exits hbefore hloop hafter =>
    rw [hbefore] at hstacked hplaced
    rw [hafter, ← hloop]
    exact ⟨hstacked.tail.fromLoop,
      fun frame hm => hplaced frame (.tail _ (Frame.mem_of_fromLoop hm))⟩
  | returns hbefore hafter =>
    rw [hafter]
    exact ⟨.empty, fun _ hm => by cases hm⟩

/-- A request that is open after a step is one to the innermost frame. -/
theorem Heard.shift (h : before.Heard) (hf : before.Formed) (hspared : spared)
    (hs : before.Shift spared after effect) : after.Heard := by
  cases hs with
  | finished hbefore hafter hflags => exact heard_of_none (hflags.trans (h.none_of_block hbefore))
  | exhausted hbefore hafter hflags => exact heard_of_none hflags
  | waits hbefore hafter hflags => exact heard_of_none hflags
  | iterates hbefore hafter hflags => exact heard_of_none hflags
  | strays hbefore hnext hnode => exact absurd hnode (hf.node hbefore hnext)
  | passes hbefore hafter hflags =>
    exact heard_of_none ((hflags hspared).trans (h.none_of_block hbefore.frames))
  | splits hbefore hafter hflags =>
    exact heard_of_none ((hflags hspared).trans (h.none_of_block hbefore.frames))
  | branches hbefore hafter hflags =>
    exact heard_of_none ((hflags hspared).trans (h.none_of_block hbefore.frames))
  | enters hbefore hafter hflags =>
    exact heard_of_none ((hflags hspared).trans (h.none_of_block hbefore.frames))
  | exits hbefore hloop hafter => exact fun _ => ⟨_, _, hafter⟩
  | returns hbefore hafter hflags =>
    exact heard_of_none ((hflags hspared).trans (h.none_of_block hbefore))

/-- After a node that asks for a call, the innermost frame is a block. -/
theorem Shift.block_of_call {request : CallRequest}
    (hs : before.Shift spared after (.call request)) :
    ∃ chain outer, after.frames = .block chain :: outer := by
  cases hs with
  | passes hbefore hafter => exact ⟨_, _, hafter⟩

/-- A loop that is split off is a machine of its own with nothing else. -/
theorem Shift.forked_of_fork {child : Machine} (hs : before.Shift spared after (.fork child)) :
    ∃ chain outer index op cycle, before.Facing chain outer index op ∧
      child = Stage.forked after cycle ∧ cycle.op = index ∧ cycle.body = op.body := by
  cases hs with
  | passes hbefore hafter hflags heffect => exact absurd rfl (heffect child)
  | splits hbefore hafter hflags hop hbody => exact ⟨_, _, _, _, _, hbefore, rfl, hop, hbody⟩

/-- An activation starts in front of the whole program. -/
theorem formed_start (name : String) (origin : Place) (body : Option Node) (context : Context)
    (call : Option PendingCall) : (start (.ofBody name origin body) context call).Formed where
  stacked := .root rfl
  placed := List.forall_mem_singleton.2 (.block ⟨_, Script.follows_ofBody name origin body, trivial⟩)

end Activation

/-- Activations that wait for a call to return, innermost first: all of them are as
they should be, no request is open, and all but the outermost are calls. -/
inductive Machine.Waiting (spared : Prop) : List Activation → Prop
  /-- Nobody waits. -/
  | nobody : Waiting spared []
  /-- The outermost activation waits. -/
  | outermost {activation : Activation} (hformed : activation.Formed)
      (hflags : spared → activation.context.flags = .none) : Waiting spared [activation]
  /-- A call waits, and its caller waits for it. -/
  | inner {activation caller : Activation} {outer : List Activation}
      (hformed : activation.Formed) (hflags : spared → activation.context.flags = .none)
      (hcall : activation.call.isSome) (h : Waiting spared (caller :: outer)) :
      Waiting spared (activation :: caller :: outer)

/-- The innermost activation of a machine and those that wait for it. -/
structure Activation.Heads (spared : Prop) (top : Activation) (callers : List Activation) :
    Prop where
  /-- Its frames stand as they should. -/
  formed : top.Formed
  /-- A request is for its innermost frame. -/
  heard : spared → top.Heard
  /-- It is a call if anyone waits for it. -/
  call : callers ≠ [] → top.call.isSome
  /-- The others wait. -/
  callers : Machine.Waiting spared callers

/-- A machine whose stack is built as it should be. -/
def Machine.Formed (spared : Prop) (machine : Machine) : Prop :=
  ∀ top callers, machine.stack = top :: callers → top.Heads spared callers

namespace Machine

variable {spared : Prop}

/-- A machine that has ended is as it should be. -/
theorem formed_of_empty {machine : Machine} (h : machine.stack = []) : machine.Formed spared := by
  intro top callers hstack
  rw [h] at hstack
  cases hstack

/-- A machine is as it should be if the activation on its stack is. -/
theorem formed_of_heads {machine : Machine} {top : Activation} {callers : List Activation}
    (hstack : machine.stack = top :: callers) (h : top.Heads spared callers) :
    machine.Formed spared := by
  intro other outer hother
  rw [hstack] at hother
  cases hother
  exact h

/-- A machine that starts with nothing but one activation. -/
theorem formed_single {activation : Activation} {locals : Option Locals} (h : activation.Formed)
    (hflags : activation.context.flags = .none) : Formed spared ⟨[activation], locals⟩ :=
  formed_of_heads rfl ⟨h, fun _ => Activation.heard_of_none hflags, fun hne => absurd rfl hne,
    .nobody⟩

/-- An activation that makes a call waits for it. -/
theorem waits_of_heads {top : Activation} {callers : List Activation}
    (h : top.Heads spared callers) (hflags : spared → top.context.flags = .none) :
    Waiting spared (top :: callers) := by
  cases callers with
  | nil => exact .outermost h.formed hflags
  | cons caller outer => exact .inner h.formed hflags (h.call (List.cons_ne_nil _ _)) h.callers

/-- An activation that waited takes over when its call returns. -/
theorem Waiting.heads {caller : Activation} {outer : List Activation}
    (h : Waiting spared (caller :: outer)) : caller.Heads spared outer := by
  cases h with
  | outermost hformed hflags =>
    exact ⟨hformed, fun hs => Activation.heard_of_none (hflags hs), fun hne => absurd rfl hne,
      .nobody⟩
  | inner hformed hflags hcall h =>
    exact ⟨hformed, fun hs => Activation.heard_of_none (hflags hs), fun _ => hcall, h⟩

/-- A value that is received makes no difference. -/
theorem heads_receive {caller : Activation} {outer : List Activation}
    (h : caller.Heads spared outer) (name : Option String) (value : Option Value) :
    (receive caller name value).Heads spared outer := by
  unfold receive
  split
  · exact ⟨⟨h.formed.stacked, h.formed.placed⟩, h.heard, h.call, h.callers⟩
  · exact h

/-- A machine that was split off from one that is as it should be. -/
theorem formed_forked {activation : Activation} {cycle : LoopFrame}
    (h : activation.script.Places (.loop cycle)) :
    (Stage.forked activation cycle).Formed spared :=
  formed_single ⟨.split cycle, List.forall_mem_singleton.2 h⟩ rfl

end Machine

namespace Stepped

variable {σ ρ : Type}

/-- Whether a step is the last one: the machine failed or terminated. -/
def isLast (stepped : Stepped σ ρ) : Bool :=
  match stepped.outcome with
  | .error _ | .ok (.terminate _) => true
  | .ok .idle | .ok .normal | .ok (.suspend _) | .ok (.fork _) => false

/-- Whether there is more to come: the machine goes on, now or later. -/
def goesOn (stepped : Stepped σ ρ) : Bool :=
  match stepped.outcome with
  | .ok .normal | .ok (.suspend _) | .ok (.fork _) => true
  | .ok .idle | .error _ | .ok (.terminate _) => false

/-- A last step is not one with more to come. -/
theorem not_isLast_of_goesOn {stepped : Stepped σ ρ} (h : stepped.goesOn = true) :
    ¬ stepped.isLast = true := by
  unfold goesOn at h
  unfold isLast
  split at h <;> simp_all

/-- A step after which everything is as it should be: the machine, one that it split
off, and the answer. -/
structure Formed (spared : Prop) (stepped : Stepped σ ρ) : Prop where
  /-- The machine is. -/
  machine : stepped.machine.Formed spared
  /-- A machine that was split off is. -/
  child : ∀ child, stepped.outcome = .ok (.fork child) → child.Formed spared
  /-- The answer says whether anything is left. -/
  answer : (stepped.isLast = true ∧ stepped.machine.stack = []) ∨
    (stepped.goesOn = true ∧ stepped.machine.stack ≠ [])

/-- A step after which nothing is left. -/
theorem formed_of_last {spared : Prop} {stepped : Stepped σ ρ} (h : stepped.isLast = true)
    (hstack : stepped.machine.stack = []) : stepped.Formed spared where
  machine := Machine.formed_of_empty hstack
  child child hfork := by
    rw [isLast, hfork] at h
    cases h
  answer := .inl ⟨h, hstack⟩

/-- A step after which the machine goes on without having split anything off. -/
theorem formed_of_goesOn {spared : Prop} {stepped : Stepped σ ρ} {top : Activation}
    {callers : List Activation} (hstack : stepped.machine.stack = top :: callers)
    (h : top.Heads spared callers) (hon : stepped.goesOn = true)
    (hfork : ∀ child, stepped.outcome ≠ .ok (.fork child)) : stepped.Formed spared where
  machine := Machine.formed_of_heads hstack h
  child child hchild := absurd hchild (hfork child)
  answer := .inr ⟨hon, by rw [hstack]; exact List.cons_ne_nil _ _⟩

end Stepped

namespace Machine

variable {σ ρ : Type} [Host σ] {spared : Prop}

/-- An activation that is finished hands over to its caller. Without a call it is the
only one, so that nothing is left. -/
theorem formed_finish {machine : Machine} {top : Activation} {callers : List Activation}
    (h : top.Heads spared callers) (around : Surroundings σ ρ) :
    (machine.finish top callers around).Formed spared := by
  unfold finish
  dsimp only
  cases hcall : top.call with
  | none =>
    have hnil : callers = [] := by
      by_contra hne
      have hsome := h.call hne
      rw [hcall] at hsome
      cases hsome
    exact Stepped.formed_of_last rfl hnil
  | some pending =>
    cases callers with
    | nil => exact Stepped.formed_of_last rfl rfl
    | cons caller outer =>
      exact Stepped.formed_of_goesOn rfl (heads_receive h.callers.heads _ _) rfl nofun

/-- A call that is asked for is pushed or ends the machine. -/
theorem formed_call {machine : Machine} {top : Activation} {callers : List Activation}
    (hstack : machine.stack = top :: callers) (h : top.Heads spared callers)
    (hflags : spared → top.context.flags = .none) {around : Surroundings σ ρ}
    (hl : around.ledger.registry.Linked) (request : CallRequest) (context : Context) :
    (machine.call context request around).Formed spared := by
  unfold call
  split
  · exact Stepped.formed_of_last rfl rfl
  · rename_i entry hlookup
    have hscript := hl entry (FunctionRegistry.mem_registered hlookup)
    split
    · exact Stepped.formed_of_last rfl rfl
    · split
      · exact Stepped.formed_of_last rfl rfl
      · rename_i locals _ _ accepted after _
        have hcallee : Activation.Heads spared
            (.start entry.script (.start context.actor context.origin locals)
              (some ⟨accepted, request.result⟩)) (top :: callers) :=
          ⟨hscript ▸ Activation.formed_start .., fun _ => Activation.heard_of_none rfl,
            fun _ => rfl, waits_of_heads h hflags⟩
        refine Stepped.formed_of_goesOn ?_ hcallee rfl nofun
        exact congrArg (_ :: ·) hstack

variable [RandomSource ρ] {table : ActionTable σ ρ}

/-- Executing one node or transition leaves a machine as it should be. -/
theorem formed_advance {machine : Machine} (h : machine.Formed table.SparesRequests)
    (hne : machine.stack ≠ []) {around : Surroundings σ ρ} (hl : around.ledger.registry.Linked) :
    (machine.advance table around).Formed table.SparesRequests := by
  unfold advance
  split
  · rename_i hstack
    exact absurd hstack hne
  · rename_i top callers hstack
    have htop := h top callers hstack
    split
    · exact formed_finish htop around
    · rename_i hframes
      have hshifts : Stage.Shifts table.SparesRequests ⟨top, around⟩
          (Stage.advance table ⟨top, around⟩) := Stage.shifts_advance (by simpa using hframes)
      generalize Stage.advance table ⟨top, around⟩ = result at hshifts ⊢
      obtain ⟨effect, stage⟩ := result
      obtain ⟨⟨hscript, hcall, hledger⟩, hshift⟩ := hshifts
      dsimp only at hscript hcall hledger hshift ⊢
      have hafter : stage.activation.Heads table.SparesRequests callers :=
        ⟨htop.formed.shift hshift hscript,
          fun hs => (htop.heard hs).shift htop.formed hs hshift,
          fun hcallers => hcall ▸ htop.call hcallers, htop.callers⟩
      match effect with
      | .normal => exact Stepped.formed_of_goesOn rfl hafter rfl nofun
      | .suspend ticks => exact Stepped.formed_of_goesOn rfl hafter rfl nofun
      | .stop => exact Stepped.formed_of_last rfl rfl
      | .fork child =>
        obtain ⟨chain, outer, index, op, cycle, hfacing, rfl, hop, hbody⟩ := hshift.forked_of_fork
        refine ⟨formed_of_heads rfl hafter, fun other hother => ?_,
          .inr ⟨rfl, List.cons_ne_nil _ _⟩⟩
        cases hother
        refine formed_forked (.loop ?_ ?_)
        · rw [hscript, hbody]
          exact (htop.formed.links hfacing).2
        · rw [hscript, hop, hfacing.node]
          rfl
      | .call request =>
        obtain ⟨chain, outer, hblock⟩ := hshift.block_of_call
        exact formed_call rfl hafter (fun hs => (hafter.heard hs).none_of_block hblock)
          (hledger ▸ hl) request _

/-- A step leaves a machine that has not ended as it should be. -/
theorem formed_step {machine : Machine} (h : machine.Formed table.SparesRequests)
    (hne : machine.stack ≠ []) {around : Surroundings σ ρ} (hl : around.ledger.registry.Linked) :
    (machine.step table around).Formed table.SparesRequests := by
  obtain ⟨hstack, -⟩ | ⟨error, after, last, hcheck, hstep⟩ | ⟨-, hstep⟩ :=
    step_cases table machine around
  · exact absurd hstack hne
  · rw [hstep]
    exact Stepped.formed_of_last rfl (stack_of_checkDeadlines hcheck)
  · rw [hstep]
    exact formed_advance h hne hl

/-- The machines that come up with an action table: those that start with a linked
program or an accepted call, those that steps lead to in whatever surroundings, those
that are split off on the way, and those that are ended from outside. -/
inductive Arises (table : ActionTable σ ρ) : Machine → Prop
  /-- A program starts. -/
  | program (name : String) (origin : Place) (body : Option Node) {context : Context}
      (hflags : context.flags = .none) : Arises table (ofScript (.ofBody name origin body) context)
  /-- A call starts. -/
  | call {call : ActiveCall} {context : Context}
      (hlinked : call.entry.script = .ofBody call.entry.definition.name
        call.entry.definition.origin call.entry.definition.body)
      (hflags : context.flags = .none) : Arises table (ofCall call context)
  /-- A machine takes a step. -/
  | step {machine : Machine} (h : Arises table machine) (around : Surroundings σ ρ)
      (hl : around.ledger.registry.Linked) : Arises table (machine.step table around).machine
  /-- A machine is split off in a step. -/
  | fork {machine child : Machine} (h : Arises table machine) (around : Surroundings σ ρ)
      (hl : around.ledger.registry.Linked)
      (hfork : (machine.step table around).outcome = .ok (.fork child)) : Arises table child
  /-- A machine is ended from outside. -/
  | ended {machine : Machine} (h : Arises table machine) : Arises table machine.ended

/-- A step of a machine that has ended does nothing. -/
theorem step_of_empty {machine : Machine} (h : machine.stack = []) (table : ActionTable σ ρ)
    (around : Surroundings σ ρ) : machine.step table around = ⟨.ok .idle, machine, around⟩ := by
  unfold step
  rw [h]

/-- Every machine that comes up is as it should be. -/
theorem Arises.formed {machine : Machine} (h : machine.Arises table) :
    machine.Formed table.SparesRequests := by
  induction h with
  | program name origin body hflags =>
    exact formed_single (Activation.formed_start name origin body _ none) hflags
  | @call call context hlinked hflags =>
    refine formed_single ?_ hflags
    rw [hlinked]
    exact Activation.formed_start ..
  | @step machine h around hl ih =>
    by_cases hstack : machine.stack = []
    · rw [step_of_empty hstack]
      exact ih
    · exact (formed_step ih hstack hl).machine
  | @fork machine child h around hl hfork ih =>
    by_cases hstack : machine.stack = []
    · rw [step_of_empty hstack] at hfork
      cases hfork
    · exact (formed_step ih hstack hl).child child hfork
  | ended h ih => exact formed_of_empty rfl

end Machine

/-- The frames of an activation, and the indices in them. -/
structure Activation.WellFormed (activation : Activation) : Prop where
  /-- The block of the whole program is the outermost frame. -/
  root : ∀ inner chain outer, activation.frames = inner ++ .block chain :: outer →
    chain.kind = .root → outer = []
  /-- The block of an iteration is directly on a loop. -/
  iteration : ∀ inner chain outer, activation.frames = inner ++ .block chain :: outer →
    chain.kind = .loopBody → ∃ cycle rest, outer = .loop cycle :: rest
  /-- The block of a condition or alternative is directly on a block. -/
  branch : ∀ inner chain outer, activation.frames = inner ++ .block chain :: outer →
    chain.kind = .branch → ∃ below rest, outer = .block below :: rest
  /-- Directly on a loop that is not the innermost frame is the block of an iteration. -/
  loop : ∀ inner cycle outer, activation.frames = inner ++ .loop cycle :: outer → inner ≠ [] →
    ∃ rest chain, inner = rest ++ [.block chain] ∧ chain.kind = .loopBody
  /-- The node that comes next in a block is one of the script. -/
  next : ∀ chain, .block chain ∈ activation.frames →
    ∀ index, chain.next = some index → index < activation.script.ops.size
  /-- The node of a loop is one of the script. -/
  op : ∀ cycle, .loop cycle ∈ activation.frames → cycle.op < activation.script.ops.size
  /-- The first node of the body of a loop is one of the script. -/
  body : ∀ cycle, .loop cycle ∈ activation.frames →
    ∀ index, cycle.body = some index → index < activation.script.ops.size

/-- An activation that is as it should be is well formed. -/
theorem Activation.Formed.wellFormed {activation : Activation} (h : activation.Formed) :
    activation.WellFormed where
  root inner chain outer hframes hkind := by
    have hstacked := h.stacked
    rw [hframes] at hstacked
    cases hstacked.suffix with
    | root => rfl
    | branch hbranch => cases hkind.symm.trans hbranch
    | iteration hbody => cases hkind.symm.trans hbody
  iteration inner chain outer hframes hkind := by
    have hstacked := h.stacked
    rw [hframes] at hstacked
    cases hstacked.suffix with
    | root hroot => cases hkind.symm.trans hroot
    | branch hbranch => cases hkind.symm.trans hbranch
    | iteration => exact ⟨_, _, rfl⟩
  branch inner chain outer hframes hkind := by
    have hstacked := h.stacked
    rw [hframes] at hstacked
    cases hstacked.suffix with
    | root hroot => cases hkind.symm.trans hroot
    | branch => exact ⟨_, _, rfl⟩
    | iteration hbody => cases hkind.symm.trans hbody
  loop inner cycle outer hframes hne := by
    obtain ⟨rest, above, hinner⟩ := (List.eq_nil_or_concat inner).resolve_left hne
    rw [List.concat_eq_append] at hinner
    subst hinner
    have hstacked := h.stacked
    rw [hframes, List.append_assoc] at hstacked
    cases hstacked.suffix with
    | iteration hbody => exact ⟨rest, _, rfl, hbody⟩
  next chain hm index hnext := by
    have hplaced : activation.script.Ahead _ chain.next := (h.placed _ hm).1
    rw [hnext] at hplaced
    exact Script.Places.lt_size hplaced
  op cycle hm := by
    obtain ⟨op, hop⟩ := Option.isSome_iff_exists.1 ((h.placed _ hm).2 cycle rfl)
    exact (Array.getElem?_eq_some_iff.1 hop).1
  body cycle hm index hbody := by
    have hplaced : activation.script.Ahead _ cycle.body := (h.placed _ hm).1
    rw [hbody] at hplaced
    exact Script.Places.lt_size hplaced

namespace Machine

/-- The stack of a machine: all activations are well formed, and only the outermost one
can lack a call. -/
structure WellFormed (machine : Machine) : Prop where
  /-- The activations. -/
  activations : ∀ activation ∈ machine.stack, activation.WellFormed
  /-- The calls. -/
  calls : ∀ activation ∈ machine.stack.dropLast, activation.call.isSome

/-- A request is open only in the innermost activation, and only while a loop is its
innermost frame. -/
def RequestsOnTop (machine : Machine) : Prop :=
  ∀ inner activation outer, machine.stack = inner ++ activation :: outer →
    activation.context.flags ≠ .none →
    inner = [] ∧ ∃ cycle rest, activation.frames = .loop cycle :: rest

variable {spared : Prop}

/-- Those who wait are well formed, and all but the outermost are calls. -/
theorem Waiting.wellFormed {callers : List Activation} (h : Waiting spared callers) :
    (∀ activation ∈ callers, activation.WellFormed) ∧
      (∀ activation ∈ callers.dropLast, activation.call.isSome) ∧
      (spared → ∀ activation ∈ callers, activation.context.flags = .none) := by
  induction h with
  | nobody => exact ⟨List.forall_mem_nil _, List.forall_mem_nil _, fun _ => List.forall_mem_nil _⟩
  | outermost hformed hflags =>
    exact ⟨List.forall_mem_singleton.2 hformed.wellFormed, List.forall_mem_nil _,
      fun hs => List.forall_mem_singleton.2 (hflags hs)⟩
  | inner hformed hflags hcall h ih =>
    obtain ⟨hall, hcalls, hnone⟩ := ih
    exact ⟨List.forall_mem_cons.2 ⟨hformed.wellFormed, hall⟩,
      List.forall_mem_cons.2 ⟨hcall, hcalls⟩,
      fun hs => List.forall_mem_cons.2 ⟨hflags hs, hnone hs⟩⟩

/-- A machine that is as it should be is well formed. -/
theorem Formed.wellFormed {machine : Machine} (h : machine.Formed spared) :
    machine.WellFormed ∧ (spared → machine.RequestsOnTop) := by
  cases hstack : machine.stack with
  | nil =>
    refine ⟨⟨by simp [hstack], by simp [hstack]⟩, fun _ inner activation outer hsplit => ?_⟩
    rw [hstack] at hsplit
    simp at hsplit
  | cons top callers =>
    have htop := h top callers hstack
    obtain ⟨hall, hcalls, hnone⟩ := htop.callers.wellFormed
    refine ⟨⟨?_, ?_⟩, fun hs inner activation outer hsplit hset => ?_⟩
    · rw [hstack]
      exact List.forall_mem_cons.2 ⟨htop.formed.wellFormed, hall⟩
    · rw [hstack]
      cases callers with
      | nil => exact List.forall_mem_nil _
      | cons caller outer =>
        exact List.forall_mem_cons.2 ⟨htop.call (List.cons_ne_nil _ _), hcalls⟩
    · rw [hstack] at hsplit
      cases inner with
      | nil =>
        cases hsplit
        exact ⟨rfl, htop.heard hs hset⟩
      | cons first rest =>
        cases hsplit
        exact absurd (hnone hs activation (by simp)) hset

variable {σ ρ : Type} [Host σ] [RandomSource ρ] {table : ActionTable σ ρ}

/-- The stack of every machine that comes up is well formed, and requests are open only
on its top if actions leave them alone. A machine that has ended is idle. Any other one
fails or terminates exactly when a step leaves nothing on its stack, and goes on, waits
or splits a loop off exactly when the step leaves something. -/
theorem stack_wellFormed {machine : Machine} (h : machine.Arises table) :
    machine.WellFormed ∧ (table.SparesRequests → machine.RequestsOnTop) ∧
      ∀ around : Surroundings σ ρ, around.ledger.registry.Linked →
        if machine.stack = [] then machine.step table around = ⟨.ok .idle, machine, around⟩
        else
          ((machine.step table around).isLast ↔
            (machine.step table around).machine.stack = []) ∧
          ((machine.step table around).goesOn ↔
            (machine.step table around).machine.stack ≠ []) := by
  obtain ⟨hwell, hrequests⟩ := h.formed.wellFormed
  refine ⟨hwell, hrequests, fun around hl => ?_⟩
  split
  · rename_i hstack
    exact step_of_empty hstack table around
  · rename_i hstack
    obtain ⟨hlast, hnone⟩ | ⟨hon, hsome⟩ := (formed_step h.formed hstack hl).answer
    · exact ⟨⟨fun _ => hnone, fun _ => hlast⟩,
        fun hon => absurd hlast (Stepped.not_isLast_of_goesOn hon), fun hsome => absurd hnone hsome⟩
    · exact ⟨⟨fun hlast => absurd hlast (Stepped.not_isLast_of_goesOn hon),
        fun hnone => absurd hnone hsome⟩, fun _ => hsome, fun _ => hon⟩

/-- A loop without end that is left from inside of a condition. -/
def leftFromCondition : Option Node :=
  some (.mk ⟨1, "loop", .loop, some "forever", .empty, .plain, none⟩
    [.mk ⟨2, "condition", .condition, some "exists",
        (ArrivalMap.empty.insert "name" (.text "mark")).insert "negate" (.bool true), .plain, none⟩
      [.mk ⟨3, "control", .control, some "break", .empty, .plain, none⟩ [] none] none] none)

/-- A host with nothing but a clock, and no functions. -/
def quietSurroundings : Surroundings MinimalHost ReplaySource :=
  ⟨⟨⟨0⟩⟩, ⟨[], 0⟩, .initial default, #[]⟩

/-- The machine of that loop after a number of steps. -/
def leavingMachine : Nat → Machine
  | 0 => ofScript (.ofBody "start" default leftFromCondition) (.start default default .empty)
  | steps + 1 => ((leavingMachine steps).step .standard quietSurroundings).machine

/-- It comes up. -/
theorem arises_leavingMachine (steps : Nat) :
    (leavingMachine steps).Arises (.standard : ActionTable MinimalHost ReplaySource) := by
  induction steps with
  | zero => exact .program "start" default leftFromCondition rfl
  | succ steps ih =>
    refine .step ih quietSurroundings fun entry hm => ?_
    cases hm

/-- After the fourth step the request to leave the loop is open, with the loop on top,
and the machine goes on. -/
theorem stack_wellFormed_leftFromCondition :
    (leavingMachine 4).stack.map (fun activation =>
        (activation.context.flags, activation.frames.length)) = [(⟨true, false⟩, 2)] ∧
      (leavingMachine 4).WellFormed ∧ (leavingMachine 4).RequestsOnTop ∧
      (leavingMachine 5).stack ≠ [] := by
  obtain ⟨hwell, hrequests, hstep⟩ := stack_wellFormed (arises_leavingMachine 4)
  have hnext := hstep quietSurroundings fun entry hm => by cases hm
  rw [if_neg (by decide +kernel)] at hnext
  exact ⟨by decide +kernel, hwell, hrequests ActionTable.keeps_standard.sparesRequests,
    hnext.2.1 (by decide +kernel)⟩

end Machine

end GridScript
