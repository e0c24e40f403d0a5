import GridScript.Proofs.Enclosure
import Mathlib.Data.List.Forall2

/-!
# Loops iterate as declared

A loop is set up from the parameters of its node, and from then on the turns it takes follow a
fixed schedule: its iterations begin one after the other, with the variable of the loop set, and
if there is a delay the loop waits exactly once before each of them but the first. The schedule
ends when the loop has had as many iterations as it may have, when its condition does not yield
true, when it was asked to end by a `break` inside of it, or when all of its activation ends.
-/

namespace GridScript

/-- A parameter of a node has that value with the variables of an invocation, or is missing. -/
def Op.Gives (σ ρ : Type) [RandomSource ρ] (op : Op) (context : Context) (name : String)
    (value : Option Value) : Prop :=
  ∃ scene last : Scene σ ρ, scene.context = context ∧ Act.arg? op name scene = (.ok value, last)

/-- What the node of a loop says about how the loop goes on, by the name of its action. -/
inductive LoopKind.Declared (σ ρ : Type) [RandomSource ρ] (settings : Settings) (op : Op)
    (context : Context) : String → LoopKind → Prop
  /-- A number of times, which a variable may count. -/
  | times {value : Value} {count : Nat} {counter : Option Value}
      (htimes : op.Gives σ ρ context "times" (some value)) (hcount : value.asCount = .ok count)
      (hcounter : op.Gives σ ρ context "counter" counter) :
      Declared σ ρ settings op context "repeat" (.times count (counter.map Value.toText))
  /-- While a condition holds, up to a limit. -/
  | limited {value : Value} {limit : Nat} (hvalue : op.Gives σ ρ context "limit" (some value))
      (hlimit : value.asCount = .ok limit) :
      Declared σ ρ settings op context "while" (.whileTrue limit)
  /-- While a condition holds, up to the general limit. -/
  | unlimited (hmissing : op.Gives σ ρ context "limit" none) :
      Declared σ ρ settings op context "while" (.whileTrue settings.maxLoopIterations)
  /-- Once for every item of a list. -/
  | forEach {value : Value} {items : List Value} {name : Option Value}
      (hlist : op.Gives σ ρ context "list" (some value)) (hitems : value.asList = .ok items)
      (hname : op.Gives σ ρ context "var" name) :
      Declared σ ρ settings op context "for_each"
        (.forEach items ((name.map Value.toText).getD "item"))
  /-- Without end. -/
  | forever : Declared σ ρ settings op context "forever" .forever

/-- A loop is the one that a node declares, before its first iteration. -/
structure LoopFrame.Declared (σ ρ : Type) [RandomSource ρ] (settings : Settings) (index : Nat)
    (node : Op) (action : String) (context : Context) (loop : LoopFrame) : Prop where
  /-- It is the loop of the node. -/
  op : loop.op = index
  /-- Its body is what the node contains. -/
  body : loop.body = node.body
  /-- It goes on as the node says. -/
  kind : loop.kind.Declared σ ρ settings node context action
  /-- It waits for as long as the node says. -/
  delay : node.Gives σ ρ context "delay" none ∧ loop.delay = 0 ∨
    ∃ value, node.Gives σ ρ context "delay" (some value) ∧ value.asCount = .ok loop.delay
  /-- No iteration has begun. -/
  iteration : loop.iteration = 0
  /-- It has not waited. -/
  waited : loop.waited = false

namespace Act

variable {σ ρ : Type} [RandomSource ρ]

/-- A truth value is read like any parameter. -/
theorem reads_flag (op : Op) (name : String) : Reads (flag op name : Act σ ρ Bool) := by
  refine (reads_arg? op name).bind fun value => ?_
  cases value with
  | none => exact reads_pure _
  | some value => exact fun scene => ⟨scene.random, rfl⟩

/-- A value that must be there is one that may be there. -/
theorem gives_of_arg {op : Op} {name : String} {value : Value} {scene last : Scene σ ρ}
    (h : arg op name scene = (.ok value, last)) :
    op.Gives σ ρ scene.context name (some value) := by
  obtain ⟨found, middle, hfound, hrest⟩ := bind_eq_ok h
  cases found with
  | none => cases hrest
  | some value =>
    cases hrest
    exact ⟨scene, _, rfl, hfound⟩

omit [RandomSource ρ] in
/-- The outcome of a computation that touches nothing. -/
theorem lift_eq_ok {α : Type} {result : Except Fault α} {value : α} {scene last : Scene σ ρ}
    (h : lift result scene = (.ok value, last)) : result = .ok value ∧ last = scene :=
  ⟨congrArg Prod.fst h, (congrArg Prod.snd h).symm⟩

end Act

namespace Stage

variable {σ ρ : Type} [RandomSource ρ]

/-- A loop goes on as its node says. -/
theorem declared_loopKind {settings : Settings} {op : Op} {action : String} {kind : LoopKind}
    {scene last : Scene σ ρ} (h : loopKind settings op action scene = (.ok kind, last)) :
    kind.Declared σ ρ settings op scene.context action := by
  unfold loopKind at h
  split at h
  · obtain ⟨value, first, hvalue, hfirst⟩ := Act.bind_eq_ok h
    obtain ⟨count, second, hread, hsecond⟩ := Act.bind_eq_ok hfirst
    obtain ⟨hcount, rfl⟩ := Act.lift_eq_ok hread
    obtain ⟨counter, third, hcounter, hlast⟩ := Act.bind_eq_ok hsecond
    cases hlast
    have hcontext := (Act.reads_arg op _).context_eq hvalue
    exact .times (Act.gives_of_arg hvalue) hcount ⟨_, _, hcontext, hcounter⟩
  · obtain ⟨found, first, hfound, hfirst⟩ := Act.bind_eq_ok h
    cases found with
    | none =>
      cases hfirst
      exact .unlimited ⟨_, _, rfl, hfound⟩
    | some value =>
      obtain ⟨limit, second, hread, hlast⟩ := Act.bind_eq_ok hfirst
      obtain ⟨hlimit, rfl⟩ := Act.lift_eq_ok hread
      cases hlast
      exact .limited ⟨_, _, rfl, hfound⟩ hlimit
  · obtain ⟨value, first, hvalue, hfirst⟩ := Act.bind_eq_ok h
    obtain ⟨items, second, hread, hsecond⟩ := Act.bind_eq_ok hfirst
    obtain ⟨hconverted, rfl⟩ := Act.lift_eq_ok hread
    obtain ⟨name, third, hname, hlast⟩ := Act.bind_eq_ok hsecond
    cases hlast
    have hcontext := (Act.reads_arg op _).context_eq hvalue
    refine .forEach (Act.gives_of_arg hvalue) ?_ ⟨_, _, hcontext, hname⟩
    cases hlist : value.asList with
    | error error =>
      rw [hlist] at hconverted
      cases hconverted
    | ok found =>
      rw [hlist] at hconverted
      cases hconverted
      rfl
  · cases h
    exact .forever
  · cases h

/-- A loop that is set up is the one that its node declares. -/
theorem declared_newLoop {settings : Settings} {index : Nat} {op : Op} {action : String}
    {scene last : Scene σ ρ} {loop : LoopFrame} {fork : Bool}
    (h : newLoop settings index op action scene = (.ok (loop, fork), last)) :
    loop.Declared σ ρ settings index op action scene.context := by
  unfold newLoop at h
  obtain ⟨found, first, hfound, hfirst⟩ := Act.bind_eq_ok h
  have hcontext := (Act.reads_arg? op _).context_eq hfound
  have hrest {ticks : Nat} (hdelay : op.Gives σ ρ scene.context "delay" none ∧ ticks = 0 ∨
        ∃ value, op.Gives σ ρ scene.context "delay" (some value) ∧ value.asCount = .ok ticks)
      (h : (do
        let fork ← Act.flag op "async"
        let kind ← loopKind settings op action
        return ((⟨index, op.body, kind, 0, ticks, false⟩ : LoopFrame), fork) :
          Act σ ρ (LoopFrame × Bool)) first = (.ok (loop, fork), last)) :
      loop.Declared σ ρ settings index op action scene.context := by
    obtain ⟨asked, second, hasked, hsecond⟩ := Act.bind_eq_ok h
    obtain ⟨kind, third, hkind, hlast⟩ := Act.bind_eq_ok hsecond
    cases hlast
    have hdeclared := declared_loopKind hkind
    rw [(Act.reads_flag op _).context_eq hasked, hcontext] at hdeclared
    exact ⟨rfl, rfl, hdeclared, hdelay, rfl, rfl⟩
  cases found with
  | none =>
    obtain ⟨ticks, second, hticks, hsecond⟩ := Act.bind_eq_ok hfirst
    cases hticks
    exact hrest (.inl ⟨⟨_, _, rfl, hfound⟩, rfl⟩) hsecond
  | some value =>
    obtain ⟨ticks, second, hread, hsecond⟩ := Act.bind_eq_ok hfirst
    obtain ⟨hticks, rfl⟩ := Act.lift_eq_ok hread
    exact hrest (.inr ⟨value, ⟨_, _, rfl, hfound⟩, hticks⟩) hsecond

/-- An activation is in front of the node of a loop, and the parameters of the node come to this
loop. -/
def SetsUp (stage : Stage σ ρ) (loop : LoopFrame) : Prop :=
  ∃ chain outer index op action fork last, stage.activation.Facing chain outer index op ∧
    op.category = .loop ∧ op.action = some action ∧
    newLoop stage.around.ledger.settings index op action
      ⟨stage.activation.context, stage.around.host, stage.around.random⟩ =
        (.ok (loop, fork), last)

/-- A loop that is the innermost frame after a step was there before, or its node was
executed. -/
theorem Advances.loop_cases {stage : Stage σ ρ} {effect : Effect} {loop : LoopFrame}
    {outer : List Frame} (h : stage.Advances effect (.loop loop :: outer)) :
    (∃ inner cycle, stage.activation.frames = inner ++ .loop cycle :: outer) ∨
      stage.SetsUp loop := by
  generalize hframes : Frame.loop loop :: outer = frames at h
  cases h with
  | leaves hbefore =>
    rw [← hframes] at hbefore
    exact .inl ⟨[_], loop, hbefore⟩
  | waits hbefore =>
    rw [← (List.cons.inj hframes).2] at hbefore
    exact .inl ⟨[], _, hbefore⟩
  | iterates hbefore => cases (List.cons.inj hframes).1
  | strays hbefore hnext hnode => cases (List.cons.inj hframes).1
  | @executes chain others _ index op _ hfacing hreframes =>
    cases hreframes with
    | stays heffect => cases (List.cons.inj hframes).1
    | marks hbranches => cases (List.cons.inj hframes).1
    | branches hbranches => cases (List.cons.inj hframes).1
    | splits hcategory haction hloop => cases (List.cons.inj hframes).1
    | enters hcategory haction hloop =>
      cases (List.cons.inj hframes).1
      exact .inr ⟨_, _, index, op, _, _, _, hfacing, hcategory, haction, hloop⟩
    | exits isBreak hcategory haction hloop =>
      have hbelow : Frame.fromLoop others = _ := hloop
      obtain ⟨inner, hinner⟩ := Frame.exists_append_fromLoop others
      rw [hbelow, ← hframes] at hinner
      have hbefore := hfacing.frames
      rw [hinner] at hbefore
      exact .inl ⟨.block chain :: inner, loop, hbefore⟩
    | returns hcategory haction => cases hframes

/-- A step that splits a machine off is one of the node of its loop. -/
theorem Advances.of_fork {stage : Stage σ ρ} {child : Machine} {frames : List Frame}
    (h : stage.Advances (.fork child) frames) :
    ∃ activation loop, child = forked activation loop ∧ stage.SetsUp loop := by
  cases h with
  | executes hfacing hreframes =>
    cases hreframes with
    | stays heffect => exact absurd rfl (heffect _)
    | splits hcategory haction hloop =>
      exact ⟨_, _, rfl, _, _, _, _, _, _, _, hfacing, hcategory, haction, hloop⟩

end Stage

/-- What a loop does in a turn after which it is still there. -/
inductive Turn where
  /-- It begins an iteration, counted from one. -/
  | begins (iteration : Nat)
  /-- It waits for a number of ticks. -/
  | rests (ticks : Nat)

namespace Turn

/-- The wait before the next iteration: there is one if there is a delay, and if it is not the
first iteration. -/
def pause (delay iteration : Nat) : List Turn :=
  if 0 < iteration ∧ 0 < delay then [.rests delay] else []

/-- The turns of a loop until an iteration has begun. -/
def schedule (delay : Nat) : Nat → List Turn
  | 0 => []
  | iteration + 1 => schedule delay iteration ++ pause delay iteration ++ [.begins (iteration + 1)]

end Turn

/-- A loop of which some iterations have begun, and which may have waited since. -/
def LoopFrame.reached (loop : LoopFrame) (iteration : Nat) (waited : Bool) : LoopFrame :=
  { loop with iteration, waited }

/-- A step in which a loop is the innermost frame is that turn of it. -/
inductive Visit.Makes {σ ρ : Type} [Host σ] [RandomSource ρ] (table : ActionTable σ ρ)
    (footing : Footing) (loop : LoopFrame) (visit : Visit σ ρ) : Turn → Prop
  /-- There is an iteration left, the condition of the loop yields true, its variable is set, and
  its body is entered. -/
  | begins {holder : Activation} {iteration : Nat} {waited : Bool} {random : ρ}
      (shown : visit.machine.Carries footing [] holder [] (.loop (loop.reached iteration waited)))
      (allowed : loop.kind.allows iteration = true)
      (met : holder.KeepsOn loop visit.around.random random)
      (step : visit.machine.step table visit.around = ⟨.ok .normal, { visit.machine with
        stack := { holder with
          frames := .block ⟨loop.body, .loopBody, false⟩ ::
            .loop (loop.reached (iteration + 1) false) :: footing.outer
          context := { holder.context with
            locals := loop.kind.assign iteration holder.context.locals
            flags := .none } } :: footing.callers }, { visit.around with random }⟩) :
      Makes table footing loop visit (.begins (iteration + 1))
  /-- Nothing but the wait is noted. -/
  | rests {holder : Activation} {iteration : Nat}
      (shown : visit.machine.Carries footing [] holder [] (.loop (loop.reached iteration false)))
      (step : visit.machine.step table visit.around = ⟨.ok (.suspend loop.delay),
        { visit.machine with
          stack := holder.settle (.loop (loop.reached iteration true) :: footing.outer) ::
            footing.callers }, visit.around⟩) :
      Makes table footing loop visit (.rests loop.delay)

namespace Machine

variable {σ ρ : Type} [Host σ] [RandomSource ρ] {table : ActionTable σ ρ} {footing : Footing}
  {loop : LoopFrame}

/-- How far a loop has got: so many iterations have begun, no more than it may have, its visits
were the turns of the schedule, and it has waited only if another iteration is to follow. -/
structure Progress (table : ActionTable σ ρ) (footing : Footing) (loop : LoopFrame)
    (visits : List (Visit σ ρ)) (iteration : Nat) (waited : Bool) : Prop where
  /-- There are no more iterations than there may be. -/
  bounded : ∀ bound ∈ loop.kind.bound?, iteration ≤ bound
  /-- The visits were the turns of the schedule. -/
  turns : List.Forall₂ (Visit.Makes table footing loop) visits
    (Turn.schedule loop.delay iteration ++ if waited then [.rests loop.delay] else [])
  /-- A wait is followed by an iteration as far as their number is concerned. -/
  due : waited = true → 0 < iteration ∧ 0 < loop.delay ∧ loop.kind.allows iteration = true

/-- A step in which a loop is the innermost frame is a turn of it. -/
theorem Carries.turn {machine : Machine} {holder : Activation} {cycle : LoopFrame}
    (h : machine.Carries footing [] holder [] (.loop cycle)) {around : Surroundings σ ρ}
    (hpunctual : machine.lateCall? around.now = none) (table : ActionTable σ ρ) :
    ∃ effect stage answer, Stage.Turns ⟨holder, around⟩ cycle footing.outer (effect, stage) ∧
      effect.onward? = some answer ∧ machine.step table around =
        ⟨.ok answer, { machine with stack := stage.activation :: footing.callers },
          stage.around⟩ := by
  have hframes : holder.frames = .loop cycle :: footing.outer := h.frames
  have hne : holder.frames ≠ [] := by
    rw [hframes]
    exact List.cons_ne_nil _ _
  have hadvance : Stage.advance table ⟨holder, around⟩ =
      Stage.loopBoundary ⟨holder, around⟩ cycle := by
    unfold Stage.advance
    dsimp only
    rw [hframes]
  have hturns : Stage.Turns ⟨holder, around⟩ cycle footing.outer
      (Stage.loopBoundary ⟨holder, around⟩ cycle) := Stage.turns_loopBoundary hframes
  rcases hboundary : Stage.loopBoundary ⟨holder, around⟩ cycle with ⟨effect, stage⟩
  rw [hboundary] at hadvance hturns
  obtain ⟨answer, honward⟩ : ∃ answer, effect.onward? = some answer := by
    cases hturns <;> exact ⟨_, rfl⟩
  exact ⟨effect, stage, answer, hturns, honward,
    step_of_onward h.stack hne hpunctual hadvance honward⟩

/-- A turn of a loop after which it is still there is the next one of the schedule. -/
theorem Progress.visit {visits : List (Visit σ ρ)} {visit : Visit σ ρ} {iteration : Nat}
    {waited : Bool} {holder same : Activation} {upper : List Activation} {inner : List Frame}
    {next : Frame} (h : Progress table footing loop visits iteration waited)
    (hcarries : visit.machine.Carries footing [] holder [] (.loop (loop.reached iteration waited)))
    (hpunctual : visit.machine.lateCall? visit.around.now = none)
    (hafter : (visit.machine.step table visit.around).machine.Carries footing upper same inner
      next) :
    ∃ later rested, next = .loop (loop.reached later rested) ∧
      Progress table footing loop (visits ++ [visit]) later rested := by
  obtain ⟨effect, stage, answer, hturn, honward, hstep⟩ := hcarries.turn hpunctual table
  have hstack : (visit.machine.step table visit.around).machine.stack =
      stage.activation :: footing.callers := by rw [hstep]
  have hkept : (visit.machine.step table visit.around).machine.Bears footing :=
    ⟨_, _, _, _, hafter⟩
  have hgone (hleft : stage.activation.frames = footing.outer) : False :=
    not_bears_of_short hstack (by rw [hleft]) hkept
  cases hturn with
  | breaks hbreak => exact (hgone rfl).elim
  | exhausts hunbroken hover => exact (hgone rfl).elim
  | declines hunbroken hallows hrested hunmet => exact (hgone rfl).elim
  | rests hunbroken hallows hlater hdelay hfresh =>
    obtain rfl : waited = false := hfresh
    cases honward
    have hmoved : (visit.machine.step table visit.around).machine.Carries footing [] _ []
        (.loop (loop.reached iteration true)) := ⟨hstack, rfl⟩
    obtain ⟨-, -, -, rfl⟩ := hafter.unique hmoved
    refine ⟨iteration, true, rfl, h.bounded, ?_, fun _ => ⟨hlater, hdelay, hallows⟩⟩
    have hturns := h.turns
    rw [if_neg Bool.false_ne_true, List.append_nil] at hturns
    exact List.rel_append hturns (.cons (.rests hcarries hstep) .nil)
  | @iterates random hunbroken hallows hrested hmet =>
    cases honward
    have hmoved : (visit.machine.step table visit.around).machine.Carries footing [] _
        [.block ⟨loop.body, .loopBody, false⟩] (.loop (loop.reached (iteration + 1) false)) :=
      ⟨hstack, rfl⟩
    obtain ⟨-, -, -, rfl⟩ := hafter.unique hmoved
    refine ⟨iteration + 1, false, rfl, LoopKind.allows_eq_true.1 hallows, ?_, nofun⟩
    have hpause : (if waited then [Turn.rests loop.delay] else []) =
        Turn.pause loop.delay iteration := by
      cases waited with
      | false => exact (if_neg fun ⟨hlater, hdelay⟩ => nomatch hrested hlater hdelay).symm
      | true => exact (if_pos ⟨(h.due rfl).1, (h.due rfl).2.1⟩).symm
    have hturns := h.turns
    rw [hpause] at hturns
    rw [if_neg Bool.false_ne_true, List.append_nil]
    exact List.rel_append hturns (.cons (.begins hcarries hallows hmet hstep) .nil)

/-- A frame is the loop, as far as its visits have brought it. -/
def Follows (table : ActionTable σ ρ) (footing : Footing) (loop : LoopFrame)
    (visits : List (Visit σ ρ)) (frame : Frame) : Prop :=
  ∃ iteration waited, frame = .loop (loop.reached iteration waited) ∧
    Progress table footing loop visits iteration waited

/-- A loop follows its schedule as long as it is there. -/
theorem Life.progress {first last : Machine} {visits : List (Visit σ ρ)} {holder : Activation}
    (hlife : Life table footing first visits last) (harises : first.Arises table)
    (hshown : first.Carries footing [] holder [] (.loop loop)) (hiteration : loop.iteration = 0)
    (hwaited : loop.waited = false) :
    ∃ upper same inner iteration waited,
      last.Carries footing upper same inner (.loop (loop.reached iteration waited)) ∧
      Progress table footing loop visits iteration waited := by
  have hsame : loop.reached 0 false = loop := by
    unfold LoopFrame.reached
    rw [← hiteration, ← hwaited]
  have hstart : Progress table footing loop [] 0 false :=
    ⟨fun _ _ => Nat.zero_le _, .nil, nofun⟩
  have hfollows : ∃ upper same inner frame, last.Carries footing upper same inner frame ∧
      same.script = holder.script ∧ Follows table footing loop visits frame :=
    hlife.invariant harises hshown rfl ⟨0, false, by rw [hsame], hstart⟩
      fun visits machine around holder frame upper same inner next hcarries hscript hpunctual
        hafter hprogress => by
          obtain ⟨iteration, waited, rfl, hprogress⟩ := hprogress
          exact hprogress.visit hcarries hpunctual hafter
  obtain ⟨upper, same, inner, frame, hcarries, -, iteration, waited, rfl, hprogress⟩ := hfollows
  exact ⟨upper, same, inner, iteration, waited, hcarries, hprogress⟩

/-- A loop comes up in a step: it is put on the stack, or split off as a machine of its own. -/
inductive Begins (table : ActionTable σ ρ) (earlier : Machine) (around : Surroundings σ ρ)
    (footing : Footing) (loop : LoopFrame) : Machine → Prop
  /-- It is put on the stack. -/
  | pushed (hnew : ¬ earlier.Bears footing)
      (hshown : (earlier.step table around).machine.Shows footing (.loop loop)) :
      Begins table earlier around footing loop (earlier.step table around).machine
  /-- It is split off. -/
  | split {child : Machine} (hfork : (earlier.step table around).outcome = .ok (.fork child))
      (hshown : child.Shows footing (.loop loop)) : Begins table earlier around footing loop child

/-- A machine is in front of the node of a loop, and sets the loop up as the node declares. -/
structure SetsUp (machine : Machine) (around : Surroundings σ ρ) (loop : LoopFrame)
    (holder : Activation) (index : Nat) (op : Op) (action : String) : Prop where
  /-- The activation is the innermost one. -/
  stack : machine.stack.head? = some holder
  /-- The node comes next in it. -/
  facing : ∃ chain outer, holder.Facing chain outer index op
  /-- It is the node of a loop. -/
  category : op.category = .loop
  /-- It has that action. -/
  performs : op.action = some action
  /-- The loop is what its parameters come to. -/
  setup : ∃ fork last, Stage.newLoop around.ledger.settings index op action
    ⟨holder.context, around.host, around.random⟩ = (.ok (loop, fork), last)
  /-- It is the loop that the node declares. -/
  declared : loop.Declared σ ρ around.ledger.settings index op action holder.context

omit [Host σ] in
/-- An activation that sets a loop up is one of a machine that does. -/
theorem exists_setsUp {machine : Machine} {around : Surroundings σ ρ} {top : Activation}
    {callers : List Activation} (hstack : machine.stack = top :: callers)
    (h : Stage.SetsUp ⟨top, around⟩ loop) :
    ∃ holder index op action, machine.SetsUp around loop holder index op action := by
  obtain ⟨chain, outer, index, op, action, fork, last, hfacing, hcategory, haction, hloop⟩ := h
  exact ⟨top, index, op, action, by rw [hstack]; rfl, ⟨chain, outer, hfacing⟩, hcategory, haction,
    ⟨fork, last, hloop⟩, Stage.declared_newLoop hloop⟩

/-- A loop that is split off was set up by a node. -/
theorem setsUp_of_fork {earlier child : Machine} {around : Surroundings σ ρ}
    (hformed : earlier.Formed table.SparesRequests)
    (hfork : (earlier.step table around).outcome = .ok (.fork child))
    (hshown : child.Shows footing (.loop loop)) :
    ∃ holder index op action, earlier.SetsUp around loop holder index op action := by
  cases hstack : earlier.stack with
  | nil =>
    rw [step_of_empty hstack] at hfork
    cases hfork
  | cons top callers =>
    obtain ⟨stage, hadvance, hframes⟩ := (hformed.proceeds hstack table around).of_fork hfork
    obtain ⟨activation, cycle, rfl, hsets⟩ :=
      (Stage.works_of_advance hadvance hframes).advances.of_fork
    obtain ⟨holder, hcarries⟩ := hshown
    obtain ⟨rfl, -⟩ := List.cons.inj hcarries.stack
    cases (List.cons.inj hcarries.frames).1
    exact exists_setsUp hstack hsets

/-- A loop that is put on the stack was set up by a node. -/
theorem setsUp_of_pushed {earlier : Machine} {around : Surroundings σ ρ}
    (hformed : earlier.Formed table.SparesRequests) (hnew : ¬ earlier.Bears footing)
    (hshown : (earlier.step table around).machine.Shows footing (.loop loop)) :
    ∃ holder index op action, earlier.SetsUp around loop holder index op action := by
  obtain ⟨holder, hcarries⟩ := hshown
  have hafter : (earlier.step table around).machine.stack = holder :: footing.callers :=
    hcarries.stack
  have hframes : holder.frames = .loop loop :: footing.outer := hcarries.frames
  cases hstack : earlier.stack with
  | nil =>
    rw [step_of_empty hstack] at hcarries
    exact absurd hstack hcarries.stack_ne
  | cons top callers =>
    cases hformed.proceeds hstack table around with
    | @works effect stage answer hne hadvance hworks =>
      obtain ⟨rfl, rfl⟩ := List.cons.inj (hworks.symm.trans hafter)
      have hadvances := (Stage.works_of_advance hadvance hne).advances
      rw [hframes] at hadvances
      obtain ⟨inner, cycle, hbefore⟩ | hsets := hadvances.loop_cases
      · exact absurd ⟨[], top, inner, .loop cycle, hstack, hbefore⟩ hnew
      · exact exists_setsUp hstack hsets
    | calls hne hadvance hcalls hcallee =>
      obtain ⟨rfl, -⟩ := List.cons.inj (hcalls.symm.trans hafter)
      obtain ⟨context, call, hstart⟩ := hcallee
      rw [hstart] at hframes
      cases (List.cons.inj hframes).1
    | returns hne hcall hcallers hhanded hreturns =>
      obtain ⟨rfl, rfl⟩ := List.cons.inj (hreturns.symm.trans hafter)
      rw [hhanded.same.1] at hframes
      exact absurd ⟨[top], _, [], _, by rw [hstack, hcallers]; rfl, hframes⟩ hnew
    | ends hends => exact absurd hends hcarries.stack_ne

/-- A loop that comes up was set up by a node. -/
theorem Begins.setsUp {earlier first : Machine} {around : Surroundings σ ρ}
    (h : Begins table earlier around footing loop first)
    (hformed : earlier.Formed table.SparesRequests) :
    ∃ holder index op action, earlier.SetsUp around loop holder index op action := by
  cases h with
  | pushed hnew hshown => exact setsUp_of_pushed hformed hnew hshown
  | split hfork hshown => exact setsUp_of_fork hformed hfork hshown

/-- A step leaves a loop, and nothing else: all frames and activations below the loop stay, and
the variables do. -/
def Leaves (table : ActionTable σ ρ) (footing : Footing) (holder : Activation)
    (machine : Machine) (around : Surroundings σ ρ) : Prop :=
  ∃ after, machine.step table around = ⟨.ok .normal, { machine with
    stack := holder.settle footing.outer :: footing.callers }, after⟩

/-- All that can be the end of a loop of which some iterations have begun. -/
inductive Departs (table : ActionTable σ ρ) (footing : Footing) (loop : LoopFrame)
    (iteration : Nat) (machine : Machine) (around : Surroundings σ ρ) : Prop
  /-- The machine ends. -/
  | ends (hstack : (machine.step table around).machine.stack = [])
  /-- A return gives all frames of the activation up. -/
  | returns {holder : Activation} {chain : Block} {rest : List Frame} {index : Nat} {op : Op}
      (hstack : machine.stack = holder :: footing.callers)
      (hfacing : holder.Facing chain rest index op) (hcategory : op.category = .control)
      (haction : op.action = some "return")
  /-- The loop was asked to end. -/
  | breaks {holder : Activation} {waited : Bool}
      (shown : machine.Carries footing [] holder [] (.loop (loop.reached iteration waited)))
      (hbreak : holder.context.flags.breakRequested = true)
      (hleaves : Leaves table footing holder machine around)
  /-- The loop has had as many iterations as it may have. -/
  | exhausts {holder : Activation}
      (shown : machine.Carries footing [] holder [] (.loop (loop.reached iteration false)))
      (hunbroken : holder.context.flags.breakRequested = false)
      (hbound : loop.kind.bound? = some iteration)
      (hleaves : Leaves table footing holder machine around)
  /-- The condition of a `while` loop does not yield true before its next iteration. -/
  | declines {holder : Activation} {waited : Bool} {limit : Nat}
      (shown : machine.Carries footing [] holder [] (.loop (loop.reached iteration waited)))
      (hunbroken : holder.context.flags.breakRequested = false)
      (hkind : loop.kind = .whileTrue limit) (hlimit : iteration < limit)
      (hunmet : ∀ after, ¬ holder.KeepsOn loop around.random after)
      (hleaves : Leaves table footing holder machine around)

omit [Host σ] in
/-- Only a `while` loop has a condition. -/
theorem exists_limit_of_unmet {holder : Activation} {source : ρ}
    (h : ∀ after, ¬ holder.KeepsOn loop source after) : ∃ limit, loop.kind = .whileTrue limit := by
  unfold Activation.KeepsOn at h
  split at h
  · exact ⟨_, ‹_›⟩
  · exact absurd rfl (h source)

/-- A loop that is gone after a step came to one of these ends. -/
theorem Progress.departs {visits : List (Visit σ ρ)} {iteration : Nat} {waited : Bool}
    {last : Machine} {upper : List Activation} {holder : Activation} {inner : List Frame}
    (h : Progress table footing loop visits iteration waited)
    (hcarries : last.Carries footing upper holder inner (.loop (loop.reached iteration waited)))
    (hformed : last.Formed table.SparesRequests) {around : Surroundings σ ρ}
    (hgone : ¬ (last.step table around).machine.Bears footing) :
    Departs table footing loop iteration last around := by
  by_cases hcovered : upper ≠ [] ∨ inner ≠ []
  · cases hcarries.above hcovered hformed around with
    | stays others hscript hstays => exact absurd ⟨_, _, _, _, hstays⟩ hgone
    | returns hown hfacing hcategory haction hstack hframes =>
      subst hown
      exact .returns hcarries.stack hfacing hcategory haction
    | exits hown hblock hstack hframes => cases hblock
    | ends hstack => exact .ends hstack
  · rw [not_or, not_not, not_not] at hcovered
    obtain ⟨rfl, rfl⟩ := hcovered
    by_cases hstack : (last.step table around).machine.stack = []
    · exact .ends hstack
    · obtain ⟨effect, stage, answer, hturn, honward, hstep⟩ :=
        hcarries.turn (punctual_of_stack_ne hstack) table
      have hafter : (last.step table around).machine.stack =
          stage.activation :: footing.callers := by rw [hstep]
      cases hturn with
      | breaks hbreak =>
        cases honward
        exact .breaks hcarries hbreak ⟨_, hstep⟩
      | exhausts hunbroken hover =>
        cases honward
        obtain rfl : waited = false := by
          by_contra hrested
          have hallows := (h.due (eq_true_of_ne_false hrested)).2.2
          exact Bool.false_ne_true (hover.symm.trans hallows)
        exact .exhausts hcarries hunbroken (LoopKind.bound_of_exhausted hover h.bounded)
          ⟨_, hstep⟩
      | declines hunbroken hallows hrested hunmet =>
        cases honward
        obtain ⟨limit, hkind⟩ := exists_limit_of_unmet hunmet
        have hlimit : iteration < limit := by
          refine LoopKind.allows_eq_true.1 hallows limit ?_
          exact congrArg LoopKind.bound? hkind
        exact .declines hcarries hunbroken hkind hlimit hunmet ⟨_, hstep⟩
      | rests => exact absurd ⟨[], _, [], _, hafter, rfl⟩ hgone
      | iterates => exact absurd ⟨[], _, [_], _, hafter, rfl⟩ hgone

end Machine

/-- Marking a block changes nothing but the block. -/
theorem Activation.context_armElse (activation : Activation) :
    activation.armElse.context = activation.context := by
  unfold armElse
  split <;> rfl

namespace Stage

variable {σ ρ : Type} [Host σ] [RandomSource ρ] {table : ActionTable σ ρ}

/-- A `break` or `continue` is a request to the innermost loop. -/
theorem exec_of_exit (stage : Stage σ ρ) (index : Nat) {op : Op} (armed : Bool) {isBreak : Bool}
    (hcategory : op.category = .control)
    (haction : op.action = some (if isBreak then "break" else "continue")) :
    stage.exec table index op armed = stage.exitLoop isBreak := by
  unfold exec execAction isPlainElse
  rw [hcategory, haction]
  cases isBreak <;> rfl

omit [Host σ] [RandomSource ρ] in
/-- What spares requests leaves them open or not, as they were. -/
theorem flags_run {α : Type} {act : Act σ ρ α} (h : act.SparesRequests) (stage : Stage σ ρ) :
    (stage.run act).2.activation.context.flags = stage.activation.context.flags :=
  h _

/-- Deciding a condition spares requests. -/
theorem flags_verdict (hspared : table.SparesRequests) (stage : Stage σ ρ) (op : Op) :
    (stage.verdict table op).2.activation.context.flags = stage.activation.context.flags := by
  unfold verdict
  split
  · rfl
  · split
    · rfl
    · rename_i action haction
      have hdecision : (decision table op action).SparesRequests :=
        (hspared.condition action op).bind fun _ =>
          ((Act.keeps_flag op _).sparesRequests).bind fun _ => (Act.keeps_pure _).sparesRequests
      have hrun := flags_run hdecision stage
      unfold decide
      split <;> rename_i heq <;> rw [heq] at hrun <;> exact hrun

/-- Only a `break` asks for the end of a loop. -/
theorem Executes.breakRequested {stage : Stage σ ρ} {index : Nat} {op : Op} {armed : Bool}
    {result : Effect × Stage σ ρ} (h : Executes table stage index op armed result)
    (hspared : table.SparesRequests) :
    result.2.activation.context.flags.breakRequested =
        stage.activation.context.flags.breakRequested ∨
      op.category = .control ∧ op.action = some "break" := by
  have hverdict := flags_verdict hspared stage op
  cases h with
  | idles => exact .inl rfl
  | declines hbranches hdecided =>
    rw [hdecided] at hverdict
    refine .inl (congrArg LoopFlags.breakRequested (Eq.trans ?_ hverdict))
    exact congrArg Context.flags (Activation.context_armElse _)
  | enters hbranches hdecided =>
    rw [hdecided] at hverdict
    exact .inl (congrArg LoopFlags.breakRequested hverdict)
  | @loops action hcategory haction =>
    have hrun := flags_run
      (keeps_newLoop stage.around.ledger.settings index op action).sparesRequests stage
    refine .inl (congrArg LoopFlags.breakRequested ?_)
    unfold enterLoop
    split <;> rename_i heq <;> rw [heq] at hrun <;> exact hrun
  | calls hcategory =>
    have hrun := flags_run (keeps_callRequest op).sparesRequests stage
    refine .inl (congrArg LoopFlags.breakRequested ?_)
    unfold requestCall
    split <;> rename_i heq <;> rw [heq] at hrun <;> exact hrun
  | exits isBreak hcategory haction =>
    cases isBreak with
    | true => exact .inr ⟨hcategory, haction⟩
    | false =>
      refine .inl ?_
      unfold exitLoop
      split <;> rfl
  | returns hcategory haction =>
    have hrun := flags_run (Act.keeps_arg? op "value").sparesRequests stage
    refine .inl (congrArg LoopFlags.breakRequested ?_)
    unfold leaveActivation
    generalize stage.run (Act.arg? op "value") = answer at hrun ⊢
    obtain ⟨result, after⟩ := answer
    match result with
    | .error fault => exact hrun
    | .ok none => exact hrun
    | .ok (some value) => exact hrun
  | performs action =>
    have hrun := flags_run (hspared.action action op) stage
    refine .inl (congrArg LoopFlags.breakRequested ?_)
    unfold perform
    split <;> rename_i heq <;> rw [heq] at hrun <;> exact hrun

/-- A step after which a loop is the innermost frame and is asked to end is one of a `break`
inside of it. -/
theorem breaks_of_advance (hspared : table.SparesRequests) {stage after : Stage σ ρ}
    {effect : Effect} (hheard : stage.activation.Heard) (hne : stage.activation.frames ≠ [])
    (h : stage.advance table = (effect, after)) {cycle : LoopFrame} {outer : List Frame}
    (hframes : after.activation.frames = .loop cycle :: outer)
    (hbreak : after.activation.context.flags.breakRequested = true) :
    ∃ chain rest index op, stage.activation.Facing chain rest index op ∧
      Frame.fromLoop rest = .loop cycle :: outer ∧ op.category = .control ∧
      op.action = some "break" := by
  have hquiet {flags : LoopFlags} (hnone : flags = .none)
      (hsame : after.activation.context.flags.breakRequested = flags.breakRequested) : False := by
    rw [hsame, hnone] at hbreak
    cases hbreak
  cases works_of_advance h hne with
  | turns hturning hturns => exact (hquiet hturns.flags rfl).elim
  | leaves hblock => exact (hquiet (hheard.none_of_block hblock) rfl).elim
  | strays hblock hnext hnode => exact (hquiet (hheard.none_of_block hblock) rfl).elim
  | @executes chain rest index op _ hfacing hexec =>
    have hexecutes := executes_exec table (stage.mapActivation
      ({ · with frames := .block ⟨op.next, chain.kind, false⟩ :: rest })) index op chain.elseArmed
    obtain hsame | ⟨hcategory, haction⟩ := hexecutes.breakRequested hspared
    · rw [hexec] at hsame
      exact (hquiet (hheard.none_of_block hfacing.frames) hsame).elim
    · refine ⟨chain, rest, index, op, hfacing, ?_, hcategory, haction⟩
      have hasked : op.action = some (if true then "break" else "continue") := haction
      have hexit : exitLoop _ true = (effect, after) :=
        (exec_of_exit _ index _ hcategory hasked).symm.trans hexec
      have hmoved : Frame.fromLoop (.block ⟨op.next, chain.kind, false⟩ :: rest) =
          Frame.fromLoop rest := rfl
      unfold exitLoop at hexit
      obtain hnone | ⟨other, below, hloop⟩ := Frame.fromLoop_cases rest
      · simp only [mapActivation, hmoved, hnone] at hexit
        obtain rfl := (Prod.mk.inj hexit).2
        exact (hquiet (hheard.none_of_block hfacing.frames) rfl).elim
      · simp only [mapActivation, hmoved, hloop] at hexit
        obtain rfl := (Prod.mk.inj hexit).2
        exact hloop.trans hframes

end Stage

namespace Machine

variable {σ ρ : Type} [Host σ] [RandomSource ρ] {table : ActionTable σ ρ} {footing : Footing}
  {loop : LoopFrame}

/-- A machine is in front of a `break` or `continue` for a loop, which is the innermost one of
its activation. -/
def Asks (machine : Machine) (footing : Footing) (holder : Activation) (cycle : LoopFrame)
    (isBreak : Bool) : Prop :=
  ∃ chain rest index op, machine.stack = holder :: footing.callers ∧
    holder.Facing chain rest index op ∧ Frame.fromLoop rest = .loop cycle :: footing.outer ∧
    op.category = .control ∧ op.action = some (if isBreak then "break" else "continue")

/-- A request gives up everything inside of the loop, and is open from then on. -/
theorem Asks.step_eq {machine : Machine} {holder : Activation} {cycle : LoopFrame} {isBreak : Bool}
    (h : machine.Asks footing holder cycle isBreak) (hformed : machine.Formed table.SparesRequests)
    (hspared : table.SparesRequests) {around : Surroundings σ ρ}
    (hpunctual : machine.lateCall? around.now = none) :
    machine.step table around = ⟨.ok .normal, { machine with
      stack := { holder with
        frames := .loop cycle :: footing.outer
        context := { holder.context with flags := ⟨isBreak, !isBreak⟩ } } :: footing.callers },
      around⟩ := by
  obtain ⟨chain, rest, index, op, hstack, hfacing, hloop, hcategory, haction⟩ := h
  have hflags : holder.context.flags = .none :=
    ((hformed holder footing.callers hstack).heard hspared).none_of_block hfacing.frames
  have hne : holder.frames ≠ [] := by
    rw [hfacing.frames]
    exact List.cons_ne_nil _ _
  have hadvance : Stage.advance table ⟨holder, around⟩ = _ :=
    (Stage.advance_of_facing hfacing).trans (Stage.exec_of_exit _ index _ hcategory haction)
  have hmoved : Frame.fromLoop (.block ⟨op.next, chain.kind, false⟩ :: rest) =
      .loop cycle :: footing.outer := hloop
  unfold Stage.exitLoop at hadvance
  simp only [Stage.mapActivation, hmoved, hflags] at hadvance
  rw [step_of_onward hstack hne hpunctual hadvance rfl]
  cases isBreak <;> rfl

/-- No request is open in an activation that waits for a call. -/
theorem Waiting.flags {spared : Prop} {caller : Activation} {outer : List Activation}
    (h : Waiting spared (caller :: outer)) (hspared : spared) : caller.context.flags = .none := by
  cases h with
  | outermost hformed hflags => exact hflags hspared
  | inner hformed hflags hcall h => exact hflags hspared

/-- A loop is asked to end only by a `break` for it. -/
theorem asked_of_step {machine : Machine} (hformed : machine.Formed table.SparesRequests)
    (hspared : table.SparesRequests) {around : Surroundings σ ρ} {top : Activation}
    {cycle : LoopFrame} (hafter : (machine.step table around).machine.Carries footing [] top []
      (.loop cycle)) (hbreak : top.context.flags.breakRequested = true) :
    ∃ holder, machine.Asks footing holder cycle true := by
  have hstack : (machine.step table around).machine.stack = top :: footing.callers := hafter.stack
  have hframes : top.frames = .loop cycle :: footing.outer := hafter.frames
  cases hbefore : machine.stack with
  | nil =>
    rw [step_of_empty hbefore] at hstack
    exact absurd (hstack.symm.trans hbefore) (List.cons_ne_nil _ _)
  | cons holder callers =>
    have hheads := hformed holder callers hbefore
    cases hformed.proceeds hbefore table around with
    | @works effect stage answer hne hadvance hworks =>
      obtain ⟨rfl, rfl⟩ := List.cons.inj (hworks.symm.trans hstack)
      obtain ⟨chain, rest, index, op, hfacing, hloop, hcategory, haction⟩ :=
        Stage.breaks_of_advance hspared (hheads.heard hspared) hne hadvance hframes hbreak
      exact ⟨holder, chain, rest, index, op, hbefore, hfacing, hloop, hcategory, haction⟩
    | calls hne hadvance hcalls hcallee =>
      obtain ⟨rfl, -⟩ := List.cons.inj (hcalls.symm.trans hstack)
      obtain ⟨context, call, hstart⟩ := hcallee
      rw [hstart] at hframes
      cases (List.cons.inj hframes).1
    | returns hne hcall hcallers hhanded hreturns =>
      obtain ⟨rfl, rfl⟩ := List.cons.inj (hreturns.symm.trans hstack)
      have hwaiting := hheads.callers
      rw [hcallers] at hwaiting
      rw [hhanded.same.2.2, hwaiting.flags hspared] at hbreak
      cases hbreak
    | ends hends => exact absurd hends hafter.stack_ne

/-- A loop is the innermost frame when it comes up. -/
theorem Begins.shows {earlier first : Machine} {around : Surroundings σ ρ}
    (h : Begins table earlier around footing loop first) : first.Shows footing (.loop loop) := by
  cases h with
  | pushed hnew hshown => exact hshown
  | split hfork hshown => exact hshown

/-- The machine in which a loop comes up comes up. -/
theorem Begins.arises {earlier first : Machine} {around : Surroundings σ ρ}
    (h : Begins table earlier around footing loop first) (harises : earlier.Arises table)
    (hlinked : around.ledger.registry.Linked) : first.Arises table := by
  cases h with
  | pushed hnew hshown => exact harises.step around hlinked
  | split hfork hshown => exact harises.fork around hlinked hfork

/-- A loop that was asked to end is left by its next turn. -/
theorem Carries.leaves {machine : Machine} {holder : Activation} {cycle : LoopFrame}
    (h : machine.Carries footing [] holder [] (.loop cycle)) {around : Surroundings σ ρ}
    (hbreak : holder.context.flags.breakRequested = true)
    (hpunctual : machine.lateCall? around.now = none) :
    Leaves table footing holder machine around := by
  obtain ⟨effect, stage, answer, hturn, honward, hstep⟩ := h.turn hpunctual table
  have hasked (hunbroken : holder.context.flags.breakRequested = false) : False :=
    Bool.false_ne_true (hunbroken.symm.trans hbreak)
  cases hturn with
  | breaks =>
    cases honward
    exact ⟨_, hstep⟩
  | exhausts hunbroken => exact (hasked hunbroken).elim
  | rests hunbroken => exact (hasked hunbroken).elim
  | declines hunbroken => exact (hasked hunbroken).elim
  | iterates hunbroken => exact (hasked hunbroken).elim

/-- No loop is asked to end before it was there. -/
theorem Begins.unbroken {earlier first : Machine} {around : Surroundings σ ρ}
    (h : Begins table earlier around footing loop first)
    (hformed : earlier.Formed table.SparesRequests) (hspared : table.SparesRequests)
    {holder : Activation} (hshown : first.Carries footing [] holder [] (.loop loop)) :
    holder.context.flags.breakRequested = false := by
  cases h with
  | pushed hnew hpushed =>
    by_contra hbreak
    obtain ⟨before, chain, rest, index, op, hstack, hfacing, hloop, -⟩ :=
      asked_of_step hformed hspared hshown (eq_true_of_ne_false hbreak)
    obtain ⟨inner, hinner⟩ := Frame.exists_append_fromLoop rest
    rw [hloop] at hinner
    have hframes := hfacing.frames
    rw [hinner] at hframes
    exact hnew ⟨[], before, .block chain :: inner, _, hstack, hframes⟩
  | split hfork hsplit =>
    obtain ⟨activation, cycle, rfl⟩ := hformed.forked_of_fork hfork
    obtain ⟨rfl, -⟩ := List.cons.inj hshown.stack
    rfl

/-- A loop that was asked to end was asked by the step before. -/
theorem Life.asked {first last : Machine} {visits : List (Visit σ ρ)}
    (hlife : Life table footing first visits last) (harises : first.Arises table)
    {start : Activation} (hstart : first.Carries footing [] start [] (.loop loop))
    (hiteration : loop.iteration = 0) (hwaited : loop.waited = false)
    (hunbroken : start.context.flags.breakRequested = false) (hspared : table.SparesRequests)
    {holder : Activation} {cycle : LoopFrame}
    (hshown : last.Carries footing [] holder [] (.loop cycle))
    (hbreak : holder.context.flags.breakRequested = true) :
    ∃ before another later, Life table footing first visits before ∧
      before.Asks footing another cycle true ∧ last = (before.step table later).machine := by
  cases hlife with
  | start =>
    obtain ⟨-, rfl, -, -⟩ := hstart.unique hshown
    rw [hunbroken] at hbreak
    cases hbreak
  | @own visits machine frame past shown later linked kept =>
    obtain ⟨another, chain, rest, index, op, hstack, hfacing, -⟩ :=
      asked_of_step (past.arises harises).formed hspared hshown hbreak
    obtain ⟨upper, same, inner, iteration, waited, hcarries, -⟩ :=
      past.progress harises hstart hiteration hwaited
    obtain ⟨own, hown⟩ := shown
    obtain ⟨rfl, rfl, rfl, rfl⟩ := hcarries.unique hown
    obtain ⟨rfl, -⟩ := List.cons.inj (hstack.symm.trans hown.stack)
    cases (List.cons.inj (hfacing.frames.symm.trans hown.frames)).1
  | @above visits machine past hidden later linked kept =>
    obtain ⟨another, hasks⟩ :=
      asked_of_step (past.arises harises).formed hspared hshown hbreak
    exact ⟨_, another, later, past, hasks, rfl⟩

/-- Loops iterate as declared. A loop that comes up was set up by its node, from the values that
the parameters of the node have then. From that on, and for as long as it is there, its turns
are those of its schedule: the iterations begin one after the other, each with the variable of
the loop set for it and with the condition of the loop met, and there is exactly one wait before
each of them but the first if there is a delay. When the loop is gone, then because the machine
ended or a return left the activation, because the loop was asked to end, because it has had
exactly the number of iterations that it may have, or because its condition was not met before
the next one. A `break` or `continue` inside of the loop gives up what is above the loop and
nothing else; after a `break` the next step leaves just the loop, and only a `break` inside of
it asks for that. -/
theorem loops_iterate_as_declared {earlier first : Machine} (harises : earlier.Arises table)
    {around : Surroundings σ ρ} (hlinked : around.ledger.registry.Linked) {footing : Footing}
    {loop : LoopFrame} (hbegins : Begins table earlier around footing loop first) :
    (∃ holder index op action, earlier.SetsUp around loop holder index op action) ∧
    ∀ visits last, Life table footing first visits last → ∃ iteration waited,
      Progress table footing loop visits iteration waited ∧
      (∃ upper holder inner,
        last.Carries footing upper holder inner (.loop (loop.reached iteration waited))) ∧
      (∀ later : Surroundings σ ρ, ¬ (last.step table later).machine.Bears footing →
        Departs table footing loop iteration last later) ∧
      (∀ holder (later : Surroundings σ ρ),
        last.Carries footing [] holder [] (.loop (loop.reached iteration waited)) →
        holder.context.flags.breakRequested = true → last.lateCall? later.now = none →
        Leaves table footing holder last later) ∧
      (table.SparesRequests →
        (∀ holder isBreak (later : Surroundings σ ρ),
          last.Asks footing holder (loop.reached iteration waited) isBreak →
          last.lateCall? later.now = none →
          last.step table later = ⟨.ok .normal, { last with
            stack := { holder with
              frames := .loop (loop.reached iteration waited) :: footing.outer
              context := { holder.context with flags := ⟨isBreak, !isBreak⟩ } } ::
                footing.callers }, later⟩) ∧
        ∀ holder, last.Carries footing [] holder [] (.loop (loop.reached iteration waited)) →
          holder.context.flags.breakRequested = true →
          ∃ before another later, Life table footing first visits before ∧
            before.Asks footing another (loop.reached iteration waited) true ∧
            last = (before.step table later).machine) := by
  obtain ⟨holder, index, op, action, hsetup⟩ := hbegins.setsUp harises.formed
  refine ⟨⟨holder, index, op, action, hsetup⟩, fun visits last hlife => ?_⟩
  have hfirst : first.Arises table := hbegins.arises harises hlinked
  obtain ⟨start, hstart⟩ := hbegins.shows
  have hiteration := hsetup.declared.iteration
  have hwaited := hsetup.declared.waited
  obtain ⟨upper, same, inner, iteration, waited, hcarries, hprogress⟩ :=
    hlife.progress hfirst hstart hiteration hwaited
  have hformed := (hlife.arises hfirst).formed
  refine ⟨iteration, waited, hprogress, ⟨upper, same, inner, hcarries⟩,
    fun later hgone => hprogress.departs hcarries hformed hgone,
    fun own later hshown hbreak hpunctual => hshown.leaves hbreak hpunctual, fun hspared => ?_⟩
  exact ⟨fun own isBreak later hasks hpunctual => hasks.step_eq hformed hspared hpunctual,
    fun own hshown hbreak => hlife.asked hfirst hstart hiteration hwaited
      (hbegins.unbroken harises.formed hspared hstart) hspared hshown hbreak⟩

/-- A loop with a machine of its own that sets a variable twice, with a wait in between. -/
def settingTwice : Option Node :=
  let two : Number := ⟨0x4000000000000000, by decide, by decide⟩
  let one : Number := ⟨0x3ff0000000000000, by decide, by decide⟩
  let params := ((ArrivalMap.empty.insert "times" (Value.number two)).insert "delay"
    (.number one)).insert "counter" (.text "round")
  some (.mk ⟨1, "repeat", .loop, some "repeat", params.insert "async" (.bool true), .plain, none⟩
    [.mk ⟨2, "set", .assignment, some "set",
      (ArrivalMap.empty.insert "name" (.text "seen")).insert "value" (.bool true), .plain, none⟩ []
      none] none)

/-- The program with that loop. -/
def settingProgram : Machine :=
  ofScript (.ofBody "start" default settingTwice) (.start default default .empty)

/-- The machine of that loop after a number of steps. -/
def settingMachine : Nat → Machine
  | 0 =>
    match (settingProgram.step .standard quietSurroundings).outcome with
    | .ok (.fork child) => child
    | _ => settingProgram
  | steps + 1 => ((settingMachine steps).step .standard quietSurroundings).machine

/-- The loop comes up in the first step of the program, with a delay and two iterations. -/
theorem begins_settingMachine : ∃ loop, Begins .standard settingProgram quietSurroundings ⟨[], []⟩
    loop (settingMachine 0) ∧ loop.delay = 1 ∧ loop.kind.bound? = some 2 := by
  have hfork : (settingProgram.step .standard quietSurroundings).outcome =
      .ok (.fork (settingMachine 0)) := by
    have hsplit : (match (settingProgram.step .standard quietSurroundings).outcome with
      | .ok (.fork _) => true
      | _ => false) = true := by decide +kernel
    unfold settingMachine
    split at hsplit
    · rename_i child hchild
      rw [hchild]
    · cases hsplit
  have hformed : settingProgram.Formed
      (ActionTable.standard : ActionTable MinimalHost ReplaySource).SparesRequests :=
    (Arises.program "start" default settingTwice rfl).formed
  obtain ⟨activation, loop, hchild⟩ := hformed.forked_of_fork hfork
  have hfacts : (settingMachine 0).stack.map (·.frames.map fun
      | .loop cycle => (cycle.delay, cycle.kind.bound?)
      | .block _ => (0, none)) = [[(1, some 2)]] := by decide +kernel
  rw [hchild] at hfork hfacts ⊢
  simp only [Stage.forked, List.map_cons, List.map_nil, List.cons.injEq, Prod.mk.injEq, and_true]
    at hfacts
  exact ⟨loop, .split hfork ⟨_, rfl, rfl⟩, hfacts.1, hfacts.2⟩

/-- The life of the loop over seven steps, three of them turns of it. -/
theorem life_settingMachine : ∃ visits : List (Visit MinimalHost ReplaySource),
    visits.length = 3 ∧ Life .standard ⟨[], []⟩ (settingMachine 0) visits (settingMachine 7) := by
  have hlinked : quietSurroundings.ledger.registry.Linked := fun entry hm => by cases hm
  have hdepths : (List.range 8).map (fun steps =>
      (settingMachine steps).stack.map (·.frames.length)) =
        [[1], [2], [2], [1], [1], [2], [2], [1]] := by decide +kernel
  simp only [List.range, List.range.loop, List.map_cons, List.map_nil, List.cons.injEq, and_true]
    at hdepths
  obtain ⟨hzero, hone, htwo, hthree, hfour, hfive, hsix, hseven⟩ := hdepths
  obtain ⟨_, hfirst⟩ := shows_of_single hzero
  obtain ⟨_, hrests⟩ := shows_of_single hthree
  obtain ⟨_, hsecond⟩ := shows_of_single hfour
  have hbegun : Life .standard ⟨[], []⟩ (settingMachine 0) _ (settingMachine 1) :=
    .own .start hfirst quietSurroundings hlinked (bears_of_single hone)
  have hset : Life .standard ⟨[], []⟩ (settingMachine 0) _ (settingMachine 2) :=
    .above hbegun (not_shows_of_several hone) quietSurroundings hlinked (bears_of_single htwo)
  have hended : Life .standard ⟨[], []⟩ (settingMachine 0) _ (settingMachine 3) :=
    .above hset (not_shows_of_several htwo) quietSurroundings hlinked (bears_of_single hthree)
  have hwaited : Life .standard ⟨[], []⟩ (settingMachine 0) _ (settingMachine 4) :=
    .own hended hrests quietSurroundings hlinked (bears_of_single hfour)
  have hagain : Life .standard ⟨[], []⟩ (settingMachine 0) _ (settingMachine 5) :=
    .own hwaited hsecond quietSurroundings hlinked (bears_of_single hfive)
  have hreset : Life .standard ⟨[], []⟩ (settingMachine 0) _ (settingMachine 6) :=
    .above hagain (not_shows_of_several hfive) quietSurroundings hlinked (bears_of_single hsix)
  have hover : Life .standard ⟨[], []⟩ (settingMachine 0) _ (settingMachine 7) :=
    .above hreset (not_shows_of_several hsix) quietSurroundings hlinked (bears_of_single hseven)
  exact ⟨_, rfl, hover⟩

/-- Both iterations have begun after its three turns, and the next step leaves it. -/
theorem loops_iterate_as_declared_setting : ∃ loop visits,
    Begins (.standard : ActionTable MinimalHost ReplaySource) settingProgram quietSurroundings
      ⟨[], []⟩ loop (settingMachine 0) ∧
    loop.delay = 1 ∧ loop.kind.bound? = some 2 ∧ visits.length = 3 ∧
    Progress (.standard : ActionTable MinimalHost ReplaySource) ⟨[], []⟩ loop visits 2 false ∧
    Departs (.standard : ActionTable MinimalHost ReplaySource) ⟨[], []⟩ loop 2 (settingMachine 7)
      quietSurroundings ∧
    (settingMachine 8).stack.map (fun activation =>
      ["seen", "round"].map activation.context.locals.contains) = [[true, true]] := by
  obtain ⟨loop, hbegins, hdelay, hbound⟩ := begins_settingMachine
  obtain ⟨visits, hvisits, hlife⟩ := life_settingMachine
  have hlinked : quietSurroundings.ledger.registry.Linked := fun entry hm => by cases hm
  obtain ⟨-, hfollows⟩ := loops_iterate_as_declared
    (.program "start" default settingTwice rfl) hlinked hbegins
  obtain ⟨iteration, waited, hprogress, -, hdeparts, -⟩ := hfollows visits _ hlife
  have hreached : iteration = 2 ∧ waited = false := by
    have hle := hprogress.bounded 2 hbound
    have hlength := hprogress.turns.length_eq
    rw [hvisits, hdelay] at hlength
    obtain rfl | rfl | rfl : iteration = 0 ∨ iteration = 1 ∨ iteration = 2 := by omega
    all_goals cases waited <;> simp [Turn.schedule, Turn.pause] at hlength ⊢
  obtain ⟨rfl, rfl⟩ := hreached
  have hgone : ¬ (settingMachine 8).Bears ⟨[], []⟩ := by
    have hdepth : (settingMachine 8).stack.map (·.frames.length) = [0] := by decide +kernel
    obtain ⟨holder, hstack, hcount⟩ := List.map_eq_singleton_iff.1 hdepth
    exact not_bears_of_short hstack (by simp [hcount])
  exact ⟨loop, visits, hbegins, hdelay, hbound, hvisits, hprogress,
    hdeparts quietSurroundings hgone, by decide +kernel⟩

end Machine

end GridScript
