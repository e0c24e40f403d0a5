import GridScript.Proofs.Enclosure

/-!
# The first branch that matches

A condition and the alternatives right behind it are a group. They are decided one by one,
in their order, up to the first one that yields true: its children are entered, and all the
others behind it are passed without being looked at. The decision is kept in the block
that the group stands in: a node that decides against its children marks the block, and the
very next node of the block takes the mark away. Whatever runs inside of the branch that was
entered leaves the block alone.
-/

namespace GridScript

/-- Whether a condition or an alternative yields true. An alternative without a condition of its
own does. Otherwise the condition and the parameter `negate` are evaluated, neither fails, and
they differ. -/
def Op.Yields {σ ρ : Type} [Host σ] [RandomSource ρ] (table : ActionTable σ ρ) (op : Op)
    (scene : Scene σ ρ) : Prop :=
  Stage.isPlainElse op = true ∨
    Stage.isPlainElse op = false ∧ ∃ action holds negate seen last, op.action = some action ∧
      table.condition action op scene = (.ok holds, seen) ∧
      Act.flag op "negate" seen = (.ok negate, last) ∧ holds ≠ negate

namespace Stage

variable {σ ρ : Type} [Host σ] [RandomSource ρ] {table : ActionTable σ ρ}

/-- What a decision sees. -/
def scene (stage : Stage σ ρ) : Scene σ ρ :=
  ⟨stage.activation.context, stage.around.host, stage.around.random⟩

/-- A decision is for the children if the condition and the parameter `negate` differ. -/
theorem decision_eq_true {op : Op} {action : String} {scene : Scene σ ρ} :
    (decision table op action scene).1 = .ok true ↔
      ∃ holds negate seen last, table.condition action op scene = (.ok holds, seen) ∧
        Act.flag op "negate" seen = (.ok negate, last) ∧ holds ≠ negate := by
  constructor
  · intro h
    obtain ⟨holds, seen, hholds, hrest⟩ := Act.bind_eq_ok (Prod.ext h rfl)
    obtain ⟨negate, last, hnegate, hlast⟩ := Act.bind_eq_ok hrest
    refine ⟨holds, negate, seen, last, hholds, hnegate, ?_⟩
    have hdiffer : (holds != negate) = true := by
      have hanswer := congrArg Prod.fst hlast
      exact Except.ok.inj hanswer
    simpa using hdiffer
  · rintro ⟨holds, negate, seen, last, hholds, hnegate, hdiffer⟩
    unfold decision
    rw [Act.bind_apply, hholds]
    dsimp only
    rw [Act.bind_apply, hnegate]
    have htrue : (holds != negate) = true := by simpa using hdiffer
    exact congrArg Except.ok htrue

/-- The verdict is true exactly if the node yields true; a failure counts as false. -/
theorem verdict_eq_true {stage : Stage σ ρ} {op : Op} :
    (stage.verdict table op).1 = true ↔ op.Yields table stage.scene := by
  unfold verdict Op.Yields
  split
  · rename_i hplain
    simp [hplain]
  · rename_i hplain
    have hplain : isPlainElse op = false := Bool.eq_false_iff.2 hplain
    cases haction : op.action with
    | none => simp [hplain]
    | some action =>
      have hdecide : (stage.decide table op action).1 = true ↔
          (decision table op action stage.scene).1 = .ok true := by
        have hrun : (stage.run (decision table op action)).1 =
            (decision table op action stage.scene).1 := rfl
        rw [← hrun]
        unfold decide
        split <;> rename_i heq <;> rw [heq] <;> simp
      rw [hdecide, decision_eq_true]
      simp [hplain]

end Stage

/-- A machine in front of a node, in a block with that footing. -/
structure Visit.InFront {σ ρ : Type} (visit : Visit σ ρ) (footing : Footing) (holder : Activation)
    (chain : Block) (index : Nat) (op : Op) : Prop where
  /-- The activation with the block is the innermost one. -/
  stack : visit.machine.stack = holder :: footing.callers
  /-- The node comes next in it. -/
  facing : holder.Facing chain footing.outer index op

/-- What can become of a node that is a condition or an alternative. -/
inductive Treatment where
  /-- It is decided, and its children are not entered. -/
  | declined
  /-- It is decided, and its children are entered. -/
  | entered
  /-- It is not even decided. -/
  | passed
  deriving DecidableEq

/-- What becomes of the nodes of a group, if the one at a place is the first that matches. -/
def Treatment.ofPlace (chosen place : Nat) : Treatment :=
  if place < chosen then .declined else if place = chosen then .entered else .passed

/-- The activation in front of a node and what surrounds it, with the block moved on. -/
def Visit.stage {σ ρ : Type} (visit : Visit σ ρ) (footing : Footing) (holder : Activation)
    (chain : Block) (op : Op) : Stage σ ρ :=
  ⟨{ holder with frames := .block ⟨op.next, chain.kind, false⟩ :: footing.outer }, visit.around⟩

/-- A step of a machine in front of a node treats it like that. -/
inductive Visit.Treats {σ ρ : Type} [Host σ] [RandomSource ρ] (table : ActionTable σ ρ)
    (footing : Footing) (op : Op) (visit : Visit σ ρ) : Treatment → Prop
  /-- The node does not yield true. Nothing but its verdict is made, and the node behind it may
  run if it is an alternative. -/
  | declined {holder : Activation} {chain : Block} {index : Nat} {decided : Stage σ ρ}
      (infront : visit.InFront footing holder chain index op)
      (unmet : ¬ op.Yields table (visit.stage footing holder chain op).scene)
      (verdict : (visit.stage footing holder chain op).verdict table op = (false, decided))
      (step : visit.machine.step table visit.around = ⟨.ok .normal, { visit.machine with
        stack := { decided.activation with
          frames := .block ⟨op.next, chain.kind, true⟩ :: footing.outer } :: footing.callers },
        decided.around⟩) : Treats table footing op visit .declined
  /-- The node yields true. Nothing but its verdict is made, and its children are entered. -/
  | entered {holder : Activation} {chain : Block} {index : Nat} {decided : Stage σ ρ}
      (infront : visit.InFront footing holder chain index op)
      (met : op.Yields table (visit.stage footing holder chain op).scene)
      (verdict : (visit.stage footing holder chain op).verdict table op = (true, decided))
      (step : visit.machine.step table visit.around = ⟨.ok .normal, { visit.machine with
        stack := { decided.activation with
          frames := .block ⟨op.body, .branch, false⟩ :: .block ⟨op.next, chain.kind, false⟩ ::
            footing.outer } :: footing.callers },
        decided.around⟩) : Treats table footing op visit .entered
  /-- The block moves on past the node, and that is all, whatever actions and conditions there
  are. -/
  | passed {holder : Activation} {chain : Block} {index : Nat}
      (infront : visit.InFront footing holder chain index op)
      (step : ∀ handlers : ActionTable σ ρ, visit.machine.step handlers visit.around =
        ⟨.ok .normal, { visit.machine with
          stack := { holder with
            frames := .block ⟨op.next, chain.kind, false⟩ :: footing.outer } :: footing.callers },
          visit.around⟩) : Treats table footing op visit .passed

namespace Visit

variable {σ ρ : Type} [Host σ] [RandomSource ρ] {table : ActionTable σ ρ} {visit : Visit σ ρ}
  {footing : Footing} {holder : Activation} {chain : Block} {index : Nat} {op : Op}

/-- A step of a machine in front of a node after which it goes on. -/
theorem InFront.step_eq (h : visit.InFront footing holder chain index op)
    (hpunctual : visit.machine.lateCall? visit.around.now = none) {after : Stage σ ρ}
    (hexec : (visit.stage footing holder chain op).exec table index op chain.elseArmed =
      (.normal, after)) :
    visit.machine.step table visit.around = ⟨.ok .normal, { visit.machine with
      stack := after.activation :: footing.callers }, after.around⟩ := by
  have hframes : holder.frames ≠ [] := by
    rw [h.facing.frames]
    exact List.cons_ne_nil _ _
  have hadvance : Stage.advance table ⟨holder, visit.around⟩ = (.normal, after) :=
    (Stage.advance_of_facing h.facing).trans hexec
  exact Machine.step_of_onward h.stack hframes hpunctual hadvance rfl

/-- A node that decides is declined or entered, and its block has moved on. -/
theorem InFront.branches (h : visit.InFront footing holder chain index op)
    (hpunctual : visit.machine.lateCall? visit.around.now = none)
    (hbranches : op.Branches chain.elseArmed) :
    (visit.Treats table footing op .declined ∧
      ∃ after, (visit.machine.step table visit.around).machine.Carries footing [] after []
        (.block ⟨op.next, chain.kind, true⟩)) ∨
    (visit.Treats table footing op .entered ∧
      ∃ after, (visit.machine.step table visit.around).machine.Carries footing [] after
        [.block ⟨op.body, .branch, false⟩] (.block ⟨op.next, chain.kind, false⟩)) := by
  have hexec : (visit.stage footing holder chain op).exec table index op chain.elseArmed = _ :=
    Stage.exec_of_branches hbranches
  have hyields : ((visit.stage footing holder chain op).verdict table op).1 = true ↔
      op.Yields table (visit.stage footing holder chain op).scene := Stage.verdict_eq_true
  have hframes := Stage.frames_verdict table (visit.stage footing holder chain op) op
  rcases hverdict : (visit.stage footing holder chain op).verdict table op with ⟨holds, decided⟩
  rw [hverdict] at hexec hyields hframes
  cases holds with
  | false =>
    have harmed : decided.activation.armElse = { decided.activation with
        frames := .block ⟨op.next, chain.kind, true⟩ :: footing.outer } := by
      unfold Activation.armElse
      rw [hframes]
      rfl
    have hstep := h.step_eq hpunctual hexec
    simp only [Stage.mapActivation, harmed] at hstep
    refine .inl ⟨.declined h (fun hmet => Bool.noConfusion (hyields.2 hmet)) hverdict hstep, ?_⟩
    rw [hstep]
    exact ⟨_, rfl, rfl⟩
  | true =>
    have hentered : decided.activation.enter op.body .branch = { decided.activation with
        frames := .block ⟨op.body, .branch, false⟩ :: .block ⟨op.next, chain.kind, false⟩ ::
          footing.outer } := by
      unfold Activation.enter
      rw [hframes]
      rfl
    have hstep := h.step_eq hpunctual hexec
    simp only [Stage.mapActivation, hentered] at hstep
    refine .inr ⟨.entered h (hyields.1 rfl) hverdict hstep, ?_⟩
    rw [hstep]
    exact ⟨_, rfl, rfl⟩

/-- An alternative that may not run is passed, and its block has moved on. -/
theorem InFront.passes (h : visit.InFront footing holder chain index op)
    (hpunctual : visit.machine.lateCall? visit.around.now = none)
    (hcategory : op.category = .alternative) (hdisarmed : chain.elseArmed = false) :
    visit.Treats table footing op .passed ∧
      ∃ after, (visit.machine.step table visit.around).machine.Carries footing [] after []
        (.block ⟨op.next, chain.kind, false⟩) := by
  have hstep (handlers : ActionTable σ ρ) : visit.machine.step handlers visit.around = _ :=
    h.step_eq hpunctual (by
      rw [hdisarmed]
      exact Stage.exec_of_disarmed handlers _ index hcategory)
  refine ⟨.passed h hstep, ?_⟩
  rw [hstep table]
  exact ⟨_, rfl, rfl⟩

end Visit

/-- Nodes that follow one another from a place in a script on. -/
inductive Script.Sequence (script : Script) : Option Nat → List Op → Prop
  /-- No nodes. -/
  | nil (place : Option Nat) : Sequence script place []
  /-- A node, and nodes behind it. -/
  | cons {index : Nat} {op : Op} {rest : List Op} (node : script.op? index = some op)
      (h : Sequence script op.next rest) : Sequence script (some index) (op :: rest)

/-- A condition with an action and the alternatives right behind it, from a place in a script
on. -/
structure Script.Group (script : Script) (index : Nat) (first : Op) (others : List Op) :
    Prop where
  /-- They follow one another. -/
  sequence : script.Sequence (some index) (first :: others)
  /-- The first one is a condition. -/
  condition : first.category = .condition
  /-- It has an action. -/
  action : first.action.isSome
  /-- The others are alternatives. -/
  alternatives : ∀ op ∈ others, op.category = .alternative

namespace Script

variable {script : Script} {index : Nat} {first op : Op} {others : List Op}

/-- Where nodes are left of a sequence, the first of them comes next, and the others behind
it. -/
theorem Sequence.due {place : Option Nat} {ops : List Op} {passed : Nat}
    (h : script.Sequence place (ops.drop passed)) (hlt : passed < ops.length) :
    ∃ index op, place = some index ∧ script.op? index = some op ∧ ops[passed]? = some op ∧
      script.Sequence op.next (ops.drop (passed + 1)) := by
  rw [List.drop_eq_getElem_cons hlt] at h
  cases h with
  | cons node rest => exact ⟨_, _, rfl, node, List.getElem?_eq_getElem hlt, rest⟩

/-- The nodes of a group behind the first one are alternatives. -/
theorem Group.alternative (h : script.Group index first others) {place : Nat}
    (hpositive : 0 < place) (hop : (first :: others)[place]? = some op) :
    op.category = .alternative := by
  obtain ⟨before, rfl⟩ := Nat.exists_eq_add_of_lt hpositive
  rw [Nat.zero_add, List.getElem?_cons_succ] at hop
  exact h.alternatives op (List.mem_of_getElem? hop)

/-- The nodes of a group decide if they may run; the first one always does. -/
theorem Group.branches (h : script.Group index first others) {place : Nat} {armed : Bool}
    (harmed : 0 < place → armed = true) (hop : (first :: others)[place]? = some op) :
    op.Branches armed := by
  obtain rfl | hpositive := Nat.eq_zero_or_pos place
  · cases hop
    exact .inl ⟨h.condition, h.action⟩
  · exact .inr ⟨h.alternative hpositive hop, harmed hpositive⟩

end Script

namespace Machine

variable {σ ρ : Type} [Host σ] [RandomSource ρ] {table : ActionTable σ ρ} {footing : Footing}

/-- Visits to the block of a group, as far as they are to nodes of the group, treat these in
their order. -/
def Treated (table : ActionTable σ ρ) (footing : Footing) (members : List Op)
    (visits : List (Visit σ ρ)) (chosen : Nat) : Prop :=
  ∀ (place : Nat) (visit : Visit σ ρ) (member : Op), visits[place]? = some visit →
    members[place]? = some member → visit.Treats table footing member (.ofPlace chosen place)

/-- One more visit. -/
theorem Treated.concat {members : List Op} {visits : List (Visit σ ρ)} {chosen later : Nat}
    {visit : Visit σ ρ} (h : Treated table footing members visits chosen)
    (hsame : ∀ place < visits.length,
      Treatment.ofPlace later place = Treatment.ofPlace chosen place)
    (hvisit : ∀ member, members[visits.length]? = some member →
      visit.Treats table footing member (.ofPlace later visits.length)) :
    Treated table footing members (visits ++ [visit]) later := by
  intro place other member hother hmember
  obtain hlt | heq | hgt := Nat.lt_trichotomy place visits.length
  · rw [List.getElem?_append_left hlt] at hother
    rw [hsame place hlt]
    exact h place other member hother hmember
  · subst heq
    rw [List.getElem?_concat_length] at hother
    cases hother
    exact hvisit member hmember
  · rw [List.getElem?_eq_none (by simp; omega)] at hother
    cases hother

/-- Where a group has got to after some visits: the node that is due, and whether it may still
be chosen. -/
structure Reaches (script : Script) (members : List Op) (visited chosen : Nat) (chain : Block) :
    Prop where
  /-- The nodes that are left are ahead. -/
  ahead : script.Sequence chain.next (members.drop visited)
  /-- As long as none was chosen, the next one may be. -/
  armed : chosen = visited → 0 < visited → chain.elseArmed = true
  /-- Once one was chosen, no other one may be. -/
  disarmed : chosen < visited → chain.elseArmed = false

variable {script : Script} {index : Nat} {first : Op} {others : List Op}

/-- A visit to the block of a group whose nodes are not all behind it treats the node that is
due, and the group goes on from there. -/
theorem Reaches.visit {visited chosen : Nat} {chain : Block} {holder : Activation}
    (h : Reaches script (first :: others) visited chosen chain) (table : ActionTable σ ρ)
    (visit : Visit σ ρ) (hgroup : script.Group index first others) (hle : chosen ≤ visited)
    (hlt : visited < (first :: others).length)
    (hcarries : visit.machine.Carries footing [] holder [] (.block chain))
    (hscript : holder.script = script)
    (hpunctual : visit.machine.lateCall? visit.around.now = none) :
    ∃ member later next after inner, (first :: others)[visited]? = some member ∧
      later ≤ visited + 1 ∧
      (∀ place < visited, Treatment.ofPlace later place = Treatment.ofPlace chosen place) ∧
      visit.Treats table footing member (.ofPlace later visited) ∧
      (visit.machine.step table visit.around).machine.Carries footing [] after inner
        (.block next) ∧
      Reaches script (first :: others) (visited + 1) later next := by
  obtain ⟨place, member, hplace, hnode, hmember, hrest⟩ := h.ahead.due hlt
  have hinfront : visit.InFront footing holder chain place member :=
    ⟨hcarries.stack, hcarries.frames, hplace, hscript ▸ hnode⟩
  refine ⟨member, ?_⟩
  obtain rfl | hchosen := Nat.eq_or_lt_of_le hle
  · obtain ⟨htreats, after, hafter⟩ | ⟨htreats, after, hafter⟩ :=
      hinfront.branches hpunctual (hgroup.branches (h.armed rfl) hmember)
    · refine ⟨chosen + 1, _, after, [], hmember, Nat.le_refl _, fun place hbefore => ?_, ?_,
        hafter, hrest, fun _ _ => rfl, fun hless => absurd hless (Nat.lt_irrefl _)⟩
      · rw [Treatment.ofPlace, Treatment.ofPlace, if_pos hbefore, if_pos (by omega)]
      · rw [Treatment.ofPlace, if_pos (Nat.lt_succ_self _)]
        exact htreats
    · refine ⟨chosen, _, after, _, hmember, by omega, fun _ _ => rfl, ?_, hafter, hrest,
        fun heq => absurd heq (by omega), fun _ => rfl⟩
      rw [Treatment.ofPlace, if_neg (Nat.lt_irrefl _), if_pos rfl]
      exact htreats
  · obtain ⟨htreats, after, hafter⟩ := hinfront.passes hpunctual
      (hgroup.alternative (by omega) hmember) (h.disarmed hchosen)
    refine ⟨chosen, _, after, [], hmember, by omega, fun _ _ => rfl, ?_, hafter, hrest,
      fun heq => absurd heq (by omega), fun _ => rfl⟩
    rw [Treatment.ofPlace, if_neg (by omega), if_neg (by omega)]
    exact htreats

/-- What has become of a group after some visits to its block: its nodes were treated in their
order, and if some are left, the group is where the visits have left it. -/
def Decided (table : ActionTable σ ρ) (footing : Footing) (script : Script) (members : List Op)
    (visits : List (Visit σ ρ)) (frame : Frame) : Prop :=
  ∃ chosen ≤ visits.length, Treated table footing members visits chosen ∧
    (visits.length < members.length → ∃ chain, frame = .block chain ∧
      Reaches script members visits.length chosen chain)

/-- A group is decided further with every visit to its block. -/
theorem Decided.visit {visits : List (Visit σ ρ)} {visit : Visit σ ρ} {frame next : Frame}
    {holder same : Activation} {upper : List Activation} {inner : List Frame}
    (h : Decided table footing script (first :: others) visits frame)
    (hgroup : script.Group index first others)
    (hcarries : visit.machine.Carries footing [] holder [] frame) (hscript : holder.script = script)
    (hpunctual : visit.machine.lateCall? visit.around.now = none)
    (hafter : (visit.machine.step table visit.around).machine.Carries footing upper same inner
      next) :
    Decided table footing script (first :: others) (visits ++ [visit]) next := by
  obtain ⟨chosen, hle, htreated, hreaches⟩ := h
  unfold Decided
  rw [List.length_append, List.length_singleton]
  by_cases hlt : visits.length < (first :: others).length
  · obtain ⟨chain, rfl, hhere⟩ := hreaches hlt
    obtain ⟨member, later, moved, after, between, hmember, hlater, hsame, htreats, hmoved,
      hreached⟩ := hhere.visit table visit hgroup hle hlt hcarries hscript hpunctual
    obtain ⟨-, -, -, rfl⟩ := hafter.unique hmoved
    refine ⟨later, hlater, htreated.concat hsame fun other hother => ?_, fun _ =>
      ⟨moved, rfl, hreached⟩⟩
    obtain rfl := Option.some.inj (hmember.symm.trans hother)
    exact htreats
  · refine ⟨chosen, by omega, htreated.concat (fun _ _ => rfl) fun other hother => ?_, by omega⟩
    rw [List.getElem?_eq_none (by omega)] at hother
    cases hother

/-- A group is decided all along the life of its block. -/
theorem Life.decided {machine last : Machine} {visits : List (Visit σ ρ)} {holder : Activation}
    {chain : Block} (hlife : Life table footing machine visits last)
    (harises : machine.Arises table)
    (hcarries : machine.Carries footing [] holder [] (.block chain))
    (hnext : chain.next = some index) (hgroup : holder.script.Group index first others) :
    ∃ upper same inner frame, last.Carries footing upper same inner frame ∧
      same.script = holder.script ∧
      Decided table footing holder.script (first :: others) visits frame := by
  have hstart : Decided table footing holder.script (first :: others) [] (.block chain) := by
    refine ⟨0, Nat.le_refl _, fun place visit member hvisit => ?_, fun _ => ⟨chain, rfl, ?_⟩⟩
    · cases hvisit
    · exact ⟨hnext ▸ hgroup.sequence, fun _ hless => absurd hless (Nat.lt_irrefl _),
        fun hless => absurd hless (Nat.lt_irrefl _)⟩
  exact hlife.invariant harises hcarries rfl hstart
    fun visits machine around holder frame upper same inner next hshown hscript hpunctual hafter
      hdecided => Decided.visit hdecided hgroup hshown hscript hpunctual hafter

end Machine

/-- A frame that does not let an alternative run. -/
def Frame.Calm : Frame → Prop
  | .block chain => chain.elseArmed = false
  | .loop _ => True

/-- The mark is put on the innermost frame. -/
theorem Activation.tail_armElse (activation : Activation) :
    activation.armElse.frames.tail = activation.frames.tail := by
  unfold armElse
  split
  · rename_i chain outer hframes
    rw [hframes]
    rfl
  · rfl

namespace Stage

variable {σ ρ : Type} [RandomSource ρ]

/-- Only a node that decides marks a block, and only the innermost one. -/
theorem Reframes.calm {stage : Stage σ ρ} {index : Nat} {op : Op} {armed : Bool} {effect : Effect}
    {frames : List Frame} (h : Reframes stage index op armed effect frames)
    (hcalm : ∀ frame ∈ stage.activation.frames, frame.Calm) :
    (∀ frame ∈ frames, frame.Calm) ∨
      (∀ frame ∈ frames.tail, frame.Calm) ∧ effect = .normal ∧ op.Branches armed := by
  cases h with
  | stays heffect => exact .inl hcalm
  | marks hbranches =>
    refine .inr ⟨fun frame hm => hcalm frame ?_, rfl, hbranches⟩
    rw [stage.activation.tail_armElse] at hm
    exact List.mem_of_mem_tail hm
  | branches hbranches => exact .inl (List.forall_mem_cons.2 ⟨rfl, hcalm⟩)
  | enters hcategory haction hloop => exact .inl (List.forall_mem_cons.2 ⟨trivial, hcalm⟩)
  | splits hcategory haction hloop => exact .inl hcalm
  | exits isBreak hcategory haction hloop =>
    rw [← hloop]
    exact .inl fun frame hm => hcalm frame (Frame.mem_of_fromLoop hm)
  | returns hcategory haction => exact .inl (List.forall_mem_nil _)

variable [Host σ] {table : ActionTable σ ρ}

/-- Where all frames but the innermost one let no alternative run, none does after a step,
unless the step was one of a node that decides. -/
theorem calm_advance {stage after : Stage σ ρ} {effect : Effect}
    (h : stage.advance table = (effect, after)) (hne : stage.activation.frames ≠ [])
    (hcalm : ∀ frame ∈ stage.activation.frames.tail, frame.Calm) :
    (∀ frame ∈ after.activation.frames, frame.Calm) ∨
      (∀ frame ∈ after.activation.frames.tail, frame.Calm) ∧ effect = .normal ∧
        ∃ chain outer index op, stage.activation.Facing chain outer index op ∧
          op.Branches chain.elseArmed := by
  have hadvances : Advances stage effect after.activation.frames :=
    (works_of_advance h hne).advances
  generalize after.activation.frames = frames at hadvances ⊢
  have houter {frame : Frame} {outer : List Frame}
      (hframes : stage.activation.frames = frame :: outer) : ∀ frame ∈ outer, frame.Calm := by
    rwa [hframes] at hcalm
  cases hadvances with
  | leaves hframes => exact .inl (houter hframes)
  | waits hframes => exact .inl (List.forall_mem_cons.2 ⟨trivial, houter hframes⟩)
  | iterates hframes =>
    exact .inl (List.forall_mem_cons.2 ⟨rfl, List.forall_mem_cons.2 ⟨trivial, houter hframes⟩⟩)
  | strays hframes => exact .inl (List.forall_mem_cons.2 ⟨rfl, houter hframes⟩)
  | executes hfacing hreframes =>
    refine (hreframes.calm (List.forall_mem_cons.2 ⟨rfl, houter hfacing.frames⟩)).imp_right ?_
    exact fun ⟨htail, hnormal, hbranches⟩ => ⟨htail, hnormal, _, _, _, _, hfacing, hbranches⟩

end Stage

namespace Machine

variable {σ ρ : Type} [Host σ] [RandomSource ρ] {table : ActionTable σ ρ}

/-- A machine in which only the innermost block may let an alternative run. -/
def Calm (machine : Machine) : Prop :=
  ∀ top callers, machine.stack = top :: callers → (∀ frame ∈ top.frames.tail, frame.Calm) ∧
    ∀ caller ∈ callers, ∀ frame ∈ caller.frames, frame.Calm

/-- Where only the innermost block may let an alternative run before a step, only that may
after it. -/
theorem Proceeds.calm {around : Surroundings σ ρ} {top : Activation}
    {callers : List Activation} {stepped : Stepped σ ρ}
    (h : Proceeds table around top callers stepped)
    (htop : ∀ frame ∈ top.frames.tail, frame.Calm)
    (hcallers : ∀ caller ∈ callers, ∀ frame ∈ caller.frames, frame.Calm) :
    stepped.machine.Calm := by
  intro other outer hother
  cases h with
  | @works effect stage answer hframes hadvance hstack =>
    obtain ⟨rfl, rfl⟩ := List.cons.inj (hstack.symm.trans hother)
    refine ⟨?_, hcallers⟩
    obtain hall | ⟨htail, -⟩ := Stage.calm_advance hadvance hframes htop
    · exact fun frame hm => hall frame (List.mem_of_mem_tail hm)
    · exact htail
  | @calls request stage callee hframes hadvance hstack hcallee =>
    obtain ⟨rfl, rfl⟩ := List.cons.inj (hstack.symm.trans hother)
    obtain ⟨context, call, hstart⟩ := hcallee
    refine ⟨?_, List.forall_mem_cons.2 ⟨?_, hcallers⟩⟩
    · rw [hstart]
      exact List.forall_mem_nil _
    · obtain hall | ⟨-, hnormal, -⟩ := Stage.calm_advance hadvance hframes htop
      · exact hall
      · cases hnormal
  | @returns pending caller after below hframes hcall hbelow hhanded hstack =>
    obtain ⟨rfl, rfl⟩ := List.cons.inj (hstack.symm.trans hother)
    rw [hbelow, List.forall_mem_cons] at hcallers
    refine ⟨fun frame hm => hcallers.1 frame ?_, hcallers.2⟩
    rw [← hhanded.same.1]
    exact List.mem_of_mem_tail hm
  | ends hstack =>
    rw [hstack] at hother
    cases hother

/-- In every machine that comes up, only the innermost block may let an alternative run. -/
theorem Arises.calm {machine : Machine} (h : machine.Arises table) : machine.Calm := by
  induction h with
  | program name origin body hflags =>
    rintro top callers hstack
    cases hstack
    exact ⟨List.forall_mem_nil _, List.forall_mem_nil _⟩
  | call hlinked hflags =>
    rintro top callers hstack
    cases hstack
    exact ⟨List.forall_mem_nil _, List.forall_mem_nil _⟩
  | @step machine h around hl ih =>
    cases hstack : machine.stack with
    | nil =>
      rw [step_of_empty hstack]
      exact ih
    | cons top callers =>
      obtain ⟨htop, hcallers⟩ := ih top callers hstack
      exact (h.formed.proceeds hstack table around).calm htop hcallers
  | @fork machine child h around hl hfork ih =>
    obtain ⟨activation, cycle, rfl⟩ := h.formed.forked_of_fork hfork
    rintro top callers hstack
    cases hstack
    exact ⟨List.forall_mem_nil _, List.forall_mem_nil _⟩
  | ended h ih =>
    rintro top callers hstack
    cases hstack

/-- A block that lets an alternative run has just been marked, by a node right before what comes
next in it that decided against its children. -/
theorem declined_of_armed {machine : Machine} (harises : machine.Arises table)
    {around : Surroundings σ ρ} {top : Activation} {footing : Footing} {chain : Block}
    (hstack : (machine.step table around).machine.stack = top :: footing.callers)
    (hframes : top.frames = .block chain :: footing.outer) (harmed : chain.elseArmed = true) :
    ∃ holder before index op, Visit.InFront (⟨machine, around⟩ : Visit σ ρ) footing holder before
        index op ∧ op.Branches before.elseArmed ∧ op.next = chain.next ∧
      Visit.Treats table footing op ⟨machine, around⟩ .declined := by
  have hmarked : ¬ ∀ frame ∈ top.frames, frame.Calm := by
    intro hcalm
    rw [hframes] at hcalm
    exact Bool.false_ne_true ((hcalm _ (.head _)).symm.trans harmed)
  have hafter : (machine.step table around).machine.Carries footing [] top [] (.block chain) :=
    ⟨hstack, hframes⟩
  have hpunctual := punctual_of_stack_ne hafter.stack_ne
  cases hbefore : machine.stack with
  | nil =>
    rw [step_of_empty hbefore, hbefore] at hstack
    cases hstack
  | cons holder callers =>
    obtain ⟨htail, hcallers⟩ := harises.calm holder callers hbefore
    cases harises.formed.proceeds hbefore table around with
    | @works effect stage answer hholder hadvance hworks =>
      obtain ⟨rfl, rfl⟩ := List.cons.inj (hworks.symm.trans hstack)
      obtain hcalm | ⟨-, -, before, outer, index, op, hfacing, hbranches⟩ :=
        Stage.calm_advance hadvance hholder htail
      · exact absurd hcalm hmarked
      have hinfront : Visit.InFront (⟨machine, around⟩ : Visit σ ρ) ⟨outer, footing.callers⟩
          holder before index op := ⟨hbefore, hfacing⟩
      obtain ⟨htreats, after, hmoved⟩ | ⟨-, after, hmoved⟩ :=
        hinfront.branches hpunctual hbranches
      · obtain rfl := (List.cons.inj (hmoved.stack.symm.trans hstack)).1
        obtain ⟨hchain, rfl⟩ := List.cons.inj (hmoved.frames.symm.trans hframes)
        cases hchain
        exact ⟨holder, before, index, op, hinfront, hbranches, rfl, htreats⟩
      · obtain rfl := (List.cons.inj (hmoved.stack.symm.trans hstack)).1
        obtain ⟨hchain, -⟩ := List.cons.inj (hmoved.frames.symm.trans hframes)
        cases hchain
        cases harmed
    | calls hholder hadvance hcalls hcallee =>
      obtain ⟨rfl, -⟩ := List.cons.inj (hcalls.symm.trans hstack)
      obtain ⟨context, call, hstart⟩ := hcallee
      refine absurd ?_ hmarked
      rw [hstart]
      exact List.forall_mem_singleton.2 rfl
    | returns hholder hcall hbelow hhanded hreturns =>
      obtain ⟨rfl, -⟩ := List.cons.inj (hreturns.symm.trans hstack)
      rw [hbelow, List.forall_mem_cons] at hcallers
      refine absurd ?_ hmarked
      rw [hhanded.same.1]
      exact hcallers.1
    | ends hends => exact absurd hends hafter.stack_ne

/-- Nodes that decided one after the other, all of them against their children, beginning with a
condition and up to the machine there is now. -/
inductive Unmatched (table : ActionTable σ ρ) (footing : Footing) : List Op → Machine → Prop
  /-- A condition was declined. -/
  | condition {machine : Machine} {around : Surroundings σ ρ} {op : Op}
      (arises : machine.Arises table) (category : op.category = .condition)
      (declined : Visit.Treats table footing op ⟨machine, around⟩ .declined) :
      Unmatched table footing [op] (machine.step table around).machine
  /-- An alternative behind nodes that were declined was declined, too. -/
  | alternative {machine : Machine} {around : Surroundings σ ρ} {ops : List Op} {op : Op}
      (before : Unmatched table footing ops machine) (category : op.category = .alternative)
      (declined : Visit.Treats table footing op ⟨machine, around⟩ .declined) :
      Unmatched table footing (ops ++ [op]) (machine.step table around).machine

/-- A block that lets an alternative run stands behind nodes that were all declined. -/
theorem Arises.unmatched {machine : Machine} (h : machine.Arises table) {top : Activation}
    {footing : Footing} {chain : Block} (hstack : machine.stack = top :: footing.callers)
    (hframes : top.frames = .block chain :: footing.outer) (harmed : chain.elseArmed = true) :
    ∃ ops op, Unmatched table footing (ops ++ [op]) machine ∧ op.next = chain.next := by
  induction h generalizing top chain with
  | program name origin body hflags =>
    obtain ⟨rfl, -⟩ := List.cons.inj hstack
    cases (List.cons.inj hframes).1
    cases harmed
  | call hlinked hflags =>
    obtain ⟨rfl, -⟩ := List.cons.inj hstack
    cases (List.cons.inj hframes).1
    cases harmed
  | @step machine h around hl ih =>
    obtain ⟨holder, before, index, op, hinfront, hbranches, hnext, hdeclined⟩ :=
      declined_of_armed h hstack hframes harmed
    obtain ⟨hcategory, -⟩ | ⟨hcategory, hmarked⟩ := hbranches
    · exact ⟨[], op, .condition h hcategory hdeclined, hnext⟩
    · obtain ⟨ops, last, hunmatched, -⟩ := ih hinfront.stack hinfront.facing.frames hmarked
      exact ⟨ops ++ [last], op, .alternative hunmatched hcategory hdeclined, hnext⟩
  | @fork machine child h around hl hfork ih =>
    obtain ⟨activation, cycle, rfl⟩ := h.formed.forked_of_fork hfork
    obtain ⟨rfl, -⟩ := List.cons.inj hstack
    cases (List.cons.inj hframes).1
  | ended h ih => cases hstack

/-- The first branch that matches runs, and no other one. Where a condition comes next in a block,
with any alternatives right behind it, then all along the life of that block the nodes of the
group are treated in their order: they are decided and declined up to the first that yields
true, the children of that one are entered, and all the others are passed without a decision.
Whenever the block is the innermost one and there are nodes left, a step without a late call
treats the next one. An alternative that comes next anywhere is passed without a decision,
unless the step right before was one of a node that leads to it and was declined, together with
everything before it down to a condition. -/
theorem first_match_runs {machine : Machine} (harises : machine.Arises table) {footing : Footing}
    {holder : Activation} {chain : Block} {index : Nat} {op : Op}
    (hstack : machine.stack = holder :: footing.callers)
    (hfacing : holder.Facing chain footing.outer index op) :
    (∀ others, holder.script.Group index op others → ∀ visits last,
      Life table footing machine visits last →
      (∃ chosen, Treated table footing (op :: others) visits chosen) ∧
      ∀ frame (around : Surroundings σ ρ), last.Shows footing frame →
        visits.length ≤ others.length → last.lateCall? around.now = none →
        (last.step table around).machine.Bears footing) ∧
    (op.category = .alternative →
      (chain.elseArmed = false → ∀ around : Surroundings σ ρ,
        machine.lateCall? around.now = none →
        Visit.Treats table footing op ⟨machine, around⟩ .passed) ∧
      (chain.elseArmed = true →
        (∃ ops last, Unmatched table footing (ops ++ [last]) machine ∧ last.next = some index) ∧
        ∀ (earlier : Machine) (around : Surroundings σ ρ), earlier.Arises table →
          (earlier.step table around).machine = machine →
          ∃ last, Visit.Treats table footing last ⟨earlier, around⟩ .declined ∧
            last.next = some index)) := by
  have hcarries : machine.Carries footing [] holder [] (.block chain) := ⟨hstack, hfacing.frames⟩
  refine ⟨fun others hgroup visits last hlife => ?_, fun hcategory => ⟨?_, ?_⟩⟩
  · obtain ⟨upper, same, inner, frame, hlast, hscript, chosen, hle, htreated, hreaches⟩ :=
      hlife.decided harises hcarries hfacing.next hgroup
    refine ⟨⟨chosen, htreated⟩, fun shown around hshown hleft hpunctual => ?_⟩
    obtain ⟨another, hanother⟩ := hshown
    obtain ⟨rfl, rfl, rfl, rfl⟩ := hlast.unique hanother
    obtain ⟨here, rfl, hhere⟩ := hreaches (Nat.lt_succ_of_le hleft)
    obtain ⟨_, _, next, after, between, -, -, -, -, hafter, -⟩ :=
      hhere.visit table ⟨last, around⟩ hgroup hle (Nat.lt_succ_of_le hleft) hlast hscript hpunctual
    exact ⟨[], after, between, .block next, hafter⟩
  · intro hdisarmed around hpunctual
    have hinfront : Visit.InFront (⟨machine, around⟩ : Visit σ ρ) footing holder chain index op :=
      ⟨hstack, hfacing⟩
    exact (hinfront.passes hpunctual hcategory hdisarmed).1
  · intro harmed
    rw [← hfacing.next]
    refine ⟨harises.unmatched hstack hfacing.frames harmed, fun earlier around hearlier hstep => ?_⟩
    subst hstep
    obtain ⟨_, _, _, last, -, -, hnext, hdeclined⟩ :=
      declined_of_armed hearlier hstack hfacing.frames harmed
    exact ⟨last, hdeclined, hnext⟩

/-- A condition with two alternatives behind it. Each of them sets a variable, and the second one
matches. -/
def choosingBody : Option Node :=
  let sets (id : NodeId) (name : String) : Node :=
    .mk ⟨id, "set", .assignment, some "set",
      (ArrivalMap.empty.insert "name" (.text name)).insert "value" (.bool true), .plain, none⟩ []
      none
  let marked := ArrivalMap.empty.insert "name" (Value.text "mark")
  some (.mk ⟨1, "condition", .condition, some "exists", marked, .plain, none⟩ [sets 2 "a"]
    (some (.mk ⟨3, "else", .alternative, some "exists", marked.insert "negate" (.bool true), .plain,
      none⟩ [sets 4 "b"]
      (some (.mk ⟨5, "else", .alternative, some "else", .empty, .plain, none⟩ [sets 6 "c"] none)))))

/-- The machine of that group after a number of steps. -/
def choosingMachine : Nat → Machine
  | 0 => ofScript (.ofBody "start" default choosingBody) (.start default default .empty)
  | steps + 1 => ((choosingMachine steps).step .standard quietSurroundings).machine

/-- The life of its block over five steps, three of them in the block itself. -/
theorem life_choosingMachine : ∃ visits : List (Visit MinimalHost ReplaySource),
    visits.length = 3 ∧
      Life .standard ⟨[], []⟩ (choosingMachine 0) visits (choosingMachine 5) := by
  have hlinked : quietSurroundings.ledger.registry.Linked := fun entry hm => by cases hm
  have hdepths : (List.range 6).map (fun steps =>
      (choosingMachine steps).stack.map (·.frames.length)) =
        [[1], [1], [2], [2], [1], [1]] := by decide +kernel
  simp only [List.range, List.range.loop, List.map_cons, List.map_nil, List.cons.injEq, and_true]
    at hdepths
  obtain ⟨hzero, hone, htwo, hthree, hfour, hfive⟩ := hdepths
  obtain ⟨_, hfirst⟩ := shows_of_single hzero
  obtain ⟨_, hsecond⟩ := shows_of_single hone
  obtain ⟨_, hthird⟩ := shows_of_single hfour
  have hdeclined : Life .standard ⟨[], []⟩ (choosingMachine 0) _ (choosingMachine 1) :=
    .own .start hfirst quietSurroundings hlinked (bears_of_single hone)
  have hentered : Life .standard ⟨[], []⟩ (choosingMachine 0) _ (choosingMachine 2) :=
    .own hdeclined hsecond quietSurroundings hlinked (bears_of_single htwo)
  have hset : Life .standard ⟨[], []⟩ (choosingMachine 0) _ (choosingMachine 3) :=
    .above hentered (not_shows_of_several htwo) quietSurroundings hlinked (bears_of_single hthree)
  have hleft : Life .standard ⟨[], []⟩ (choosingMachine 0) _ (choosingMachine 4) :=
    .above hset (not_shows_of_several hthree) quietSurroundings hlinked (bears_of_single hfour)
  have hpassed : Life .standard ⟨[], []⟩ (choosingMachine 0) _ (choosingMachine 5) :=
    .own hleft hthird quietSurroundings hlinked (bears_of_single hfive)
  exact ⟨_, rfl, hpassed⟩

/-- The condition is declined, the first alternative is entered, and the second one is passed
after the first has run. -/
theorem first_match_runs_choosing : ∃ holder chain op others visits chosen,
    (choosingMachine 0).stack = [holder] ∧ holder.Facing chain [] 0 op ∧
    holder.script.Group 0 op others ∧ others.length = 2 ∧ visits.length = 3 ∧
    Treated (.standard : ActionTable MinimalHost ReplaySource) ⟨[], []⟩ (op :: others) visits
      chosen ∧
    (choosingMachine 5).stack.map (fun activation =>
      ["a", "b", "c"].map activation.context.locals.contains) = [[false, true, false]] := by
  have hnodes : [0, 2, 4].map (fun index =>
      ((Script.ofBody "start" default choosingBody).op? index).map fun op =>
        (op.category, op.action.isSome, op.next)) =
    [some (.condition, true, some 2), some (.alternative, true, some 4),
      some (.alternative, true, none)] := by decide +kernel
  simp only [List.map_cons, List.map_nil, List.cons.injEq, and_true, Option.map_eq_some_iff,
    Prod.mk.injEq] at hnodes
  obtain ⟨⟨op, hop, hcondition, haction, hsecond⟩, ⟨second, hnode, hcategory, -, hthird⟩,
    third, hlast, hlastCategory, -⟩ := hnodes
  have hgroup : (Script.ofBody "start" default choosingBody).Group 0 op [second, third] := by
    refine ⟨.cons hop ?_, hcondition, haction, ?_⟩
    · rw [hsecond]
      refine .cons hnode ?_
      rw [hthird]
      exact .cons hlast (.nil _)
    · exact List.forall_mem_cons.2 ⟨hcategory, List.forall_mem_singleton.2 hlastCategory⟩
  have hfacing : (Activation.start (.ofBody "start" default choosingBody)
      (.start default default .empty) none).Facing ⟨some 0, .root, false⟩ [] 0 op := ⟨rfl, rfl, hop⟩
  have hstack : (choosingMachine 0).stack = _ :: (⟨[], []⟩ : Footing).callers := rfl
  obtain ⟨visits, hvisits, hlife⟩ := life_choosingMachine
  obtain ⟨⟨chosen, htreated⟩, -⟩ := (first_match_runs
    (.program "start" default choosingBody rfl) hstack hfacing).1 _ hgroup visits _ hlife
  exact ⟨_, _, op, _, visits, chosen, rfl, hfacing, hgroup, rfl, hvisits, htreated,
    by decide +kernel⟩

end Machine

end GridScript
