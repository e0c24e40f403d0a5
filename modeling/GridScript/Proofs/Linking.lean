import GridScript.Program.Script

/-!
# Where linked nodes stand

A linked tree occupies as many places as it has nodes: the node itself, then its
children, then its successors. So it is known beforehand where all of them stand, and
the nodes that are put into an array first and linked to each other later are those
that are linked to the right places at once.

A script holds a linked tree at a place if the nodes stand there one after the other;
then it holds the children and the successors at the places the node is linked to.
-/

namespace GridScript

/-- A node by itself, linked to nothing. -/
def Instruction.alone (head : Instruction) : Op :=
  head.link none none

namespace Node

mutual

/-- A node, its children and its successors laid out from index `start` on; the
last successor is followed by the node at `after`. -/
def link (start : Nat) (after : Option Nat) : Node → List Op
  | .mk head children next =>
    let body := if children.isEmpty then none else some (start + 1)
    let stop := start + 1 + countAll children
    let following := if next.isSome then some stop else after
    head.link body following :: (linkAll (start + 1) children ++ linkNext stop after next)

/-- Children laid out from index `start` on, each followed by the next. -/
def linkAll (start : Nat) : List Node → List Op
  | [] => []
  | node :: rest =>
    let stop := start + node.count
    node.link start (if rest.isEmpty then none else some stop) ++ linkAll stop rest

/-- An optional successor laid out from index `start` on. -/
def linkNext (start : Nat) (after : Option Nat) : Option Node → List Op
  | none => []
  | some node => node.link start after

end

mutual

/-- A linked tree has one place for every node. -/
theorem length_link (start : Nat) (after : Option Nat) :
    ∀ node : Node, (node.link start after).length = node.count
  | .mk head children next => by
    have hchildren := length_linkAll (start + 1) children
    have hnext := length_linkNext (start + 1 + countAll children) after next
    simp only [link, count, List.length_cons, List.length_append, hchildren, hnext]
    omega

/-- Linked children have one place for every node. -/
theorem length_linkAll (start : Nat) :
    ∀ nodes : List Node, (linkAll start nodes).length = countAll nodes
  | [] => rfl
  | node :: rest => by
    have hnode := length_link start
      (if rest.isEmpty then none else some (start + node.count)) node
    have hrest := length_linkAll (start + node.count) rest
    simp only [linkAll, countAll, List.length_append, hnode, hrest]

/-- A linked successor has one place for every node. -/
theorem length_linkNext (start : Nat) (after : Option Nat) :
    ∀ next : Option Node, (linkNext start after next).length = countNext next
  | none => rfl
  | some node => length_link start after node

end

mutual

/-- How many places after a node the last one of its chain stands. -/
def reach : Node → Nat
  | .mk _ children next => reachNext (1 + countAll children) next

/-- How many places after a node the last one of its chain stands, if its successor stands
`gap` places after it. -/
def reachNext (gap : Nat) : Option Node → Nat
  | none => 0
  | some node => gap + node.reach

end

mutual

/-- The last node of a chain is in its tree. -/
theorem reach_lt : ∀ node : Node, node.reach < node.count
  | .mk head children next => by
    have hnext := reachNext_lt (1 + countAll children) (Nat.lt_add_right _ Nat.one_pos) next
    rw [reach, count]
    exact hnext

/-- The last node of a chain is in its tree. -/
theorem reachNext_lt (gap : Nat) (h : 0 < gap) :
    ∀ next : Option Node, reachNext gap next < gap + countNext next
  | none => h
  | some node => Nat.add_lt_add_left node.reach_lt gap

end

end Node

/-- A change in the first part of a list. -/
theorem modify_append_left {first second : List Op} {change : Op → Op} {index : Nat}
    (h : index < first.length) :
    (first ++ second).modify index change = first.modify index change ++ second := by
  induction first generalizing index with
  | nil => cases h
  | cons op rest ih =>
    cases index with
    | zero => rfl
    | succ index =>
      rw [List.cons_append, List.modify_succ_cons, List.modify_succ_cons, List.cons_append,
        ih (Nat.lt_of_succ_lt_succ h)]

/-- A change in the second part of a list. -/
theorem modify_append_right (first second : List Op) (change : Op → Op) (index : Nat) :
    (first ++ second).modify (first.length + index) change =
      first ++ second.modify index change := by
  induction first with
  | nil => rw [List.length_nil, Nat.zero_add, List.nil_append, List.nil_append]
  | cons op rest ih =>
    rw [List.length_cons, Nat.add_right_comm, List.cons_append, List.modify_succ_cons, ih,
      List.cons_append]

/-- Only the last node of a chain depends on what follows the chain. -/
theorem Node.link_modify (start target : Nat) : ∀ node : Node,
    (node.link start none).modify node.reach (·.followedBy target) = node.link start (some target)
  | .mk head children none => rfl
  | .mk head children (some next) => by
    have hnext := Node.link_modify (start + 1 + Node.countAll children) target next
    have hplace : (Node.mk head children (some next)).reach =
        (Node.linkAll (start + 1) children).length + next.reach + 1 := by
      rw [Node.reach, Node.reachNext, Node.length_linkAll]
      omega
    rw [hplace]
    unfold Node.link Node.linkNext
    rw [List.modify_succ_cons, modify_append_right]
    exact congrArg (_ :: _ ++ ·) hnext

namespace Linker

/-- The nodes so far, where the end of a chain is linked to the node that is put behind them. -/
def continued (before : List Op) : Option (Nat × Nat) → List Op
  | none => before
  | some (_, last) => before.modify last (·.followedBy before.length)

@[simp] theorem length_continued (before : List Op) (bounds : Option (Nat × Nat)) :
    (continued before bounds).length = before.length := by
  cases bounds with
  | none => rfl
  | some bounds => exact List.length_modify ..

/-- A link from behind the nodes so far leaves these alone. -/
theorem continued_append (before inner : List Op) (bounds : Option (Nat × Nat))
    (first offset : Nat) :
    continued (continued before bounds ++ inner) (some (first, before.length + offset)) =
      continued before bounds ++
        inner.modify offset (·.followedBy (before.length + inner.length)) := by
  have hmodify := modify_append_right (continued before bounds) inner
    (·.followedBy (before.length + inner.length)) offset
  rw [length_continued] at hmodify
  rw [continued, List.length_append, length_continued, hmodify]

mutual

/-- A chain that is put behind the nodes so far is laid out there, and continues the chain it is
to continue. Of that one only the place of its last node matters. -/
theorem appendChain_eq : ∀ (node : Node) (before : List Op) (bounds : Option (Nat × Nat)),
    (∀ bound ∈ bounds, bound.2 < before.length) →
    appendChain before.toArray bounds node =
      ((continued before bounds ++ node.link before.length none).toArray,
        (bounds.map Prod.fst).getD before.length, before.length + node.reach)
  | .mk head children next, before, bounds, h => by
    let body := if children.isEmpty then none else some (before.length + 1)
    let inner := head.link body none :: Node.linkAll (before.length + 1) children
    have hchildren : appendChildren (before ++ [head.link none none]).toArray none children =
        ((before ++ [head.link none none] ++ Node.linkAll (before.length + 1) children).toArray,
          body) := by
      rw [appendChildren_eq children _ none nofun, continued, ite_self, List.length_append]
      rfl
    have hbody : (before ++ [head.link none none] ++
        Node.linkAll (before.length + 1) children).modify before.length (·.withBody body) =
          before ++ inner := by
      rw [List.append_assoc]
      exact modify_append_right before _ _ 0
    have hinner : inner.length = 1 + Node.countAll children := by
      rw [List.length_cons, Node.length_linkAll, Nat.add_comm]
    have hlength : before.length + (1 + Node.countAll children) =
        (continued before bounds ++ inner).length := by
      rw [List.length_append, length_continued, hinner]
    have hnext (first : Nat) : appendNext (continued before bounds ++ inner).toArray
        (first, before.length) next =
          ((continued before bounds ++ (Node.mk head children next).link before.length none).toArray,
            first, before.length + (Node.mk head children next).reach) := by
      rw [appendNext_eq next _ first _ _ hlength (by omega), ← hlength]
      cases next with
      | none => simp [Node.link, Node.linkNext, Node.reach, inner, body]
      | some next =>
        have hlead := continued_append before inner bounds first 0
        rw [Nat.add_zero, hinner] at hlead
        rw [Option.isSome_some, if_pos rfl, hlead]
        simp [Node.link, Node.reach, inner, body, Op.followedBy, Instruction.link, Nat.add_assoc]
    rw [appendChain]
    simp only [List.size_toArray, List.push_toArray, hchildren, List.modify_toArray, hbody]
    cases bounds with
    | none => exact hnext before.length
    | some bounds =>
      obtain ⟨first, last⟩ := bounds
      have hlast : last < before.length := h (first, last) rfl
      dsimp only
      rw [modify_append_left hlast]
      exact hnext first

/-- A successor is put behind the nodes so far likewise. -/
theorem appendNext_eq : ∀ (next : Option Node) (before : List Op) (first last gap : Nat),
    last + gap = before.length → 0 < gap →
    appendNext before.toArray (first, last) next =
      (((if next.isSome then continued before (some (first, last)) else before) ++
        Node.linkNext before.length none next).toArray, first, last + Node.reachNext gap next)
  | none, before, first, last, gap, _, _ => by
    simp [appendNext, Node.linkNext, Node.reachNext]
  | some node, before, first, last, gap, h, hpos => by
    rw [appendNext, appendChain_eq node before _ (by rintro _ ⟨⟩; dsimp only; omega),
      Node.reachNext, ← Nat.add_assoc, h]
    rfl

/-- Children are put behind the nodes so far likewise. -/
theorem appendChildren_eq : ∀ (children : List Node) (before : List Op)
    (bounds : Option (Nat × Nat)), (∀ bound ∈ bounds, bound.2 < before.length) →
    appendChildren before.toArray bounds children =
      (((if children.isEmpty then before else continued before bounds) ++
        Node.linkAll before.length children).toArray,
        (bounds.map Prod.fst).or (if children.isEmpty then none else some before.length))
  | [], before, bounds, _ => by simp [appendChildren, Node.linkAll]
  | child :: rest, before, bounds, h => by
    have hchild := appendChain_eq child before none nofun
    have hlength : before.length + child.count =
        (continued before bounds ++ child.link before.length none).length := by
      rw [List.length_append, length_continued, Node.length_link]
    have hlast : before.length + child.reach <
        (continued before bounds ++ child.link before.length none).length := by
      rw [← hlength]
      exact Nat.add_lt_add_left child.reach_lt _
    have hrest (first : Nat) : appendChildren
        (continued before bounds ++ child.link before.length none).toArray
        (some (first, before.length + child.reach)) rest =
          ((continued before bounds ++ Node.linkAll before.length (child :: rest)).toArray,
            some first) := by
      rw [appendChildren_eq rest _ _ (by rintro _ ⟨⟩; exact hlast), ← hlength]
      cases rest with
      | nil => simp [Node.linkAll]
      | cons next rest =>
        rw [List.isEmpty_cons, if_neg Bool.false_ne_true, continued_append, Node.length_link,
          Node.link_modify]
        simp [Node.linkAll]
    rw [appendChildren]
    simp only [hchild, continued, Option.map_none, Option.getD_none, List.modify_toArray]
    cases bounds with
    | none => exact hrest before.length
    | some bounds =>
      obtain ⟨first, last⟩ := bounds
      have hbound : last < before.length := h (first, last) rfl
      dsimp only
      rw [modify_append_left hbound]
      exact hrest first

end

end Linker

namespace Script

/-- Nodes stand in a script one after the other from an index on. -/
def Holds (script : Script) (start : Nat) (ops : List Op) : Prop :=
  ∀ index op, ops[index]? = some op → script.op? (start + index) = some op

variable {script : Script} {start : Nat}

/-- The first node stands at the index, the others after it. -/
theorem Holds.cons {op : Op} {rest : List Op} (h : script.Holds start (op :: rest)) :
    script.op? start = some op ∧ script.Holds (start + 1) rest := by
  refine ⟨h 0 op rfl, fun index other ho => ?_⟩
  have := h (index + 1) other ho
  rwa [← Nat.add_assoc, Nat.add_right_comm] at this

/-- What comes first stands at the index, the rest after it. -/
theorem Holds.append {first second : List Op} (h : script.Holds start (first ++ second)) :
    script.Holds start first ∧ script.Holds (start + first.length) second := by
  constructor
  · intro index op ho
    have hlt : index < first.length := (List.getElem?_eq_some_iff.1 ho).1
    exact h index op (by rw [List.getElem?_append_left hlt]; exact ho)
  · intro index op ho
    have hget : (first ++ second)[first.length + index]? = some op := by
      rw [List.getElem?_append_right (Nat.le_add_right _ _), Nat.add_sub_cancel_left]
      exact ho
    rw [Nat.add_assoc]
    exact h (first.length + index) op hget

/-- What stands one after the other stands together. -/
theorem Holds.join {first second : List Op} (h₁ : script.Holds start first)
    (h₂ : script.Holds (start + first.length) second) : script.Holds start (first ++ second) := by
  intro index op ho
  by_cases hlt : index < first.length
  · rw [List.getElem?_append_left hlt] at ho
    exact h₁ index op ho
  · rw [List.getElem?_append_right (Nat.le_of_not_lt hlt)] at ho
    have h := h₂ (index - first.length) op ho
    rwa [Nat.add_assoc, Nat.add_sub_cancel' (Nat.le_of_not_lt hlt)] at h

/-- Where the parts of a linked tree stand: the node itself, its children right
after it, and its successors after those. -/
theorem holds_link {head : Instruction} {children : List Node} {next : Option Node}
    {after : Option Nat} (h : script.Holds start ((Node.mk head children next).link start after)) :
    script.op? start = some (head.link (if children.isEmpty then none else some (start + 1))
        (if next.isSome then some (start + 1 + Node.countAll children) else after)) ∧
      script.Holds (start + 1) (Node.linkAll (start + 1) children) ∧
      script.Holds (start + 1 + Node.countAll children)
        (Node.linkNext (start + 1 + Node.countAll children) after next) := by
  unfold Node.link at h
  obtain ⟨hhead, hrest⟩ := h.cons
  obtain ⟨hchildren, hnext⟩ := hrest.append
  rw [Node.length_linkAll] at hnext
  exact ⟨hhead, hchildren, hnext⟩

/-- Where the parts of linked children stand. -/
theorem holds_linkAll {node : Node} {rest : List Node}
    (h : script.Holds start (Node.linkAll start (node :: rest))) :
    script.Holds start
        (node.link start (if rest.isEmpty then none else some (start + node.count))) ∧
      script.Holds (start + node.count) (Node.linkAll (start + node.count) rest) := by
  unfold Node.linkAll at h
  obtain ⟨hnode, hrest⟩ := h.append
  rw [Node.length_link] at hrest
  exact ⟨hnode, hrest⟩

/-- A body is laid out from the start of the array on. -/
theorem ofBody_eq (name : String) (origin : Place) (body : Option Node) :
    ofBody name origin body = ⟨name, origin, (Node.linkNext 0 none body).toArray,
      if body.isSome then some 0 else none⟩ := by
  cases body with
  | none => rfl
  | some node =>
    have hchain := Linker.appendChain_eq node [] none nofun
    rw [ofBody, hchain]
    rfl

/-- A script holds the body it was linked from. -/
theorem holds_ofBody (name : String) (origin : Place) (body : Option Node) :
    (ofBody name origin body).Holds 0 (Node.linkNext 0 none body) := by
  intro index op ho
  simpa [op?, ofBody_eq] using ho

/-- The trees that are still to run when a node comes next, each with everything
that follows it. -/
def Follows (script : Script) (next : Option Nat) (nodes : List Node) : Prop :=
  ∃ start, next = (if nodes.isEmpty then none else some start) ∧
    script.Holds start (Node.linkAll start nodes)

/-- Nothing is to run when no node comes next. -/
theorem follows_none (script : Script) : script.Follows none [] :=
  ⟨0, rfl, fun _ _ ho => by cases ho⟩

/-- The body a script was linked from is to run at its entry. -/
theorem follows_ofBody (name : String) (origin : Place) (body : Option Node) :
    (ofBody name origin body).Follows (ofBody name origin body).entry body.toList := by
  refine ⟨0, ?_, ?_⟩
  · rw [ofBody_eq]
    cases body <;> rfl
  · have hholds := holds_ofBody name origin body
    cases body with
    | none => exact hholds
    | some node =>
      simp only [Option.toList, Node.linkAll, List.isEmpty_nil, if_true, List.append_nil]
      exact hholds

/-- A node that comes next is the first of the trees to run. It is linked to its
children and to what is to run after it. -/
theorem Follows.cons {index : Nat} {nodes : List Node} (h : script.Follows (some index) nodes) :
    ∃ head children next rest op, nodes = .mk head children next :: rest ∧
      script.op? index = some op ∧ op = head.link op.body op.next ∧
      script.Follows op.body children ∧ script.Follows op.next (next.toList ++ rest) := by
  obtain ⟨start, hstart, hholds⟩ := h
  match nodes, hstart with
  | [], hstart => cases hstart
  | .mk head children next :: rest, hstart =>
    obtain rfl : index = start := Option.some.inj hstart
    obtain ⟨hnode, hrest⟩ := holds_linkAll hholds
    obtain ⟨hop, hchildren, hnext⟩ := holds_link hnode
    refine ⟨head, children, next, rest, _, rfl, hop, rfl, ⟨_, rfl, hchildren⟩, ?_⟩
    cases next with
    | none => exact ⟨_, rfl, hrest⟩
    | some following =>
      have hcount : index + (Node.mk head children (some following)).count =
          index + 1 + Node.countAll children + following.count := by
        simp only [Node.count, Node.countNext]
        omega
      rw [hcount] at hrest hnext
      refine ⟨index + 1 + Node.countAll children, rfl, hnext.join ?_⟩
      rw [Node.linkNext, Node.length_link]
      exact hrest

end Script

end GridScript
