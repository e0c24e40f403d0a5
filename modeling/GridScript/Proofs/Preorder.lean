import GridScript.Proofs.Linking
import Mathlib.Data.List.Nodup

/-!
# Linked nodes in the order of a walk

A linked body has the nodes of the tree in the order in which the tree is walked. All
links lead forward, and to every node but the entry there leads exactly one. Following
the links from the entry therefore gives the tree back, except that a body holds the
children of a node together with what follows each of them, as it runs.
-/

namespace GridScript

namespace Op

/-- A linked node by itself, linked to nothing. -/
def alone (op : Op) : Op :=
  { op with body := none, next := none }

/-- The nodes that a node is linked to: the first of its body and the one that runs after it. -/
def targets (op : Op) : List Nat :=
  op.body.toList ++ op.next.toList

/-- A node is linked to the first node of its body and to the one that runs after it. -/
theorem mem_targets {op : Op} {target : Nat} :
    target ∈ op.targets ↔ op.body = some target ∨ op.next = some target := by
  simp [targets]

end Op

/-- A linked node together with the trees of its body. -/
inductive LinkedTree where
  /-- A node by itself and its body. -/
  | mk (node : Op) (body : List LinkedTree)

namespace Node

mutual

/-- The trees that a node and its successors make up once linked: the body of a node holds its
children, each with its own successors behind it. -/
def linkedTrees : Node → List LinkedTree
  | .mk head children next => .mk head.alone (linkedTreesAll children) :: linkedTreesNext next

/-- The trees of some nodes one after the other. -/
def linkedTreesAll : List Node → List LinkedTree
  | [] => []
  | node :: rest => node.linkedTrees ++ linkedTreesAll rest

/-- The trees of an optional node. -/
def linkedTreesNext : Option Node → List LinkedTree
  | none => []
  | some node => node.linkedTrees

end

/-- A tree has at least one node. -/
theorem count_pos (node : Node) : 0 < node.count := by
  cases node
  simp only [count]
  omega

mutual

/-- A linked tree has the nodes of the tree in the order of the walk. -/
theorem alone_link (start : Nat) (after : Option Nat) :
    ∀ node : Node, (node.link start after).map Op.alone = node.walk.map Instruction.alone
  | .mk head children next => by
    have hchildren := alone_linkAll (start + 1) children
    have hnext := alone_linkNext (start + 1 + countAll children) after next
    simp only [link, walk, List.map_cons, List.map_append, hchildren, hnext]
    rfl

/-- Linked children have the nodes of the trees in the order of the walk. -/
theorem alone_linkAll (start : Nat) :
    ∀ nodes : List Node, (linkAll start nodes).map Op.alone =
      (walkAll nodes).map Instruction.alone
  | [] => rfl
  | node :: rest => by
    have hnode := alone_link start (if rest.isEmpty then none else some (start + node.count)) node
    have hrest := alone_linkAll (start + node.count) rest
    simp only [linkAll, walkAll, List.map_append, hnode, hrest]

/-- A linked successor has the nodes of the tree in the order of the walk. -/
theorem alone_linkNext (start : Nat) (after : Option Nat) :
    ∀ next : Option Node, (linkNext start after next).map Op.alone =
      (walkNext next).map Instruction.alone
  | none => rfl
  | some node => alone_link start after node

end

/-- The nodes that some nodes are linked to. -/
def targetsOf (ops : List Op) : List Nat :=
  ops.flatMap Op.targets

mutual

/-- Besides the first place of a linked tree, its links lead to every other place and to the node
that is to run after it, once each. -/
theorem targets_link (start : Nat) (after : Option Nat) :
    ∀ node : Node, (start :: targetsOf (node.link start after)).Perm
      (List.range' start node.count ++ after.toList)
  | .mk head children next => by
    have hchildren := targets_linkAll (start + 1) children
    have hnext := targets_linkNext (start + 1 + countAll children) after next
    have hplaces : List.range' start (count (.mk head children next)) =
        start :: (List.range' (start + 1) (countAll children) ++
          List.range' (start + 1 + countAll children) (countNext next)) := by
      rw [List.range'_append_1, count, Nat.add_assoc, Nat.add_comm 1, List.range'_succ]
    have htargets : targetsOf (link start after (.mk head children next)) =
        ((if children.isEmpty then none else some (start + 1)).toList ++
          (if next.isSome then some (start + 1 + countAll children) else after).toList) ++
        (targetsOf (linkAll (start + 1) children) ++
          targetsOf (linkNext (start + 1 + countAll children) after next)) := by
      simp [targetsOf, link, Op.targets, Instruction.link]
    rw [hplaces, htargets, List.cons_append, List.append_assoc, List.append_assoc]
    refine .cons start (.trans ?_ (hchildren.append hnext))
    rw [List.append_assoc]
    exact (List.perm_append_comm_assoc ..).append_left _

/-- The link to linked children and the links of these lead to every place once. -/
theorem targets_linkAll (start : Nat) :
    ∀ nodes : List Node, ((if nodes.isEmpty then none else some start).toList ++
      targetsOf (linkAll start nodes)).Perm (List.range' start (countAll nodes))
  | [] => .refl _
  | node :: rest => by
    have hnode := targets_link start (if rest.isEmpty then none else some (start + node.count)) node
    have hrest := targets_linkAll (start + node.count) rest
    have htargets : targetsOf (linkAll start (node :: rest)) =
        targetsOf (node.link start (if rest.isEmpty then none else some (start + node.count))) ++
          targetsOf (linkAll (start + node.count) rest) := by
      simp [targetsOf, linkAll]
    rw [htargets, countAll, ← List.range'_append_1]
    refine (hnode.append_right _).trans ?_
    rw [List.append_assoc]
    exact hrest.append_left _

/-- The link to a linked successor and the links of this lead to every place and to the node
that is to run after it, once each. -/
theorem targets_linkNext (start : Nat) (after : Option Nat) :
    ∀ next : Option Node, ((if next.isSome then some start else after).toList ++
      targetsOf (linkNext start after next)).Perm
        (List.range' start (countNext next) ++ after.toList)
  | none => by simp [targetsOf, linkNext, countNext]
  | some node => targets_link start after node

end

/-- The links of some nodes that stand from a place on lead to places behind. -/
def LeadForward (start : Nat) (ops : List Op) : Prop :=
  ∀ index op, ops[index]? = some op → ∀ target ∈ op.targets, start + index < target

/-- A node in front leads forward if its links do. -/
theorem LeadForward.cons {start : Nat} {op : Op} {rest : List Op}
    (hop : ∀ target ∈ op.targets, start < target) (hrest : LeadForward (start + 1) rest) :
    LeadForward start (op :: rest) := by
  intro index other hother target htarget
  cases index with
  | zero =>
    obtain rfl : op = other := by simpa using hother
    exact hop target htarget
  | succ index =>
    have hbehind := hrest index other (by simpa using hother) target htarget
    omega

/-- What leads forward by itself leads forward together. -/
theorem LeadForward.append {start : Nat} {first second : List Op} (hfirst : LeadForward start first)
    (hsecond : LeadForward (start + first.length) second) :
    LeadForward start (first ++ second) := by
  intro index op hop target htarget
  by_cases hlt : index < first.length
  · rw [List.getElem?_append_left hlt] at hop
    exact hfirst index op hop target htarget
  · rw [List.getElem?_append_right (Nat.le_of_not_lt hlt)] at hop
    have hbehind := hsecond (index - first.length) op hop target htarget
    omega

mutual

/-- A linked tree leads forward if what is to run after it stands behind it. -/
theorem leadForward_link (start : Nat) (after : Option Nat) :
    ∀ node : Node, (∀ target ∈ after, start + node.count ≤ target) →
      LeadForward start (node.link start after)
  | .mk head children next, hafter => by
    have hchildren := leadForward_linkAll (start + 1) children
    have hnext := leadForward_linkNext (start + 1 + countAll children) after next
      fun target htarget => by
        have hbehind := hafter target htarget
        simp only [count] at hbehind
        omega
    refine .cons (fun target htarget => ?_) (hchildren.append (by rwa [length_linkAll]))
    have hpos := count_pos (mk head children next)
    rcases Op.mem_targets.1 htarget with hbody | hfollowing
    · simp only [Instruction.link] at hbody
      split_ifs at hbody
      cases hbody
      exact Nat.lt_succ_self start
    · simp only [Instruction.link] at hfollowing
      split_ifs at hfollowing
      · cases hfollowing
        omega
      · have hbehind := hafter target hfollowing
        omega

/-- Linked children lead forward. -/
theorem leadForward_linkAll (start : Nat) :
    ∀ nodes : List Node, LeadForward start (linkAll start nodes)
  | [] => fun _ _ hop => by cases hop
  | node :: rest => by
    have hnode := leadForward_link start
      (if rest.isEmpty then none else some (start + node.count)) node
      fun target htarget => by
        split_ifs at htarget
        · cases htarget
        · cases htarget
          exact Nat.le_refl _
    have hrest := leadForward_linkAll (start + node.count) rest
    exact hnode.append (by rwa [length_link])

/-- A linked successor leads forward if what is to run after it stands behind it. -/
theorem leadForward_linkNext (start : Nat) (after : Option Nat) :
    ∀ next : Option Node, (∀ target ∈ after, start + countNext next ≤ target) →
      LeadForward start (linkNext start after next)
  | none, _ => fun _ _ hop => by cases hop
  | some node, hafter => leadForward_link start after node hafter

end

end Node

namespace Script

/-- Trees that the links of a script lead through from a node on: first the node, with what the
links lead through from the first node of its body on, and then the nodes that run after it. -/
inductive LeadsThrough (script : Script) : Option Nat → List LinkedTree → Prop where
  /-- No node comes next. -/
  | done : script.LeadsThrough none []
  /-- A node comes next. -/
  | node {index : Nat} {op : Op} {body rest : List LinkedTree}
    (stands : script.op? index = some op) (inside : script.LeadsThrough op.body body)
    (behind : script.LeadsThrough op.next rest) :
    script.LeadsThrough (some index) (.mk op.alone body :: rest)

variable {script : Script}

/-- From one node on the links lead through the same trees always. -/
theorem LeadsThrough.unique {next : Option Nat} {trees others : List LinkedTree}
    (h : script.LeadsThrough next trees) (hother : script.LeadsThrough next others) :
    trees = others := by
  induction h generalizing others with
  | done =>
    cases hother
    rfl
  | node stands _ _ ihinside ihbehind =>
    cases hother with
    | node standsOther inside behind =>
      obtain rfl := Option.some.inj (stands.symm.trans standsOther)
      rw [ihinside inside, ihbehind behind]

/-- From a node on the links lead through the trees that are to run. -/
theorem Follows.leadsThrough {next : Option Nat} {nodes : List Node}
    (h : script.Follows next nodes) : script.LeadsThrough next (Node.linkedTreesAll nodes) := by
  induction hsize : Node.countAll nodes using Nat.strongRecOn generalizing next nodes with
  | ind size ih =>
    cases next with
    | none =>
      obtain ⟨start, hstart, -⟩ := h
      cases nodes with
      | nil => exact .done
      | cons node rest => cases hstart
    | some index =>
      obtain ⟨head, children, following, rest, op, rfl, hop, hlink, hchildren, hnext⟩ := h.cons
      have hcount : Node.countAll (.mk head children following :: rest) =
          1 + Node.countAll children + Node.countAll (following.toList ++ rest) := by
        cases following <;>
          simp only [Node.countAll, Node.count, Node.countNext, Option.toList, List.cons_append,
            List.nil_append] <;> omega
      have htrees : Node.linkedTreesAll (.mk head children following :: rest) =
          .mk op.alone (Node.linkedTreesAll children) ::
            Node.linkedTreesAll (following.toList ++ rest) := by
        rw [hlink]
        cases following <;> rfl
      rw [htrees]
      exact .node hop (ih _ (by omega) hchildren rfl) (ih _ (by omega) hnext rfl)

/-- A script holds the nodes of a body in preorder. -/
structure InPreorder (script : Script) (body : Option Node) : Prop where
  /-- There is one linked node for every node of the tree. -/
  size : script.ops.size = Node.countNext body
  /-- A walk through the tree comes across as many. -/
  walk : (Node.walkNext body).length = script.ops.size
  /-- The linked nodes are those that the walk comes across, in that order. -/
  nodes : ∀ index op, script.op? index = some op →
    ∃ head, (Node.walkNext body)[index]? = some head ∧ op = head.link op.body op.next
  /-- All links lead forward, and to nodes that are there. -/
  forward : ∀ index op, script.op? index = some op → ∀ target,
    op.body = some target ∨ op.next = some target → index < target ∧ target < script.ops.size
  /-- To every node but the entry there leads one link, and to the entry there leads none. -/
  once : ∀ index < script.ops.size,
    (Node.targetsOf script.ops.toList).count index = if script.entry = some index then 0 else 1
  /-- From the entry on, the links lead through the tree, where each child of a node has what
  follows it behind it. -/
  trees : ∀ trees, script.LeadsThrough script.entry trees ↔ trees = Node.linkedTreesNext body

/-- The nodes of a script are those that its body is linked to. -/
theorem op?_ofBody (name : String) (origin : Place) (body : Option Node) (index : Nat) :
    (ofBody name origin body).op? index = (Node.linkNext 0 none body)[index]? := by
  simp [op?, ofBody_eq]

/-- There is one place for every node of a body. -/
theorem size_ofBody (name : String) (origin : Place) (body : Option Node) :
    (ofBody name origin body).ops.size = Node.countNext body := by
  rw [ofBody_eq]
  exact Node.length_linkNext 0 none body

/-- The entry of a script and the targets of its links are its places. -/
theorem targets_ofBody (name : String) (origin : Place) (body : Option Node) :
    ((ofBody name origin body).entry.toList ++
      Node.targetsOf (ofBody name origin body).ops.toList).Perm
        (List.range' 0 (ofBody name origin body).ops.size) := by
  have htargets := Node.targets_linkNext 0 none body
  rw [size_ofBody, ofBody_eq]
  rwa [Option.toList_none, List.append_nil] at htargets

/-- Whatever body a script is linked from, it holds the nodes of that in preorder. -/
theorem inPreorder_ofBody (name : String) (origin : Place) (body : Option Node) :
    (ofBody name origin body).InPreorder body where
  size := size_ofBody name origin body
  walk := by
    have hlength := congrArg List.length (Node.alone_linkNext 0 none body)
    rw [List.length_map, List.length_map, Node.length_linkNext] at hlength
    rw [size_ofBody, hlength]
  nodes := by
    intro index op hop
    rw [op?_ofBody] at hop
    have halone := congrArg (·[index]?) (Node.alone_linkNext 0 none body)
    simp only [List.getElem?_map, hop, Option.map_some] at halone
    obtain ⟨head, hhead, hsame⟩ := Option.map_eq_some_iff.1 halone.symm
    refine ⟨head, hhead, ?_⟩
    calc op = { op.alone with body := op.body, next := op.next } := rfl
      _ = { head.alone with body := op.body, next := op.next } := by rw [hsame]
      _ = head.link op.body op.next := rfl
  forward := by
    intro index op hop target htarget
    rw [op?_ofBody] at hop
    have hmem : target ∈ op.targets := Op.mem_targets.2 htarget
    have hforward := Node.leadForward_linkNext 0 none body (fun _ h => by cases h) index op hop
      target hmem
    have hsome : target ∈ Node.targetsOf (ofBody name origin body).ops.toList :=
      List.mem_flatMap.2 ⟨op, by rw [ofBody_eq]; exact List.mem_of_getElem? hop, hmem⟩
    have hplace := (targets_ofBody name origin body).subset (List.mem_append_right _ hsome)
    rw [List.mem_range'_1] at hplace
    omega
  once := by
    intro index hlt
    have hcount := (targets_ofBody name origin body).count_eq index
    have hplace : index ∈ List.range' 0 (ofBody name origin body).ops.size :=
      List.mem_range'_1.2 ⟨Nat.zero_le _, by omega⟩
    rw [List.count_append, List.count_eq_one_of_mem List.nodup_range' hplace] at hcount
    split_ifs with hentry
    · rw [hentry, Option.toList_some, List.count_singleton_self] at hcount
      omega
    · rw [List.count_eq_zero_of_not_mem (fun hm => hentry (Option.mem_toList.1 hm))] at hcount
      omega
  trees := by
    intro trees
    have hleads := (follows_ofBody name origin body).leadsThrough
    have hbody : Node.linkedTreesAll body.toList = Node.linkedTreesNext body := by
      cases body with
      | none => rfl
      | some node => exact List.append_nil _
    rw [hbody] at hleads
    exact ⟨fun h => h.unique hleads, fun h => h ▸ hleads⟩

/-- The second child runs after what follows the first one. -/
example :
    let plain := fun symbol => Node.bare 0 symbol .action
    let body : Node := .mk (Node.bare 0 "a" .loop).head
      [(plain "b").setNext (plain "c"), plain "d"] (plain "e")
    ((ofBody "f" default body).ops.toList.map fun op => (op.symbol, op.body, op.next)) =
      [("a", some 1, some 4), ("b", none, some 2), ("c", none, some 3), ("d", none, none),
        ("e", none, none)] := rfl

end Script

end GridScript
