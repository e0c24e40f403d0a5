import GridScript.Proofs.Freshness
import GridScript.Proofs.Remains

/-!
# The shape of compiled programs

Whatever stands in the cells of a line, the program compiled from it has an entry
node with a chain of nodes behind it; only conditions, alternatives and loops have
children, and no child has a successor. Every node stands for one cell of the line,
in the order of the line. This rests on three things: the catalogue was checked,
the line ends where another entry starts, and nesting only ever moves nodes below
the containers right before them.
-/

namespace GridScript

namespace Node

mutual

/-- Every node of the tree with all it owns: a node, those its children own, and then
those that follow it. -/
def owned : Node → List Node
  | .mk head children next => .mk head children next :: (ownedAll children ++ ownedNext next)

/-- Every node that some nodes own. -/
def ownedAll : List Node → List Node
  | [] => []
  | node :: rest => node.owned ++ ownedAll rest

/-- Every node that an optional node owns. -/
def ownedNext : Option Node → List Node
  | none => []
  | some node => node.owned

end

mutual

/-- The nodes of a tree are counted one by one. -/
theorem length_owned : (node : Node) → node.owned.length = node.count
  | .mk head children next => by
    rw [owned, List.length_cons, List.length_append, length_ownedAll, length_ownedNext, count]
    omega

/-- The nodes that some nodes own are counted one by one. -/
theorem length_ownedAll : (nodes : List Node) → (ownedAll nodes).length = countAll nodes
  | [] => rfl
  | node :: rest => by
    rw [ownedAll, List.length_append, length_owned, length_ownedAll, countAll]

/-- The nodes that an optional node owns are counted one by one. -/
theorem length_ownedNext : (next : Option Node) → (ownedNext next).length = countNext next
  | none => rfl
  | some node => length_owned node

end

mutual

/-- Walking through a tree visits its nodes one by one. -/
theorem walk_eq : (node : Node) → node.walk = node.owned.map head
  | .mk head children next => by
    rw [walk, owned, List.map_cons, List.map_append, walkAll_eq, walkNext_eq, Node.head]

/-- Walking through trees visits their nodes one by one. -/
theorem walkAll_eq : (nodes : List Node) → walkAll nodes = (ownedAll nodes).map head
  | [] => rfl
  | node :: rest => by
    rw [walkAll, ownedAll, List.map_append, walk_eq, walkAll_eq]

/-- Walking through an optional tree visits its nodes one by one. -/
theorem walkNext_eq : (next : Option Node) → walkNext next = (ownedNext next).map head
  | none => rfl
  | some node => walk_eq node

end

mutual

/-- The nodes of a tree with all identities forgotten are those of the tree. -/
theorem owned_anonymous : (node : Node) → node.anonymous.owned = node.owned.map anonymous
  | .mk head children next => by
    rw [anonymous, owned, owned, List.map_cons, List.map_append, ownedAll_anonymous,
      ownedNext_anonymous, anonymous]

/-- The nodes of trees with all identities forgotten are those of the trees. -/
theorem ownedAll_anonymous : (nodes : List Node) →
    ownedAll (anonymousAll nodes) = (ownedAll nodes).map anonymous
  | [] => rfl
  | node :: rest => by
    rw [anonymousAll, ownedAll, ownedAll, List.map_append, owned_anonymous, ownedAll_anonymous]

/-- The nodes of an optional tree with all identities forgotten are those of the tree. -/
theorem ownedNext_anonymous : (next : Option Node) →
    ownedNext (anonymousNext next) = (ownedNext next).map anonymous
  | none => rfl
  | some node => owned_anonymous node

end

mutual

/-- Where nothing has a successor, the nodes a node owns are those below it. -/
theorem owned_eq_subtrees : (node : Node) → (∀ other ∈ node.subtrees, other.next = none) →
    node.owned = node.subtrees
  | .mk head children next, h => by
    rw [subtrees, List.forall_mem_cons] at h
    obtain rfl : next = none := h.1
    rw [owned, subtrees, ownedAll_eq_subtreesAll children h.2, ownedNext, List.append_nil]

/-- Where nothing has a successor, the nodes some nodes own are those below them. -/
theorem ownedAll_eq_subtreesAll : (nodes : List Node) →
    (∀ other ∈ subtreesAll nodes, other.next = none) → ownedAll nodes = subtreesAll nodes
  | [], _ => rfl
  | node :: rest, h => by
    rw [subtreesAll, List.forall_mem_append] at h
    rw [ownedAll, subtreesAll, owned_eq_subtrees node h.1, ownedAll_eq_subtreesAll rest h.2]

end

/-- Below a node are its children and what is below them. -/
theorem subtreesAll_singleton (node : Node) :
    subtreesAll [node] = node :: subtreesAll node.children := by
  obtain ⟨head, children, next⟩ := node
  rw [subtreesAll, subtreesAll, subtrees, List.append_nil]
  rfl

/-- Below nodes without children there is nothing. -/
theorem subtreesAll_of_single {nodes : List Node} (h : ∀ node ∈ nodes, node.children = []) :
    subtreesAll nodes = nodes := by
  induction nodes with
  | nil => rfl
  | cons node rest ih =>
    rw [List.forall_mem_cons] at h
    rw [← List.singleton_append, subtreesAll_append, subtreesAll_singleton, h.1, ih h.2]
    rfl

/-- Some nodes are among those and the ones below them. -/
theorem subset_subtreesAll (nodes : List Node) : nodes ⊆ subtreesAll nodes := by
  induction nodes with
  | nil => exact List.nil_subset _
  | cons node rest ih =>
    rw [← List.singleton_append, subtreesAll_append, subtreesAll_singleton]
    exact List.cons_subset_cons _ (List.subset_append_of_subset_right _ ih)

section Children

variable {node child : Node}

mutual

/-- The children of whatever is below a node are below it, too. -/
theorem mem_subtrees_of_child (hchild : child ∈ node.children) : (root : Node) →
    node ∈ root.subtrees → child ∈ root.subtrees
  | .mk head children next, h => by
    rw [subtrees] at h ⊢
    refine List.mem_cons_of_mem _ ?_
    obtain rfl | h := List.mem_cons.1 h
    · exact subset_subtreesAll children hchild
    · exact mem_subtreesAll_of_child hchild children h

/-- The children of whatever is below some nodes are below them, too. -/
theorem mem_subtreesAll_of_child (hchild : child ∈ node.children) : (nodes : List Node) →
    node ∈ subtreesAll nodes → child ∈ subtreesAll nodes
  | first :: rest, h => by
    rw [subtreesAll, List.mem_append] at h ⊢
    exact h.imp (mem_subtrees_of_child hchild first) (mem_subtreesAll_of_child hchild rest)

end

end Children

/-- A node without what follows it. -/
def alone (node : Node) : Instruction × List Node :=
  (node.head, node.children)

/-- Linking nodes one after the other changes nothing but their successors. -/
theorem map_alone_chain (nodes : List Node) (h : ∀ other ∈ subtreesAll nodes, other.next = none) :
    (ownedNext (chain nodes)).map alone = (subtreesAll nodes).map alone := by
  induction nodes with
  | nil => rfl
  | cons node rest ih =>
    obtain ⟨head, children, next⟩ := node
    rw [subtreesAll, subtrees, List.forall_mem_append, List.forall_mem_cons] at h
    have hchain : chain (.mk head children next :: rest) =
        some (.mk head children (chain rest)) := rfl
    rw [hchain, ownedNext, owned, subtreesAll, subtrees, List.map_cons, List.map_append,
      ih h.2, ownedAll_eq_subtreesAll children h.1.2, List.cons_append, List.map_cons,
      List.map_append]
    rfl

/-- Linking nodes one after the other keeps their order. -/
theorem walkNext_chain {nodes : List Node} (h : ∀ other ∈ subtreesAll nodes, other.next = none) :
    walkNext (chain nodes) = listing nodes := by
  have halone := congrArg (List.map Prod.fst) (map_alone_chain nodes h)
  rw [List.map_map, List.map_map] at halone
  rw [walkNext_eq, listing]
  exact halone

/-- Linking nodes one after the other changes neither them nor their children. -/
theorem mem_ownedNext_chain {nodes : List Node}
    (h : ∀ other ∈ subtreesAll nodes, other.next = none) {node : Node}
    (hm : node ∈ ownedNext (chain nodes)) :
    ∃ other ∈ subtreesAll nodes, other.head = node.head ∧ other.children = node.children := by
  have halone := List.mem_map_of_mem (f := alone) hm
  rw [map_alone_chain nodes h] at halone
  obtain ⟨other, hother, hsame⟩ := List.mem_map.1 halone
  exact ⟨other, hother, congrArg Prod.fst hsame, congrArg Prod.snd hsame⟩

end Node

/-- Programs start with events and functions. -/
theorem Category.isEntry_iff {category : Category} :
    category.isEntry = true ↔ category = .event ∨ category = .function := by
  cases category <;> simp [isEntry]

/-- Groups belong to conditions, alternatives and loops. -/
theorem Category.isContainer_iff {category : Category} :
    category.isContainer = true ↔ category ∈ [Category.condition, .alternative, .loop] := by
  cases category <;> simp [isContainer]

/-- A node below which all is in order: nothing follows it, and it has children only if it is a
container. -/
structure Node.Sheltered (node : Node) : Prop where
  /-- Nothing follows. -/
  last : node.next = none
  /-- Only containers have children. -/
  container : node.children ≠ [] → node.head.category.isContainer = true

namespace Nesting

/-- Every node after a token was there before, is the one of the token, or is the owner of a
group that has taken on the nodes of the group. -/
theorem mem_subtrees_step (nesting : Nesting) (token : LineToken) {node : Node}
    (h : node ∈ Node.subtreesAll (nesting.step token).nodes) :
    node ∈ Node.subtreesAll (nesting.nodes ++ token.node?.toList) ∨
      ∃ group ∈ nesting.groups, ∃ owner ∈ group.owner,
        owner ∈ Node.subtreesAll nesting.nodes ∧ node = owner.adopt group.items := by
  obtain hadded | ⟨group, hgroup, before, hnone, hnodes, hended⟩ := nesting.nodes_step_cases token
  · exact .inl (hadded ▸ h)
  · rw [hnone, Option.toList_none, List.append_nil]
    cases howner : group.owner with
    | none =>
      rw [hended, howner, Option.map_none, Option.toList_none, List.append_nil] at h
      rw [hnodes, List.append_assoc, Node.subtreesAll_append]
      exact .inl (List.mem_append_left _ h)
    | some owner =>
      rw [hended, howner, Option.map_some, Option.toList_some, Node.subtreesAll_append,
        Node.subtreesAll_singleton, Node.children_adopt, Node.subtreesAll_append] at h
      rw [hnodes, howner, Option.toList_some, Node.subtreesAll_append, Node.subtreesAll_append,
        Node.subtreesAll_singleton]
      simp only [List.mem_append, List.mem_cons] at h ⊢
      obtain h | rfl | h | h := h
      · exact .inl (.inl (.inl h))
      · exact .inr ⟨group, hgroup, owner, howner, .inl (.inr (.inl rfl)), rfl⟩
      · exact .inl (.inl (.inr (.inr h)))
      · exact .inl (.inr h)

/-- Nesting single nodes leaves all in order. -/
theorem sheltered_read {tokens : List LineToken}
    (h : ∀ node ∈ nodesOf tokens, node.children = [] ∧ node.next = none) :
    ∀ node ∈ Node.subtreesAll (read tokens).nodes, node.Sheltered := by
  induction tokens using List.reverseRecOn with
  | nil => exact fun _ hm => nomatch hm
  | append_singleton tokens token ih =>
    rw [nodesOf_concat, List.forall_mem_append] at h
    intro node hm
    rw [read_concat] at hm
    obtain hm | ⟨group, hgroup, owner, howner, hheld, rfl⟩ := mem_subtrees_step _ _ hm
    · rw [Node.subtreesAll_append, List.mem_append] at hm
      obtain hm | hm := hm
      · exact ih h.1 node hm
      · rw [Node.subtreesAll_of_single fun other hother => (h.2 other hother).1] at hm
        exact ⟨(h.2 node hm).2, fun hchildren => absurd (h.2 node hm).1 hchildren⟩
    · have howners := owners_read tokens group.owner (List.mem_map_of_mem hgroup)
      have hcontainer := howners.1 owner howner
      refine ⟨?_, fun _ => by rwa [Node.head_adopt]⟩
      rw [Node.next_adopt]
      exact (ih h.1 owner hheld).last

/-- What nesting makes of single nodes is in order. -/
theorem sheltered_ofTokens {tokens : List LineToken}
    (h : ∀ node ∈ nodesOf tokens, node.children = [] ∧ node.next = none) :
    ∀ node ∈ Node.subtreesAll (ofTokens tokens).1, node.Sheltered := by
  obtain ⟨lost, hlost⟩ := (read tokens).exists_nodes_eq
  have hread := sheltered_read h
  rw [hlost, Node.subtreesAll_append, List.forall_mem_append] at hread
  exact hread.1

end Nesting

namespace Catalogue

/-- A catalogue that was loaded has no fault. -/
theorem fault?_of_load {text : String} {catalogue : Catalogue} (h : load text = .ok catalogue) :
    catalogue.fault? = none := by
  rw [load] at h
  split at h
  · cases h
  · split at h
    · cases h
    · cases h
      assumption

/-- In a catalogue without fault exactly the symbols that are brackets have a part in grouping. -/
theorem bracket_iff_of_fault? {catalogue : Catalogue} (h : catalogue.fault? = none)
    {symbol : String} {spec : SymbolSpec} (hspec : catalogue.symbol? symbol = some spec) :
    spec.category = .bracket ↔ spec.bracket ≠ .plain := by
  have hstored : (symbol, spec) ∈ catalogue.symbols.entries :=
    SortedMap.get?_eq_some_iff.1 hspec
  have hfault : spec.fault? = none :=
    Option.map_eq_none_iff.1 (List.findSome?_eq_none_iff.1 h _ hstored)
  rw [SymbolSpec.fault?] at hfault
  split at hfault
  · cases hfault
  · split at hfault
    · cases hfault
    · tauto

end Catalogue

/-- A single node that is neither an entry nor a bracket. -/
structure Node.Inner (node : Node) : Prop where
  /-- There is nothing below. -/
  childless : node.children = []
  /-- Nothing follows. -/
  last : node.next = none
  /-- The node has no part in grouping. -/
  plain : node.head.bracket = .plain
  /-- The node is neither an entry nor a bracket. -/
  category : node.head.category ∉ [Category.event, .function, .bracket]

namespace Workshop

variable {shop : Workshop} {entry : Position}

/-- Every node is read as a single one, for the cell it was read from. -/
theorem readNode_eq (shop : Workshop) (position : Position) (symbol : String) (spec : SymbolSpec) :
    ∃ action params, (shop.readNode position symbol spec).1 =
      .mk ⟨0, symbol, spec.category, action, params, .plain, some position⟩ [] none := by
  rw [readNode]
  split
  · exact ⟨_, _, rfl⟩
  · exact ⟨_, _, rfl⟩

/-- The entry of a function is read as a single node, for the cell it was read from. -/
theorem readHeader_eq {position : Position} {symbol : String} {spec : SymbolSpec}
    {kind : ProgramKind} {root : Node} {found : List CompileError}
    (h : shop.readHeader position symbol spec = .ok (kind, root, found)) :
    ∃ action params,
      root = .mk ⟨0, symbol, .function, action, params, .plain, some position⟩ [] none := by
  simp only [readHeader] at h
  split at h
  · cases h
  · cases h
    split
    · exact ⟨_, _, rfl⟩
    · exact ⟨_, _, rfl⟩

/-- The entry of a line is read as a single node, for the cell where the line starts. -/
theorem readEntry_eq {kind : ProgramKind} {root : Node} {found : List CompileError}
    (h : shop.readEntry entry = .ok (kind, root, found)) :
    ∃ symbol category action params, category.isEntry = true ∧
      root = .mk ⟨0, symbol, category, action, params, .plain, some entry⟩ [] none := by
  rw [readEntry] at h
  split at h
  · cases h
  rename_i symbol _
  split at h
  · cases h
  rename_i spec _
  split at h
  · rename_i hevent
    obtain ⟨action, params, hnode⟩ := shop.readNode_eq entry symbol spec
    cases h
    exact ⟨symbol, spec.category, action, params, by rw [hevent.1]; rfl, hnode⟩
  · split at h
    · obtain ⟨action, params, hroot⟩ := readHeader_eq h
      exact ⟨symbol, .function, action, params, rfl, hroot⟩
    · cases h

/-- What one more cell adds to the nodes of a line: nothing at all, or the node of a symbol that
is neither an entry nor a bracket. Then the line may go on. -/
theorem nodesOf_scan_cases (shop : Workshop) (entry : Position) (fuel index : Nat) :
    let rest := Nesting.nodesOf (shop.scan entry fuel (index + 1)).1
    let nodes := Nesting.nodesOf (shop.scan entry (fuel + 1) index).1
    nodes = [] ∨ nodes = rest ∨
      ∃ symbol spec, shop.catalogue.symbol? symbol = some spec ∧ spec.bracket = .plain ∧
        spec.category.isEntry = false ∧
        nodes = (shop.readNode (shop.layout.cell entry index) symbol spec).1 :: rest := by
  intro rest nodes
  rw [show nodes = Nesting.nodesOf (shop.scan entry (fuel + 1) index).1 from rfl, scan]
  dsimp only
  split
  · exact .inl rfl
  split
  · exact .inr (.inl rfl)
  rename_i symbol _ _ spec hspec
  split
  · exact .inr (.inl rfl)
  · exact .inr (.inl rfl)
  rename_i hplain
  split
  · exact .inl rfl
  · rename_i hentry
    exact .inr (.inr ⟨symbol, spec, hspec, hplain, Bool.eq_false_iff.2 hentry, rfl⟩)

/-- All nodes of a line behind its entry are single ones, and neither entries nor brackets. -/
theorem inner_scan (hchecked : shop.catalogue.fault? = none) (entry : Position)
    (fuel index : Nat) :
    ∀ node ∈ Nesting.nodesOf (shop.scan entry fuel index).1, node.Inner := by
  induction fuel generalizing index with
  | zero => exact fun _ h => nomatch h
  | succ fuel ih =>
    obtain hnone | hrest | ⟨symbol, spec, hspec, hplain, hentry, hnodes⟩ :=
      shop.nodesOf_scan_cases entry fuel index
    · rw [hnone]
      exact fun _ h => nomatch h
    · rw [hrest]
      exact ih (index + 1)
    · obtain ⟨action, params, hnode⟩ :=
        shop.readNode_eq (shop.layout.cell entry index) symbol spec
      have hbracket : spec.category ≠ .bracket := fun hcategory =>
        (Catalogue.bracket_iff_of_fault? hchecked hspec).1 hcategory hplain
      have hstart : ¬ (spec.category = .event ∨ spec.category = .function) := by
        rw [← Category.isEntry_iff, hentry]
        exact Bool.false_ne_true
      rw [hnodes, hnode, List.forall_mem_cons]
      refine ⟨⟨rfl, rfl, rfl, ?_⟩, ih (index + 1)⟩
      simp only [Node.head, List.mem_cons, List.not_mem_nil, or_false]
      tauto

/-- The nodes of a line were read from some of its cells, in their order. -/
theorem positions_scan (shop : Workshop) (entry : Position) (fuel index : Nat) :
    ∃ indices : List Nat, indices.Sublist (List.range' index fuel) ∧
      (Nesting.nodesOf (shop.scan entry fuel index).1).map (·.head.position) =
        indices.map fun index => some (shop.layout.cell entry index) := by
  induction fuel generalizing index with
  | zero => exact ⟨[], List.nil_sublist _, rfl⟩
  | succ fuel ih =>
    obtain ⟨indices, hindices, hpositions⟩ := ih (index + 1)
    rw [List.range'_succ]
    obtain hnone | hrest | ⟨symbol, spec, -, -, -, hnodes⟩ :=
      shop.nodesOf_scan_cases entry fuel index
    · exact ⟨[], List.nil_sublist _, by rw [hnone]; rfl⟩
    · exact ⟨indices, hindices.cons _, by rw [hrest, hpositions]⟩
    · obtain ⟨action, params, hnode⟩ :=
        shop.readNode_eq (shop.layout.cell entry index) symbol spec
      refine ⟨index :: indices, hindices.cons_cons _, ?_⟩
      rw [hnodes, hnode, List.map_cons, List.map_cons, hpositions]
      rfl

end Workshop

namespace Node

/-- The shape of the programs of lines that start at a cell. -/
@[mk_iff] structure Shaped (layout : Layout) (entry : Position) (root : Node) : Prop where
  /-- The program starts with an entry. -/
  starts : root.head.category = .event ∨ root.head.category = .function
  /-- The entry stands where the line starts. -/
  starts_at : root.head.position = some entry
  /-- Behind it there are no further entries, and no brackets. -/
  inner : ∀ head ∈ root.walk.tail, head.category ∉ [Category.event, .function, .bracket]
  /-- No node has a part in grouping. -/
  plain : ∀ head ∈ root.walk, head.bracket = .plain
  /-- Only conditions, alternatives and loops have children. -/
  containers : ∀ node ∈ root.owned, node.children ≠ [] →
    node.head.category ∈ [Category.condition, .alternative, .loop]
  /-- No child has a successor. -/
  last : ∀ node ∈ root.owned, ∀ child ∈ node.children, child.next = none
  /-- There are at most as many nodes as symbols in a line, and there is always the entry. -/
  count_le : root.count ≤ max layout.maxLineLength 1
  /-- The nodes behind the entry stand in different cells of the line, in their order. -/
  cells : ∃ indices : List Nat, indices.Pairwise (· < ·) ∧
    (∀ index ∈ indices, 1 ≤ index ∧ index < layout.maxLineLength) ∧
    root.walk.tail.map (·.position) = indices.map fun index => some (layout.cell entry index)

@[simp] theorem head_anonymous (node : Node) :
    node.anonymous.head = { node.head with id := 0 } := by
  obtain ⟨head, children, next⟩ := node
  rfl

theorem anonymousAll_eq_map (nodes : List Node) : anonymousAll nodes = nodes.map anonymous := by
  induction nodes with
  | nil => rfl
  | cons node rest ih => rw [anonymousAll, ih, List.map_cons]

@[simp] theorem children_anonymous (node : Node) :
    node.anonymous.children = node.children.map anonymous := by
  obtain ⟨head, children, next⟩ := node
  exact anonymousAll_eq_map children

@[simp] theorem next_anonymous (node : Node) : node.anonymous.next = node.next.map anonymous := by
  obtain ⟨head, children, next⟩ := node
  cases next <;> rfl

theorem walk_anonymous (node : Node) :
    node.anonymous.walk = node.walk.map ({ · with id := 0 }) := by
  rw [walk_eq, walk_eq, owned_anonymous, List.map_map, List.map_map]
  exact List.map_congr_left fun _ _ => head_anonymous _

theorem count_anonymous (node : Node) : node.anonymous.count = node.count := by
  rw [← length_owned, ← length_owned, owned_anonymous, List.length_map]

/-- The shape of a program does not depend on identities. -/
theorem shaped_anonymous {layout : Layout} {entry : Position} {root : Node} :
    root.anonymous.Shaped layout entry ↔ root.Shaped layout entry := by
  simp only [shaped_iff, walk_anonymous, owned_anonymous, count_anonymous, head_anonymous,
    children_anonymous, next_anonymous, ← List.map_tail, List.forall_mem_map, List.map_map,
    List.map_eq_nil_iff, Option.map_eq_none_iff, Function.comp_def, ne_eq]

/-- An entry with nodes in order behind it has the shape of a program. -/
theorem shaped_of_cells {layout : Layout} {entry : Position} {head : Instruction}
    {body : List Node} {indices : List Nat}
    (hstarts : head.category.isEntry = true) (hplain : head.bracket = .plain)
    (hposition : head.position = some entry)
    (hsheltered : ∀ node ∈ subtreesAll body, node.Sheltered)
    (hinner : ∀ head ∈ listing body,
      head.bracket = .plain ∧ head.category ∉ [Category.event, .function, .bracket])
    (hindices : indices.Sublist (List.range' 1 (layout.maxLineLength - 1)))
    (hcells : (listing body).map (·.position) =
      indices.map fun index => some (layout.cell entry index)) :
    (mk head [] (chain body)).Shaped layout entry := by
  have hlast : ∀ node ∈ subtreesAll body, node.next = none :=
    fun node hm => (hsheltered node hm).last
  have hwalk : (mk head [] (chain body)).walk = head :: listing body := by
    rw [walk, walkAll, List.nil_append, walkNext_chain hlast]
  have howned : (mk head [] (chain body)).owned =
      mk head [] (chain body) :: ownedNext (chain body) := by
    rw [owned, ownedAll, List.nil_append]
  constructor
  case starts => exact Category.isEntry_iff.1 hstarts
  case starts_at => exact hposition
  case inner =>
    rw [hwalk]
    exact fun other hm => (hinner other hm).2
  case plain =>
    rw [hwalk, List.forall_mem_cons]
    exact ⟨hplain, fun other hm => (hinner other hm).1⟩
  case containers =>
    rw [howned, List.forall_mem_cons]
    refine ⟨fun h => absurd rfl h, fun node hm hchildren => ?_⟩
    obtain ⟨other, hother, hhead, hsame⟩ := mem_ownedNext_chain hlast hm
    have hcontainer := (hsheltered other hother).container (hsame ▸ hchildren)
    exact Category.isContainer_iff.1 (hhead ▸ hcontainer)
  case last =>
    rw [howned, List.forall_mem_cons]
    refine ⟨List.forall_mem_nil _, fun node hm child hchild => ?_⟩
    obtain ⟨other, hother, -, hsame⟩ := mem_ownedNext_chain hlast hm
    exact hlast child (mem_subtreesAll_of_child (hsame ▸ hchild) body hother)
  case count_le =>
    have hlength := congrArg List.length hcells
    have hbound := hindices.length_le
    rw [List.length_map, List.length_map] at hlength
    rw [List.length_range'] at hbound
    have hcount : (mk head [] (chain body)).count = (listing body).length + 1 := by
      rw [← length_owned, ← List.length_map Node.head, ← walk_eq, hwalk, List.length_cons]
    omega
  case cells =>
    refine ⟨indices, (List.pairwise_lt_range' ..).sublist hindices, fun index hm => ?_, ?_⟩
    · have := List.mem_range'_1.1 (hindices.subset hm)
      omega
    · rw [hwalk]
      exact hcells

/-- New identities do not change the shape of a program. -/
theorem Shaped.renew {layout : Layout} {entry : Position} {root : Node}
    (h : root.Shaped layout entry) (ids : IdSource) : (root.renew ids).1.Shaped layout entry := by
  rw [← shaped_anonymous, anonymous_renew]
  exact shaped_anonymous.2 h

end Node

namespace Workshop

variable {shop : Workshop} {entry : Position}

/-- All that the compilation of a line can give. -/
theorem compileLine_eq_ok {ids after : IdSource} {program : Program}
    {findings : List CompileError}
    (h : shop.compileLine entry ids = .ok (program, findings, after)) :
    ∃ symbol category action params, category.isEntry = true ∧
      program.root = ((Node.mk ⟨0, symbol, category, action, params, .plain, some entry⟩ []
        (Node.chain (Nesting.ofTokens
          (shop.scan entry (shop.layout.maxLineLength - 1) 1).1).1)).renew ids).1 := by
  rw [compileLine] at h
  cases hentry : shop.readEntry entry with
  | error finding =>
    rw [hentry] at h
    cases h
  | ok start =>
    obtain ⟨kind, root, found⟩ := start
    obtain ⟨symbol, category, action, params, hcategory, rfl⟩ := readEntry_eq hentry
    rw [hentry] at h
    cases h
    exact ⟨symbol, category, action, params, hcategory, rfl⟩

/-- What nesting makes of a line consists of nodes that are neither entries nor brackets, read
from some of the cells behind the entry, in their order. -/
theorem cells_ofTokens (hchecked : shop.catalogue.fault? = none) (entry : Position)
    (fuel index : Nat) :
    let body := (Nesting.ofTokens (shop.scan entry fuel index).1).1
    (∀ node ∈ Node.subtreesAll body, node.Sheltered) ∧
    (∀ head ∈ Node.listing body,
      head.bracket = .plain ∧ head.category ∉ [Category.event, .function, .bracket]) ∧
    ∃ indices : List Nat, indices.Sublist (List.range' index fuel) ∧
      (Node.listing body).map (·.position) =
        indices.map fun index => some (shop.layout.cell entry index) := by
  intro body
  have hinner := inner_scan hchecked entry fuel index
  have hkept : (Node.listing body).Sublist
      ((Nesting.nodesOf (shop.scan entry fuel index).1).map Node.head) := by
    have hlisting := Nesting.listing_ofTokens_sublist (shop.scan entry fuel index).1
    rwa [Node.listing.eq_1 (Nesting.nodesOf _),
      Node.subtreesAll_of_single fun node hm => (hinner node hm).childless] at hlisting
  refine ⟨?_, fun head hm => ?_, ?_⟩
  · exact Nesting.sheltered_ofTokens fun node hm =>
      ⟨(hinner node hm).childless, (hinner node hm).last⟩
  · obtain ⟨node, hnode, rfl⟩ := List.mem_map.1 (hkept.subset hm)
    exact ⟨(hinner node hnode).plain, (hinner node hnode).category⟩
  · obtain ⟨indices, hindices, hpositions⟩ := shop.positions_scan entry fuel index
    have hmapped := hkept.map Instruction.position
    rw [List.map_map] at hmapped
    obtain ⟨kept, hsub, hcells⟩ := List.sublist_map_iff.1 (hpositions ▸ hmapped)
    exact ⟨kept, hsub.trans hindices, hcells⟩

/-- Whatever stands in the cells, lines that compile with a checked catalogue give programs of
the promised shape. -/
theorem compiled_lines_shaped {text : String} {ids after : IdSource} {program : Program}
    {findings : List CompileError} (hloaded : Catalogue.load text = .ok shop.catalogue)
    (hcompiled : shop.compileLine entry ids = .ok (program, findings, after)) :
    program.root.Shaped shop.layout entry := by
  obtain ⟨symbol, category, action, params, hcategory, hroot⟩ := compileLine_eq_ok hcompiled
  obtain ⟨hsheltered, hinner, indices, hindices, hcells⟩ :=
    cells_ofTokens (Catalogue.fault?_of_load hloaded) entry (shop.layout.maxLineLength - 1) 1
  rw [hroot]
  exact (Node.shaped_of_cells hcategory rfl rfl hsheltered hinner hindices hcells).renew ids

/-- A catalogue with an event, a loop and brackets, their parts written by position. -/
def fewSymbols : String :=
  "\x7b\"symbols\": \x7b\"on\": [\"event\"], \"do\": [\"loop\"], " ++
    "\"(\": [\"bracket\", \"open\"], \")\": [\"bracket\", \"close\"]\x7d\x7d"

/-- A line in which a loop stands below a loop. Behind it there are a bracket without a partner,
an unknown symbol, a third loop and another event. -/
def fewCells : World :=
  (["on", "do", "(", "do", ")", ")", "else", "do", "on", "do"].zipIdx).foldl
    (fun world (symbol, index) =>
      world.edit (.place (Layout.standard.cell ⟨0, 0, 0⟩ index) symbol)) (.empty "hub")

/-- The program of the line has four nodes and the promised shape. -/
theorem compiled_lines_shaped_few : ∃ catalogue program findings after,
    Catalogue.load fewSymbols = .ok catalogue ∧
    compileLine ⟨fewCells, catalogue, .standard⟩ ⟨0, 0, 0⟩ .initial =
      .ok (program, findings, after) ∧
    program.root.walk.map (·.symbol) = ["on", "do", "do", "do"] ∧
    program.root.Shaped .standard ⟨0, 0, 0⟩ := by
  have hwalk : (Catalogue.load fewSymbols).toOption.bind (fun catalogue =>
      (compileLine ⟨fewCells, catalogue, .standard⟩ ⟨0, 0, 0⟩ .initial).toOption.map fun result =>
        result.1.root.walk.map (·.symbol)) = some ["on", "do", "do", "do"] := by
    decide +kernel
  cases hloaded : Catalogue.load fewSymbols with
  | error error => simp [hloaded, Except.toOption] at hwalk
  | ok catalogue =>
    cases hcompiled : compileLine ⟨fewCells, catalogue, .standard⟩ ⟨0, 0, 0⟩ .initial with
    | error finding => simp [hloaded, hcompiled, Except.toOption] at hwalk
    | ok result =>
      obtain ⟨program, findings, after⟩ := result
      have hsymbols : program.root.walk.map (·.symbol) = ["on", "do", "do", "do"] := by
        simpa [hloaded, hcompiled, Except.toOption] using hwalk
      exact ⟨catalogue, program, findings, after, rfl, hcompiled, hsymbols,
        compiled_lines_shaped hloaded hcompiled⟩

end Workshop

end GridScript
