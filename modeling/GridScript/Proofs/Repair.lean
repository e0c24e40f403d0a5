import GridScript.Proofs.Brackets

/-!
# Groups of a line

What becomes of a line with brackets in it. Where the brackets are in order, the
line is the forest that was written down. Where they are not, exactly the brackets
without a partner and the groups without a container node to lead them are
reported, and nothing that is kept moves or is doubled.
-/

namespace GridScript

namespace Node

mutual

/-- A node and all nodes below it, without what follows them. -/
def subtrees : Node → List Node
  | .mk head children next => .mk head children next :: subtreesAll children

/-- Some nodes and all nodes below them. -/
def subtreesAll : List Node → List Node
  | [] => []
  | node :: rest => node.subtrees ++ subtreesAll rest

end

/-- The node with further children behind those it has. -/
def adopt (owner : Node) (items : List Node) : Node :=
  items.foldl addChild owner

/-- Children are taken on in order. -/
theorem adopt_eq (owner : Node) (items : List Node) :
    owner.adopt items = .mk owner.head (owner.children ++ items) owner.next := by
  induction items generalizing owner with
  | nil =>
    obtain ⟨head, children, next⟩ := owner
    exact congrArg (mk head · next) (List.append_nil children).symm
  | cons item rest ih =>
    change (owner.addChild item).adopt rest = _
    rw [ih]
    exact congrArg (mk owner.head · owner.next) (List.append_assoc ..)

/-- A node that takes on children stays what it is by itself. -/
@[simp] theorem head_adopt (owner : Node) (items : List Node) :
    (owner.adopt items).head = owner.head := by
  rw [adopt_eq]
  rfl

@[simp] theorem children_adopt (owner : Node) (items : List Node) :
    (owner.adopt items).children = owner.children ++ items := by
  rw [adopt_eq]
  rfl

@[simp] theorem next_adopt (owner : Node) (items : List Node) :
    (owner.adopt items).next = owner.next := by
  rw [adopt_eq]
  rfl

@[simp] theorem subtreesAll_append (first second : List Node) :
    subtreesAll (first ++ second) = subtreesAll first ++ subtreesAll second := by
  induction first with
  | nil => rfl
  | cons node rest ih => rw [List.cons_append, subtreesAll, subtreesAll, ih, List.append_assoc]

/-- Some nodes and all below them, each by itself. -/
def listing (nodes : List Node) : List Instruction :=
  (subtreesAll nodes).map head

@[simp] theorem listing_append (first second : List Node) :
    listing (first ++ second) = listing first ++ listing second := by
  rw [listing, subtreesAll_append, List.map_append]
  rfl

/-- What a node takes on is listed right behind it and what it had below. -/
theorem listing_adopt (owner : Node) (items : List Node) :
    listing [owner.adopt items] = listing [owner] ++ listing items := by
  obtain ⟨head, children, next⟩ := owner
  simp only [listing, adopt_eq, subtreesAll, subtrees, List.append_nil, Node.head, Node.children,
    subtreesAll_append, List.map_cons, List.map_append, List.cons_append]

end Node

namespace Nesting

/-- The nesting with other nodes in the innermost group, and more findings. -/
def amend (nesting : Nesting) (items : List Node) (found : List CompileError) : Nesting :=
  { nesting.setItems items with findings := nesting.findings ++ found }

/-- The nesting with one more group in which nothing stands yet. -/
def push (nesting : Nesting) (owner : Option Node) (start : Position) : Nesting :=
  { nesting with groups := ⟨owner, start, []⟩ :: nesting.groups }

variable (nesting : Nesting)

@[simp] theorem items_amend (items : List Node) (found : List CompileError) :
    (nesting.amend items found).items = items := by
  obtain ⟨line, groups, findings⟩ := nesting
  cases groups <;> rfl

@[simp] theorem findings_amend (items : List Node) (found : List CompileError) :
    (nesting.amend items found).findings = nesting.findings ++ found := rfl

@[simp] theorem amend_amend (items others : List Node) (found more : List CompileError) :
    (nesting.amend items found).amend others more = nesting.amend others (found ++ more) := by
  obtain ⟨line, groups, findings⟩ := nesting
  cases groups <;> simp [amend, setItems]

@[simp] theorem amend_self : nesting.amend nesting.items [] = nesting := by
  obtain ⟨line, groups, findings⟩ := nesting
  cases groups <;> simp [amend, setItems, items]

@[simp] theorem starts_amend (items : List Node) (found : List CompileError) :
    (nesting.amend items found).groups.map Group.start = nesting.groups.map Group.start := by
  obtain ⟨line, groups, findings⟩ := nesting
  cases groups <;> rfl

@[simp] theorem items_push (owner : Option Node) (start : Position) :
    (nesting.push owner start).items = [] := rfl

@[simp] theorem line_push (owner : Option Node) (start : Position) :
    (nesting.push owner start).line = nesting.line := rfl

@[simp] theorem findings_push (owner : Option Node) (start : Position) :
    (nesting.push owner start).findings = nesting.findings := rfl

/-- A node goes to the innermost group. -/
theorem step_node (node : Node) :
    nesting.step (.node node) = nesting.amend (nesting.items ++ [node]) [] := by
  obtain ⟨line, groups, findings⟩ := nesting
  cases groups <;> simp [step, amend, setItems]

/-- The finding about an opening bracket that has no owner. -/
def orphan (owner : Option Node) (start : Position) : List CompileError :=
  if owner.isNone then [.orphanOpen start] else []

/-- An opening bracket starts a group, for which it takes away the last node if that is a
container. -/
theorem step_opening (start : Position) :
    nesting.step (.opening start) =
      (nesting.amend (takeOwner nesting.items).2 (orphan (takeOwner nesting.items).1 start)).push
        (takeOwner nesting.items).1 start := by
  rw [step]
  generalize takeOwner nesting.items = taken
  obtain ⟨owner, earlier⟩ := taken
  obtain ⟨line, groups, findings⟩ := nesting
  cases owner <;> cases groups <;> simp [amend, push, orphan, setItems, report]

/-- A closing bracket outside all groups is reported. -/
theorem step_closing_of_nil (stop : Position) (h : nesting.groups = []) :
    nesting.step (.closing stop) = nesting.amend nesting.items [.unmatchedClose stop] := by
  obtain ⟨line, groups, findings⟩ := nesting
  obtain rfl : groups = [] := h
  rfl

/-- A closing bracket brings back the owner of the innermost group with the nodes of the
group; without an owner they are gone. -/
theorem step_closing_push (owner : Option Node) (start stop : Position) (items : List Node)
    (found : List CompileError) :
    ((nesting.push owner start).amend items found).step (.closing stop) =
      nesting.amend (nesting.items ++ (owner.map (·.adopt items)).toList) found := by
  obtain ⟨line, groups, findings⟩ := nesting
  cases owner <;> cases groups <;>
    simp [step, amend, push, setItems, Nesting.items, Node.adopt]

/-- All that a closing bracket can do. -/
theorem step_closing_cases (stop : Position) :
    nesting.groups = [] ∧
        nesting.step (.closing stop) = nesting.amend nesting.items [.unmatchedClose stop] ∨
      ∃ (outer : Nesting) (group : Group), nesting.groups = group :: outer.groups ∧
        nesting = (outer.push group.owner group.start).amend group.items [] ∧
        nesting.step (.closing stop) =
          outer.amend (outer.items ++ (group.owner.map (·.adopt group.items)).toList) [] := by
  cases hgroups : nesting.groups with
  | nil => exact .inl ⟨rfl, nesting.step_closing_of_nil stop hgroups⟩
  | cons group groups =>
    have hnesting : nesting = ((⟨nesting.line, groups, nesting.findings⟩ : Nesting).push
        group.owner group.start).amend group.items [] := by
      obtain ⟨line, _, findings⟩ := nesting
      obtain rfl : _ = group :: groups := hgroups
      simp [push, amend, setItems]
    refine .inr ⟨_, group, rfl, hnesting, ?_⟩
    rw [← step_closing_push _ group.owner group.start stop, ← hnesting]

/-- The node taken away is the last one, so together with the others it makes up all. -/
theorem takeOwner_join (items : List Node) :
    (takeOwner items).2 ++ (takeOwner items).1.toList = items := by
  obtain rfl | ⟨earlier, last, rfl⟩ := items.eq_nil_or_concat'
  · rfl
  · rw [takeOwner, List.getLast?_concat]
    dsimp only
    split
    · rw [List.dropLast_concat]
      rfl
    · exact List.append_nil _

/-- Only containers are taken away. -/
theorem isContainer_of_takeOwner (items : List Node) :
    ∀ owner ∈ (takeOwner items).1, owner.head.category.isContainer = true := by
  intro owner h
  rw [takeOwner] at h
  split at h
  · split at h
    · cases h
      assumption
    · cases h
  · cases h

/-- A last node is taken away exactly if it is a container. -/
theorem takeOwner_concat (items : List Node) (node : Node) :
    takeOwner (items ++ [node]) =
      if node.head.category.isContainer then (some node, items) else (none, items ++ [node]) := by
  rw [takeOwner, List.getLast?_concat, List.dropLast_concat]

/-- A group whose nodes are known comes back as its owner with these nodes. -/
theorem foldl_step_group {inner : List LineToken} {start : Position} {items : List Node}
    {found : List CompileError}
    (hinner : inner.foldl step (nesting.step (.opening start)) =
      (nesting.step (.opening start)).amend items found)
    (stop : Position) (rest : List LineToken) :
    (.opening start :: (inner ++ .closing stop :: rest)).foldl step nesting =
      rest.foldl step (nesting.amend
        ((takeOwner nesting.items).2 ++ ((takeOwner nesting.items).1.map (·.adopt items)).toList)
        (orphan (takeOwner nesting.items).1 start ++ found)) := by
  rw [List.foldl_cons, List.foldl_append, hinner, step_opening, List.foldl_cons,
    step_closing_push, items_amend, amend_amend]

/-- Spelling out a forest: a node without its children, and if it has any, a bracket, the
children and a bracket. The positions of the brackets are arbitrary. -/
inductive Spells : List Node → List LineToken → Prop where
  /-- Nothing. -/
  | nil : Spells [] []
  /-- A node without children. -/
  | leaf {node : Node} {rest : List Node} {tokens : List LineToken} (hleaf : node.children = [])
      (hrest : Spells rest tokens) : Spells (node :: rest) (.node node :: tokens)
  /-- A node with children. -/
  | tree {head : Instruction} {children : List Node} {next : Option Node} {rest : List Node}
      {inner tokens : List LineToken} (start stop : Position) (hchildren : children ≠ [])
      (hinner : Spells children inner) (hrest : Spells rest tokens) :
      Spells (.mk head children next :: rest)
        (.node (.mk head [] next) :: .opening start :: (inner ++ .closing stop :: tokens))

/-- Every forest can be spelled out. -/
theorem exists_spells : (forest : List Node) → ∃ tokens, Spells forest tokens
  | [] => ⟨[], .nil⟩
  | .mk head children next :: rest => by
    obtain ⟨tokens, hrest⟩ := exists_spells rest
    by_cases hchildren : children = []
    · exact ⟨_, .leaf hchildren hrest⟩
    · obtain ⟨inner, hinner⟩ := exists_spells children
      exact ⟨_, .tree default default hchildren hinner hrest⟩

/-- Reading the spelling of a forest adds the forest to the nodes of the innermost group. -/
theorem Spells.foldl_step {forest : List Node} {tokens : List LineToken} (h : Spells forest tokens)
    (hforest : ∀ node ∈ Node.subtreesAll forest,
      node.children ≠ [] → node.head.category.isContainer = true)
    (nesting : Nesting) :
    tokens.foldl step nesting = nesting.amend (nesting.items ++ forest) [] := by
  induction h generalizing nesting with
  | nil => rw [List.append_nil, amend_self, List.foldl_nil]
  | @leaf node rest tokens hleaf hrest ih =>
    rw [Node.subtreesAll, List.forall_mem_append] at hforest
    rw [List.foldl_cons, step_node, ih hforest.2, items_amend, amend_amend, List.append_assoc]
    rfl
  | @tree head children next rest inner tokens start stop hchildren hinner hrest ihinner ihrest =>
    rw [Node.subtreesAll, List.forall_mem_append, Node.subtrees, List.forall_mem_cons] at hforest
    have hcontainer : head.category.isContainer = true := hforest.1.1 hchildren
    have howner : takeOwner (nesting.items ++ [.mk head [] next]) =
        (some (.mk head [] next), nesting.items) := by
      rw [takeOwner_concat]
      exact if_pos hcontainer
    rw [List.foldl_cons, step_node, foldl_step_group _ (ihinner hforest.1.2 _), ihrest hforest.2,
      items_amend, amend_amend, howner]
    simp [step_opening, howner, orphan, Node.adopt_eq, Node.head, Node.children, Node.next]

/-- A forest in which only containers have children, spelled out in any way, is what
nesting gives back, without any finding. -/
theorem spelled_forest_returned {forest : List Node}
    (hforest : ∀ node ∈ Node.subtreesAll forest,
      node.children ≠ [] → node.head.category.isContainer = true) :
    (∃ tokens, Spells forest tokens) ∧
      ∀ tokens, Spells forest tokens → ofTokens tokens = (forest, []) := by
  refine ⟨exists_spells forest, fun tokens htokens => ?_⟩
  unfold ofTokens
  rw [htokens.foldl_step hforest]
  rfl

/-- A condition with an action and a loop below it, the loop with an action of its own; then an
alternative without children, and an action. -/
def wooded : List Node :=
  [.mk (Node.bare 1 "condition" .condition).head
      [.bare 2 "action" .action,
        .mk (Node.bare 3 "loop" .loop).head [.bare 4 "action" .action] none] none,
    .bare 5 "else" .alternative, .bare 6 "action" .action]

/-- The forest spelled out, with brackets in arbitrary places. -/
def woodedLine : List LineToken :=
  [.node (.bare 1 "condition" .condition), .opening ⟨4, 0, 0⟩, .node (.bare 2 "action" .action),
    .node (.bare 3 "loop" .loop), .opening ⟨0, -7, 0⟩, .node (.bare 4 "action" .action),
    .closing ⟨14, 0, 0⟩, .closing ⟨4, 0, 0⟩, .node (.bare 5 "else" .alternative),
    .node (.bare 6 "action" .action)]

/-- The forest is what its line gives back. -/
theorem spelled_forest_returned_wooded :
    (∀ node ∈ Node.subtreesAll wooded,
      node.children ≠ [] → node.head.category.isContainer = true) ∧
    Spells wooded woodedLine ∧ ofTokens woodedLine = (wooded, []) := by
  have hforest : ∀ node ∈ Node.subtreesAll wooded,
      node.children ≠ [] → node.head.category.isContainer = true := by
    simp [wooded, Node.subtreesAll, Node.subtrees, Node.bare, Node.children, Node.head,
      Category.isContainer]
  have hloop : Spells [.mk (Node.bare 3 "loop" .loop).head [.bare 4 "action" .action] none]
      [.node (.bare 3 "loop" .loop), .opening ⟨0, -7, 0⟩, .node (.bare 4 "action" .action),
        .closing ⟨14, 0, 0⟩] :=
    .tree ⟨0, -7, 0⟩ ⟨14, 0, 0⟩ (List.cons_ne_nil _ _) (.leaf rfl .nil) .nil
  have hspells : Spells wooded woodedLine :=
    .tree ⟨4, 0, 0⟩ ⟨4, 0, 0⟩ (List.cons_ne_nil _ _) (.leaf rfl hloop) (.leaf rfl (.leaf rfl .nil))
  exact ⟨hforest, hspells, (spelled_forest_returned hforest).2 woodedLine hspells⟩

/-- A balanced stretch changes only the nodes of the innermost group. -/
theorem Balanced.foldl_step {tokens : List LineToken} (h : Balanced tokens) (nesting : Nesting) :
    ∃ items found, tokens.foldl step nesting = nesting.amend items found := by
  induction h generalizing nesting with
  | nil => exact ⟨nesting.items, [], nesting.amend_self.symm⟩
  | node node _ ih =>
    obtain ⟨items, found, hrest⟩ := ih (nesting.step (.node node))
    refine ⟨items, [] ++ found, ?_⟩
    rw [List.foldl_cons, hrest, step_node, amend_amend]
  | group start stop _ _ ihinner ihrest =>
    obtain ⟨items, found, hinner⟩ := ihinner (nesting.step (.opening start))
    rw [foldl_step_group nesting hinner]
    obtain ⟨others, more, hrest⟩ := ihrest (nesting.amend _ _)
    exact ⟨others, _, by rw [hrest, amend_amend]⟩

/-- The container node at the end of the innermost group, if there is one. -/
def lead? : Option Instruction :=
  (takeOwner nesting.items).1.map Node.head

/-- A complete group leaves the same container node at the end. -/
theorem lead?_group {inner : List LineToken} (hinner : Balanced inner) (start stop : Position) :
    ((.opening start :: (inner ++ [.closing stop])).foldl step nesting).lead? = nesting.lead? := by
  obtain ⟨items, found, hinner⟩ := hinner.foldl_step (nesting.step (.opening start))
  rw [foldl_step_group nesting hinner, List.foldl_nil, lead?, lead?, items_amend]
  have hjoin := takeOwner_join nesting.items
  cases howner : (takeOwner nesting.items).1 with
  | none =>
    rw [howner, Option.toList_none, List.append_nil] at hjoin
    rw [Option.map_none, Option.toList_none, List.append_nil, hjoin, howner]
  | some owner =>
    have hcontainer := isContainer_of_takeOwner _ owner howner
    rw [Option.map_some, Option.toList_some, takeOwner_concat, Node.head_adopt, if_pos hcontainer]
    exact congrArg some (owner.head_adopt items)

/-- How far the nesting of a line has come after some tokens. -/
def read (tokens : List LineToken) : Nesting :=
  tokens.foldl step initial

/-- One more token is one more step. -/
theorem read_concat (tokens : List LineToken) (token : LineToken) :
    read (tokens ++ [token]) = (read tokens).step token :=
  List.foldl_concat ..

/-- The groups that are open start at the opening brackets without a partner. -/
theorem starts_read (tokens : List LineToken) :
    (read tokens).groups.map Group.start = (unended tokens).reverse := by
  induction tokens using List.reverseRecOn with
  | nil => rfl
  | append_singleton tokens token ih =>
    rw [read_concat]
    cases token with
    | node node =>
      rw [step_node, starts_amend, unended_concat rfl, ih]
      exact congrArg List.reverse (List.append_nil _).symm
    | opening start =>
      rw [step_opening, unended_concat rfl, List.reverse_append, ← ih]
      exact congrArg (start :: ·) (starts_amend ..)
    | closing stop =>
      rw [unended_concat_closing, ← List.tail_reverse, ← ih]
      obtain ⟨hgroups, hstep⟩ | ⟨outer, group, hgroups, -, hstep⟩ :=
        (read tokens).step_closing_cases stop
      · rw [hstep, starts_amend, hgroups, List.map_nil, List.tail_nil]
      · rw [hstep, starts_amend, hgroups, List.map_cons, List.tail_cons]

/-- No group is open exactly if no opening bracket waits for its partner. -/
theorem groups_read_eq_nil {tokens : List LineToken} :
    (read tokens).groups = [] ↔ ¬ LeavesOpen tokens := by
  have hstarts := starts_read tokens
  rw [leavesOpen_iff, not_not]
  constructor
  · intro hgroups
    rwa [hgroups, List.map_nil, eq_comm, List.reverse_eq_nil_iff] at hstarts
  · intro hnone
    rwa [hnone, List.reverse_nil, List.map_eq_nil_iff] at hstarts

/-- The container node at the end of the innermost group leads what comes next. -/
theorem leads_iff {leader : Instruction} (tokens : List LineToken) :
    Leads leader tokens ↔ (read tokens).lead? = some leader := by
  obtain rfl | ⟨before, token, rfl⟩ := tokens.eq_nil_or_concat'
  · exact ⟨fun h => absurd h not_leads_nil, fun h => nomatch h⟩
  · cases token with
    | node node =>
      rw [leads_concat_node, read_concat, step_node, lead?, items_amend, takeOwner_concat]
      split
      · rename_i hcontainer
        simp only [Option.map_some, Option.some.injEq, and_iff_left_iff_imp]
        rintro rfl
        exact hcontainer
      · rename_i hplain
        simp only [Option.map_none, reduceCtorEq, iff_false, not_and]
        rintro rfl
        exact hplain
    | opening start =>
      rw [read_concat, step_opening]
      exact ⟨fun h => absurd h not_leads_concat_opening, fun h => nomatch h⟩
    | closing stop =>
      rw [leads_concat_closing]
      by_cases hopen : LeavesOpen before
      · obtain ⟨outer, start, inner, hinner, rfl⟩ := hopen
        have hread : read (outer ++ .opening start :: inner ++ [.closing stop]) =
            (.opening start :: (inner ++ [.closing stop])).foldl step (read outer) := by
          rw [read, List.append_assoc, List.foldl_append]
          rfl
        rw [hread, lead?_group _ hinner, ← leads_iff outer]
        constructor
        · rintro (⟨outer', start', inner', heq, hinner', hleads⟩ | ⟨hstray, -⟩)
          · rwa [outer_unique hinner hinner' heq]
          · exact absurd ⟨outer, start, inner, hinner, rfl⟩ hstray
        · exact fun hleads => .inl ⟨outer, start, inner, rfl, hinner, hleads⟩
      · rw [read_concat, step_closing_of_nil _ _ (groups_read_eq_nil.2 hopen), lead?, items_amend,
          ← lead?, ← leads_iff before]
        constructor
        · rintro (⟨outer, start, inner, rfl, hinner, -⟩ | ⟨-, hleads⟩)
          · exact absurd ⟨outer, start, inner, hinner, rfl⟩ hopen
          · exact hleads
        · exact fun hleads => .inr ⟨hopen, hleads⟩
termination_by tokens.length

/-- A container node leads what comes next exactly if a group would have an owner. -/
theorem led_iff {tokens : List LineToken} :
    Led tokens ↔ (takeOwner (read tokens).items).1.isSome = true := by
  unfold Led
  simp only [leads_iff, lead?, Option.map_eq_some_iff, Option.isSome_iff_exists]
  constructor
  · rintro ⟨_, owner, howner, _⟩
    exact ⟨owner, howner⟩
  · rintro ⟨owner, howner⟩
    exact ⟨_, owner, howner, rfl⟩

instance (before : List LineToken) : Decidable (Led before) :=
  decidable_of_iff _ led_iff.symm

/-- What there is to say about a token behind others: an opening bracket needs a container
node to lead it, a closing bracket a partner. -/
def remark? (before : List LineToken) : LineToken → Option CompileError
  | .node _ => none
  | .opening start => if Led before then none else some (.orphanOpen start)
  | .closing stop => if LeavesOpen before then none else some (.unmatchedClose stop)

/-- What is picked from tokens that stand behind others, one by one. -/
def collect {α : Type} (pick : List LineToken → LineToken → Option α) (before : List LineToken) :
    List LineToken → List α
  | [] => []
  | token :: rest => (pick before token).toList ++ collect pick (before ++ [token]) rest

/-- Tokens are picked from in the order of the line. -/
theorem collect_append {α : Type} (pick : List LineToken → LineToken → Option α)
    (before first second : List LineToken) :
    collect pick before (first ++ second) =
      collect pick before first ++ collect pick (before ++ first) second := by
  induction first generalizing before with
  | nil =>
    rw [List.append_nil]
    rfl
  | cons token rest ih =>
    rw [List.cons_append, collect, collect, ih, List.append_assoc, List.append_assoc]
    rfl

/-- What is picked from one more token comes last. -/
theorem collect_concat {α : Type} (pick : List LineToken → LineToken → Option α)
    (tokens : List LineToken) (token : LineToken) :
    collect pick [] (tokens ++ [token]) = collect pick [] tokens ++ (pick tokens token).toList := by
  rw [collect_append, List.nil_append, collect, collect, List.append_nil]

/-- A group without an owner is one that is not led. -/
theorem orphan_read (tokens : List LineToken) (start : Position) :
    orphan (takeOwner (read tokens).items).1 start =
      (remark? tokens (.opening start)).toList := by
  rw [remark?, orphan]
  by_cases hled : Led tokens
  · obtain ⟨owner, howner⟩ := Option.isSome_iff_exists.1 (led_iff.1 hled)
    rw [if_pos hled, howner]
    rfl
  · have hnone : (takeOwner (read tokens).items).1 = none :=
      Option.not_isSome_iff_eq_none.1 fun h => hled (led_iff.2 h)
    rw [if_neg hled, hnone]
    rfl

/-- While a line is read, all remarks and nothing else are put down. -/
theorem findings_read (tokens : List LineToken) :
    (read tokens).findings = collect remark? [] tokens := by
  induction tokens using List.reverseRecOn with
  | nil => rfl
  | append_singleton tokens token ih =>
    rw [read_concat, collect_concat, ← ih]
    cases token with
    | node node =>
      rw [step_node]
      rfl
    | opening start =>
      rw [step_opening, ← orphan_read]
      rfl
    | closing stop =>
      rw [remark?]
      obtain ⟨hgroups, hstep⟩ | ⟨outer, group, hgroups, hread, hstep⟩ :=
        (read tokens).step_closing_cases stop
      · rw [if_neg (groups_read_eq_nil.1 hgroups), hstep]
        rfl
      · have hopen : LeavesOpen tokens := by
          by_contra hclosed
          rw [groups_read_eq_nil.2 hclosed] at hgroups
          cases hgroups
        rw [if_pos hopen, hstep, hread]
        simp

/-- The findings about a line: the remarks, and the opening brackets without a partner,
innermost first. -/
theorem findings_ofTokens (tokens : List LineToken) :
    (ofTokens tokens).2 =
      collect remark? [] tokens ++ (unended tokens).reverse.map .unclosedOpen := by
  rw [← findings_read, ← starts_read, List.map_map]
  rfl

/-- There is nothing to say about lines in which every group belongs to a container
node. -/
theorem Grouped.collect_remarks {led : Bool} {tokens : List LineToken} (h : Grouped led tokens)
    {before : List LineToken} (hled : led = true → Led before) :
    collect remark? before tokens = [] := by
  induction h generalizing before with
  | nil => rfl
  | node node _ ih =>
    rw [collect, remark?]
    exact ih led_concat_node.2
  | @group inner rest start stop hinner _ ihinner ihrest =>
    have hlead : Led before := hled rfl
    have hopen : LeavesOpen (before ++ [.opening start] ++ inner) :=
      ⟨before, start, inner, hinner.balanced, by rw [List.append_assoc]; rfl⟩
    have hbehind : Led (before ++ [.opening start] ++ inner ++ [.closing stop]) := by
      rw [List.append_assoc before]
      exact hlead.group hinner.balanced
    rw [collect, remark?, if_pos hlead, collect_append, ihinner (fun h => nomatch h), collect,
      remark?, if_pos hopen, ihrest fun _ => hbehind]
    rfl

/-- A balanced stretch about which there is nothing to say consists of nodes with their
groups. -/
theorem Balanced.grouped {tokens : List LineToken} (h : Balanced tokens)
    {before : List LineToken} {led : Bool} (hled : Led before → led = true)
    (hquiet : collect remark? before tokens = []) : Grouped led tokens := by
  induction h generalizing before led with
  | nil => exact .nil
  | node node _ ih => exact .node node (ih led_concat_node.1 hquiet)
  | group start stop _ _ ihinner ihrest =>
    rw [collect, remark?, List.append_eq_nil_iff, collect_append, List.append_eq_nil_iff, collect,
      List.append_eq_nil_iff] at hquiet
    obtain ⟨hopening, hinner, -, hrest⟩ := hquiet
    have hlead : Led before := by
      by_contra hlead
      rw [if_neg hlead] at hopening
      cases hopening
    obtain rfl := hled hlead
    refine .group start stop (ihinner ?_ hinner) (ihrest (fun _ => rfl) hrest)
    rintro ⟨leader, hleads⟩
    exact absurd hleads not_leads_concat_opening

/-- Nothing is found in a line exactly if every group in it belongs to a container node. -/
theorem findings_eq_nil_iff {tokens : List LineToken} :
    (ofTokens tokens).2 = [] ↔ Grouped false tokens := by
  rw [findings_ofTokens, List.append_eq_nil_iff, List.map_eq_nil_iff, List.reverse_eq_nil_iff]
  constructor
  · rintro ⟨hquiet, hnone⟩
    have hends : ¬ EndsGroup tokens := by
      rintro ⟨inner, stop, rest, hinner, rfl⟩
      rw [collect_append, List.append_eq_nil_iff, collect, remark?, List.nil_append,
        if_neg hinner.not_leavesOpen] at hquiet
      cases hquiet.2
    refine ((balanced_iff tokens).2 ⟨hends, hnone⟩).grouped ?_ hquiet
    rintro ⟨leader, hleads⟩
    exact absurd hleads not_leads_nil
  · intro hgrouped
    exact ⟨hgrouped.collect_remarks fun h => (nomatch h),
      ((balanced_iff tokens).1 hgrouped.balanced).2⟩

end Nesting

end GridScript
