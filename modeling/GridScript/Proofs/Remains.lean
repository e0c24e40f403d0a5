import GridScript.Proofs.Repair

/-!
# What remains of a line

Nodes are lost in two ways only: with a group that has no owner, when the group
ends, and with a group that never ends, together with its owner. Whatever is kept
stands in the order of the line, and where nothing is reported everything is kept.
-/

namespace GridScript

/-- The node of a token, if it is one. -/
def LineToken.node? : LineToken → Option Node
  | .node here => some here
  | .opening _ => none
  | .closing _ => none

namespace Nesting

/-- The nodes of a line, without its brackets. -/
def nodesOf (tokens : List LineToken) : List Node :=
  tokens.filterMap LineToken.node?

/-- The nodes of the line and of the open groups, each group behind its owner. -/
def held (line : List Node) : List Group → List Node
  | [] => line
  | group :: outer => held line outer ++ group.owner.toList ++ group.items

variable (nesting : Nesting)

/-- All nodes there are, from the outermost group to the innermost. -/
def nodes : List Node :=
  held nesting.line nesting.groups

/-- The nodes around the innermost group. -/
def around : List Node :=
  match nesting.groups with
  | [] => []
  | group :: outer => held nesting.line outer ++ group.owner.toList

/-- The nodes of the innermost group come last. -/
theorem nodes_eq : nesting.nodes = nesting.around ++ nesting.items := by
  obtain ⟨line, groups, findings⟩ := nesting
  cases groups <;> rfl

@[simp] theorem nodes_amend (items : List Node) (found : List CompileError) :
    (nesting.amend items found).nodes = nesting.around ++ items := by
  obtain ⟨line, groups, findings⟩ := nesting
  cases groups <;> rfl

@[simp] theorem around_push (owner : Option Node) (start : Position) :
    (nesting.push owner start).around = nesting.nodes ++ owner.toList := rfl

@[simp] theorem nodes_push (owner : Option Node) (start : Position) :
    (nesting.push owner start).nodes = nesting.nodes ++ owner.toList :=
  List.append_nil _

/-- The finished nodes come first. -/
theorem exists_nodes_eq : ∃ rest, nesting.nodes = nesting.line ++ rest := by
  obtain ⟨line, groups, findings⟩ := nesting
  induction groups with
  | nil => exact ⟨[], (List.append_nil line).symm⟩
  | cons group outer ih =>
    obtain ⟨rest, hrest⟩ := ih
    refine ⟨rest ++ group.owner.toList ++ group.items, ?_⟩
    change held line outer ++ group.owner.toList ++ group.items = _
    rw [show held line outer = line ++ rest from hrest]
    simp only [List.append_assoc]

@[simp] theorem owners_amend (items : List Node) (found : List CompileError) :
    (nesting.amend items found).groups.map Group.owner = nesting.groups.map Group.owner := by
  obtain ⟨line, groups, findings⟩ := nesting
  cases groups <;> rfl

/-- Groups belong to containers, and those that belong to nothing are reported. -/
theorem owners_read (tokens : List LineToken) :
    ∀ taken ∈ (read tokens).groups.map Group.owner,
      (∀ owner ∈ taken, owner.head.category.isContainer = true) ∧
        ((read tokens).findings = [] → taken.isSome = true) := by
  induction tokens using List.reverseRecOn with
  | nil => exact fun _ h => nomatch h
  | append_singleton tokens token ih =>
    rw [read_concat]
    cases token with
    | node node =>
      rw [step_node, owners_amend, findings_amend, List.append_nil]
      exact ih
    | opening start =>
      rw [step_opening]
      change ∀ taken ∈ _ :: _, _ ∧ (_ ++ orphan _ _ = [] → _)
      rw [owners_amend, List.forall_mem_cons]
      constructor
      · refine ⟨isContainer_of_takeOwner _, fun hquiet => ?_⟩
        cases howner : (takeOwner (read tokens).items).1 with
        | none => rw [howner] at hquiet; cases (List.append_eq_nil_iff.1 hquiet).2
        | some owner => rfl
      · intro taken htaken
        exact ⟨(ih taken htaken).1,
          fun hquiet => (ih taken htaken).2 (List.append_eq_nil_iff.1 hquiet).1⟩
    | closing stop =>
      obtain ⟨hgroups, hstep⟩ | ⟨outer, group, hgroups, hread, hstep⟩ :=
        (read tokens).step_closing_cases stop
      · rw [hstep, owners_amend, hgroups]
        exact fun _ h => nomatch h
      · rw [hgroups, List.map_cons, List.forall_mem_cons] at ih
        rw [hstep, owners_amend, findings_amend, List.append_nil]
        rw [hread, findings_amend, findings_push, List.append_nil] at ih
        exact ih.2

/-- The nodes of one more token come last. -/
theorem nodesOf_concat (tokens : List LineToken) (token : LineToken) :
    nodesOf (tokens ++ [token]) = nodesOf tokens ++ token.node?.toList := by
  rw [nodesOf, List.filterMap_append]
  cases token <;> rfl

/-- What is reported stays reported. -/
theorem findings_of_concat {tokens : List LineToken} {token : LineToken}
    (h : (read (tokens ++ [token])).findings = []) : (read tokens).findings = [] := by
  rw [findings_read, collect_concat, List.append_eq_nil_iff, ← findings_read] at h
  exact h.1

/-- All that a token can do to the nodes: it adds its own, if it has one, or it ends a group.
Then the owner of the group takes on its nodes, and without an owner they are gone. -/
theorem nodes_step_cases (token : LineToken) :
    (nesting.step token).nodes = nesting.nodes ++ token.node?.toList ∨
      ∃ group ∈ nesting.groups, ∃ before, token.node? = none ∧
        nesting.nodes = before ++ group.owner.toList ++ group.items ∧
        (nesting.step token).nodes = before ++ (group.owner.map (·.adopt group.items)).toList := by
  cases token with
  | node here =>
    left
    rw [step_node, nodes_amend, ← List.append_assoc, ← nodes_eq]
    rfl
  | opening start =>
    left
    rw [step_opening, nodes_push, nodes_amend, List.append_assoc, takeOwner_join, ← nodes_eq]
    exact (List.append_nil _).symm
  | closing stop =>
    obtain ⟨-, hstep⟩ | ⟨outer, group, hgroups, hnesting, hstep⟩ :=
      nesting.step_closing_cases stop
    · left
      rw [hstep, nodes_amend, ← nodes_eq]
      exact (List.append_nil _).symm
    · right
      refine ⟨group, ?_, outer.nodes, rfl, ?_, ?_⟩
      · rw [hgroups]
        exact List.mem_cons_self
      · rw [hnesting, nodes_amend, around_push]
      · rw [hstep, nodes_amend, ← List.append_assoc, ← nodes_eq]

/-- A token adds its node to the others and lets none overtake another one. Nodes are lost
only with a group that has no owner. -/
theorem listing_step (token : LineToken) :
    (Node.listing (nesting.step token).nodes).Sublist
        (Node.listing (nesting.nodes ++ token.node?.toList)) ∧
      ((∀ taken ∈ nesting.groups.map Group.owner, taken.isSome = true) →
        Node.listing (nesting.step token).nodes =
          Node.listing (nesting.nodes ++ token.node?.toList)) := by
  obtain hadded | ⟨group, hgroup, before, hnone, hnodes, hended⟩ := nesting.nodes_step_cases token
  · rw [hadded]
    exact ⟨List.Sublist.refl _, fun _ => rfl⟩
  · rw [hnone, Option.toList_none, List.append_nil, hended, hnodes]
    cases howner : group.owner with
    | none =>
      simp only [Option.map_none, Option.toList_none, List.append_nil, Node.listing_append]
      refine ⟨List.sublist_append_left .., fun howned => ?_⟩
      have hsome := howned _ (List.mem_map_of_mem hgroup)
      rw [howner] at hsome
      cases hsome
    | some owner =>
      have hsame : Node.listing (before ++ ((some owner).map (·.adopt group.items)).toList) =
          Node.listing (before ++ (some owner).toList ++ group.items) := by
        simp only [Option.map_some, Option.toList_some, Node.listing_append, Node.listing_adopt,
          List.append_assoc]
      rw [hsame]
      exact ⟨List.Sublist.refl _, fun _ => rfl⟩

/-- While a line is read, its nodes are kept in their order. -/
theorem listing_read_sublist (tokens : List LineToken) :
    (Node.listing (read tokens).nodes).Sublist (Node.listing (nodesOf tokens)) := by
  induction tokens using List.reverseRecOn with
  | nil => exact List.Sublist.refl _
  | append_singleton tokens token ih =>
    rw [read_concat, nodesOf_concat, Node.listing_append]
    refine ((read tokens).listing_step token).1.trans ?_
    rw [Node.listing_append]
    exact ih.append_right _

/-- The nodes that are kept stand in the order of the line. -/
theorem listing_ofTokens_sublist (tokens : List LineToken) :
    (Node.listing (ofTokens tokens).1).Sublist (Node.listing (nodesOf tokens)) := by
  obtain ⟨lost, hlost⟩ := (read tokens).exists_nodes_eq
  refine List.Sublist.trans ?_ (listing_read_sublist tokens)
  rw [hlost, Node.listing_append]
  exact List.sublist_append_left ..

/-- As long as nothing is reported, no node is lost. -/
theorem listing_read_eq {tokens : List LineToken} (h : (read tokens).findings = []) :
    Node.listing (read tokens).nodes = Node.listing (nodesOf tokens) := by
  induction tokens using List.reverseRecOn with
  | nil => rfl
  | append_singleton tokens token ih =>
    have hquiet := findings_of_concat h
    rw [read_concat, ((read tokens).listing_step token).2 fun taken htaken =>
      (owners_read tokens taken htaken).2 hquiet, nodesOf_concat, Node.listing_append,
      Node.listing_append, ih hquiet]

/-- A node that is no container. -/
def IsPlain (node : Node) : Bool :=
  !node.head.category.isContainer

/-- The node of a token that stands outside all groups. -/
def outside? (before : List LineToken) (token : LineToken) : Option Node :=
  if LeavesOpen before then none else token.node?

/-- Whatever leaves the innermost group as it is, containers apart, does so with the line. -/
theorem filter_line_amend {items : List Node}
    (h : items.filter IsPlain = nesting.items.filter IsPlain) (found : List CompileError) :
    (nesting.amend items found).line.filter IsPlain = nesting.line.filter IsPlain := by
  obtain ⟨line, groups, findings⟩ := nesting
  cases groups with
  | nil => exact h
  | cons group outer => rfl

/-- Outside all groups the line itself is changed. -/
theorem line_amend_of_nil (h : nesting.groups = []) (items : List Node)
    (found : List CompileError) : (nesting.amend items found).line = items := by
  obtain ⟨line, groups, findings⟩ := nesting
  obtain rfl : groups = [] := h
  rfl

/-- Inside a group the line stays as it is. -/
theorem line_amend_of_ne_nil (h : nesting.groups ≠ []) (items : List Node)
    (found : List CompileError) : (nesting.amend items found).line = nesting.line := by
  obtain ⟨line, groups, findings⟩ := nesting
  cases groups with
  | nil => exact absurd rfl h
  | cons group outer => rfl

/-- The owner of a group is not among the nodes that are no containers. -/
theorem filter_owner {taken : Option Node}
    (h : ∀ owner ∈ taken, owner.head.category.isContainer = true) :
    taken.toList.filter IsPlain = [] := by
  cases taken with
  | none => rfl
  | some owner => simp [IsPlain, h owner rfl]

/-- Nodes that are no containers stay in the line exactly if they stand outside all groups. -/
theorem filter_line_read (tokens : List LineToken) :
    (read tokens).line.filter IsPlain = (collect outside? [] tokens).filter IsPlain := by
  induction tokens using List.reverseRecOn with
  | nil => rfl
  | append_singleton tokens token ih =>
    rw [read_concat, collect_concat, List.filter_append, ← ih]
    cases token with
    | node node =>
      rw [step_node, outside?]
      by_cases hopen : LeavesOpen tokens
      · rw [if_pos hopen, line_amend_of_ne_nil _ fun h => groups_read_eq_nil.1 h hopen]
        exact (List.append_nil _).symm
      · have hgroups := groups_read_eq_nil.2 hopen
        rw [if_neg hopen, line_amend_of_nil _ hgroups, items, hgroups, List.filter_append]
        rfl
    | opening start =>
      have hnone : outside? tokens (.opening start) = none := ite_self _
      have htaken := filter_owner (isContainer_of_takeOwner (read tokens).items)
      have hrest : (takeOwner (read tokens).items).2.filter IsPlain =
          (read tokens).items.filter IsPlain := by
        conv_rhs => rw [← takeOwner_join (read tokens).items, List.filter_append, htaken]
        exact (List.append_nil _).symm
      rw [hnone, step_opening, line_push, filter_line_amend _ hrest]
      exact (List.append_nil _).symm
    | closing stop =>
      have hnone : outside? tokens (.closing stop) = none := ite_self _
      rw [hnone]
      refine Eq.trans ?_ (List.append_nil _).symm
      obtain ⟨-, hstep⟩ | ⟨outer, group, hgroups, hread, hstep⟩ :=
        (read tokens).step_closing_cases stop
      · rw [hstep]
        exact filter_line_amend _ rfl _
      · have hreturned : ∀ owner ∈ group.owner.map (·.adopt group.items),
            owner.head.category.isContainer = true := by
          intro owner howner
          obtain ⟨taken, htaken, rfl⟩ := Option.map_eq_some_iff.1 howner
          rw [Node.head_adopt]
          exact (owners_read tokens group.owner (by simp [hgroups])).1 taken htaken
        rw [hstep, hread]
        refine filter_line_amend outer ?_ _
        rw [List.filter_append, filter_owner hreturned, List.append_nil]

/-- What has been found before has no influence on the nodes. -/
theorem step_congr {first second : Nesting} (hline : first.line = second.line)
    (hgroups : first.groups = second.groups) (token : LineToken) :
    (first.step token).line = (second.step token).line ∧
      (first.step token).groups = (second.step token).groups := by
  obtain ⟨line, groups, findings⟩ := first
  obtain ⟨_, _, findings'⟩ := second
  obtain rfl : line = _ := hline
  obtain rfl : groups = _ := hgroups
  cases token with
  | node node => cases groups <;> exact ⟨rfl, rfl⟩
  | opening start =>
    have hitems : (⟨line, groups, findings⟩ : Nesting).items =
        (⟨line, groups, findings'⟩ : Nesting).items := rfl
    rw [step_opening, step_opening, hitems]
    cases groups <;> exact ⟨rfl, rfl⟩
  | closing stop =>
    cases groups with
    | nil => exact ⟨rfl, rfl⟩
    | cons group outer =>
      obtain ⟨owner, start, items⟩ := group
      cases owner <;> cases outer <;> exact ⟨rfl, rfl⟩

/-- What has been found before has no influence on the finished nodes. -/
theorem line_foldl_congr {first second : Nesting} (hline : first.line = second.line)
    (hgroups : first.groups = second.groups) (tokens : List LineToken) :
    (tokens.foldl step first).line = (tokens.foldl step second).line := by
  induction tokens generalizing first second with
  | nil => exact hline
  | cons token rest ih =>
    have hstep := step_congr hline hgroups token
    exact ih hstep.1 hstep.2

/-- Nodes that stay as they are leave everything but the findings as it is. -/
theorem amend_items (found : List CompileError) :
    (nesting.amend nesting.items found).line = nesting.line ∧
      (nesting.amend nesting.items found).groups = nesting.groups := by
  obtain ⟨line, groups, findings⟩ := nesting
  cases groups <;> exact ⟨rfl, rfl⟩

/-- An opening bracket that is not led takes no node away. -/
theorem takeOwner_of_not_led {tokens : List LineToken} (h : ¬ Led tokens) :
    takeOwner (read tokens).items = (none, (read tokens).items) := by
  have hnone : (takeOwner (read tokens).items).1 = none :=
    Option.not_isSome_iff_eq_none.1 fun hsome => h (led_iff.2 hsome)
  have hjoin := takeOwner_join (read tokens).items
  rw [hnone, Option.toList_none, List.append_nil] at hjoin
  exact Prod.ext hnone hjoin

/-- A complete group that is not led might as well not be there. -/
theorem line_of_orphan {before inner : List LineToken} (hled : ¬ Led before)
    (hinner : Balanced inner) (start stop : Position) (rest : List LineToken) :
    (read (before ++ .opening start :: (inner ++ .closing stop :: rest))).line =
      (read (before ++ rest)).line := by
  obtain ⟨items, found, hfold⟩ := hinner.foldl_step ((read before).step (.opening start))
  have hgroup := foldl_step_group (read before) hfold stop rest
  rw [takeOwner_of_not_led hled, Option.map_none, Option.toList_none, List.append_nil] at hgroup
  have hsame := (read before).amend_items (orphan none start ++ found)
  rw [read, read, List.foldl_append, List.foldl_append]
  exact (congrArg line hgroup).trans (line_foldl_congr hsame.1 hsame.2 rest)

/-- As long as a group stays open, the line outside all groups does not change. -/
theorem line_foldl_of_endings {tokens : List LineToken} {nesting : Nesting}
    (h : endings tokens < nesting.groups.length) :
    (tokens.foldl step nesting).line = nesting.line := by
  have hlength (nesting : Nesting) (items : List Node) (found : List CompileError) :
      (nesting.amend items found).groups.length = nesting.groups.length := by
    have hstarts := congrArg List.length (nesting.starts_amend items found)
    rwa [List.length_map, List.length_map] at hstarts
  induction tokens generalizing nesting with
  | nil => rfl
  | cons token rest ih =>
    have hopen : nesting.groups ≠ [] := List.length_pos_iff.1 (Nat.zero_lt_of_lt h)
    rw [List.foldl_cons]
    cases token with
    | node node =>
      rw [endings] at h
      rw [ih (by rwa [step_node, hlength]), step_node, line_amend_of_ne_nil _ hopen]
    | opening start =>
      rw [endings] at h
      have hmore : endings rest < (nesting.step (.opening start)).groups.length := by
        rw [step_opening]
        change _ < (_ :: (nesting.amend _ _).groups).length
        rw [List.length_cons, hlength]
        omega
      rw [ih hmore, step_opening, line_push, line_amend_of_ne_nil _ hopen]
    | closing stop =>
      rw [endings] at h
      obtain ⟨hgroups, -⟩ | ⟨outer, group, hgroups, hnesting, hstep⟩ :=
        nesting.step_closing_cases stop
      · exact absurd hgroups hopen
      · rw [hgroups, List.length_cons] at h
        have houter : outer.groups ≠ [] := List.length_pos_iff.1 (by omega)
        rw [ih (by rw [hstep, hlength]; omega), hstep, line_amend_of_ne_nil _ houter, hnesting]
        rfl

/-- Behind an opening bracket that is not led and never ends its group nothing is kept. -/
theorem line_of_unended {before after : List LineToken} (hled : ¬ Led before)
    (hends : ¬ EndsGroup after) (start : Position) :
    (read (before ++ .opening start :: after)).line = (read before).line := by
  rw [endsGroup_iff, Nat.pos_iff_ne_zero, not_not] at hends
  have hopening : (read before).step (.opening start) =
      ((read before).amend (read before).items (orphan none start)).push none start := by
    rw [step_opening, takeOwner_of_not_led hled]
  have hopen : endings after < ((read before).step (.opening start)).groups.length := by
    rw [hends, hopening]
    exact Nat.succ_pos _
  rw [read, List.foldl_append, List.foldl_cons]
  refine (line_foldl_of_endings hopen).trans ?_
  rw [hopening, line_push]
  exact ((read before).amend_items _).1

/-- Nothing is found in a line exactly if every group in it belongs to a container node: one
right before it, or one with only other groups of it in between. Lines without findings in
which no group stands right behind another one are well bracketed. An opening bracket that no
container node leads is reported, and its group has no influence on the nodes of the line. -/
theorem quiet_lines_grouped (tokens : List LineToken) :
    ((ofTokens tokens).2 = [] ↔ Grouped false tokens) ∧
    (WellBracketed tokens ↔ (ofTokens tokens).2 = [] ∧ tokens.IsChain Apart) ∧
    ∀ before start after, tokens = before ++ .opening start :: after → ¬ Led before →
      .orphanOpen start ∈ (ofTokens tokens).2 ∧
      (∀ inner stop rest, Balanced inner → after = inner ++ .closing stop :: rest →
        (ofTokens tokens).1 = (ofTokens (before ++ rest)).1) ∧
      (¬ EndsGroup after → (ofTokens tokens).1 = (ofTokens before).1) := by
  refine ⟨findings_eq_nil_iff, ?_, ?_⟩
  · rw [findings_eq_nil_iff]
    exact wellBracketed_iff
  · rintro before start after rfl hled
    refine ⟨?_, ?_, fun hends => line_of_unended hled hends start⟩
    · rw [findings_ofTokens, collect_append, collect, remark?, List.nil_append, if_neg hled]
      simp
    · rintro inner stop rest hinner rfl
      exact line_of_orphan hled hinner start stop rest

/-- A condition with two groups, one right behind the other. -/
def twoGroups : List LineToken :=
  [.node (.bare 1 "condition" .condition), .opening ⟨4, 0, 0⟩, .node (.bare 2 "action" .action),
    .closing ⟨8, 0, 0⟩, .opening ⟨10, 0, 0⟩, .node (.bare 3 "action" .action),
    .closing ⟨14, 0, 0⟩]

/-- Lines without findings need not be well bracketed. -/
theorem quiet_lines_reopened :
    ¬ ∀ tokens, (ofTokens tokens).2 = [] → WellBracketed tokens := by
  intro hclaim
  have hquiet : (ofTokens twoGroups).2 = [] := rfl
  have hapart := (hclaim twoGroups hquiet).apart.1
  simp [twoGroups, Apart] at hapart

/-- The repair of a line is exact. The findings are the opening brackets that no container node
leads and the closing brackets without a partner, in the order of the line, and then the opening
brackets without a partner. Every other group belongs to the node that leads it. The nodes that
are kept stand in the order of the line, all nodes outside groups that are no containers are
among them, and all nodes if there are no findings. -/
theorem repair_exact (tokens : List LineToken) :
    (ofTokens tokens).2 =
      collect remark? [] tokens ++ (unended tokens).reverse.map .unclosedOpen ∧
    (∀ before start, before ++ [.opening start] <+: tokens →
      ∃ owner outer, (read (before ++ [.opening start])).groups = ⟨owner, start, []⟩ :: outer ∧
        ∀ leader, owner.map Node.head = some leader ↔ Leads leader before) ∧
    (Node.listing (ofTokens tokens).1).Sublist (Node.listing (nodesOf tokens)) ∧
    (ofTokens tokens).1.filter IsPlain = (collect outside? [] tokens).filter IsPlain ∧
    ((ofTokens tokens).2 = [] →
      Node.listing (ofTokens tokens).1 = Node.listing (nodesOf tokens)) := by
  refine ⟨findings_ofTokens tokens, fun before start _ => ?_, listing_ofTokens_sublist tokens,
    filter_line_read tokens, ?_⟩
  · rw [read_concat, step_opening]
    exact ⟨_, _, rfl, fun leader => (leads_iff before).symm⟩
  · intro hquiet
    obtain ⟨hfindings, hgroups⟩ := List.append_eq_nil_iff.1 hquiet
    have hnone : (read tokens).groups = [] := List.map_eq_nil_iff.1 hgroups
    rw [← listing_read_eq hfindings, nodes, hnone]
    rfl

end Nesting

end GridScript
