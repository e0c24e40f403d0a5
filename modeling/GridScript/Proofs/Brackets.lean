import GridScript.Compile.Nesting
import Mathlib.Data.List.Chain

/-!
# Partners of brackets

Brackets are matched from left to right, each closing bracket ending the nearest
group that is still open. So an opening and a closing bracket are partners exactly
if the stretch between them is balanced, that is, if every bracket in it has its
partner in it. The brackets without a partner, the node a group belongs to and the
grammar of lines are described here by balanced stretches alone, without a stack
of groups.
-/

namespace GridScript.Nesting

/-- Stretches of a line in which every bracket has its partner. -/
inductive Balanced : List LineToken → Prop where
  /-- Nothing. -/
  | nil : Balanced []
  /-- A node and what follows it. -/
  | node {rest : List LineToken} (node : Node) (hrest : Balanced rest) :
      Balanced (.node node :: rest)
  /-- A bracket with its partner, what stands between them and what follows. -/
  | group {inner rest : List LineToken} (start stop : Position) (hinner : Balanced inner)
      (hrest : Balanced rest) : Balanced (.opening start :: (inner ++ .closing stop :: rest))

/-- Two balanced stretches make up one. -/
theorem Balanced.append {first second : List LineToken} (hfirst : Balanced first)
    (hsecond : Balanced second) : Balanced (first ++ second) := by
  induction hfirst with
  | nil => exact hsecond
  | node node _ ih => exact .node node ih
  | group start stop hinner _ _ ih =>
    rw [List.cons_append, List.append_assoc, List.cons_append]
    exact .group start stop hinner ih

/-- Whether an opening bracket has its partner in what follows it. -/
def EndsGroup (after : List LineToken) : Prop :=
  ∃ inner stop rest, Balanced inner ∧ after = inner ++ .closing stop :: rest

/-- Whether a closing bracket has its partner in what stands before it. -/
def LeavesOpen (before : List LineToken) : Prop :=
  ∃ outer start inner, Balanced inner ∧ before = outer ++ .opening start :: inner

/-- How many groups that were open before are ended by some tokens. -/
def endings : List LineToken → Nat
  | [] => 0
  | .node _ :: rest => endings rest
  | .opening _ :: rest => endings rest - 1
  | .closing _ :: rest => endings rest + 1

/-- A balanced stretch ends nothing that was open before. -/
theorem Balanced.endings_append {tokens : List LineToken} (h : Balanced tokens)
    (rest : List LineToken) : endings (tokens ++ rest) = endings rest := by
  induction h generalizing rest with
  | nil => rfl
  | node node _ ih => exact ih rest
  | group start stop _ _ ihinner ihtail =>
    rw [List.cons_append, List.append_assoc, List.cons_append, endings, ihinner, endings, ihtail]
    omega

/-- Tokens that end a group do so behind a balanced stretch, and go on to end the
groups around it. -/
theorem exists_ending : (tokens : List LineToken) → 0 < endings tokens →
    ∃ inner stop rest, Balanced inner ∧ tokens = inner ++ .closing stop :: rest ∧
      endings tokens = endings rest + 1
  | .closing stop :: rest, _ => ⟨[], stop, rest, .nil, rfl, rfl⟩
  | .node node :: rest, h => by
    obtain ⟨inner, stop, tail, hinner, heq, hcount⟩ := exists_ending rest h
    exact ⟨.node node :: inner, stop, tail, .node node hinner, by rw [heq]; rfl, hcount⟩
  | .opening start :: rest, h => by
    rw [endings] at h ⊢
    obtain ⟨inner, stop, tail, hinner, heq, hcount⟩ := exists_ending rest (by omega)
    have hshorter : tail.length < rest.length := by
      rw [heq, List.length_append, List.length_cons]
      omega
    obtain ⟨next, stop', tail', hnext, heq', hcount'⟩ := exists_ending tail (by omega)
    refine ⟨.opening start :: (inner ++ .closing stop :: next), stop', tail',
      .group start stop hinner hnext, ?_, by omega⟩
    rw [heq, heq', List.cons_append, List.append_assoc, List.cons_append]
termination_by tokens => tokens.length

/-- Whether an opening bracket has its partner can be counted. -/
theorem endsGroup_iff {after : List LineToken} : EndsGroup after ↔ 0 < endings after := by
  constructor
  · rintro ⟨inner, stop, rest, hinner, rfl⟩
    rw [hinner.endings_append, endings]
    omega
  · intro h
    obtain ⟨inner, stop, rest, hinner, heq, -⟩ := exists_ending after h
    exact ⟨inner, stop, rest, hinner, heq⟩

instance (after : List LineToken) : Decidable (EndsGroup after) :=
  decidable_of_iff _ endsGroup_iff.symm

/-- A balanced stretch ends no group that was open before. -/
theorem Balanced.not_endsGroup {tokens : List LineToken} (h : Balanced tokens) :
    ¬ EndsGroup tokens := by
  have hcount := h.endings_append []
  rw [List.append_nil] at hcount
  rw [endsGroup_iff, hcount]
  exact Nat.lt_irrefl 0

/-- A closing bracket at the end gives a partner to an opening one that has none
exactly if the stretch between them is balanced. -/
theorem endsGroup_concat_closing {after : List LineToken} {stop : Position} :
    EndsGroup (after ++ [.closing stop]) ↔ EndsGroup after ∨ Balanced after := by
  constructor
  · rintro ⟨inner, stop', rest, hinner, heq⟩
    obtain rfl | ⟨rest, last, rfl⟩ := rest.eq_nil_or_concat'
    · obtain ⟨rfl, -⟩ := List.append_inj' heq rfl
      exact .inr hinner
    · rw [← List.cons_append, ← List.append_assoc] at heq
      obtain ⟨rfl, -⟩ := List.append_inj' heq rfl
      exact .inl ⟨inner, stop', rest, hinner, rfl⟩
  · rintro (⟨inner, stop', rest, hinner, rfl⟩ | hbalanced)
    · exact ⟨inner, stop', rest ++ [.closing stop], hinner, List.append_assoc ..⟩
    · exact ⟨after, stop, [], hbalanced, rfl⟩

/-- The opening brackets without a partner, from left to right. -/
def unended : List LineToken → List Position
  | [] => []
  | .node _ :: rest => unended rest
  | .opening start :: rest => if EndsGroup rest then unended rest else start :: unended rest
  | .closing _ :: rest => unended rest

/-- In a balanced stretch all opening brackets have partners. -/
theorem Balanced.unended_append {tokens : List LineToken} (h : Balanced tokens)
    (rest : List LineToken) : unended (tokens ++ rest) = unended rest := by
  induction h generalizing rest with
  | nil => rfl
  | node node _ ih => exact ih rest
  | @group inner tail start stop hinner _ ihinner ihtail =>
    have hends : EndsGroup (inner ++ .closing stop :: (tail ++ rest)) :=
      ⟨inner, stop, tail ++ rest, hinner, rfl⟩
    rw [List.cons_append, List.append_assoc, List.cons_append, unended, if_pos hends, ihinner,
      unended, ihtail]

/-- Tokens are balanced exactly if no closing and no opening bracket among them
lacks its partner. -/
theorem balanced_iff : (tokens : List LineToken) →
    (Balanced tokens ↔ ¬ EndsGroup tokens ∧ unended tokens = [])
  | [] => ⟨fun h => ⟨h.not_endsGroup, rfl⟩, fun _ => .nil⟩
  | token :: rest => by
    constructor
    · intro h
      have hnone := h.unended_append []
      rw [List.append_nil] at hnone
      exact ⟨h.not_endsGroup, hnone⟩
    · rintro ⟨hends, hnone⟩
      rw [endsGroup_iff] at hends
      cases token with
      | node node =>
        exact .node node ((balanced_iff rest).2 ⟨by rwa [endsGroup_iff], hnone⟩)
      | closing stop => exact absurd (Nat.succ_pos _) hends
      | opening start =>
        rw [unended] at hnone
        split at hnone
        · rename_i hgroup
          obtain ⟨inner, stop, tail, hinner, rfl⟩ := hgroup
          have hshorter : tail.length < (inner ++ .closing stop :: tail).length := by
            rw [List.length_append, List.length_cons]
            omega
          rw [hinner.unended_append] at hnone
          rw [endings, hinner.endings_append, endings] at hends
          exact .group start stop hinner
            ((balanced_iff tail).2 ⟨by rw [endsGroup_iff]; omega, hnone⟩)
        · cases hnone
termination_by tokens => tokens.length

/-- A token that ends nothing can be added without giving any bracket a partner. -/
theorem endings_concat {token : LineToken} (htoken : endings [token] = 0)
    (tokens : List LineToken) : endings (tokens ++ [token]) = endings tokens := by
  induction tokens with
  | nil => exact htoken
  | cons head rest ih => cases head <;> simp only [List.cons_append, endings, ih]

/-- A token that ends nothing leaves the opening brackets before it without partners,
and is another one if it is an opening bracket itself. -/
theorem unended_concat {token : LineToken} (htoken : endings [token] = 0)
    (tokens : List LineToken) :
    unended (tokens ++ [token]) = unended tokens ++ unended [token] := by
  induction tokens with
  | nil => rfl
  | cons head rest ih =>
    cases head with
    | node node => exact ih
    | closing stop => exact ih
    | opening start =>
      rw [List.cons_append, unended, unended, ih]
      simp only [endsGroup_iff, endings_concat htoken]
      split <;> rfl

/-- A closing bracket at the end is the partner of the last opening bracket that had
none. -/
theorem unended_concat_closing (tokens : List LineToken) (stop : Position) :
    unended (tokens ++ [.closing stop]) = (unended tokens).dropLast := by
  induction tokens with
  | nil => rfl
  | cons head rest ih =>
    cases head with
    | node node => exact ih
    | closing stop' => exact ih
    | opening start =>
      rw [List.cons_append, unended, unended, ih]
      by_cases hends : EndsGroup rest
      · rw [if_pos (endsGroup_concat_closing.2 (.inl hends)), if_pos hends]
      · rw [if_neg hends]
        by_cases hnone : unended rest = []
        · have hbalanced : Balanced rest := (balanced_iff rest).2 ⟨hends, hnone⟩
          rw [if_pos (endsGroup_concat_closing.2 (.inr hbalanced)), hnone]
          rfl
        · have hopen : ¬ Balanced rest := fun h => hnone ((balanced_iff rest).1 h).2
          rw [if_neg fun h => (endsGroup_concat_closing.1 h).elim hends hopen,
            List.dropLast_cons_of_ne_nil hnone]

/-- Opening brackets without a partner stay so whatever stands before them. -/
theorem unended_suffix (before tokens : List LineToken) :
    unended tokens <:+ unended (before ++ tokens) := by
  induction before with
  | nil => exact List.suffix_rfl
  | cons head rest ih =>
    cases head with
    | node node => exact ih
    | closing stop => exact ih
    | opening start =>
      rw [List.cons_append, unended]
      split
      · exact ih
      · exact ih.trans (List.suffix_cons ..)

/-- A closing bracket has a partner before it exactly if some opening bracket there has
none yet. -/
theorem leavesOpen_iff {before : List LineToken} : LeavesOpen before ↔ unended before ≠ [] := by
  constructor
  · rintro ⟨outer, start, inner, hinner, rfl⟩ hnone
    have hsuffix := unended_suffix outer (.opening start :: inner)
    rw [hnone, List.suffix_nil, unended, if_neg hinner.not_endsGroup] at hsuffix
    cases hsuffix
  · intro hsome
    induction before with
    | nil => exact absurd rfl hsome
    | cons head rest ih =>
      have hlater : unended rest ≠ [] → LeavesOpen (head :: rest) := by
        intro hrest
        obtain ⟨outer, start, inner, hinner, heq⟩ := ih hrest
        exact ⟨head :: outer, start, inner, hinner, by rw [heq]; rfl⟩
      by_cases hrest : unended rest = []
      · cases head with
        | node node => exact absurd hrest hsome
        | closing stop => exact absurd hrest hsome
        | opening start =>
          have hends : ¬ EndsGroup rest := by
            intro hends
            rw [unended, if_pos hends] at hsome
            exact hsome hrest
          exact ⟨[], start, rest, (balanced_iff rest).2 ⟨hends, hrest⟩, rfl⟩
      · exact hlater hrest

instance (before : List LineToken) : Decidable (LeavesOpen before) :=
  decidable_of_iff _ leavesOpen_iff.symm

/-- A balanced stretch leaves nothing open. -/
theorem Balanced.not_leavesOpen {tokens : List LineToken} (h : Balanced tokens) :
    ¬ LeavesOpen tokens := by
  rw [leavesOpen_iff, not_not]
  exact ((balanced_iff tokens).1 h).2

/-- The innermost group that is open after some tokens starts in one place only. -/
theorem outer_unique {outer outer' inner inner' : List LineToken} {start start' : Position}
    (hinner : Balanced inner) (hinner' : Balanced inner')
    (h : outer ++ .opening start :: inner = outer' ++ .opening start' :: inner') :
    outer = outer' := by
  rw [List.append_eq_append_iff] at h
  obtain ⟨between, rfl, heq⟩ | ⟨between, rfl, heq⟩ := h
  · cases between with
    | nil => exact (List.append_nil _).symm
    | cons head between =>
      obtain ⟨-, rfl⟩ := List.cons.inj heq
      exact absurd ⟨between, start', inner', hinner', rfl⟩ hinner.not_leavesOpen
  · cases between with
    | nil => exact List.append_nil _
    | cons head between =>
      obtain ⟨-, rfl⟩ := List.cons.inj heq
      exact absurd ⟨between, start, inner, hinner, rfl⟩ hinner'.not_leavesOpen

/-- The node that leads what comes next, if it is a container: it stands right
before, or only complete groups and closing brackets without a partner stand between. -/
inductive Leads (leader : Instruction) : List LineToken → Prop where
  /-- The node stands right before. -/
  | node {before : List LineToken} {node : Node} (hleader : node.head = leader)
      (hcontainer : leader.category.isContainer = true) : Leads leader (before ++ [.node node])
  /-- A complete group stands between. -/
  | group {before inner : List LineToken} {start stop : Position} (hled : Leads leader before)
      (hinner : Balanced inner) :
      Leads leader (before ++ .opening start :: inner ++ [.closing stop])
  /-- A closing bracket without a partner stands between. -/
  | stray {before : List LineToken} {stop : Position} (hled : Leads leader before)
      (hstray : ¬ LeavesOpen before) : Leads leader (before ++ [.closing stop])

variable {leader : Instruction} {before : List LineToken}

/-- Nothing leads the start of a line. -/
theorem not_leads_nil : ¬ Leads leader [] := by
  intro h
  generalize heq : ([] : List LineToken) = tokens at h
  cases h <;> simp at heq

/-- Right behind a node only that node leads. -/
theorem leads_concat_node {node : Node} : Leads leader (before ++ [.node node]) ↔
    node.head = leader ∧ leader.category.isContainer = true := by
  constructor
  · intro h
    generalize heq : before ++ [LineToken.node node] = tokens at h
    cases h with
    | node hleader hcontainer =>
      obtain ⟨-, heq⟩ := List.append_inj' heq rfl
      obtain rfl : node = _ := LineToken.node.inj (List.cons.inj heq).1
      exact ⟨hleader, hcontainer⟩
    | group hled hinner => cases (List.append_inj' heq rfl).2
    | stray hled hstray => cases (List.append_inj' heq rfl).2
  · rintro ⟨hleader, hcontainer⟩
    exact .node hleader hcontainer

/-- Nothing leads the start of a group. -/
theorem not_leads_concat_opening {start : Position} :
    ¬ Leads leader (before ++ [.opening start]) := by
  intro h
  generalize heq : before ++ [LineToken.opening start] = tokens at h
  cases h <;> cases (List.append_inj' heq rfl).2

/-- A closing bracket ends the innermost group, or it is a stray one; what leads behind
it has led before the group, or before the stray bracket. -/
theorem leads_concat_closing {stop : Position} : Leads leader (before ++ [.closing stop]) ↔
    (∃ outer start inner, before = outer ++ .opening start :: inner ∧ Balanced inner ∧
      Leads leader outer) ∨ ¬ LeavesOpen before ∧ Leads leader before := by
  constructor
  · intro h
    generalize heq : before ++ [LineToken.closing stop] = tokens at h
    cases h with
    | node hleader hcontainer => cases (List.append_inj' heq rfl).2
    | @group outer inner start _ hled hinner =>
      obtain ⟨rfl, -⟩ := List.append_inj' heq rfl
      exact .inl ⟨outer, start, inner, rfl, hinner, hled⟩
    | stray hled hstray =>
      obtain ⟨rfl, -⟩ := List.append_inj' heq rfl
      exact .inr ⟨hstray, hled⟩
  · rintro (⟨outer, start, inner, rfl, hinner, hled⟩ | ⟨hstray, hled⟩)
    · exact .group hled hinner
    · exact .stray hled hstray

/-- Whether a container node leads what comes next. -/
def Led (before : List LineToken) : Prop :=
  ∃ leader, Leads leader before

/-- A complete group changes nothing about what leads. -/
theorem Led.group {inner : List LineToken} {start stop : Position} (h : Led before)
    (hinner : Balanced inner) : Led (before ++ .opening start :: inner ++ [.closing stop]) := by
  obtain ⟨leader, hleads⟩ := h
  exact ⟨leader, hleads.group hinner⟩

/-- Right behind a node something leads exactly if the node is a container. -/
theorem led_concat_node {node : Node} :
    Led (before ++ [.node node]) ↔ node.head.category.isContainer = true := by
  constructor
  · rintro ⟨leader, hleads⟩
    obtain ⟨rfl, hcontainer⟩ := leads_concat_node.1 hleads
    exact hcontainer
  · exact fun hcontainer => ⟨node.head, .node rfl hcontainer⟩

/-- Well-bracketed lines are made of nodes, and of container nodes each with one group
right behind it. -/
inductive WellBracketed : List LineToken → Prop where
  /-- Nothing. -/
  | nil : WellBracketed []
  /-- A node and what follows it. -/
  | node {rest : List LineToken} (node : Node) (hrest : WellBracketed rest) :
      WellBracketed (.node node :: rest)
  /-- A container node with its group, and what follows. -/
  | container {inner rest : List LineToken} {node : Node} (start stop : Position)
      (hcontainer : node.head.category.isContainer = true) (hinner : WellBracketed inner)
      (hrest : WellBracketed rest) :
      WellBracketed (.node node :: .opening start :: (inner ++ .closing stop :: rest))

/-- Lines in which every group belongs to a container node. The node may have several
groups, one right behind the other; `led` says whether such a node, perhaps with groups
of its own, stands right before. -/
inductive Grouped : (led : Bool) → List LineToken → Prop where
  /-- Nothing. -/
  | nil {led : Bool} : Grouped led []
  /-- A node and what follows it. -/
  | node {led : Bool} {rest : List LineToken} (node : Node)
      (hrest : Grouped node.head.category.isContainer rest) : Grouped led (.node node :: rest)
  /-- A group of the node that stands before, and what follows it. -/
  | group {inner rest : List LineToken} (start stop : Position) (hinner : Grouped false inner)
      (hrest : Grouped true rest) :
      Grouped true (.opening start :: (inner ++ .closing stop :: rest))

variable {led : Bool} {tokens : List LineToken}

/-- In such lines all brackets have partners. -/
theorem Grouped.balanced (h : Grouped led tokens) : Balanced tokens := by
  induction h with
  | nil => exact .nil
  | node node _ ih => exact .node node ih
  | group start stop _ _ ihinner ihrest => exact .group start stop ihinner ihrest

/-- What needs no node before it may stand behind one. -/
theorem Grouped.behind (h : Grouped false tokens) : Grouped led tokens := by
  cases h with
  | nil => exact .nil
  | node node hrest => exact .node node hrest

/-- In well-bracketed lines every group belongs to a container node. -/
theorem WellBracketed.grouped (h : WellBracketed tokens) : Grouped false tokens := by
  induction h with
  | nil => exact .nil
  | node node _ ih => exact .node node ih.behind
  | container start stop hcontainer _ _ ihinner ihrest =>
    refine .node _ ?_
    rw [hcontainer]
    exact .group start stop ihinner ihrest.behind

/-- Two tokens of which the first is not a closing bracket or the second not an opening
one. -/
def Apart : LineToken → LineToken → Prop
  | .closing _, .opening _ => False
  | _, _ => True

/-- In well-bracketed lines no opening bracket stands right behind a closing one, and
none stands first. -/
theorem WellBracketed.apart (h : WellBracketed tokens) :
    tokens.IsChain Apart ∧ ∀ start, tokens.head? ≠ some (.opening start) := by
  have hnode (node : Node) (token : LineToken) : Apart (.node node) token := by
    cases token <;> trivial
  have hopening (start : Position) (token : LineToken) : Apart (.opening start) token := by
    cases token <;> trivial
  have hclosing (token : LineToken) (stop : Position) : Apart token (.closing stop) := by
    cases token <;> trivial
  induction h with
  | nil => exact ⟨.nil, fun _ h => nomatch h⟩
  | node node _ ih =>
    exact ⟨List.isChain_cons.2 ⟨fun token _ => hnode node token, ih.1⟩, fun _ h => nomatch h⟩
  | @container inner rest node start stop _ _ _ ihinner ihrest =>
    have hrest : (LineToken.closing stop :: rest).IsChain Apart := by
      refine List.isChain_cons.2 ⟨fun token hhead => ?_, ihrest.1⟩
      cases token with
      | node node => trivial
      | opening start => exact absurd hhead (ihrest.2 start)
      | closing stop => trivial
    have hgroup : (inner ++ .closing stop :: rest).IsChain Apart := by
      refine ihinner.1.append hrest fun token _ next hnext => ?_
      obtain rfl := Option.mem_some_iff.1 hnext
      exact hclosing token stop
    refine ⟨List.isChain_cons.2 ⟨fun token _ => hnode node token, ?_⟩, fun _ h => nomatch h⟩
    exact List.isChain_cons.2 ⟨fun token _ => hopening start token, hgroup⟩

/-- Lines in which every group belongs to a container node are well bracketed, up to a
group in front, as long as no opening bracket stands right behind a closing one. -/
theorem Grouped.wellBracketed (h : Grouped led tokens) (hapart : tokens.IsChain Apart) :
    WellBracketed tokens ∨ led = true ∧ ∃ start inner stop rest, WellBracketed inner ∧
      WellBracketed rest ∧ tokens = .opening start :: (inner ++ .closing stop :: rest) := by
  induction h with
  | nil => exact .inl .nil
  | node node _ ih =>
    refine .inl ?_
    obtain hrest | ⟨hcontainer, start, inner, stop, rest, hinner, hrest, rfl⟩ :=
      ih (List.isChain_cons.1 hapart).2
    · exact .node node hrest
    · exact .container start stop hcontainer hinner hrest
  | @group inner rest start stop _ _ ihinner ihrest =>
    have hgroup := (List.isChain_cons.1 hapart).2
    have hbehind := List.isChain_cons.1 hgroup.right_of_append
    refine .inr ⟨rfl, start, inner, stop, rest, ?_, ?_, rfl⟩
    · exact (ihinner hgroup.left_of_append).resolve_right fun h => nomatch h.1
    · refine (ihrest hbehind.2).resolve_right ?_
      rintro ⟨-, start', inner', stop', rest', -, -, rfl⟩
      exact hbehind.1 (.opening start') rfl

/-- Well-bracketed lines are those in which every group belongs to a container node and
no opening bracket stands right behind a closing one. -/
theorem wellBracketed_iff :
    WellBracketed tokens ↔ Grouped false tokens ∧ tokens.IsChain Apart := by
  constructor
  · exact fun h => ⟨h.grouped, h.apart.1⟩
  · rintro ⟨hgrouped, hapart⟩
    exact (hgrouped.wellBracketed hapart).resolve_right fun h => nomatch h.1

end GridScript.Nesting
