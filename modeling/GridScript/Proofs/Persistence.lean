import GridScript.Proofs.Records

/-!
# What is stored is read back

The document form of values, nodes, programs and function definitions loses
nothing: reading what was written gives back the same thing. Values and nodes are
read with a bound on the nesting of documents, so the statements about them hold
for every bound that the written document keeps.
-/

namespace GridScript

namespace Json

/-- A document with one more level than its content. -/
theorem depth_content_le {members : List (String × Json)} {levels : Nat}
    (h : (object members).depth ≤ levels + 1) {name : String} {content : Json}
    (hm : (name, content) ∈ members) : content.depth ≤ levels := by
  have hmembers : depthOfMembers members ≤ levels := by
    rw [depth] at h
    omega
  clear h
  induction members with
  | nil => cases hm
  | cons member rest ih =>
    obtain ⟨other, value⟩ := member
    rw [depthOfMembers] at hmembers
    rcases List.mem_cons.1 hm with heq | hm
    · cases heq
      omega
    · exact ih hm (by omega)

end Json

namespace Value

/-- A stored location is read back. -/
@[simp] theorem locationOfJson?_locationToJson (place : Place) :
    locationOfJson? (locationToJson place) = some place := by
  simp [locationOfJson?, locationToJson, Json.fields?, Json.member?, Json.asText?]

/-- A stored reference is read back. -/
@[simp] theorem referenceOfJson?_referenceToJson (reference : Reference) :
    referenceOfJson? (referenceToJson reference) = some reference := by
  simp [referenceOfJson?, referenceToJson, Json.fields?, Json.member?, Json.asText?]

/-- A stored value comes apart into its kind and its content, and the content is
read as it is met. -/
theorem tagged?_withKind (kind : ValueKind) (content : Json) (names : List String) :
    (withKind kind content).tagged? .direct "kind" "value" names =
      some ⟨kind.name, some content, .direct⟩ := by
  simp [withKind, Json.tagged?, Json.member?, Json.choiceName?, Json.comesBefore, ValueKind.toJson]

/-- What stands under a kind is one level less deep. -/
theorem depth_withKind (kind : ValueKind) (content : Json) :
    (withKind kind content).depth = content.depth + 1 := by
  simp [withKind, Json.depth, Json.depthOfMembers, ValueKind.toJson]

/-- A canonical map is one whose entries ascend and are canonical. -/
theorem isCanonical_map {entries : List (String × Value)} :
    (Value.map entries).isCanonical = true ↔
      Entries.Ascending entries ∧ entriesCanonical entries = true := by
  rw [isCanonical, Bool.and_eq_true, ascends, decide_eq_true_iff, List.pairwise_map]
  rfl

mutual

/-- A stored value is read back under every bound its document keeps. -/
theorem ofJsonWithin?_toJson : (value : Value) → value.isCanonical = true → (levels : Nat) →
    value.toJson.depth ≤ levels → ofJsonWithin? levels .direct value.toJson = some value
  | .text _, _, levels + 1, _ => by
    simp [toJson, ofJsonWithin?, tagged?_withKind, Json.asText?]
  | .number _, _, levels + 1, _ => by
    simp [toJson, ofJsonWithin?, tagged?_withKind, Json.asNumber?]
  | .bool _, _, levels + 1, _ => by
    simp [toJson, ofJsonWithin?, tagged?_withKind, Json.asBool?]
  | .list items, hc, levels + 1, hd => by
    rw [toJson, depth_withKind, Json.depth] at hd
    have hitems := itemsOfJsonWithin?_itemsToJson items hc levels (by omega)
    simp [toJson, ofJsonWithin?, tagged?_withKind, Json.asList?, hitems]
  | .map entries, hc, levels + 1, hd => by
    obtain ⟨hascending, hc⟩ := isCanonical_map.1 hc
    rw [toJson, depth_withKind, Json.depth] at hd
    have hentries := entriesOfJsonWithin?_entriesToJson entries hc levels (by omega)
    simp [toJson, ofJsonWithin?, tagged?_withKind, Json.asMembers?, hentries,
      Entries.ofList_eq_self hascending]
  | .item _, _, levels + 1, _ => by
    simp [toJson, ofJsonWithin?, tagged?_withKind]
  | .location _, _, levels + 1, _ => by
    simp [toJson, ofJsonWithin?, tagged?_withKind]
  | .actor _, _, levels + 1, _ => by
    simp [toJson, ofJsonWithin?, tagged?_withKind, Json.asText?]
  | .any _, _, levels + 1, _ => by
    simp [toJson, ofJsonWithin?, tagged?_withKind]
  | value, _, 0, hd => by
    cases value <;> simp [toJson, depth_withKind] at hd

/-- Stored items are read back. -/
theorem itemsOfJsonWithin?_itemsToJson : (items : List Value) → itemsCanonical items = true →
    (levels : Nat) → Json.depthOfItems (itemsToJson items) ≤ levels →
    (itemsToJson items).mapM (ofJsonWithin? levels .direct) = some items
  | [], _, _, _ => rfl
  | first :: rest, hc, levels, hd => by
    rw [itemsCanonical, Bool.and_eq_true] at hc
    rw [itemsToJson, Json.depthOfItems] at hd
    have hfirst := ofJsonWithin?_toJson first hc.1 levels (by omega)
    have hrest := itemsOfJsonWithin?_itemsToJson rest hc.2 levels (by omega)
    rw [itemsToJson, List.mapM_cons, hfirst, hrest]
    rfl

/-- Stored entries are read back. -/
theorem entriesOfJsonWithin?_entriesToJson : (entries : List (String × Value)) →
    entriesCanonical entries = true → (levels : Nat) →
    Json.depthOfMembers (entriesToJson entries) ≤ levels →
    ((entriesToJson entries).mapM fun (name, json) =>
      (ofJsonWithin? levels .direct json).map (name, ·)) = some entries
  | [], _, _, _ => rfl
  | (name, value) :: rest, hc, levels, hd => by
    rw [entriesCanonical, Bool.and_eq_true] at hc
    rw [entriesToJson, Json.depthOfMembers] at hd
    have hvalue := ofJsonWithin?_toJson value hc.1 levels (by omega)
    have hrest := entriesOfJsonWithin?_entriesToJson rest hc.2 levels (by omega)
    rw [entriesToJson, List.mapM_cons, hrest]
    dsimp only
    rw [hvalue]
    rfl

end

/-- A stored value is read back. -/
theorem ofJson?_toJson {value : Value} (h : value.isCanonical = true) :
    ofJson? value.toJson = some value :=
  ofJsonWithin?_toJson value h value.toJson.depth (Nat.le_refl _)

/-- No value is stored as null. -/
theorem toJson_ne_null (value : Value) : value.toJson ≠ .null := by
  cases value <;> simp [toJson, withKind]

end Value

namespace Instruction

/-- Whether a node by itself can be stored: its identity is one a counter can be
moved past, and its parameters are values whose maps are in order. -/
def Storable (head : Instruction) : Prop :=
  head.id < 0xFFFFFFFFFFFFFFFF ∧ ∀ entry ∈ head.params.entries, entry.2.isCanonical = true

instance (head : Instruction) : Decidable head.Storable :=
  inferInstanceAs (Decidable (_ ∧ _))

/-- The fields of a stored node, with the documents of its children and of its
successors. -/
def fields (head : Instruction) (children : List Json) (next : Option Json) :
    List (String × Option Json) :=
  [("id", some (.integer head.id.toNat)), ("symbol", some (.text head.symbol)),
    ("category", some (.text head.category.name)), ("action", head.action.map .text),
    ("params", if head.params.isEmpty then none
      else some (.object (head.params.entries.map fun (k, v) => (k, v.toJson)))),
    ("children", if children.isEmpty then none else some (.array children)),
    ("bracket", if head.bracket = .plain then none else some (.text head.bracket.name)),
    ("pos", head.position.map Position.toJson), ("next", next)]

/-- The members of a stored node are its fields without the empty ones. -/
theorem present_fields (head : Instruction) (children : List Json) (next : Option Json) :
    Json.present (head.fields children next) =
      head.members children ++ Json.present [("next", next)] := by
  obtain ⟨id, symbol, category, action, params, bracket, position⟩ := head
  unfold fields members
  cases action <;> cases position <;> split <;> split <;> split <;> rfl

/-- The documents of children are less deep than the node's. -/
theorem depth_children_le {head : Instruction} {children : List Json} {next : Option Json}
    {levels : Nat}
    (h : (Json.object (Json.present (head.fields children next))).depth ≤ levels + 1) :
    Json.depthOfItems children ≤ levels := by
  cases children with
  | nil => exact Nat.zero_le _
  | cons first rest =>
    have hm : ("children", Json.array (first :: rest)) ∈
        Json.present (head.fields (first :: rest) next) :=
      Json.mem_present (by simp [fields])
    have hdepth := Json.depth_content_le h hm
    rw [Json.depth] at hdepth
    omega

/-- The documents of successors are less deep than the node's. -/
theorem depth_next_le {head : Instruction} {children links : List Json} {levels : Nat}
    (h : (Json.object (Json.present (head.fields children (some (.array links))))).depth ≤
      levels + 1) : Json.depthOfItems links ≤ levels + 1 := by
  have hm : ("next", Json.array links) ∈
      Json.present (head.fields children (some (.array links))) :=
    Json.mem_present (by simp [fields])
  have hdepth := Json.depth_content_le h hm
  rw [Json.depth] at hdepth
  omega

/-- A stored identity is read back unless it is the greatest. -/
theorem idOfJson?_integer {id : NodeId} (h : id < 0xFFFFFFFFFFFFFFFF) :
    idOfJson? (.integer id.toNat) = some id := by
  have hne : id ≠ 0xFFFFFFFFFFFFFFFF := UInt64.ne_of_lt h
  simp [idOfJson?, hne]

/-- Stored parameters are read back in their order. -/
theorem paramsOfJson?_object {params : ArrivalMap String Value}
    (h : ∀ entry ∈ params.entries, entry.2.isCanonical = true) :
    paramsOfJson? (.object (params.entries.map fun (k, v) => (k, v.toJson))) = some params := by
  have hentries := Json.asMembers?_object fun entry hm => Value.ofJson?_toJson (h entry hm)
  unfold paramsOfJson?
  rw [hentries, Option.map_some, ArrivalMap.ofList_entries]

end Instruction

namespace Node

/-- Whether every node of a tree can be stored. -/
def Storable (node : Node) : Prop :=
  ∀ head ∈ node.walk, head.Storable

instance (node : Node) : Decidable node.Storable :=
  inferInstanceAs (Decidable (∀ head ∈ node.walk, head.Storable))

/-- A stored node comes apart into the node without successors and whatever its
list of successors is read as. -/
theorem partsOfJson?_present {α : Type} {child? : Json → Option Node} {link? : Json → Option α}
    {head : Instruction} (hs : head.Storable) {documents : List Json} {children : List Node}
    (hchildren : documents.mapM child? = some children) {next : Option Json} {links : List α}
    (hnext : Json.defaulted? [] (Json.asList? link?) next = some links) :
    partsOfJson? child? link? (.object (Json.present (head.fields documents next))) =
      some (.mk head children none, links) := by
  have hfields : Json.fields? fieldNames (.object (Json.present (head.fields documents next))) =
      some ((head.fields documents next).map Prod.snd) :=
    Json.fields?_present _ (by simp [Instruction.fields])
  have haction : Json.optional? Json.asText? (head.action.map .text) = some head.action :=
    Json.optional?_map (by simp) fun _ _ => rfl
  have hparams : Json.defaulted? .empty Instruction.paramsOfJson?
      (if head.params.isEmpty then none
        else some (.object (head.params.entries.map fun (k, v) => (k, v.toJson)))) =
      some head.params := by
    refine Json.defaulted?_ite (fun hempty => ?_) fun _ => Instruction.paramsOfJson?_object hs.2
    exact ArrivalMap.eq_of_entries_eq (List.isEmpty_iff.1 hempty)
  have hdocuments : Json.defaulted? [] (Json.asList? child?)
      (if documents.isEmpty then none else some (.array documents)) = some children := by
    refine Json.defaulted?_ite (fun hempty => ?_) fun _ => hchildren
    rw [List.isEmpty_iff.1 hempty] at hchildren
    exact (Option.some.inj hchildren).symm
  have hbracket : Json.defaulted? .plain (Json.choice? BracketRole.ofName?)
      (if head.bracket = .plain then none else some (.text head.bracket.name)) =
      some head.bracket :=
    Json.defaulted?_ite id fun _ => head.bracket.ofName?_name
  have hposition : Json.optional? Position.ofJson? (head.position.map Position.toJson) =
      some head.position :=
    Json.optional?_map (by simp [Position.toJson]) fun _ _ => Position.ofJson?_toJson _
  unfold partsOfJson?
  rw [hfields]
  simp [Instruction.fields, haction, hparams, hdocuments, hbracket, hposition, hnext,
    Instruction.idOfJson?_integer hs.1, Json.asText?, Json.choice?, Json.choiceName?,
    -List.isEmpty_iff]

/-- A node stored without successors comes apart into itself. -/
theorem partsOfJson?_alone {α : Type} {child? : Json → Option Node} (link? : Json → Option α)
    {head : Instruction} (hs : head.Storable) {documents : List Json} {children : List Node}
    (hchildren : documents.mapM child? = some children) :
    partsOfJson? child? link? (.object (Json.present (head.fields documents none))) =
      some (.mk head children none, []) :=
  partsOfJson?_present hs hchildren rfl

/-- A stored node holds the fields of its head, with its children and successors. -/
theorem toJson_mk (head : Instruction) (children : List Node) (next : Option Node) :
    (mk head children next).toJson = .object (Json.present (head.fields (childrenToJson children)
      (next.map fun node => .array (linksToJson node)))) := by
  rw [Instruction.present_fields]
  cases next with
  | none => rw [toJson, Option.map_none, Json.present_cons_none, Json.present_nil, List.append_nil]
  | some next => rw [toJson, Option.map_some, Json.present_cons_some, Json.present_nil]

/-- Where a chain is stored, every node of it is stored without successors. -/
theorem linksToJson_mk (head : Instruction) (children : List Node) (next : Option Node) :
    linksToJson (mk head children next) =
      .object (Json.present (head.fields (childrenToJson children) none)) ::
        next.elim [] linksToJson := by
  rw [Instruction.present_fields, Json.present_cons_none, Json.present_nil, List.append_nil]
  cases next <;> rfl

mutual

/-- A stored node is read back under every bound its document keeps. -/
theorem ofJsonWithin?_toJson : (node : Node) → node.Storable → (levels : Nat) →
    node.toJson.depth ≤ levels → ofJsonWithin? levels node.toJson = some node
  | .mk head children none, hs, levels + 1, hd => by
    rw [toJson_mk] at hd ⊢
    obtain ⟨hhead, hrest⟩ := List.forall_mem_cons.1 hs
    have hchildren := childrenOfJsonWithin?_childrenToJson children
      (fun other hm => hrest other (List.mem_append_left _ hm)) levels
      (Instruction.depth_children_le hd)
    rw [ofJsonWithin?]
    simp [partsOfJson?_alone _ hhead hchildren, chain, setNext, Node.head, Node.children]
  | .mk head children (some next), hs, levels + 1, hd => by
    rw [toJson_mk] at hd ⊢
    obtain ⟨hhead, hrest⟩ := List.forall_mem_cons.1 hs
    have hchildren := childrenOfJsonWithin?_childrenToJson children
      (fun other hm => hrest other (List.mem_append_left _ hm)) levels
      (Instruction.depth_children_le hd)
    obtain ⟨links, hlinks, hchain⟩ := linksOfJson?_linksToJson next
      (fun other hm => hrest other (List.mem_append_right _ hm)) levels
      (Instruction.depth_next_le hd)
    have hnext : Json.defaulted? [] (Json.asList? fun json =>
        (partsOfJson? (ofJsonWithin? levels) some json).map Prod.fst)
        (some (.array (linksToJson next))) = some links := hlinks
    rw [ofJsonWithin?]
    simp [partsOfJson?_present hhead hchildren hnext, hchain, setNext, Node.head, Node.children]
  | .mk head children next, _, 0, hd => by
    rw [toJson_mk, Json.depth] at hd
    omega

/-- Stored children are read back. -/
theorem childrenOfJsonWithin?_childrenToJson : (children : List Node) →
    (∀ head ∈ walkAll children, head.Storable) → (levels : Nat) →
    Json.depthOfItems (childrenToJson children) ≤ levels →
    (childrenToJson children).mapM (ofJsonWithin? levels) = some children
  | [], _, _, _ => rfl
  | node :: rest, hs, levels, hd => by
    rw [childrenToJson, Json.depthOfItems] at hd
    have hnode := ofJsonWithin?_toJson node
      (fun head hm => hs head (List.mem_append_left _ hm)) levels (by omega)
    have hrest := childrenOfJsonWithin?_childrenToJson rest
      (fun head hm => hs head (List.mem_append_right _ hm)) levels (by omega)
    rw [childrenToJson, List.mapM_cons, hnode, hrest]
    rfl

/-- Stored successors are read back, each without its own, and linked again. -/
theorem linksOfJson?_linksToJson : (node : Node) → node.Storable → (levels : Nat) →
    Json.depthOfItems (linksToJson node) ≤ levels + 1 →
    ∃ links, (linksToJson node).mapM (fun json =>
      (partsOfJson? (ofJsonWithin? levels) some json).map Prod.fst) = some links ∧
      chain links = some node
  | .mk head children none, hs, levels, hd => by
    rw [linksToJson_mk, Json.depthOfItems] at hd
    obtain ⟨hhead, hrest⟩ := List.forall_mem_cons.1 hs
    have hchildren := childrenOfJsonWithin?_childrenToJson children
      (fun other hm => hrest other (List.mem_append_left _ hm)) levels
      (Instruction.depth_children_le (Nat.le_trans (Nat.le_max_left _ _) hd))
    have hparts := partsOfJson?_alone some hhead hchildren
    refine ⟨[.mk head children none], ?_, rfl⟩
    rw [linksToJson_mk, List.mapM_cons, hparts]
    rfl
  | .mk head children (some next), hs, levels, hd => by
    rw [linksToJson_mk, Json.depthOfItems] at hd
    obtain ⟨hhead, hrest⟩ := List.forall_mem_cons.1 hs
    have hchildren := childrenOfJsonWithin?_childrenToJson children
      (fun other hm => hrest other (List.mem_append_left _ hm)) levels
      (Instruction.depth_children_le (Nat.le_trans (Nat.le_max_left _ _) hd))
    have hparts := partsOfJson?_alone some hhead hchildren
    obtain ⟨links, hlinks, hchain⟩ := linksOfJson?_linksToJson next
      (fun other hm => hrest other (List.mem_append_right _ hm)) levels
      (Nat.le_trans (Nat.le_max_right _ _) hd)
    refine ⟨.mk head children none :: links, ?_, ?_⟩
    · rw [linksToJson_mk, List.mapM_cons, hparts, Option.elim_some, hlinks]
      rfl
    · change some (setNext _ (chain links)) = _
      rw [hchain]
      rfl

end

/-- A stored node is read back. -/
theorem ofJson?_toJson {node : Node} (h : node.Storable) : ofJson? node.toJson = some node :=
  ofJsonWithin?_toJson node h node.toJson.depth (Nat.le_refl _)

/-- No node is stored as null. -/
theorem toJson_ne_null (node : Node) : node.toJson ≠ .null := by
  obtain ⟨head, children, next⟩ := node
  rw [toJson_mk]
  exact nofun

end Node

/-- A stored kind of program is read back. -/
@[simp] theorem ProgramKind.ofJson?_toJson (kind : ProgramKind) :
    ofJson? kind.toJson = some kind := by
  cases kind <;> simp [ofJson?, toJson, Json.isReadable, Json.membersReadable, Json.member?,
    Json.asText?, ofParts?, Json.fields?]

/-- A stored program is read back. -/
theorem Program.ofJson?_toJson {program : Program} (h : program.root.Storable) :
    ofJson? program.toJson = some program := by
  have hroot := Node.ofJson?_toJson h
  simp [ofJson?, toJson, Json.fields?, Json.member?, Json.asInteger?, hroot]

/-- A stored scope is read back. -/
@[simp] theorem FunctionScope.ofJson?_toJson (scope : FunctionScope) :
    ofJson? scope.toJson = some scope := by
  cases scope <;> simp [ofJson?, toJson, Json.tagged?, Json.member?, Json.choiceName?,
    Json.comesBefore, Json.asText?]

/-- A stored parameter is read back. -/
theorem Parameter.ofJson?_toJson {parameter : Parameter}
    (h : ∀ value ∈ parameter.fallback, value.isCanonical = true) :
    ofJson? parameter.toJson = some parameter := by
  obtain ⟨name, kind, required, fallback⟩ := parameter
  have hfallback : Json.optional? Value.ofJson? (fallback.map Value.toJson) = some fallback :=
    Json.optional?_map Value.toJson_ne_null fun value hm => Value.ofJson?_toJson (h value hm)
  cases fallback <;>
    simp_all [ofJson?, toJson, Json.fields?, Json.member?, Json.asText?, Json.asBool?]

namespace FunctionDefinition

/-- Whether a definition can be stored: every node of its body can, and the
values its parameters have by default are values whose maps are in order. -/
def Storable (definition : FunctionDefinition) : Prop :=
  (∀ node ∈ definition.body, node.Storable) ∧
    ∀ param ∈ definition.params, ∀ value ∈ param.fallback, value.isCanonical = true

/-- The fields of a stored definition. -/
def fields (definition : FunctionDefinition) : List (String × Option Json) :=
  [("name", some (.text definition.name)),
    ("params", some (.array (definition.params.map Parameter.toJson))),
    ("returns", some definition.returns.toJson), ("owner", some (.text definition.owner.name)),
    ("scope", some definition.scope.toJson), ("origin", some definition.origin.toJson),
    ("body", some ((definition.body.map Node.toJson).getD .null)),
    ("max_depth", definition.maxDepth.map fun depth => .integer depth.toNat),
    ("max_time_ms", definition.maxTimeMs.map fun time => .integer time.toNat),
    ("shared_with", if definition.sharedWith.isEmpty then none
      else some (.array (definition.sharedWith.map fun actor => .text actor.name)))]

/-- The members of a stored definition are its fields without the empty ones. -/
theorem toJson_eq (definition : FunctionDefinition) :
    definition.toJson = .object (Json.present definition.fields) := by
  obtain ⟨name, params, returns, owner, scope, origin, body, depth, time, shared⟩ := definition
  unfold toJson fields
  cases body <;> cases depth <;> cases time <;> dsimp only <;> split <;> rfl

/-- A stored definition is read back. -/
theorem ofJson?_toJson {definition : FunctionDefinition} (h : definition.Storable) :
    ofJson? definition.toJson = some definition := by
  obtain ⟨hbody, hparams⟩ := h
  have hfields : Json.fields? ["name", "params", "returns", "owner", "scope", "origin", "body",
      "max_depth", "max_time_ms", "shared_with"] (.object (Json.present definition.fields)) =
      some (definition.fields.map Prod.snd) :=
    Json.fields?_present _ (by simp [fields])
  have hlist : Json.asList? Parameter.ofJson? (.array (definition.params.map Parameter.toJson)) =
      some definition.params :=
    Json.asList?_array fun param hm => Parameter.ofJson?_toJson (hparams param hm)
  have hnode : Json.optional? Node.ofJson? (some ((definition.body.map Node.toJson).getD .null)) =
      some definition.body := by
    cases hb : definition.body with
    | none => rfl
    | some node =>
      change Json.optional? Node.ofJson? ((some node).map Node.toJson) = some (some node)
      refine Json.optional?_map Node.toJson_ne_null fun other hm => ?_
      exact Node.ofJson?_toJson (hbody other (hb ▸ hm))
  have hdepth : Json.optional? Json.asWord?
      (definition.maxDepth.map fun depth => .integer depth.toNat) = some definition.maxDepth :=
    Json.optional?_map (by simp) fun _ _ => Json.asWord?_integer _
  have htime : Json.optional? Json.asWord?
      (definition.maxTimeMs.map fun time => .integer time.toNat) = some definition.maxTimeMs :=
    Json.optional?_map (by simp) fun _ _ => Json.asWord?_integer _
  have hshared : Json.defaulted? [] (Json.asList? actorOfJson?)
      (if definition.sharedWith.isEmpty then none
        else some (.array (definition.sharedWith.map fun actor => .text actor.name))) =
      some definition.sharedWith :=
    Json.defaulted?_ite List.isEmpty_iff.1 fun _ => Json.asList?_array fun _ _ => rfl
  rw [toJson_eq]
  unfold ofJson?
  rw [hfields]
  simp [fields, Json.asText?, hlist, hnode, hdepth, htime, hshared, actorOfJson?,
    -List.isEmpty_iff]

end FunctionDefinition

/-- Storing loses nothing: every value whose maps are in order, every tree of
nodes with identities below the greatest, and every program and function made of
them is read back as exactly what was stored. -/
theorem storage_lossless :
    (∀ value : Value, value.isCanonical = true → Value.ofJson? value.toJson = some value) ∧
    (∀ node : Node, node.Storable → Node.ofJson? node.toJson = some node) ∧
    (∀ program : Program, program.root.Storable →
      Program.ofJson? program.toJson = some program) ∧
    (∀ definition : FunctionDefinition, definition.Storable →
      FunctionDefinition.ofJson? definition.toJson = some definition) :=
  ⟨fun _ => Value.ofJson?_toJson, fun _ => Node.ofJson?_toJson, fun _ => Program.ofJson?_toJson,
    fun _ => FunctionDefinition.ofJson?_toJson⟩

/-- A value with a map inside a list. -/
def nestedValue : Value :=
  .list [.map [("a", .bool true), ("b", .list [.text "x"])], .item ⟨"stone", 3, some "pile"⟩]

/-- A loop whose child has a successor of its own, followed by a call. -/
def nestedNode : Node :=
  .mk ⟨7, "L", .loop, some "for_each", .ofList [("list", nestedValue), ("as", .text "it")],
      .opening, some ⟨1, -2, 3⟩⟩
    [.mk ⟨8, "a", .action, none, .empty, .plain, none⟩ []
      (some (.bare 9 "b" .control))]
    (some (.mk ⟨0, "c", .call, some "call", .ofList [("function", .text "f")], .plain, none⟩ []
      (some (.bare 0xFFFFFFFFFFFFFFFE "d" .action))))

/-- A function shared with one actor, whose parameter is a nested value by default. -/
def nestedFunction : FunctionDefinition :=
  { FunctionDefinition.plain "f" ⟨"ann"⟩ (.world "hub") (some nestedNode) with
    params := [⟨"xs", .list, false, some nestedValue⟩], maxDepth := some 5,
    sharedWith := [⟨"bob"⟩] }

/-- Chains within chains and lists within maps are read back. -/
theorem storage_lossless_nested :
    (nestedValue.isCanonical = true ∧ nestedNode.Storable ∧ nestedFunction.Storable) ∧
    Value.ofJson? nestedValue.toJson = some nestedValue ∧
    Node.ofJson? nestedNode.toJson = some nestedNode ∧
    Program.ofJson? (Program.toJson ⟨.function "f", nestedNode, ⟨"hub", ⟨4, 0, 0⟩⟩, 2⟩) =
      some ⟨.function "f", nestedNode, ⟨"hub", ⟨4, 0, 0⟩⟩, 2⟩ ∧
    FunctionDefinition.ofJson? nestedFunction.toJson = some nestedFunction := by
  have hvalue : nestedValue.isCanonical = true := by decide +kernel
  have hnode : nestedNode.Storable := by decide +kernel
  have hfunction : nestedFunction.Storable := by
    refine ⟨fun node hm => ?_, fun param hm value hv => ?_⟩
    · obtain rfl : nestedNode = node := Option.some.inj hm
      exact hnode
    · obtain rfl := List.mem_singleton.1 hm
      obtain rfl : nestedValue = value := Option.some.inj hv
      exact hvalue
  obtain ⟨ofValue, ofNode, ofProgram, ofDefinition⟩ := storage_lossless
  exact ⟨⟨hvalue, hnode, hfunction⟩, ofValue _ hvalue, ofNode _ hnode, ofProgram _ hnode,
    ofDefinition _ hfunction⟩

end GridScript
