import GridScript.Proofs.Binding
import GridScript.Proofs.Containers
import GridScript.Proofs.Shape

/-!
# Function headers declare functions

The entry of a function is read from a label and a container, and what is read is kept in
the entry as text. When the definition is made, the text is read a second time. Whatever was
accepted the first time is read again as the same, so every function program has its
definition. The check of that definition can still fail, but only in what the reading of
single declarations does not rule out: a name that is not an identifier, a name that is
declared twice, and a question mark without a default.
-/

namespace GridScript

/-- The name of a kind is read as that kind. -/
theorem ValueKind.parse?_name (kind : ValueKind) : parse? kind.name = some kind := by
  cases kind <;> decide +kernel

namespace Parameter

variable {text : String} {param : Parameter}

/-- A declaration without an equals sign has no default. -/
theorem parse_without_default (h : parse text = .ok param)
    (hsplit : splitAtFirst? '=' text.toList = none) : param.fallback = none := by
  unfold parse at h
  cases hmark : dropMark? (Text.trimBoth text.toList) <;>
    simp only [bind, Except.bind, hsplit, hmark] at h
  all_goals
    split at h
    · split at h
      · split at h <;> cases h
        rfl
      · cases h
    · split at h <;> cases h
      rfl

/-- A declaration with an equals sign is optional. What is written behind the sign is
converted to the declared kind. -/
theorem parse_with_default {front content : List Char} (h : parse text = .ok param)
    (hsplit : splitAtFirst? '=' text.toList = some (front, content)) :
    param.required = false ∧ ∃ value, param.fallback = some value ∧
      (Value.text (String.ofList (Text.trimBoth content))).coerce param.kind = .ok value := by
  unfold parse at h
  cases hmark : dropMark? (Text.trimBoth front) <;>
    simp only [bind, Except.bind, hsplit, hmark] at h
  all_goals
    split at h
    · split at h
      · split at h
        · cases h
        · split at h <;> cases h
          exact ⟨rfl, _, rfl, ‹_›⟩
      · cases h
    · split at h
      · cases h
      · split at h <;> cases h
        exact ⟨rfl, _, rfl, ‹_›⟩

/-- Only optional parameters are read with a default, and the default has the kind that is
declared. -/
theorem parse_fits (h : parse text = .ok param) :
    (param.required = true → param.fallback = none) ∧
    ∀ value, param.fallback = some value → param.kind.accepts value.kind = true := by
  cases hsplit : splitAtFirst? '=' text.toList with
  | none =>
    have hnone := parse_without_default h hsplit
    exact ⟨fun _ => hnone, by simp [hnone]⟩
  | some parts =>
    obtain ⟨hoptional, value, hvalue, hcoerce⟩ := parse_with_default h hsplit
    refine ⟨fun hrequired => ?_, fun other hother => ?_⟩
    · rw [hoptional] at hrequired
      cases hrequired
    · cases hvalue.symm.trans hother
      exact Value.accepts_of_coerce hcoerce

/-- What is wrong with a parameter that was read, when others are declared before it. -/
inductive Flaw (before : List Parameter) (param : Parameter) : ValidationError → Prop where
  /-- Its name is not an identifier. -/
  | name (h : Text.isIdentifier param.name = false) :
    Flaw before param (.invalidParameterName param.name)
  /-- Its name was declared before. -/
  | repeated (h : param.name ∈ before.map (·.name)) :
    Flaw before param (.duplicateParameter param.name)
  /-- It is optional and has no default. -/
  | bare (hoptional : param.required = false) (hnone : param.fallback = none) :
    Flaw before param (.missingDefault param.name)

/-- The parameter that a slot of a header declares by the name of its item. -/
def ofSlot? (slot : Option Item) : Option Parameter :=
  slot.bind fun item => (parse (Text.trim (item.name.getD ""))).toOption

theorem exists_of_ofSlot? {slot : Option Item} (h : ofSlot? slot = some param) :
    ∃ text, parse text = .ok param := by
  obtain ⟨item, -, hread⟩ := Option.bind_eq_some_iff.1 h
  cases hparse : parse (Text.trim (item.name.getD "")) with
  | error error =>
    rw [hparse] at hread
    cases hread
  | ok read =>
    rw [hparse] at hread
    cases hread
    exact ⟨_, hparse⟩

end Parameter

namespace FunctionDefinition

/-- The check refuses a parameter that was read only for one of its flaws. -/
theorem flaw_of_parameterError? {text : String} {param : Parameter} {before : List Parameter}
    {error : ValidationError} (hread : Parameter.parse text = .ok param)
    (h : parameterError? (before.map (·.name)) param = some error) : param.Flaw before error := by
  obtain ⟨hneeded, hfits⟩ := Parameter.parse_fits hread
  unfold parameterError? at h
  split at h
  · rename_i hname
    cases h
    exact .name (by simpa using hname)
  split at h
  · rename_i hrepeated
    cases h
    exact .repeated (by simpa using hrepeated)
  split at h
  · rename_i hrequired hfallback
    cases hfallback.symm.trans (hneeded hrequired)
  · rename_i hoptional hnone
    cases h
    exact .bare hoptional hnone
  · rename_i hfallback
    rw [if_pos (hfits _ hfallback)] at h
    cases h
  · cases h

/-- If the check refuses parameters that were read, one of them has a flaw. -/
theorem flaw_of_parametersError? {params : List Parameter} (before : List Parameter)
    {error : ValidationError} (hread : ∀ param ∈ params, ∃ text, Parameter.parse text = .ok param)
    (h : parametersError? (before.map (·.name)) params = some error) :
    ∃ earlier param later, params = earlier ++ param :: later ∧
      param.Flaw (before ++ earlier) error := by
  induction params generalizing before with
  | nil => cases h
  | cons param rest ih =>
    rw [List.forall_mem_cons] at hread
    obtain ⟨⟨text, htext⟩, hrest⟩ := hread
    rw [parametersError?] at h
    split at h
    · rename_i first hfirst
      cases h
      exact ⟨[], param, rest, rfl, by
        rw [List.append_nil]
        exact flaw_of_parameterError? htext hfirst⟩
    · have hlater : parametersError? ((before ++ [param]).map (·.name)) rest = some error := by
        rw [List.map_append]
        exact h
      obtain ⟨earlier, found, later, rfl, hflaw⟩ := ih (before ++ [param]) hrest hlater
      exact ⟨param :: earlier, found, later, rfl, by simpa using hflaw⟩

/-- If a definition with a proper name and parameters that were read is refused, one of its
parameters has a flaw. -/
theorem flaw_of_validate {definition : FunctionDefinition} {error : ValidationError}
    (hname : Text.isIdentifier definition.name = true)
    (hread : ∀ param ∈ definition.params, ∃ text, Parameter.parse text = .ok param)
    (h : definition.validate = .error error) :
    ∃ before param later, definition.params = before ++ param :: later ∧
      param.Flaw before error := by
  have hrefused : parametersError? [] definition.params = some error := by
    unfold validate at h
    rw [if_neg (by simp [hname])] at h
    split at h
    · rename_i first hfirst
      cases h
      exact hfirst
    · cases h
  obtain ⟨before, param, later, hsplit, hflaw⟩ := flaw_of_parametersError? [] hread hrefused
  exact ⟨before, param, later, hsplit, by simpa using hflaw⟩

end FunctionDefinition

/-- A parameter that is set has its value, and the others keep theirs. -/
theorem Node.param?_setParam (node : Node) (name other : String) (value : Value) :
    (node.setParam name value).param? other =
      if name = other then some value else node.param? other := by
  obtain ⟨head, children, next⟩ := node
  exact ArrivalMap.get?_insert head.params name other value

namespace Workshop

variable {shop : Workshop} {position : Position}

/-- The lines of the label of a header that say something. -/
def headerLines (shop : Workshop) (position : Position) : List (List Char) :=
  (((shop.world.labelAt? (shop.layout.label position)).getD []).filter
    (! Text.isDecorative ·)).map fun line => Text.trimBoth (Text.stripFormatting line.toList)

/-- The kind that the second line of a header declares. -/
def headerReturns? (shop : Workshop) (position : Position) : Option ValueKind :=
  ((shop.headerLines position).tail.head?).bind readReturns?

/-- The slots of the container of a header. -/
def headerSlots (shop : Workshop) (position : Position) : List (Option Item) :=
  (shop.world.containerAt? (shop.layout.container position)).getD []

/-- The texts of the declarations in some slots. -/
def slotTexts (slots : List (Option Item)) : List String :=
  (slots.filterMap id).map fun item => Text.trim (item.name.getD "")

/-- Declarations that were found to be good are read again, with the same result. -/
theorem mapM_goodSpecs (texts : List String) :
    ((goodSpecs texts).map Value.text).mapM (fun item => Parameter.parse item.toText) =
      .ok (texts.filterMap fun text => (Parameter.parse text).toOption) := by
  induction texts with
  | nil => rfl
  | cons text rest ih =>
    rw [List.filterMap_cons]
    cases hparse : Parameter.parse text with
    | error error =>
      have hskip : goodSpecs (text :: rest) = goodSpecs rest := by
        simp [goodSpecs, hparse, Except.toOption]
      rw [hskip, ih]
      rfl
    | ok param =>
      have hkeep : goodSpecs (text :: rest) = text :: goodSpecs rest := by
        simp [goodSpecs, hparse, Except.toOption]
      rw [hkeep, List.map_cons, List.mapM_cons, Value.toText, hparse, ih]
      rfl

/-- The slots whose texts are read as declarations are those that declare a parameter. -/
theorem filterMap_slotTexts (slots : List (Option Item)) :
    (slotTexts slots).filterMap (fun text => (Parameter.parse text).toOption) =
      slots.filterMap Parameter.ofSlot? := by
  rw [slotTexts, List.filterMap_map, List.filterMap_filterMap]
  refine List.filterMap_congr fun slot _ => ?_
  cases slot with
  | none => simp only [id_eq, Option.bind_none, Parameter.ofSlot?]
  | some item => simp only [id_eq, Option.bind_some, Parameter.ofSlot?, Function.comp_apply]

/-- The entry of a function has a name that may be used, and keeps the declarations that
can be read and the kind of the returned value. -/
theorem readHeader_params {symbol : String} {spec : SymbolSpec} {kind : ProgramKind}
    {root : Node} {found : List CompileError}
    (h : shop.readHeader position symbol spec = .ok (kind, root, found)) :
    ∃ name, kind = .function name ∧ Text.isIdentifier name = true ∧
      root.param? "params" = some (.list
        ((goodSpecs (slotTexts (shop.headerSlots position))).map .text)) ∧
      root.param? "returns" = (shop.headerReturns? position).map fun kind => .text kind.name := by
  simp only [readHeader] at h
  split at h
  · cases h
  rename_i hname
  cases h
  refine ⟨_, rfl, by simpa using hname, ?_, ?_⟩
  · exact (Node.param?_setParam ..).trans (if_pos rfl)
  · rw [Node.param?_setParam, if_neg (by decide)]
    simp only [headerReturns?, headerLines]
    split
    · rename_i hreturns
      rw [Node.param?_setParam, if_pos rfl, hreturns, Option.map_some]
    · rename_i hreturns
      rw [Node.param?_setParam, if_neg (by decide), hreturns]
      rfl

/-- Only the entry of a function starts a function program. -/
theorem readHeader_of_readEntry {name : String} {root : Node} {found : List CompileError}
    (h : shop.readEntry position = .ok (.function name, root, found)) :
    ∃ symbol spec, shop.readHeader position symbol spec = .ok (.function name, root, found) := by
  rw [readEntry] at h
  split at h
  · cases h
  split at h
  · cases h
  split at h
  · cases h
  split at h
  · exact ⟨_, _, h⟩
  · cases h

/-- A function program keeps what was read for its entry. -/
theorem header_of_compileLine {entry : Position} {ids after : IdSource} {program : Program}
    {findings : List CompileError} {name : String}
    (h : shop.compileLine entry ids = .ok (program, findings, after))
    (hfunction : program.kind = .function name) :
    Text.isIdentifier name = true ∧ program.origin = ⟨shop.world.name, entry⟩ ∧
      program.root.param? "params" = some (.list
        ((goodSpecs (slotTexts (shop.headerSlots entry))).map .text)) ∧
      program.root.param? "returns" =
        (shop.headerReturns? entry).map fun kind => .text kind.name := by
  rw [compileLine] at h
  cases hentry : shop.readEntry entry with
  | error finding =>
    rw [hentry] at h
    cases h
  | ok start =>
    obtain ⟨kind, root, found⟩ := start
    rw [hentry] at h
    cases h
    cases hfunction
    obtain ⟨symbol, spec, hheader⟩ := readHeader_of_readEntry hentry
    obtain ⟨_, hkind, hname, hparams, hreturns⟩ := readHeader_params hheader
    cases hkind
    exact ⟨hname, rfl, hparams, hreturns⟩

/-- What an entry keeps is read again when the definition is made. -/
theorem ofProgram_of_header {program : Program} {name : String} {slots : List (Option Item)}
    {returns : Option ValueKind} (hfunction : program.kind = .function name)
    (hparams : program.root.param? "params" =
      some (.list ((goodSpecs (slotTexts slots)).map .text)))
    (hreturns : program.root.param? "returns" = returns.map fun kind => .text kind.name)
    (owner : Actor) (scope : FunctionScope) (fresh : IdSource) :
    FunctionDefinition.ofProgram program owner scope fresh = .ok
      ({ FunctionDefinition.plain name owner scope (Node.renewNext program.root.next fresh).1 with
        origin := program.origin
        params := slots.filterMap Parameter.ofSlot?
        returns := returns.getD .any },
        (Node.renewNext program.root.next fresh).2) := by
  have hread : (List.map Value.text (goodSpecs (slotTexts slots))).mapM
      (fun item => Parameter.parse item.toText) = .ok (slots.filterMap Parameter.ofSlot?) := by
    rw [mapM_goodSpecs, filterMap_slotTexts]
  have hkind : (program.root.param? "returns").bind
      (fun value => ValueKind.parse? value.toText) = returns := by
    rw [hreturns, Option.bind_map]
    cases returns with
    | none => rfl
    | some kind =>
      simp only [Option.bind_some, Function.comp_apply, Value.toText, ValueKind.parse?_name]
  simp only [FunctionDefinition.ofProgram, hfunction, hparams, hread, hkind, bind, Except.bind]

/-- Every function program has its definition, for any owner and scope. The parameters are
those that the slots of the container declare, in their order; slots without a declaration
that can be read are left out. The kind of the returned value is the declared one, and the
nodes are those of the line under new identities. If the definition is refused, one of its
parameters has a name that is not an identifier, or was declared before, or is optional and
has no default. -/
theorem headers_declare_functions {entry : Position} {ids after : IdSource} {program : Program}
    {findings : List CompileError} {name : String}
    (h : shop.compileLine entry ids = .ok (program, findings, after))
    (hfunction : program.kind = .function name) (owner : Actor) (scope : FunctionScope)
    (fresh : IdSource) :
    ∃ definition last,
      FunctionDefinition.ofProgram program owner scope fresh = .ok (definition, last) ∧
      definition.name = name ∧ definition.owner = owner ∧ definition.scope = scope ∧
      definition.origin = ⟨shop.world.name, entry⟩ ∧
      Node.anonymousNext definition.body = Node.anonymousNext program.root.next ∧
      definition.params = (shop.headerSlots entry).filterMap Parameter.ofSlot? ∧
      definition.returns = (shop.headerReturns? entry).getD .any ∧
      ∀ error, definition.validate = .error error → ∃ before param later,
        definition.params = before ++ param :: later ∧ param.Flaw before error := by
  obtain ⟨hname, horigin, hparams, hreturns⟩ := header_of_compileLine h hfunction
  refine ⟨_, _, ofProgram_of_header hfunction hparams hreturns owner scope fresh, rfl, rfl, rfl,
    horigin, Node.anonymousNext_renewNext _ _, rfl, rfl, fun error herror => ?_⟩
  refine FunctionDefinition.flaw_of_validate hname (fun param hm => ?_) herror
  obtain ⟨slot, -, hslot⟩ := List.mem_filterMap.1 hm
  exact Parameter.exists_of_ofSlot? hslot

/-- A symbol that heads functions. -/
def functionSymbol : SymbolSpec where
  category := .function
  bracket := .plain
  actions := .empty
  defaultAction := none

/-- The header of a function with five slots: one is empty, one names a kind that does not
exist, and one has a question mark without a default. -/
def headerShop : Workshop where
  world := (((World.empty "hub").edit (.place ⟨0, 0, 0⟩ "fn")).edit
    (.label ⟨0, 0, -1⟩ ["&adouble", "---", "-> Number "])).edit (.container ⟨0, 1, 0⟩
      [some ⟨"paper", 1, some " n : num"⟩, none, some ⟨"paper", 1, some "x:nonsense"⟩,
        some ⟨"paper", 1, some "scale:number = 2"⟩, some ⟨"paper", 1, some "mode?"⟩])
  catalogue := ⟨0, SortedMap.empty.insert "fn" functionSymbol, .empty⟩
  layout := .standard

/-- The two slots with good declarations and the one with the question mark give parameters,
and the question mark is refused. -/
theorem headers_declare_functions_double : ∃ program findings after definition last,
    headerShop.compileLine ⟨0, 0, 0⟩ .initial = .ok (program, findings, after) ∧
    program.kind = .function "double" ∧
    FunctionDefinition.ofProgram program ⟨"alex"⟩ .everyone .initial = .ok (definition, last) ∧
    definition.params = [⟨"n", .number, true, none⟩,
      ⟨"scale", .number, false, some (.number (.ofInt 2))⟩, ⟨"mode", .any, false, none⟩] ∧
    definition.returns = .number ∧
    definition.validate = .error (.missingDefault "mode") := by
  have hkind : (headerShop.compileLine ⟨0, 0, 0⟩ .initial).toOption.map (·.1.kind) =
      some (.function "double") := by
    decide +kernel
  cases hcompiled : headerShop.compileLine ⟨0, 0, 0⟩ .initial with
  | error finding => simp [hcompiled, Except.toOption] at hkind
  | ok result =>
    obtain ⟨program, findings, after⟩ := result
    have hfunction : program.kind = .function "double" := by
      simpa [hcompiled, Except.toOption] using hkind
    obtain ⟨definition, last, hmade, hname, -, -, -, -, hparams, hreturns, -⟩ :=
      headers_declare_functions hcompiled hfunction ⟨"alex"⟩ .everyone .initial
    have hdeclared : definition.params = [⟨"n", .number, true, none⟩,
        ⟨"scale", .number, false, some (.number (.ofInt 2))⟩, ⟨"mode", .any, false, none⟩] :=
      hparams.trans (by decide +kernel)
    refine ⟨program, findings, after, definition, last, rfl, hfunction, hmade, hdeclared,
      hreturns.trans (by decide +kernel), ?_⟩
    rw [FunctionDefinition.validate, hname, hdeclared]
    rfl

end Workshop

end GridScript
