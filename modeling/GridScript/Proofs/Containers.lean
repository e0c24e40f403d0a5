import GridScript.Compile.Line
import GridScript.Proofs.Arrivals

/-!
# Containers become parameters

The slots of a container and the names that an action binds them to are gone through side
by side. A parameter that is bound to one slot is what the item there is read as, and one
that is bound to several slots is the list of all that could be read in them, in the order
of the slots. Every item in a bound slot that cannot be read is reported once. No other
slot matters, however long either side is.
-/

namespace GridScript

/-- The slots that a parameter is bound to, in order. -/
def ActionSpec.slotsOf (action : ActionSpec) (name : String) : List Nat :=
  (List.range action.slots.length).filter fun index => action.slots[index]? = some (some name)

/-- The slots that are bound to some parameter, in order. -/
def ActionSpec.boundSlots (action : ActionSpec) : List Nat :=
  (List.range action.slots.length).filter fun index => action.slots[index]?.join.isSome

/-- An element occurs in a list as often as there are places where it stands. -/
theorem count_eq_length_filter_range {α : Type} [BEq α] [LawfulBEq α] [DecidableEq α] (a : α)
    (as : List α) :
    as.count a = ((List.range as.length).filter fun index => as[index]? = some a).length := by
  induction as with
  | nil => rfl
  | cons b rest ih =>
    rw [List.length_cons, List.range_succ_eq_map, List.filter_cons, List.count_cons, ih,
      List.filter_map, List.getElem?_cons_zero]
    simp only [Function.comp_def, List.getElem?_cons_succ]
    by_cases hb : b = a <;> simp [hb]

/-- A parameter collects a list if it is bound to more than one slot. -/
theorem ActionSpec.isListParam_eq (action : ActionSpec) (name : String) :
    action.isListParam name = decide (1 < (action.slotsOf name).length) := by
  unfold isListParam slotsOf
  rw [count_eq_length_filter_range]

/-- Two lists gone through side by side, with the places, are gone through place by place. -/
theorem filterMap_zipIdx_zip {α β γ : Type} (pick : Nat → α → β → Option γ) (as : List α)
    (bs : List β) (start : Nat) :
    ((as.zip bs).zipIdx start).filterMap (fun entry => pick entry.2 entry.1.1 entry.1.2) =
      (List.range as.length).filterMap fun index =>
        as[index]?.bind fun a => bs[index]?.bind fun b => pick (start + index) a b := by
  induction as generalizing bs start with
  | nil => rfl
  | cons a as ih =>
    rw [List.length_cons, List.range_succ_eq_map, List.filterMap_cons, List.filterMap_map]
    cases bs with
    | nil => simp
    | cons b bs =>
      rw [List.zip_cons_cons, List.zipIdx_cons, List.filterMap_cons, ih bs (start + 1)]
      simp only [List.getElem?_cons_zero, Option.bind_some, Nat.add_zero, Function.comp_def,
        Nat.succ_eq_add_one, List.getElem?_cons_succ, Nat.add_assoc, Nat.add_comm 1]

namespace Workshop

/-- What the item in a slot of a container is read as, if there is one. -/
def content? (shop : Workshop) (slots : List (Option Item)) (index : Nat) :
    Option (Except Fault Value) :=
  slots[index]?.join.map fun item => shop.catalogue.readItem item shop.world.name

/-- The reading of a slot, if it is bound and holds an item. -/
def reading? (shop : Workshop) (action : ActionSpec) (slots : List (Option Item)) (index : Nat) :
    Option Reading :=
  action.slots[index]?.join.bind fun name =>
    (shop.content? slots index).map fun value => ⟨index, name, value⟩

/-- The bound slots that hold items are read one by one. -/
theorem readings_eq (shop : Workshop) (action : ActionSpec) (slots : List (Option Item)) :
    shop.readings action slots =
      (List.range action.slots.length).filterMap (shop.reading? action slots) := by
  let pick (slot : Nat) (binding : Option String) (item : Option Item) : Option Reading :=
    binding.bind fun name =>
      item.map fun item => ⟨slot, name, shop.catalogue.readItem item shop.world.name⟩
  have hpick : shop.readings action slots = (action.slots.zip slots).zipIdx.filterMap
      fun entry => pick entry.2 entry.1.1 entry.1.2 := by
    refine List.filterMap_congr fun entry _ => ?_
    obtain ⟨⟨_ | name, _ | item⟩, slot⟩ := entry <;> rfl
  rw [hpick, filterMap_zipIdx_zip pick]
  refine List.filterMap_congr fun index _ => ?_
  unfold reading? content?
  rw [Nat.zero_add]
  rcases action.slots[index]? with _ | _ | name
  · rfl
  · cases slots[index]? <;> rfl
  · rcases slots[index]? with _ | _ | item <;> rfl

/-- The values that were read for a parameter. -/
def valuesFor (name : String) (readings : List Reading) : List Value :=
  readings.filterMap fun reading => if reading.name = name then reading.value.toOption else none

/-- The values in the slots that a parameter is bound to, as far as they can be read. -/
def collected (shop : Workshop) (action : ActionSpec) (slots : List (Option Item))
    (name : String) : List Value :=
  (action.slotsOf name).filterMap fun index => (shop.content? slots index).bind Except.toOption

/-- These are the values that are read. -/
theorem valuesFor_readings (shop : Workshop) (action : ActionSpec) (slots : List (Option Item))
    (name : String) :
    valuesFor name (shop.readings action slots) = shop.collected action slots name := by
  unfold valuesFor collected ActionSpec.slotsOf
  rw [readings_eq, List.filterMap_filterMap, List.filterMap_filter]
  refine List.filterMap_congr fun index _ => ?_
  unfold reading?
  rcases action.slots[index]? with _ | _ | bound
  · rfl
  · rfl
  · cases shop.content? slots index with
    | none => simp
    | some value => simp

section Names

variable {action : ActionSpec} {readings : List Reading} {name : String}

theorem valuesFor_concat (last : Reading) : valuesFor name (readings ++ [last]) =
    valuesFor name readings ++ (if last.name = name then last.value.toOption else none).toList := by
  unfold valuesFor
  rw [List.filterMap_append, List.filterMap_cons, List.filterMap_nil]
  split <;> rename_i heq <;> rw [heq] <;> rfl

/-- A parameter that collects no list is what was last read for it. -/
theorem get?_singleParams : (singleParams action readings).get? name =
    if action.isListParam name then none else (valuesFor name readings).getLast? := by
  induction readings using List.reverseRecOn with
  | nil => exact (ite_self none).symm
  | append_singleton readings last ih =>
    rw [valuesFor_concat, singleParams, List.foldl_append, List.foldl_cons, List.foldl_nil,
      ← singleParams]
    cases last.value with
    | error fault => simpa [Except.toOption] using ih
    | ok value =>
      dsimp only
      by_cases hname : last.name = name
      · subst hname
        by_cases hlist : action.isListParam last.name
        · rw [if_pos hlist, ih, if_pos hlist, if_pos hlist]
        · rw [if_neg hlist, if_neg hlist, if_pos rfl, ArrivalMap.get?_insert, if_pos rfl]
          exact (List.getLast?_concat ..).symm
      · rw [if_neg hname, Option.toList_none, List.append_nil, ← ih]
        split
        · rfl
        · rw [ArrivalMap.get?_insert, if_neg hname]

/-- A parameter that collects a list has all values that were read for it, if there are any. -/
theorem get?_listParams : (listParams action readings).get? name =
    if action.isListParam name = true ∧ valuesFor name readings ≠ [] then
      some (valuesFor name readings)
    else none := by
  induction readings using List.reverseRecOn with
  | nil => exact (if_neg fun h => h.2 rfl).symm
  | append_singleton readings last ih =>
    rw [valuesFor_concat, listParams, List.foldl_append, List.foldl_cons, List.foldl_nil,
      ← listParams]
    cases last.value with
    | error fault => simpa [Except.toOption] using ih
    | ok value =>
      dsimp only
      by_cases hname : last.name = name
      · subst hname
        by_cases hlist : action.isListParam last.name
        · have hbefore : ((listParams action readings).get? last.name).getD [] =
              valuesFor last.name readings := by
            rw [ih]
            by_cases hnone : valuesFor last.name readings = [] <;> simp [hlist, hnone]
          rw [if_pos hlist, ArrivalMap.get?_insert, if_pos rfl, hbefore, if_pos rfl]
          exact (if_pos ⟨hlist, by simp [Except.toOption]⟩).symm
        · rw [if_neg hlist, ih, if_neg fun h => hlist h.1, if_neg fun h => hlist h.1]
      · rw [if_neg hname, Option.toList_none, List.append_nil, ← ih]
        split
        · rw [ArrivalMap.get?_insert, if_neg hname]
        · rfl

/-- Lists that are put in replace what was there. -/
theorem get?_foldl_lists (lists : List (String × List Value)) (params : ArrivalMap String Value)
    (hd : (lists.map Prod.fst).Nodup) :
    (lists.foldl (fun params (name, values) => params.insert name (.list values)) params).get?
        name =
      ((lists.lookup name).map Value.list).or (params.get? name) := by
  induction lists generalizing params with
  | nil => rfl
  | cons entry rest ih =>
    obtain ⟨hown, hrest⟩ := List.nodup_cons.1 hd
    rw [List.foldl_cons, ih _ hrest, ArrivalMap.get?_insert, List.lookup_cons]
    by_cases hname : entry.1 = name
    · subst hname
      rw [if_pos rfl, ArrivalMap.lookup_of_not_mem hown, beq_self_eq_true]
      rfl
    · rw [if_neg hname, beq_false_of_ne (Ne.symm hname)]

end Names

/-- A missing container is like an empty one. -/
theorem readParams_eq (shop : Workshop) (position : Position) (action : ActionSpec) :
    let slots := (shop.world.containerAt? (shop.layout.container position)).getD []
    shop.readParams position action =
      ((listParams action (shop.readings action slots)).entries.foldl
        (fun params (name, values) => params.insert name (.list values))
        (singleParams action (shop.readings action slots)),
        badSlots position (shop.readings action slots)) := by
  intro slots
  unfold readParams
  split
  · rename_i hnone
    have hslots : shop.readings action slots = [] := by
      simp [slots, hnone, readings]
    rw [hslots]
    rfl
  · rename_i filled hsome
    have hslots : slots = filled := by simp [slots, hsome]
    rw [hslots]

/-- The value of a parameter: the list of all values that were collected for it, if it
collects a list, and the last one of them otherwise. -/
theorem get?_readParams (shop : Workshop) (position : Position) (action : ActionSpec)
    (name : String) :
    let values := shop.collected action
      ((shop.world.containerAt? (shop.layout.container position)).getD []) name
    (shop.readParams position action).1.get? name =
      if action.isListParam name then if values = [] then none else some (.list values)
      else values.getLast? := by
  intro values
  rw [readParams_eq]
  dsimp only
  rw [get?_foldl_lists _ _ (listParams action _).distinct, get?_singleParams]
  change (((listParams action _).get? name).map Value.list).or _ = _
  rw [get?_listParams, valuesFor_readings]
  by_cases hlist : action.isListParam name
  · by_cases hnone : values = [] <;> simp [hlist, hnone, values]
  · simp [hlist, values]

/-- The findings about a container, slot by slot. -/
theorem badSlots_readings (shop : Workshop) (position : Position) (action : ActionSpec)
    (slots : List (Option Item)) :
    badSlots position (shop.readings action slots) = action.boundSlots.filterMap fun index =>
      match shop.content? slots index with
      | some (.error fault) => some (.badSlot position index fault.message)
      | _ => none := by
  unfold badSlots ActionSpec.boundSlots
  rw [readings_eq, List.filterMap_filterMap, List.filterMap_filter]
  refine List.filterMap_congr fun index _ => ?_
  unfold reading?
  rcases action.slots[index]? with _ | _ | bound
  · rfl
  · rfl
  · cases shop.content? slots index with
    | none => rfl
    | some value => cases value <;> rfl

/-- Slots that are not bound and slots that hold nothing do not matter. -/
theorem readings_congr {shop other : Workshop} {action : ActionSpec}
    {slots others : List (Option Item)} (hc : other.catalogue = shop.catalogue)
    (hw : other.world.name = shop.world.name)
    (h : ∀ index ∈ action.boundSlots, others[index]?.join = slots[index]?.join) :
    other.readings action others = shop.readings action slots := by
  rw [readings_eq, readings_eq]
  refine List.filterMap_congr fun index hm => ?_
  unfold reading? content?
  cases hbound : action.slots[index]?.join with
  | none => rfl
  | some name =>
    rw [h index (List.mem_filter.2 ⟨hm, by rw [hbound]; rfl⟩), hc, hw]

variable {shop : Workshop} {position : Position} {symbol chosen : String} {spec : SymbolSpec}
  {action : ActionSpec}

/-- The node of a symbol whose action is found has that action and the parameters that the
container comes to. -/
theorem readNode_of_resolved
    (hr : spec.resolve (shop.world.labelAt? (shop.layout.label position)) = .resolved chosen)
    (ha : spec.actions.get? chosen = some action) :
    shop.readNode position symbol spec =
      ((Node.bare 0 symbol spec.category).mapHead ({ · with
          position := some position
          action := some chosen
          params := (shop.readParams position action).1 }),
        (shop.readParams position action).2) := by
  rw [readNode, hr]
  dsimp only
  rw [ha]
  rfl

/-- A parameter of the node: the list of what was collected for it, if it collects a list,
and the last that was collected otherwise. -/
theorem param?_readNode
    (hr : spec.resolve (shop.world.labelAt? (shop.layout.label position)) = .resolved chosen)
    (ha : spec.actions.get? chosen = some action) (name : String) :
    let values := shop.collected action
      ((shop.world.containerAt? (shop.layout.container position)).getD []) name
    (shop.readNode position symbol spec).1.param? name =
      if action.isListParam name then if values = [] then none else some (.list values)
      else values.getLast? := by
  intro values
  rw [readNode_of_resolved hr ha]
  exact shop.get?_readParams position action name

/-- Container slots become parameters faithfully. The node of a symbol gets a parameter for
every name that its action binds to a slot, and no other. A name that is bound to one slot
has what the item there is read as, if there is an item that can be read. A name that is
bound to several slots has the list of what is read in them, in the order of the slots,
unless that is nothing. The findings are the bound slots with items that cannot be read, in
their order and each with its own number. Another container gives the same node and the
same findings if it has the same items in the bound slots. -/
theorem slots_become_parameters
    (hr : spec.resolve (shop.world.labelAt? (shop.layout.label position)) = .resolved chosen)
    (ha : spec.actions.get? chosen = some action) :
    let slots := (shop.world.containerAt? (shop.layout.container position)).getD []
    let node := (shop.readNode position symbol spec).1
    node.head.action = some chosen ∧
    (∀ name, action.slotsOf name = [] → node.param? name = none) ∧
    (∀ name index, action.slotsOf name = [index] → ∀ value,
      node.param? name = some value ↔ shop.content? slots index = some (.ok value)) ∧
    (∀ name, 1 < (action.slotsOf name).length → node.param? name =
      if shop.collected action slots name = [] then none
      else some (.list (shop.collected action slots name))) ∧
    (shop.readNode position symbol spec).2 = (action.boundSlots.filterMap fun index =>
      match shop.content? slots index with
      | some (.error fault) => some (.badSlot position index fault.message)
      | _ => none) ∧
    ∀ world : World, world.name = shop.world.name →
      world.labelAt? (shop.layout.label position) =
        shop.world.labelAt? (shop.layout.label position) →
      (∀ index ∈ action.boundSlots,
        ((world.containerAt? (shop.layout.container position)).getD [])[index]?.join =
          slots[index]?.join) →
      ({ shop with world } : Workshop).readNode position symbol spec =
        shop.readNode position symbol spec := by
  intro slots node
  have hparam (name : String) : node.param? name =
      if action.isListParam name then
        if shop.collected action slots name = [] then none
        else some (.list (shop.collected action slots name))
      else (shop.collected action slots name).getLast? := param?_readNode hr ha name
  refine ⟨?_, fun name hnone => ?_, fun name index hone value => ?_, fun name hmany => ?_, ?_,
    fun world hname hlabel hcontents => ?_⟩
  · change (shop.readNode position symbol spec).1.head.action = _
    rw [readNode_of_resolved hr ha]
    rfl
  · rw [hparam, action.isListParam_eq, collected, hnone]
    rfl
  · rw [hparam, action.isListParam_eq, collected, hone]
    cases hc : shop.content? slots index with
    | none => simp [hc]
    | some result => cases result <;> simp [hc, Except.toOption]
  · rw [hparam, action.isListParam_eq, if_pos (decide_eq_true hmany)]
  · rw [readNode_of_resolved hr ha, readParams_eq, badSlots_readings]
  · have hreadings : ({ shop with world } : Workshop).readings action
        ((world.containerAt? (shop.layout.container position)).getD []) =
          shop.readings action slots := readings_congr rfl hname hcontents
    have hother := @readNode_of_resolved { shop with world } position symbol chosen spec action
      (hlabel ▸ hr) ha
    rw [readNode_of_resolved hr ha, hother, readParams_eq, readParams_eq]
    dsimp only
    rw [hreadings]

/-- A symbol with one action, which takes a name from its first slot, a number of times
from the third, and a list from the others but the fourth. -/
def runnerSymbol : SymbolSpec where
  category := .call
  bracket := .plain
  actions := ArrivalMap.empty.insert "run"
    ⟨[], [some "function", some "args", some "times", none, some "args", some "args"]⟩
  defaultAction := some "run"

/-- A container in front of such a symbol: the number of times is not a number, the list has
a gap in it, and there is one slot more than is bound. -/
def runnerShop : Workshop where
  world := (World.empty "hub").edit (.container ⟨0, 1, 0⟩
    [some ⟨"paper", 1, some " double "⟩, some ⟨"nugget", 4, none⟩,
      some ⟨"nugget", 1, some "lots"⟩, some ⟨"nugget", 9, none⟩, none,
      some ⟨"nugget", 5, none⟩, some ⟨"paper", 1, some "more"⟩])
  catalogue := ⟨0, .empty,
    (SortedMap.empty.insert "nugget" .number).insert "paper" .text⟩
  layout := .standard

/-- The list has what stands before and behind the gap, and the number of times is reported. -/
theorem slots_become_parameters_runner :
    runnerSymbol.resolve (runnerShop.world.labelAt? (runnerShop.layout.label ⟨0, 0, 0⟩)) =
      .resolved "run" ∧
    (runnerShop.readNode ⟨0, 0, 0⟩ "runner" runnerSymbol).1.param? "function" =
      some (.text "double") ∧
    (runnerShop.readNode ⟨0, 0, 0⟩ "runner" runnerSymbol).1.param? "args" =
      some (.list [.number (.ofInt 4), .number (.ofInt 5)]) ∧
    (runnerShop.readNode ⟨0, 0, 0⟩ "runner" runnerSymbol).1.param? "times" = none ∧
    (runnerShop.readNode ⟨0, 0, 0⟩ "runner" runnerSymbol).2 =
      [.badSlot ⟨0, 0, 0⟩ 2 "expected number, got text"] := by
  have hresolved : runnerSymbol.resolve
      (runnerShop.world.labelAt? (runnerShop.layout.label ⟨0, 0, 0⟩)) = .resolved "run" := rfl
  obtain ⟨-, -, hone, hmany, hfindings, -⟩ :=
    @slots_become_parameters runnerShop ⟨0, 0, 0⟩ "runner" "run" runnerSymbol _ hresolved rfl
  have hlist : (runnerShop.readNode ⟨0, 0, 0⟩ "runner" runnerSymbol).1.param? "args" =
      some (.list [.number (.ofInt 4), .number (.ofInt 5)]) :=
    (hmany "args" (by decide)).trans (by decide +kernel)
  refine ⟨hresolved, (hone "function" 0 rfl _).2 (by decide +kernel), hlist, ?_,
    hfindings.trans (by decide +kernel)⟩
  refine Option.eq_none_iff_forall_ne_some.2 fun value hvalue => ?_
  have hread := (hone "times" 2 rfl value).1 hvalue
  have hfault : runnerShop.content? ((runnerShop.world.containerAt?
      (runnerShop.layout.container ⟨0, 0, 0⟩)).getD []) 2 =
        some (.error (.conversion ⟨.text, .number⟩)) := by decide +kernel
  rw [hfault] at hread
  cases hread

end Workshop

end GridScript
