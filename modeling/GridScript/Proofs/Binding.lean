import GridScript.Proofs.Arrivals
import GridScript.Proofs.Isolation
import GridScript.Proofs.Locality

/-!
# Arguments are bound as declared

A definition that passes its check has parameters with different names, and exactly the
optional ones have a default, of the declared kind. The arguments of a call are bound to
them one by one: a parameter takes the positional argument at its place, or else the named
one, or else its default. So the variables a call starts with are those of the parameters,
each of the declared kind. A named argument whose parameter already has a positional one is
not looked at.
-/

namespace GridScript

/-- What the parameter at a place is given: the positional argument there, or else the named
one. -/
def Parameter.given? (param : Parameter) (named : ArrivalMap String Value)
    (positional : List Value) (index : Nat) : Option Value :=
  positional[index]?.or (named.get? param.name)

/-- A parameter that may be declared. -/
structure Parameter.Sound (param : Parameter) : Prop where
  /-- Its name is an identifier. -/
  identifier : Text.isIdentifier param.name = true
  /-- It has a default exactly if it is optional. -/
  optional : param.fallback.isSome = !param.required
  /-- The default is of the declared kind. -/
  fits : ∀ value, param.fallback = some value → param.kind.accepts value.kind = true

namespace FunctionDefinition

variable {definition : FunctionDefinition} {params : List Parameter} {param : Parameter}
  {named : ArrivalMap String Value} {positional : List Value} {locals after : Locals}

/-- Nothing is wrong with a parameter that may be declared and has a name of its own. -/
theorem parameterError?_eq_none {earlier : List String} :
    parameterError? earlier param = none ↔ param.Sound ∧ param.name ∉ earlier := by
  unfold parameterError?
  constructor
  · intro h
    split at h
    · cases h
    · rename_i hname
      split at h
      · cases h
      · rename_i hnew
        refine ⟨⟨by simpa using hname, ?_, ?_⟩, by simpa using hnew⟩
        · cases hr : param.required <;> cases hf : param.fallback <;> simp_all
        · intro value hvalue
          cases hr : param.required with
          | true => simp [hr, hvalue] at h
          | false => simpa [hr, hvalue] using h
  · rintro ⟨⟨hname, hoptional, hfits⟩, hnew⟩
    rw [if_neg (by simp [hname]), if_neg (by simpa using hnew)]
    cases hf : param.fallback with
    | none =>
      rw [hf] at hoptional
      simp [show param.required = true by simpa using hoptional]
    | some value =>
      rw [hf] at hoptional
      simp [show param.required = false by simpa using hoptional, hfits value hf]

/-- Nothing is wrong with parameters that may be declared and have different names. -/
theorem parametersError?_eq_none {earlier : List String} :
    parametersError? earlier params = none ↔
      (∀ param ∈ params, param.Sound) ∧ (params.map (·.name)).Nodup ∧
        ∀ param ∈ params, param.name ∉ earlier := by
  induction params generalizing earlier with
  | nil => simp [parametersError?]
  | cons param rest ih =>
    have hhead : parameterError? earlier param = none ↔ _ := parameterError?_eq_none
    unfold parametersError?
    cases he : parameterError? earlier param with
    | some error =>
      rw [he] at hhead
      simp only [reduceCtorEq, false_iff] at hhead ⊢
      rintro ⟨hsound, -, hnew⟩
      exact hhead ⟨hsound param (by simp), hnew param (by simp)⟩
    | none =>
      obtain ⟨hsound, hnew⟩ := hhead.1 he
      simp only [ih, List.forall_mem_cons, List.map_cons, List.nodup_cons, List.mem_append,
        List.mem_singleton, List.mem_map, not_or, not_exists, not_and]
      constructor
      · rintro ⟨hrest, hdistinct, hlater⟩
        exact ⟨⟨hsound, hrest⟩, ⟨fun other hm => (hlater other hm).2, hdistinct⟩, hnew,
          fun other hm => (hlater other hm).1⟩
      · rintro ⟨⟨-, hrest⟩, ⟨hown, hdistinct⟩, -, hlater⟩
        exact ⟨hrest, hdistinct, fun other hm => ⟨hlater other hm, hown other hm⟩⟩

/-- A definition passes its check exactly if its name is an identifier and its parameters
may be declared and have different names. -/
theorem validate_eq_ok : definition.validate = .ok () ↔
    Text.isIdentifier definition.name = true ∧ (∀ param ∈ definition.params, param.Sound) ∧
      (definition.params.map (·.name)).Nodup := by
  have hparams : parametersError? [] definition.params = none ↔ _ := parametersError?_eq_none
  unfold validate
  split
  · rename_i hname
    simp only [reduceCtorEq, false_iff, not_and]
    intro hyes
    simp [hyes] at hname
  · rename_i hname
    have hyes : Text.isIdentifier definition.name = true := by simpa using hname
    cases he : parametersError? [] definition.params with
    | some error =>
      rw [he] at hparams
      simp only [reduceCtorEq, false_iff, not_and] at hparams ⊢
      exact fun _ hsound hdistinct => hparams hsound hdistinct (by simp)
    | none =>
      obtain ⟨hsound, hdistinct, -⟩ := hparams.1 he
      simp only [true_iff]
      exact ⟨hyes, hsound, hdistinct⟩

/-- A parameter has a value if what it is given can be converted, or if it is given nothing
and has a default that may be used. -/
theorem argumentFor_eq_ok {given : Option Value} {value : Value} :
    definition.argumentFor param given = .ok value ↔
      (∃ argument, given = some argument ∧ argument.coerce param.kind = .ok value) ∨
      (given = none ∧ param.required = false ∧ param.fallback = some value) := by
  unfold argumentFor
  cases given with
  | some argument =>
    cases hc : argument.coerce param.kind with
    | ok converted => simp [Except.mapError, hc]
    | error error => simp [Except.mapError, hc]
  | none =>
    cases hf : param.fallback with
    | none => simp
    | some fallback => cases hr : param.required <;> simp

/-- A parameter has a value if it is optional or given something, and what it is given can
be converted. -/
theorem exists_argumentFor_iff (hs : param.Sound) {given : Option Value} :
    (∃ value, definition.argumentFor param given = .ok value) ↔
      (given = none → param.required = false) ∧
        ∀ argument, given = some argument → ∃ value, argument.coerce param.kind = .ok value := by
  simp only [argumentFor_eq_ok]
  cases given with
  | some argument => simp
  | none =>
    have hoptional := hs.optional
    constructor
    · rintro ⟨value, ⟨_, hsome, -⟩ | ⟨-, hrequired, -⟩⟩
      · cases hsome
      · exact ⟨fun _ => hrequired, fun _ hsome => by cases hsome⟩
    · rintro ⟨hrequired, -⟩
      rw [hrequired rfl] at hoptional
      obtain ⟨value, hvalue⟩ := Option.isSome_iff_exists.1 hoptional
      exact ⟨value, .inr ⟨rfl, hrequired rfl, hvalue⟩⟩

/-- The value of a parameter is of the declared kind: what was given in that kind, or else
the default as it is. -/
theorem argumentFor_fits (hs : param.Sound) {given : Option Value} {value : Value}
    (h : definition.argumentFor param given = .ok value) :
    param.kind.accepts value.kind = true ∧
      (∀ argument, given = some argument → argument.coerce param.kind = .ok value) ∧
      (given = none → param.fallback = some value) := by
  rcases argumentFor_eq_ok.1 h with ⟨argument, rfl, hconverted⟩ | ⟨rfl, -, hfallback⟩
  · refine ⟨Value.accepts_of_coerce hconverted, ?_, fun hnone => by cases hnone⟩
    rintro _ ⟨⟩
    exact hconverted
  · refine ⟨hs.fits value hfallback, ?_, fun _ => hfallback⟩
    rintro _ ⟨⟩

/-- The variables of a call are bound exactly if every parameter has a value. -/
theorem exists_bindParams_iff (locals : Locals) :
    (∃ after, definition.bindParams named locals params positional = .ok after) ↔
      ∀ (index : Nat) (param : Parameter), params[index]? = some param →
        ∃ value, definition.argumentFor param (param.given? named positional index) =
          .ok value := by
  induction params generalizing locals positional with
  | nil => simp [bindParams]
  | cons param rest ih =>
    have hgiven : positional.head?.or (named.get? param.name) =
        param.given? named positional 0 := by
      rw [Parameter.given?, List.head?_eq_getElem?]
    have hlater : ∀ index, param.given? named positional.tail index =
        param.given? named positional (index + 1) := by
      intro index
      simp [Parameter.given?]
    rw [bindParams, hgiven]
    cases ha : definition.argumentFor param (param.given? named positional 0) with
    | error error =>
      constructor
      · rintro ⟨after, h⟩
        cases h
      · intro h
        obtain ⟨value, hvalue⟩ := h 0 param rfl
        rw [ha] at hvalue
        cases hvalue
    | ok value =>
      refine (ih (locals.insert param.name value)).trans ⟨fun h index => ?_, fun h index => ?_⟩
      · cases index with
        | zero =>
          rintro other ⟨⟩
          exact ⟨value, ha⟩
        | succ index => simpa [Parameter.given?] using h index
      · simpa [Parameter.given?] using h (index + 1)

/-- What is bound is what every parameter has, and other variables stay as they are. -/
theorem get?_bindParams (hd : (params.map (·.name)).Nodup)
    (h : definition.bindParams named locals params positional = .ok after) :
    (∀ (index : Nat) (param : Parameter), params[index]? = some param → ∃ value,
      definition.argumentFor param (param.given? named positional index) = .ok value ∧
        after.get? param.name = some value) ∧
      ∀ name, (∀ param ∈ params, param.name ≠ name) → after.get? name = locals.get? name := by
  induction params generalizing locals positional with
  | nil =>
    cases h
    simp
  | cons param rest ih =>
    obtain ⟨hown, hdistinct⟩ := List.nodup_cons.1 hd
    rw [bindParams] at h
    cases ha : definition.argumentFor param (positional.head?.or (named.get? param.name)) with
    | error error =>
      rw [ha] at h
      cases h
    | ok value =>
      rw [ha] at h
      obtain ⟨hrest, hothers⟩ := ih hdistinct h
      refine ⟨fun index => ?_, fun name hname => ?_⟩
      · cases index with
        | zero =>
          rintro other ⟨⟩
          refine ⟨value, by rwa [Parameter.given?, ← List.head?_eq_getElem?], ?_⟩
          rw [hothers param.name fun other hm heq => hown (List.mem_map.2 ⟨other, hm, heq⟩),
            SortedMap.get?_insert, if_pos Std.ReflCmp.compare_self]
        | succ index => simpa [Parameter.given?] using hrest index
      · rw [hothers name fun other hm => hname other (List.mem_cons_of_mem _ hm),
          SortedMap.get?_insert_of_ne locals value (hname param (by simp))]

/-- Only what the parameters are given counts. -/
theorem bindParams_congr {other : ArrivalMap String Value}
    (h : ∀ (index : Nat) (param : Parameter), params[index]? = some param →
      param.given? named positional index = param.given? other positional index) :
    definition.bindParams named locals params positional =
      definition.bindParams other locals params positional := by
  induction params generalizing locals positional with
  | nil => rfl
  | cons param rest ih =>
    have hhead := h 0 param rfl
    rw [Parameter.given?, Parameter.given?, ← List.head?_eq_getElem?] at hhead
    rw [bindParams, bindParams, hhead]
    cases definition.argumentFor param (positional.head?.or (other.get? param.name)) with
    | error error => rfl
    | ok value => exact ih fun index => by simpa [Parameter.given?] using h (index + 1)

/-- Arguments can be bound only if there is a parameter for each of them, and then the
parameters are bound one after the other. -/
theorem bindArgs_eq_ok : definition.bindArgs named positional = .ok locals ↔
    positional.length ≤ definition.params.length ∧
      (∀ name ∈ named.keys, ∃ param ∈ definition.params, param.name = name) ∧
      definition.bindParams named .empty definition.params positional = .ok locals := by
  unfold bindArgs
  split
  · rename_i hmany
    simp only [reduceCtorEq, false_iff, not_and]
    omega
  · rename_i hfew
    cases hu : named.keys.find? fun name => !definition.params.any (·.name == name) with
    | some name =>
      have hunknown := List.find?_some hu
      simp only [reduceCtorEq, false_iff, not_and]
      intro _ hknown
      obtain ⟨param, hm, rfl⟩ := hknown name (List.mem_of_find?_eq_some hu)
      simp only [Bool.not_eq_true', List.any_eq_false, beq_iff_eq] at hunknown
      exact absurd rfl (hunknown param hm)
    | none =>
      have hknown : ∀ name ∈ named.keys, ∃ param ∈ definition.params, param.name = name := by
        simpa using hu
      simp only [show positional.length ≤ definition.params.length by omega, true_and]
      exact ⟨fun h => ⟨hknown, h⟩, And.right⟩

/-- The variables of a call are those of the parameters. -/
theorem contains_bindParams (hd : (params.map (·.name)).Nodup)
    (h : definition.bindParams named .empty params positional = .ok after) (name : String) :
    after.contains name = true ↔ ∃ param ∈ params, param.name = name := by
  obtain ⟨hbound, hothers⟩ := get?_bindParams hd h
  rw [SortedMap.contains]
  constructor
  · intro hname
    by_contra hnone
    rw [hothers name fun param hm heq => hnone ⟨param, hm, heq⟩] at hname
    cases hname
  · rintro ⟨param, hm, rfl⟩
    obtain ⟨index, hat⟩ := List.mem_iff_getElem?.1 hm
    obtain ⟨value, -, hvalue⟩ := hbound index param hat
    rw [hvalue]
    rfl

/-- If the arguments can be bound, the variable of every parameter has a value of the
declared kind: what was given in that kind, or else the default as it is. -/
theorem get?_bindArgs (hv : definition.validate = .ok ())
    (h : definition.bindArgs named positional = .ok locals) {index : Nat}
    (hat : definition.params[index]? = some param) :
    ∃ value, locals.get? param.name = some value ∧ param.kind.accepts value.kind = true ∧
      (∀ argument, param.given? named positional index = some argument →
        argument.coerce param.kind = .ok value) ∧
      (param.given? named positional index = none → param.fallback = some value) := by
  obtain ⟨-, hsound, hdistinct⟩ := validate_eq_ok.1 hv
  obtain ⟨-, -, hbound⟩ := bindArgs_eq_ok.1 h
  obtain ⟨value, hargument, hvalue⟩ := (get?_bindParams hdistinct hbound).1 index param hat
  exact ⟨value, hvalue, argumentFor_fits (hsound param (List.mem_of_getElem? hat)) hargument⟩

/-- Argument binding is sound and complete. The arguments of a call can be bound exactly if
there are no more positional ones than parameters, every named one has a parameter, every
parameter that is given nothing is optional, and everything given can be converted to the
declared kind. The variables are then exactly those of the parameters. Each is of the
declared kind: what was given in that kind, or else the default as it is. -/
theorem bindArgs_sound_complete (hv : definition.validate = .ok ())
    (named : ArrivalMap String Value) (positional : List Value) :
    ((∃ locals, definition.bindArgs named positional = .ok locals) ↔
      positional.length ≤ definition.params.length ∧
      (∀ name ∈ named.keys, ∃ param ∈ definition.params, param.name = name) ∧
      (∀ (index : Nat) (param : Parameter), definition.params[index]? = some param →
        param.given? named positional index = none → param.required = false) ∧
      ∀ (index : Nat) (param : Parameter) (argument : Value),
        definition.params[index]? = some param →
        param.given? named positional index = some argument →
        ∃ value, argument.coerce param.kind = .ok value) ∧
    ∀ locals, definition.bindArgs named positional = .ok locals →
      (∀ name, locals.contains name = true ↔ ∃ param ∈ definition.params, param.name = name) ∧
      ∀ (index : Nat) (param : Parameter), definition.params[index]? = some param →
        ∃ value, locals.get? param.name = some value ∧
          param.kind.accepts value.kind = true ∧
          (∀ argument, param.given? named positional index = some argument →
            argument.coerce param.kind = .ok value) ∧
          (param.given? named positional index = none → param.fallback = some value) := by
  obtain ⟨-, hsound, hdistinct⟩ := validate_eq_ok.1 hv
  refine ⟨⟨?_, ?_⟩, fun locals h => ?_⟩
  · rintro ⟨locals, h⟩
    obtain ⟨hfew, hknown, hbound⟩ := bindArgs_eq_ok.1 h
    have hvalues := fun index param hat =>
      (exists_argumentFor_iff (hsound param (List.mem_of_getElem? hat))).1
        ((exists_bindParams_iff .empty).1 ⟨locals, hbound⟩ index param hat)
    exact ⟨hfew, hknown, fun index param hat => (hvalues index param hat).1,
      fun index param argument hat => (hvalues index param hat).2 argument⟩
  · rintro ⟨hfew, hknown, hoptional, hconvertible⟩
    have hvalues : ∀ (index : Nat) (param : Parameter), definition.params[index]? = some param →
        ∃ value, definition.argumentFor param (param.given? named positional index) =
          .ok value := fun index param hat =>
      (exists_argumentFor_iff (hsound param (List.mem_of_getElem? hat))).2
        ⟨hoptional index param hat, fun argument => hconvertible index param argument hat⟩
    obtain ⟨locals, hbound⟩ := (exists_bindParams_iff .empty).2 hvalues
    exact ⟨locals, bindArgs_eq_ok.2 ⟨hfew, hknown, hbound⟩⟩
  · obtain ⟨-, -, hbound⟩ := bindArgs_eq_ok.1 h
    exact ⟨contains_bindParams hdistinct hbound, fun _ _ => get?_bindArgs hv h⟩

/-- A function that gives some pieces of something to an actor. -/
def giveFunction : FunctionDefinition :=
  { plain "give" ⟨"alex"⟩ .everyone none with
    params := [⟨"target", .actor, true, none⟩,
      ⟨"count", .number, false, some (.number (.ofInt 1))⟩] }

/-- With a name for the actor and nothing else, the actor gets one piece. -/
theorem bindArgs_sound_complete_give : giveFunction.validate = .ok () ∧
    ∃ locals, giveFunction.bindArgs .empty [.text "sam"] = .ok locals ∧
      locals.get? "target" = some (.actor ⟨"sam"⟩) ∧
      locals.get? "count" = some (.number (.ofInt 1)) := by
  have hvalid : giveFunction.validate = .ok () := by decide +kernel
  obtain ⟨hiff, hvalues⟩ := bindArgs_sound_complete hvalid .empty [.text "sam"]
  have hbinds := hiff.2 ⟨by decide, by decide, ?_, ?_⟩
  · obtain ⟨locals, hlocals⟩ := hbinds
    obtain ⟨-, hbound⟩ := hvalues locals hlocals
    obtain ⟨target, htarget, -, hsam, -⟩ := hbound 0 _ rfl
    obtain ⟨count, hcount, -, -, hone⟩ := hbound 1 _ rfl
    cases hsam (.text "sam") rfl
    cases hone rfl
    exact ⟨hvalid, locals, hlocals, htarget, hcount⟩
  · rintro (_ | _ | index) param hat hnone
    · cases hat
      cases hnone
    · cases hat
      rfl
    · cases hat
  · rintro (_ | _ | index) param argument hat hgiven
    · cases hat
      cases hgiven
      exact ⟨_, rfl⟩
    · cases hat
      cases hgiven
    · cases hat

/-- Arguments are used or not looked at. If the arguments of a call can be bound, each
positional one is bound, converted, to the parameter at its place. A named one is bound,
converted, to the parameter of its name if no positional argument reaches the place of that
parameter. Otherwise it is dropped: the variables are the same with anything else under its
name, or with nothing. -/
theorem overlapping_named_dropped (hv : definition.validate = .ok ())
    (h : definition.bindArgs named positional = .ok locals) :
    (∀ (index : Nat) (argument : Value), positional[index]? = some argument →
      ∃ param value, definition.params[index]? = some param ∧
        argument.coerce param.kind = .ok value ∧ locals.get? param.name = some value) ∧
    ∀ (name : String) (argument : Value), named.get? name = some argument →
      ∃ (index : Nat) (param : Parameter), definition.params[index]? = some param ∧
        param.name = name ∧
        (positional.length ≤ index → ∃ value, argument.coerce param.kind = .ok value ∧
          locals.get? name = some value) ∧
        (index < positional.length → ∀ other : ArrivalMap String Value,
          (∀ key, key ≠ name → other.get? key = named.get? key) →
          definition.bindArgs other positional = .ok locals) := by
  obtain ⟨hfew, hknown, hbound⟩ := bindArgs_eq_ok.1 h
  obtain ⟨-, -, hdistinct⟩ := validate_eq_ok.1 hv
  refine ⟨fun index argument hgiven => ?_, fun name argument hgiven => ?_⟩
  · have hlt := (List.getElem?_eq_some_iff.1 hgiven).1
    have hat : definition.params[index]? = some definition.params[index] :=
      List.getElem?_eq_getElem (by omega)
    obtain ⟨value, hvalue, -, hconverted, -⟩ := get?_bindArgs hv h hat
    exact ⟨_, value, hat, hconverted argument (by simp [Parameter.given?, hgiven]), hvalue⟩
  · obtain ⟨param, hm, rfl⟩ := hknown name (ArrivalMap.isSome_get?.1 (by simp [hgiven]))
    obtain ⟨index, hat⟩ := List.mem_iff_getElem?.1 hm
    refine ⟨index, param, hat, rfl, fun hfree => ?_, fun hfilled other hother => ?_⟩
    · obtain ⟨value, hvalue, -, hconverted, -⟩ := get?_bindArgs hv h hat
      refine ⟨value, hconverted argument ?_, hvalue⟩
      rw [Parameter.given?, List.getElem?_eq_none hfree, hgiven, Option.none_or]
    · refine bindArgs_eq_ok.2 ⟨hfew, fun key hkey => ?_, ?_⟩
      · by_cases hname : key = param.name
        · exact ⟨param, hm, hname.symm⟩
        · rw [← ArrivalMap.isSome_get?, hother key hname, ArrivalMap.isSome_get?] at hkey
          exact hknown key hkey
      · rw [← hbound]
        refine bindParams_congr fun place taken htaken => ?_
        rw [Parameter.given?, Parameter.given?]
        cases hp : positional[place]? with
        | some _ => rfl
        | none =>
          have hlate : positional.length ≤ place := List.getElem?_eq_none_iff.1 hp
          refine congrArg _ (hother taken.name fun hsame => ?_)
          have hplaces : (definition.params.map (·.name))[place]? =
              (definition.params.map (·.name))[index]? := by
            rw [List.getElem?_map, List.getElem?_map, htaken, hat, Option.map_some,
              Option.map_some, hsame]
          have hplace : place < (definition.params.map (·.name)).length := by
            simpa using (List.getElem?_eq_some_iff.1 htaken).1
          have heq : place = index := (List.getElem?_inj hplace hdistinct).1 hplaces
          omega

/-- With two positional arguments and a text for the second parameter as well, which could
not be converted to a number, that text is dropped. -/
theorem overlapping_named_dropped_give : giveFunction.validate = .ok () ∧
    ∃ locals, giveFunction.bindArgs (ArrivalMap.empty.insert "count" (.text "lots"))
        [.text "sam", .number (.ofInt 3)] = .ok locals ∧
      locals.get? "count" = some (.number (.ofInt 3)) ∧
      giveFunction.bindArgs .empty [.text "sam", .number (.ofInt 3)] = .ok locals := by
  have hvalid : giveFunction.validate = .ok () := by decide +kernel
  obtain ⟨locals, hlocals⟩ : ∃ locals, giveFunction.bindArgs
      (ArrivalMap.empty.insert "count" (.text "lots")) [.text "sam", .number (.ofInt 3)] =
        .ok locals := ⟨_, rfl⟩
  obtain ⟨hplaced, hnamed⟩ := overlapping_named_dropped hvalid hlocals
  obtain ⟨param, value, hat, hconverted, hvalue⟩ := hplaced 1 _ rfl
  cases hat
  cases hconverted
  refine ⟨hvalid, locals, hlocals, hvalue, ?_⟩
  obtain ⟨index, param, hat, hname, -, hdropped⟩ := hnamed "count" _ rfl
  refine hdropped ?_ _ fun key hkey => ?_
  · have hlt : index < giveFunction.params.length := (List.getElem?_eq_some_iff.1 hat).1
    exact hlt
  · have hother : (key == "count") = false := by simpa using hkey
    change none = List.lookup key [("count", Value.text "lots")]
    rw [List.lookup_cons, hother]
    rfl

/-- Not every argument is used: nothing of the text is left. -/
theorem named_argument_discarded : ¬ ∀ (definition : FunctionDefinition)
    (named : ArrivalMap String Value) (positional : List Value) (locals : Locals),
    definition.validate = .ok () → definition.bindArgs named positional = .ok locals →
    (∀ (index : Nat) (argument : Value), positional[index]? = some argument →
      ∃ param value, definition.params[index]? = some param ∧
        argument.coerce param.kind = .ok value ∧ locals.get? param.name = some value) ∧
    ∀ (name : String) (argument : Value), named.get? name = some argument →
      ∃ param value, param ∈ definition.params ∧ param.name = name ∧
        argument.coerce param.kind = .ok value ∧ locals.get? name = some value := by
  intro h
  have hvalid : giveFunction.validate = .ok () := by decide +kernel
  obtain ⟨-, hnamed⟩ := h giveFunction (ArrivalMap.empty.insert "count" (.text "lots"))
    [.text "sam", .number (.ofInt 3)] _ hvalid rfl
  obtain ⟨param, value, hm, hname, hconverted, -⟩ := hnamed "count" _ rfl
  have hkind : param.kind = .number := by
    simp only [giveFunction, List.mem_cons, List.not_mem_nil, or_false] at hm
    rcases hm with rfl | rfl
    · simp at hname
    · rfl
  rw [hkind] at hconverted
  have herror : (Value.text "lots").coerce .number =
      .error ((Value.text "lots").mismatch .number) := by decide +kernel
  rw [herror] at hconverted
  cases hconverted

end FunctionDefinition

end GridScript
