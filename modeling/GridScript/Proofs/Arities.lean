import GridScript.Program.Script
import GridScript.Proofs.Grammar

/-!
# Calls with enough arguments

A formula that was read calls every function with a number of arguments that the function
takes, however deep the call is nested. A function is applied to one value for every argument,
so it looks at no argument that is not there, whatever the values are.
-/

namespace GridScript.Formula

mutual

/-- The calls in a formula, at any depth: functions with the arguments they are given. -/
def calls : Formula → List (FormulaFunction × List Formula)
  | .const _ | .var _ => []
  | .list items => callsIn items
  | .unary _ operand => operand.calls
  | .binary _ left right => left.calls ++ right.calls
  | .call function arguments => (function, arguments) :: callsIn arguments

/-- The calls in several formulas. -/
def callsIn : List Formula → List (FormulaFunction × List Formula)
  | [] => []
  | formula :: rest => formula.calls ++ callsIn rest

end

/-- Every call in a formula has as many arguments as its function takes. -/
def Fits (formula : Formula) : Prop :=
  ∀ call ∈ formula.calls, call.1.takes call.2.length = true

/-- The calls in several formulas are those of each. -/
theorem mem_callsIn {call : FormulaFunction × List Formula} {formulas : List Formula} :
    call ∈ callsIn formulas ↔ ∃ formula ∈ formulas, call ∈ formula.calls := by
  induction formulas with
  | nil => simp [callsIn]
  | cons formula rest ih => simp [callsIn, ih]

/-- The calls in a list are those in its items. -/
theorem fits_list {items : List Formula} :
    (Formula.list items).Fits ↔ ∀ item ∈ items, item.Fits := by
  simp only [Fits, calls, mem_callsIn]
  exact ⟨fun h item hi call hc => h call ⟨item, hi, hc⟩,
    fun h call ⟨item, hi, hc⟩ => h item hi call hc⟩

/-- A prefixed operator makes no call of its own. -/
theorem fits_unary {op : UnaryOp} {operand : Formula} :
    (Formula.unary op operand).Fits ↔ operand.Fits := by
  rw [Fits, calls, Fits]

/-- An operator makes no call of its own. -/
theorem fits_binary {op : BinaryOp} {left right : Formula} :
    (Formula.binary op left right).Fits ↔ left.Fits ∧ right.Fits := by
  rw [Fits, calls, List.forall_mem_append, Fits, Fits]

/-- The calls in a call are the call itself and those in its arguments. -/
theorem fits_call {function : FormulaFunction} {arguments : List Formula} :
    (Formula.call function arguments).Fits ↔
      function.takes arguments.length = true ∧ ∀ argument ∈ arguments, argument.Fits := by
  rw [← fits_list, Fits, calls, List.forall_mem_cons, Fits, calls]

/-- What the grammar derives calls functions with as many arguments as they take. -/
theorem Derives.fits {depth : Nat} {kind : PhraseKind} {tokens : List Token} {formula : Formula}
    (h : Derives depth kind tokens formula) : formula.Fits := by
  induction h with
  | operand inner ih | plain inner ih | base inner ih | parenthesized inner ih => exact ih
  | join known before behind ihbefore ihbehind => exact fits_binary.2 ⟨ihbefore, ihbehind⟩
  | power before behind ihbefore ihbehind => exact fits_binary.2 ⟨ihbefore, ihbehind⟩
  | negated inner ih | inverted inner ih => exact fits_unary.2 ih
  | number | text | bool | named => exact List.forall_mem_nil _
  | call function inner takes ih =>
    exact fits_call.2 ⟨by rwa [List.length_map], List.forall_mem_map.2 ih⟩
  | list inner ih => exact fits_list.2 (List.forall_mem_map.2 ih)

/-- A result that is not for want of an argument. -/
def Supplied {α : Type} (result : Except Fault α) : Prop :=
  ∀ place count, result ≠ .error (.missingArgument place count)

namespace Supplied

variable {α β : Type}

/-- A value is a result. -/
theorem ok (value : α) : Supplied (.ok value) :=
  fun _ _ h => by cases h

/-- Two computations in a row do not want an argument if neither does. -/
theorem bind {first : Except Fault α} {next : α → Except Fault β} (h : Supplied first)
    (hn : ∀ value, Supplied (next value)) : Supplied (first >>= next) := by
  cases first with
  | error fault => exact fun place count heq => h place count (by cases heq; rfl)
  | ok value => exact hn value

/-- What is made of a value does not matter. -/
theorem map {first : Except Fault α} (h : Supplied first) (change : α → β) :
    Supplied (first.map change) := by
  cases first with
  | error fault => exact fun place count heq => h place count (by cases heq; rfl)
  | ok value => exact ok _

/-- A value that cannot be converted is there. -/
theorem ofConversion (result : Except ConversionError α) :
    Supplied (Fault.ofConversion result) := by
  cases result with
  | error error => exact fun _ _ h => by cases h
  | ok value => exact ok value

/-- A number that cannot be formed has all its parts. -/
theorem ofFloat (x : Float) : Supplied (Formula.ofFloat x) := by
  unfold Formula.ofFloat Fault.ofNumber
  cases Number.ofFloat x with
  | error error => exact fun _ _ h => by cases h
  | ok number => exact ok _

/-- Reading a number wants no argument. -/
theorem floatOf (value : Value) : Supplied (Formula.floatOf value) :=
  (ofConversion _).map _

/-- Reading a truth value wants no argument. -/
theorem boolOf (value : Value) : Supplied (Formula.boolOf value) :=
  ofConversion _

/-- Comparing two values wants no argument. -/
theorem order (left right : Value) : Supplied (left.order right) := by
  unfold Value.order
  split
  · exact ok _
  · split
    · exact ok _
    · exact fun _ _ h => by cases h

/-- Computing with two values wants no argument. -/
theorem arithmetic (operation : Float → Float → Float) (left right : Value) :
    Supplied (Formula.arithmetic operation left right) :=
  (floatOf left).bind fun _ => (floatOf right).bind fun _ => ofFloat _

/-- Adding two values wants no argument. -/
theorem addValues (left right : Value) : Supplied (Formula.addValues left right) := by
  unfold Formula.addValues
  split
  · exact ofFloat _
  · split <;> exact ok _

/-- Operators between values want no argument. -/
theorem applyBinary (op : BinaryOp) (left right : Value) :
    Supplied (Formula.applyBinary op left right) := by
  cases op with
  | add => exact addValues left right
  | sub | mul | div | mod | pow => exact arithmetic _ left right
  | eq | ne => exact ok _
  | lt | le | gt | ge => exact (order left right).map _
  | and | or => exact (boolOf left).bind fun _ => (boolOf right).bind fun _ => ok _

/-- Operators in front of a value want no argument. -/
theorem applyUnary (op : UnaryOp) (value : Value) : Supplied (Formula.applyUnary op value) := by
  cases op with
  | neg => exact (floatOf value).bind fun _ => ofFloat _
  | not => exact (boolOf value).bind fun _ => ok _

/-- The length of a value is there. -/
theorem lengthOf (value : Value) : Supplied (Formula.lengthOf value) := by
  cases value <;> exact ofFloat _

/-- A function of one number wants no argument beyond it. -/
theorem onNumber (function : Float → Float) (value : Value) :
    Supplied (Formula.onNumber function value) :=
  (floatOf value).bind fun _ => ofFloat _

/-- The best of several values is looked for among those that are there. -/
theorem best (prefers : Ordering → Bool) (found : Option Number) (values : List Value) :
    Supplied (Formula.best prefers found values) := by
  induction values generalizing found with
  | nil => exact ok _
  | cons value rest ih => exact (ofConversion _).bind fun _ => ih _

/-- The best of the arguments is looked for among those that are there. -/
theorem bestOf (prefers : Ordering → Bool) (arguments : List Value) :
    Supplied (Formula.bestOf prefers arguments) := by
  refine (best prefers none _).bind fun found => ?_
  cases found with
  | none => exact fun _ _ h => by cases h
  | some number => exact ok _

/-- An argument within the arguments is there. -/
theorem argument {arguments : List Value} {place : Nat} (h : place < arguments.length) :
    Supplied (Formula.argument arguments place) := by
  unfold Formula.argument
  rw [List.getElem?_eq_getElem h]
  exact ok _

end Supplied

/-- A computation that never wants an argument, whatever is drawn. -/
def Eval.Supplied {ρ α : Type} (part : Eval ρ α) : Prop :=
  ∀ state, Formula.Supplied (part.run state).1

section

variable {ρ α β : Type}

/-- Two computations in a row: the second one goes on with what the first one found. -/
theorem bind_eq_ok_iff {part : Eval ρ α} {next : α → Eval ρ β} {first last : ρ} {value : β} :
    (part >>= next) first = (.ok value, last) ↔
      ∃ found middle, part first = (.ok found, middle) ∧ next found middle = (.ok value, last) := by
  change ExceptT.bindCont next (part first).1 (part first).2 = _ ↔ _
  rcases part first with ⟨result, middle⟩
  cases result with
  | error fault => exact ⟨fun h => (by cases h), fun ⟨_, _, h, _⟩ => (by cases h)⟩
  | ok found =>
    refine ⟨fun h => ⟨found, middle, rfl, h⟩, fun ⟨_, _, hfirst, hsecond⟩ => ?_⟩
    cases hfirst
    exact hsecond

/-- Every formula has a value if all of several have. -/
theorem length_evalAll [RandomSource ρ] {lookup : String → Option Value} {formulas : List Formula}
    {first last : ρ} {values : List Value}
    (h : evalAll lookup formulas first = (.ok values, last)) : values.length = formulas.length := by
  induction formulas generalizing first last values with
  | nil =>
    cases h
    rfl
  | cons formula rest ih =>
    rw [evalAll, bind_eq_ok_iff] at h
    obtain ⟨value, middle, -, h⟩ := h
    obtain ⟨others, final, hrest, hvalues⟩ := bind_eq_ok_iff.1 h
    cases hvalues
    rw [List.length_cons, List.length_cons, ih hrest]

namespace Eval.Supplied

/-- What is given back is there. -/
theorem pure (value : α) : Eval.Supplied (Pure.pure value : Eval ρ α) :=
  fun _ => .ok value

/-- A result from elsewhere. -/
theorem mk {result : Except Fault α} (h : Formula.Supplied result) :
    Eval.Supplied (ExceptT.mk (Pure.pure result) : Eval ρ α) :=
  fun _ => h

/-- Two computations in a row do not want an argument if the first does not, and the second does
not on whatever the first may find. -/
theorem bind {part : Eval ρ α} {next : α → Eval ρ β} (h : part.Supplied)
    (hn : ∀ first value last, part first = (.ok value, last) → (next value).Supplied) :
    (part >>= next).Supplied := by
  intro state
  have hfirst := h state
  change Formula.Supplied (ExceptT.bindCont next (part state).1 (part state).2).1
  change Formula.Supplied (part state).1 at hfirst
  rcases hpart : part state with ⟨result, middle⟩
  rw [hpart] at hfirst
  cases result with
  | error fault => exact fun place count heq => hfirst place count (by cases heq; rfl)
  | ok value => exact hn state value middle hpart middle

variable [RandomSource ρ]

/-- Drawing a number wants no argument. -/
theorem randomBetween (a b : Float) : (Formula.randomBetween a b : Eval ρ Value).Supplied := by
  refine bind (fun state => .ok _) fun first x last hx => ?_
  dsimp only
  split <;> exact mk (.ofFloat _)

/-- A function looks at no argument beyond those it takes. -/
theorem apply {function : FormulaFunction} {values : List Value}
    (h : function.takes values.length = true) :
    (Formula.apply function values : Eval ρ Value).Supplied := by
  cases function with
  | random =>
    have hcount : values.length = 2 := eq_of_beq h
    have hfirst := Formula.Supplied.argument (show 0 < values.length by omega)
    have hsecond := Formula.Supplied.argument (show 1 < values.length by omega)
    exact bind (mk (hfirst.bind .floatOf)) fun _ a _ _ =>
      bind (mk (hsecond.bind .floatOf)) fun _ b _ _ => randomBetween a b
  | min | max => exact mk (.bestOf _ _)
  | len | abs | floor | ceil | round | sqrt =>
    have hcount : values.length = 1 := eq_of_beq h
    have hfirst := Formula.Supplied.argument (show 0 < values.length by omega)
    first
      | exact mk (hfirst.bind .lengthOf)
      | exact mk (hfirst.bind (.onNumber _))

end Eval.Supplied

mutual

/-- A formula that calls functions with as many arguments as they take never wants one. -/
theorem supplied_eval [RandomSource ρ] (lookup : String → Option Value) : (formula : Formula) →
    formula.Fits → (eval lookup formula : Eval ρ Value).Supplied
  | .const value, _ => .pure value
  | .var name, _ => by
    unfold eval
    split
    · exact .pure _
    · exact fun _ _ _ h => by cases h
  | .list items, h => by
    unfold eval
    exact (supplied_evalAll lookup items (fits_list.1 h)).bind fun _ _ _ _ => .pure _
  | .unary op operand, h => by
    unfold eval
    exact (supplied_eval lookup operand (fits_unary.1 h)).bind fun _ value _ _ =>
      .mk (.applyUnary op value)
  | .binary op left right, h => by
    have hleft := supplied_eval lookup left (fits_binary.1 h).1
    have hright := supplied_eval lookup right (fits_binary.1 h).2
    have hreads (value : Value) : Eval.Supplied (ExceptT.mk (pure (boolOf value)) : Eval ρ Bool) :=
      .mk (.boolOf value)
    cases op with
    | and =>
      unfold eval
      refine hleft.bind fun _ value _ _ => (hreads value).bind fun _ holds _ _ => ?_
      split
      · exact hright.bind fun _ value _ _ => (hreads value).bind fun _ _ _ _ => .pure _
      · exact .pure _
    | or =>
      unfold eval
      refine hleft.bind fun _ value _ _ => (hreads value).bind fun _ holds _ _ => ?_
      split
      · exact .pure _
      · exact hright.bind fun _ value _ _ => (hreads value).bind fun _ _ _ _ => .pure _
    | add | sub | mul | div | mod | pow | eq | ne | lt | le | gt | ge =>
      unfold eval
      exact hleft.bind fun _ value _ _ => hright.bind fun _ other _ _ =>
        .mk (.applyBinary _ value other)
  | .call function arguments, h => by
    obtain ⟨htakes, harguments⟩ := fits_call.1 h
    unfold eval
    refine (supplied_evalAll lookup arguments harguments).bind fun first values last hvalues => ?_
    exact .apply (by rwa [length_evalAll hvalues])

/-- Several formulas that call functions with as many arguments as they take never want one. -/
theorem supplied_evalAll [RandomSource ρ] (lookup : String → Option Value) :
    (formulas : List Formula) → (∀ formula ∈ formulas, formula.Fits) →
      (evalAll lookup formulas : Eval ρ (List Value)).Supplied
  | [], _ => .pure []
  | formula :: rest, h => by
    obtain ⟨hformula, hrest⟩ := List.forall_mem_cons.1 h
    unfold evalAll
    exact (supplied_eval lookup formula hformula).bind fun _ _ _ _ =>
      (supplied_evalAll lookup rest hrest).bind fun _ _ _ _ => .pure _

end

/-- A text that is read as a formula calls functions with as many arguments as they take. -/
theorem fits_of_parse {source : String} {formula : Formula} (h : parse source = .ok formula) :
    formula.Fits := by
  obtain ⟨tokens, -, htokens⟩ := bind_eq_ok h
  exact (derives_of_ofTokens htokens).fits

/-- A linked parameter never wants an argument, whatever its value was. -/
theorem supplied_link [RandomSource ρ] (lookup : String → Option Value) (value : Value) :
    Eval.Supplied ((Arg.link value).eval lookup : Eval ρ Value) := by
  unfold Arg.link
  split
  · split
    · split
      · rename_i parsed hparsed
        exact supplied_eval lookup parsed (fits_of_parse hparsed)
      · exact fun _ _ _ h => by cases h
    · exact .pure _
  · exact .pure _

end

/-- In a formula that was read, every call has as many arguments as its function takes, at any
depth. The function is applied to as many values, so that it looks at no argument that is not
there, and the evaluation of a parameter with this formula never does, whatever the variables
hold and whatever numbers are drawn. -/
theorem parsed_calls_supplied {source : String} {formula : Formula}
    (h : parse source = .ok formula) :
    (∀ call ∈ formula.calls, call.1.takes call.2.length = true ∧
      ∀ {ρ : Type} [RandomSource ρ] (lookup : String → Option Value) (first last : ρ)
        (values : List Value), evalAll lookup call.2 first = (.ok values, last) →
          values.length = call.2.length ∧ Eval.Supplied (apply call.1 values : Eval ρ Value)) ∧
    ∀ (written : String) {ρ : Type} [RandomSource ρ] (lookup : String → Option Value),
      Eval.Supplied ((Arg.formula written formula).eval lookup : Eval ρ Value) := by
  have hfits := fits_of_parse h
  refine ⟨fun call hcall => ⟨hfits call hcall, ?_⟩, fun written _ _ lookup =>
    supplied_eval lookup formula hfits⟩
  intro ρ _ lookup first last values hvalues
  have hlength := length_evalAll hvalues
  exact ⟨hlength, .apply (by rw [hlength]; exact hfits call hcall)⟩

/-- The innermost of nested calls is applied to its one argument. -/
theorem parsed_calls_supplied_nested :
    let outer := Formula.call .max [.var "x", .call .len [.list [.call .abs [.var "y"]]]]
    let lookup := fun _ : String => some (Value.text "7")
    parse "max(x, len([abs(y)]))" = .ok outer ∧
      (FormulaFunction.abs, [Formula.var "y"]) ∈ outer.calls ∧
      ∀ source : ReplaySource,
        evalAll lookup [.var "y"] source = (.ok [.text "7"], source) ∧
          (apply .abs [.text "7"] source).1 ≠ .error (.missingArgument 0 1) ∧
          (((Arg.formula "" outer).eval lookup).run source).1 ≠ .error (.missingArgument 0 0) := by
  have htokens : Token.tokenize "max(x, len([abs(y)]))" =
      .ok [.name "max", .leftParen, .name "x", .comma, .name "len", .leftParen, .leftSquare,
        .name "abs", .leftParen, .name "y", .rightParen, .rightSquare, .rightParen,
        .rightParen] := by
    decide +kernel
  have hparse : parse "max(x, len([abs(y)]))" =
      .ok (.call .max [.var "x", .call .len [.list [.call .abs [.var "y"]]]]) := by
    rw [parse, htokens]
    rfl
  have hinner : (FormulaFunction.abs, [Formula.var "y"]) ∈ (Formula.call .max
      [.var "x", .call .len [.list [.call .abs [.var "y"]]]]).calls := by simp [calls, callsIn]
  refine ⟨hparse, hinner, fun source => ?_⟩
  have hvalues : evalAll (fun _ => some (Value.text "7")) [.var "y"] source =
      (.ok [.text "7"], source) := rfl
  obtain ⟨hcalls, heval⟩ := parsed_calls_supplied hparse
  exact ⟨hvalues, ((hcalls _ hinner).2 _ source source _ hvalues).2 source 0 1,
    heval "" _ source 0 0⟩

/-- A function that is given too few arguments would look for one. -/
example {ρ : Type} [RandomSource ρ] (state : ρ) :
    ((eval (fun _ => none) (.call .abs [])).run state).1 = .error (.missingArgument 0 0) :=
  rfl

end GridScript.Formula
