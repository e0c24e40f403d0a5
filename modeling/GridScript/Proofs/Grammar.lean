import GridScript.Formula.Parser
import Mathlib.Data.List.Basic

/-!
# The grammar of formulas

Which tokens form a formula, stated without reading them from left to right: five
levels of left-associative operators, prefixed operands, powers and factors. Reading
accepts exactly the tokens that the grammar derives and gives the formula they
derive.

Both directions follow the layers of the reader. What a reader accepts is a prefix
of its tokens that forms a phrase. Conversely, it accepts every phrase as long as the
token after it does not bind to it: tokens have a strength, and a phrase ends before
a token that is weaker than the phrase itself.
-/

namespace GridScript.Formula

/-- The levels of operators between operands, the loosest first. -/
inductive Level where
  | disjunction | conjunction | comparison | sum | product
  deriving DecidableEq

/-- A kind of phrase. -/
inductive PhraseKind where
  /-- Operands joined by the operators of a level. -/
  | joined (level : Level)
  /-- A power behind any number of prefixed operators. -/
  | prefixed
  /-- A factor, raised to a power or not. -/
  | powered
  /-- A literal, variable, call, list or parenthesized phrase. -/
  | factor
  deriving DecidableEq

namespace Level

/-- The operators of a level. -/
def operators : Level → List BinaryOp
  | .disjunction => [.or]
  | .conjunction => [.and]
  | .comparison => [.eq, .ne, .lt, .le, .gt, .ge]
  | .sum => [.add, .sub]
  | .product => [.mul, .div, .mod]

/-- The operands of a level are phrases of the next one. -/
def operand : Level → PhraseKind
  | .disjunction => .joined .conjunction
  | .conjunction => .joined .comparison
  | .comparison => .joined .sum
  | .sum => .joined .product
  | .product => .prefixed

end Level

/-- The kind of a whole formula. -/
abbrev PhraseKind.whole : PhraseKind :=
  .joined .disjunction

/-- Phrases with commas between them, and none at the end. -/
def separated (items : List (List Token × Formula)) : List Token :=
  [Token.comma].intercalate (items.map Prod.fst)

/-- Tokens form a phrase of some kind and stand for a formula, and no point of the
phrase lies inside more than `depth` nested prefixed phrases. -/
inductive Derives : (depth : Nat) → PhraseKind → List Token → Formula → Prop where
  /-- A single operand. -/
  | operand {depth : Nat} {level : Level} {tokens : List Token} {formula : Formula}
    (inner : Derives depth level.operand tokens formula) :
    Derives depth (.joined level) tokens formula
  /-- Operators of a level join to the left. -/
  | join {depth : Nat} {level : Level} {first second : List Token} {left right : Formula}
    {op : BinaryOp} (known : op ∈ level.operators)
    (before : Derives depth (.joined level) first left)
    (behind : Derives depth level.operand second right) :
    Derives depth (.joined level) (first ++ .op op :: second) (.binary op left right)
  /-- A minus sign in front. -/
  | negated {depth : Nat} {tokens : List Token} {formula : Formula}
    (inner : Derives depth .prefixed tokens formula) :
    Derives (depth + 1) .prefixed (.op .sub :: tokens) (.unary .neg formula)
  /-- A negation in front. -/
  | inverted {depth : Nat} {tokens : List Token} {formula : Formula}
    (inner : Derives depth .prefixed tokens formula) :
    Derives (depth + 1) .prefixed (.not :: tokens) (.unary .not formula)
  /-- Nothing in front. -/
  | plain {depth : Nat} {tokens : List Token} {formula : Formula}
    (inner : Derives depth .powered tokens formula) :
    Derives (depth + 1) .prefixed tokens formula
  /-- A factor by itself. -/
  | base {depth : Nat} {tokens : List Token} {formula : Formula}
    (inner : Derives depth .factor tokens formula) : Derives depth .powered tokens formula
  /-- A factor raised to a prefixed operand. -/
  | power {depth : Nat} {first second : List Token} {base exponent : Formula}
    (before : Derives depth .factor first base)
    (behind : Derives depth .prefixed second exponent) :
    Derives depth .powered (first ++ .op .pow :: second) (.binary .pow base exponent)
  /-- A number. -/
  | number {depth : Nat} (value : Number) :
    Derives depth .factor [.number value] (.const (.number value))
  /-- A text. -/
  | text {depth : Nat} (content : String) :
    Derives depth .factor [.text content] (.const (.text content))
  /-- A truth value. -/
  | bool {depth : Nat} (value : Bool) :
    Derives depth .factor [.bool value] (.const (.bool value))
  /-- A variable. -/
  | named {depth : Nat} (name : String) : Derives depth .factor [.name name] (.var name)
  /-- A known function with as many arguments as it takes. -/
  | call {depth : Nat} (function : FormulaFunction) {items : List (List Token × Formula)}
    (inner : ∀ item ∈ items, Derives depth .whole item.1 item.2)
    (takes : function.takes items.length = true) :
    Derives depth .factor (.name function.name :: .leftParen :: (separated items ++ [.rightParen]))
      (.call function (items.map Prod.snd))
  /-- A phrase in parentheses. -/
  | parenthesized {depth : Nat} {tokens : List Token} {formula : Formula}
    (inner : Derives depth .whole tokens formula) :
    Derives depth .factor (.leftParen :: (tokens ++ [.rightParen])) formula
  /-- A list. -/
  | list {depth : Nat} {items : List (List Token × Formula)}
    (inner : ∀ item ∈ items, Derives depth .whole item.1 item.2) :
    Derives depth .factor (.leftSquare :: (separated items ++ [.rightSquare]))
      (.list (items.map Prod.snd))

/-- One phrase has no comma around it. -/
theorem separated_singleton (item : List Token × Formula) : separated [item] = item.1 := by
  simp [separated, List.intercalate]

/-- A comma follows every phrase but the last. -/
theorem separated_cons (item next : List Token × Formula) (items : List (List Token × Formula)) :
    separated (item :: next :: items) = item.1 ++ .comma :: separated (next :: items) := by
  simp [separated, List.intercalate]

/-- There is a token for every phrase and one more at the end. -/
theorem length_le_separated (items : List (List Token × Formula)) :
    items.length ≤ (separated items).length + 1 := by
  induction items with
  | nil => simp
  | cons item rest ih =>
    cases rest with
    | nil => simp
    | cons next rest =>
      have hlength := congrArg List.length (separated_cons item next rest)
      simp only [List.length_append, List.length_cons] at hlength ih ⊢
      omega

/-- Every function is known by its name. -/
theorem ofName?_name (function : FormulaFunction) :
    FormulaFunction.ofName? function.name = some function := by
  cases function <;> decide

/-- A function that is found has the name. -/
theorem name_of_ofName? {name : String} {function : FormulaFunction}
    (h : FormulaFunction.ofName? name = some function) : function.name = name := by
  have hname := List.find?_some h
  simpa using hname

/-- Whatever a reader accepts starts with a phrase of some kind, and the reader stops
right after it. -/
def Reader.Sound (reader : Reader) (depth : Nat) (kind : PhraseKind) : Prop :=
  ∀ tokens formula rest, reader tokens = .ok (formula, rest) →
    ∃ used, tokens = used ++ rest ∧ Derives depth kind used formula

/-- The operator that comes next is one of those asked for. -/
theorem nextOp?_eq_some {ops : List BinaryOp} {op : BinaryOp} {tokens rest : List Token}
    (h : nextOp? ops tokens = some (op, rest)) : tokens = .op op :: rest ∧ op ∈ ops := by
  unfold nextOp? at h
  split at h
  · split at h
    · rename_i hm
      cases h
      exact ⟨rfl, hm⟩
    · cases h
  · cases h

/-- A computation that may fail succeeds in both of its parts. -/
theorem bind_eq_ok {α β : Type} {first : Except FormulaError α}
    {second : α → Except FormulaError β} {result : β} (h : first >>= second = .ok result) :
    ∃ middle, first = .ok middle ∧ second middle = .ok result := by
  cases first with
  | error error => cases h
  | ok middle => exact ⟨middle, rfl, h⟩

/-- Further operands extend what was read to a longer phrase of the level. -/
theorem joinOperands_sound {operand : Reader} {depth : Nat} {level : Level}
    (h : operand.Sound depth level.operand) {fuel : Nat} {left formula : Formula}
    {before tokens rest : List Token} (hl : Derives depth (.joined level) before left)
    (hj : joinOperands level.operators operand fuel left tokens = .ok (formula, rest)) :
    ∃ used, tokens = used ++ rest ∧ Derives depth (.joined level) (before ++ used) formula := by
  induction fuel generalizing left before tokens with
  | zero =>
    cases hj
    exact ⟨[], rfl, by simpa using hl⟩
  | succ fuel ih =>
    unfold joinOperands at hj
    split at hj
    · cases hj
      exact ⟨[], rfl, by simpa using hl⟩
    · rename_i op after hnext
      obtain ⟨rfl, hop⟩ := nextOp?_eq_some hnext
      obtain ⟨⟨right, behind⟩, hright, hmore⟩ := bind_eq_ok hj
      obtain ⟨used, rfl, hderives⟩ := h _ _ _ hright
      have hjoined : Derives depth (.joined level) (before ++ .op op :: used)
          (.binary op left right) := .join hop hl hderives
      obtain ⟨more, rfl, hall⟩ := ih hjoined hmore
      refine ⟨.op op :: (used ++ more), by simp, ?_⟩
      simpa using hall

/-- A level is read soundly if its operands are. -/
theorem leftLevel_sound {operand : Reader} {depth : Nat} (level : Level)
    (h : operand.Sound depth level.operand) :
    Reader.Sound (leftLevel level.operators operand) depth (.joined level) := by
  intro tokens formula rest hread
  obtain ⟨⟨left, after⟩, hleft, hjoin⟩ := bind_eq_ok hread
  obtain ⟨first, rfl, hfirst⟩ := h _ _ _ hleft
  obtain ⟨used, rfl, hall⟩ := joinOperands_sound h (.operand hfirst) hjoin
  exact ⟨first ++ used, (List.append_assoc ..).symm, hall⟩

/-- Whole phrases are read soundly if prefixed operands are. -/
theorem phrase_sound {operand : Reader} {depth : Nat} (h : operand.Sound depth .prefixed) :
    (phrase operand).Sound depth .whole := by
  have hproduct := leftLevel_sound .product h
  have hsum := leftLevel_sound .sum hproduct
  have hcomparison := leftLevel_sound .comparison hsum
  have hconjunction := leftLevel_sound .conjunction hcomparison
  exact leftLevel_sound .disjunction hconjunction

/-- Phrases up to a closing token are separated by commas. -/
theorem phrasesUntil_sound {phrase : Reader} {depth : Nat} (h : phrase.Sound depth .whole)
    {close : Token} {fuel : Nat} {tokens rest : List Token} {formulas : List Formula}
    (hp : phrasesUntil close phrase fuel tokens = .ok (formulas, rest)) :
    ∃ item items, tokens = separated (item :: items) ++ close :: rest ∧
      formulas = (item :: items).map Prod.snd ∧
      ∀ one ∈ item :: items, Derives depth .whole one.1 one.2 := by
  induction fuel generalizing tokens formulas with
  | zero => cases hp
  | succ fuel ih =>
    obtain ⟨⟨formula, after⟩, hfirst, hrest⟩ := bind_eq_ok hp
    obtain ⟨used, rfl, hderives⟩ := h _ _ _ hfirst
    dsimp only at hrest
    split at hrest
    · rename_i behind
      obtain ⟨⟨more, last⟩, hmore, hend⟩ := bind_eq_ok hrest
      cases hend
      obtain ⟨item, items, rfl, rfl, hall⟩ := ih hmore
      refine ⟨(used, formula), item :: items, ?_, rfl, ?_⟩
      · rw [separated_cons]
        simp
      · exact List.forall_mem_cons.2 ⟨hderives, hall⟩
    · split at hrest
      · rename_i hclose
        cases hrest
        subst hclose
        refine ⟨(used, formula), [], ?_, rfl, ?_⟩
        · rw [separated_singleton]
        · simpa using hderives
      · cases hrest
    · cases hrest

/-- A list up to a closing token is empty or separated by commas. -/
theorem listUntil_sound {phrase : Reader} {depth : Nat} (h : phrase.Sound depth .whole)
    {close : Token} {tokens rest : List Token} {formulas : List Formula}
    (hl : listUntil close phrase tokens = .ok (formulas, rest)) :
    ∃ items, tokens = separated items ++ close :: rest ∧ formulas = items.map Prod.snd ∧
      ∀ item ∈ items, Derives depth .whole item.1 item.2 := by
  unfold listUntil at hl
  split at hl
  · split at hl
    · rename_i hclose
      cases hl
      subst hclose
      exact ⟨[], rfl, rfl, by simp⟩
    · obtain ⟨item, items, htokens, hformulas, hall⟩ := phrasesUntil_sound h hl
      exact ⟨item :: items, htokens, hformulas, hall⟩
  · obtain ⟨item, items, htokens, hformulas, hall⟩ := phrasesUntil_sound h hl
    exact ⟨item :: items, htokens, hformulas, hall⟩

/-- Factors are read soundly if whole phrases are. -/
theorem factor_sound {phrase : Reader} {depth : Nat} (h : phrase.Sound depth .whole) :
    (factor phrase).Sound depth .factor := by
  intro tokens formula rest hread
  unfold factor at hread
  split at hread
  · cases hread
    exact ⟨_, rfl, .number _⟩
  · cases hread
    exact ⟨_, rfl, .text _⟩
  · cases hread
    exact ⟨_, rfl, .bool _⟩
  · rename_i name after
    split at hread
    · cases hread
    · rename_i function hfound
      obtain ⟨⟨arguments, last⟩, harguments, hend⟩ := bind_eq_ok hread
      obtain ⟨items, rfl, rfl, hall⟩ := listUntil_sound h harguments
      dsimp only at hend
      split at hend
      · rename_i htakes
        cases hend
        rw [List.length_map] at htakes
        have hcall := Derives.call function hall htakes
        rw [name_of_ofName? hfound] at hcall
        exact ⟨_, by simp, hcall⟩
      · cases hend
  · cases hread
    exact ⟨_, rfl, .named _⟩
  · obtain ⟨⟨inner, after⟩, hinner, hend⟩ := bind_eq_ok hread
    obtain ⟨used, rfl, hderives⟩ := h _ _ _ hinner
    dsimp only at hend
    split at hend
    · cases hend
      exact ⟨_, by simp, .parenthesized hderives⟩
    · rename_i hclose
      unfold unexpected at hend
      split at hend <;> cases hend
  · obtain ⟨⟨formulas, last⟩, hitems, hend⟩ := bind_eq_ok hread
    cases hend
    obtain ⟨items, rfl, rfl, hall⟩ := listUntil_sound h hitems
    exact ⟨_, by simp, .list hall⟩
  · unfold unexpected at hread
    split at hread <;> cases hread

/-- Powers are read soundly if their parts are. -/
theorem power_sound {operand phrase : Reader} {depth : Nat}
    (ho : operand.Sound depth .prefixed) (hp : phrase.Sound depth .whole) :
    (power operand phrase).Sound depth .powered := by
  intro tokens formula rest hread
  obtain ⟨⟨base, after⟩, hbase, hend⟩ := bind_eq_ok hread
  obtain ⟨first, rfl, hfirst⟩ := factor_sound hp _ _ _ hbase
  dsimp only at hend
  split at hend
  · cases hend
    exact ⟨first, rfl, .base hfirst⟩
  · rename_i op behind hnext
    obtain ⟨rfl, -⟩ := nextOp?_eq_some hnext
    obtain ⟨⟨exponent, last⟩, hexponent, hlast⟩ := bind_eq_ok hend
    cases hlast
    obtain ⟨second, rfl, hsecond⟩ := ho _ _ _ hexponent
    have hop : op = .pow := by simpa using (nextOp?_eq_some hnext).2
    subst hop
    exact ⟨_, by simp, .power hfirst hsecond⟩

/-- Prefixed operands are read soundly, however many may be nested. -/
theorem operand_sound (room : Nat) : (operand room).Sound room .prefixed := by
  induction room with
  | zero =>
    intro tokens formula rest hread
    cases hread
  | succ room ih =>
    intro tokens formula rest hread
    unfold operand at hread
    split at hread
    · obtain ⟨⟨value, last⟩, hvalue, hend⟩ := bind_eq_ok hread
      cases hend
      obtain ⟨used, rfl, hderives⟩ := ih _ _ _ hvalue
      exact ⟨_, rfl, .negated hderives⟩
    · obtain ⟨⟨value, last⟩, hvalue, hend⟩ := bind_eq_ok hread
      cases hend
      obtain ⟨used, rfl, hderives⟩ := ih _ _ _ hvalue
      exact ⟨_, rfl, .inverted hderives⟩
    · obtain ⟨used, hused, hderives⟩ := power_sound ih (phrase_sound ih) _ _ _ hread
      exact ⟨used, hused, .plain hderives⟩

/-- How strongly a token binds to what stands before it; most tokens do not. -/
def strength : Token → Nat
  | .op .or => 1
  | .op .and => 2
  | .op .eq | .op .ne | .op .lt | .op .le | .op .gt | .op .ge => 3
  | .op .add | .op .sub => 4
  | .op .mul | .op .div | .op .mod => 5
  | .op .pow => 6
  | .leftParen => 7
  | _ => 0

/-- The least strength that binds to a phrase. -/
def PhraseKind.reach : PhraseKind → Nat
  | .joined .disjunction => 1
  | .joined .conjunction => 2
  | .joined .comparison => 3
  | .joined .sum => 4
  | .joined .product => 5
  | .prefixed => 6
  | .powered => 6
  | .factor => 7

/-- No token of at least some strength comes next. -/
def EndsBelow (bound : Nat) (rest : List Token) : Prop :=
  ∀ token ∈ rest.head?, strength token < bound

/-- What ends below a bound ends below a greater one. -/
theorem EndsBelow.mono {less more : Nat} {rest : List Token} (h : EndsBelow less rest)
    (hle : less ≤ more) : EndsBelow more rest :=
  fun token hm => Nat.lt_of_lt_of_le (h token hm) hle

/-- A weak token ends what stands before it. -/
theorem EndsBelow.cons {bound : Nat} {token : Token} (h : strength token < bound)
    (rest : List Token) : EndsBelow bound (token :: rest) := by
  intro other hm
  simp only [List.head?_cons, Option.mem_some_iff] at hm
  rw [← hm]
  exact h

/-- The operators of a level have the strength that its phrases reach for. -/
theorem strength_of_mem {level : Level} {op : BinaryOp} (h : op ∈ level.operators) :
    strength (.op op) = (PhraseKind.joined level).reach := by
  cases level <;> cases op <;> first | rfl | exact absurd h (by decide)

/-- Operands reach for stronger tokens than the level they belong to. -/
theorem reach_operand (level : Level) :
    level.operand.reach = (PhraseKind.joined level).reach + 1 := by
  cases level <;> rfl

/-- A reader accepts every phrase of some kind, up to a token that does not bind to
it. -/
def Reader.Complete (reader : Reader) (depth : Nat) (kind : PhraseKind) : Prop :=
  ∀ used formula rest, Derives depth kind used formula → EndsBelow kind.reach rest →
    reader (used ++ rest) = .ok (formula, rest)

/-- Tokens that extend a formula to a longer phrase of a level, operand by operand. -/
inductive Chain (depth : Nat) (level : Level) : Formula → List Token → Formula → Prop where
  /-- Nothing more. -/
  | nil (left : Formula) : Chain depth level left [] left
  /-- An operator, its right operand, and what extends these. -/
  | cons {op : BinaryOp} {left right formula : Formula} {second more : List Token}
    (known : op ∈ level.operators) (behind : Derives depth level.operand second right)
    (rest : Chain depth level (.binary op left right) more formula) :
    Chain depth level left (.op op :: (second ++ more)) formula

/-- One more operand at the end of a chain. -/
theorem Chain.snoc {depth : Nat} {level : Level} {left middle right : Formula} {op : BinaryOp}
    {tokens second : List Token} (h : Chain depth level left tokens middle)
    (hop : op ∈ level.operators) (hr : Derives depth level.operand second right) :
    Chain depth level left (tokens ++ .op op :: second) (.binary op middle right) := by
  induction h with
  | nil left => simpa using Chain.cons hop hr (.nil _)
  | cons known behind rest ih => simpa using Chain.cons known behind ih

/-- An operand ends at the next operator of its level, or where the chain ends. -/
theorem Chain.endsBelow {depth : Nat} {level : Level} {left formula : Formula}
    {more rest : List Token} (h : Chain depth level left more formula)
    (hr : EndsBelow (PhraseKind.joined level).reach rest) :
    EndsBelow level.operand.reach (more ++ rest) := by
  rw [reach_operand]
  cases h with
  | nil => exact hr.mono (Nat.le_succ _)
  | cons known behind chain =>
    have hweak := strength_of_mem known
    exact .cons (by omega) _

/-- A phrase of a level is an operand and a chain, although the grammar puts it
together from the other end. -/
theorem Derives.exists_chain {depth : Nat} {level : Level} {tokens : List Token}
    {formula : Formula} (h : Derives depth (.joined level) tokens formula) :
    ∃ first left more, tokens = first ++ more ∧ Derives depth level.operand first left ∧
      Chain depth level left more formula := by
  generalize hkind : PhraseKind.joined level = kind at h
  induction h with
  | operand inner =>
    cases hkind
    exact ⟨_, _, [], by simp, inner, .nil _⟩
  | join known before behind ihbefore =>
    cases hkind
    obtain ⟨first, left, more, rfl, hfirst, hchain⟩ := ihbefore rfl
    exact ⟨first, left, _, by simp, hfirst, hchain.snoc known behind⟩
  | negated | inverted | plain | base | power | number | text | bool | named | call
    | parenthesized | list => cases hkind

/-- Tokens that do not bind to a level are left alone by it. -/
theorem nextOp?_eq_none {level : Level} {rest : List Token}
    (h : EndsBelow (PhraseKind.joined level).reach rest) : nextOp? level.operators rest = none := by
  unfold nextOp?
  split
  · rename_i op after
    have hweak := h (.op op) (by simp)
    rw [if_neg]
    intro hm
    rw [strength_of_mem hm] at hweak
    omega
  · rfl

/-- A chain is read to its end. -/
theorem joinOperands_complete {operand : Reader} {depth : Nat} {level : Level}
    (h : operand.Complete depth level.operand) {left formula : Formula} {more rest : List Token}
    (hc : Chain depth level left more formula) {fuel : Nat} (hf : more.length ≤ fuel)
    (hr : EndsBelow (PhraseKind.joined level).reach rest) :
    joinOperands level.operators operand fuel left (more ++ rest) = .ok (formula, rest) := by
  induction hc generalizing fuel with
  | nil left =>
    cases fuel with
    | zero => rfl
    | succ fuel =>
      unfold joinOperands
      rw [List.nil_append, nextOp?_eq_none hr]
  | @cons op left right formula second more known behind chain ih =>
    obtain ⟨fuel, rfl⟩ : ∃ less, fuel = less + 1 := by
      rw [List.length_cons] at hf
      exact ⟨fuel - 1, by omega⟩
    have hnext : nextOp? level.operators (.op op :: (second ++ more) ++ rest) =
        some (op, second ++ (more ++ rest)) := by
      simp [nextOp?, known]
    have hoperand := h second right (more ++ rest) behind (chain.endsBelow hr)
    have hshort : more.length ≤ fuel := by
      rw [List.length_cons, List.length_append] at hf
      omega
    unfold joinOperands
    rw [hnext]
    dsimp only
    rw [hoperand]
    exact ih hshort

/-- A level is read completely if its operands are. -/
theorem leftLevel_complete {operand : Reader} {depth : Nat} (level : Level)
    (h : operand.Complete depth level.operand) :
    Reader.Complete (leftLevel level.operators operand) depth (.joined level) := by
  intro used formula rest hderives hends
  obtain ⟨first, left, more, rfl, hfirst, hchain⟩ := hderives.exists_chain
  have hleft := h first left (more ++ rest) hfirst (hchain.endsBelow hends)
  have hlength : more.length ≤ (more ++ rest).length := by
    rw [List.length_append]
    omega
  unfold leftLevel
  rw [List.append_assoc, hleft]
  exact joinOperands_complete h hchain hlength hends

/-- Whole phrases are read completely if prefixed operands are. -/
theorem phrase_complete {operand : Reader} {depth : Nat} (h : operand.Complete depth .prefixed) :
    (phrase operand).Complete depth .whole := by
  have hproduct := leftLevel_complete .product h
  have hsum := leftLevel_complete .sum hproduct
  have hcomparison := leftLevel_complete .comparison hsum
  have hconjunction := leftLevel_complete .conjunction hcomparison
  exact leftLevel_complete .disjunction hconjunction

/-- A token that can start a factor. -/
def opensFactor : Token → Bool
  | .number _ | .text _ | .bool _ | .name _ | .leftParen | .leftSquare => true
  | _ => false

/-- A token that can start a phrase of some kind. -/
def PhraseKind.opens : PhraseKind → Token → Bool
  | .factor, token | .powered, token => opensFactor token
  | _, token => opensFactor token || token == .op .sub || token == .not

/-- What starts an operand starts a phrase of the level. -/
theorem opens_operand {level : Level} {token : Token} (h : level.operand.opens token = true) :
    (PhraseKind.joined level).opens token = true := by
  cases level <;> exact h

/-- Every phrase starts with a token that opens it. -/
theorem Derives.opens {depth : Nat} {kind : PhraseKind} {tokens : List Token} {formula : Formula}
    (h : Derives depth kind tokens formula) :
    ∃ token rest, tokens = token :: rest ∧ kind.opens token = true := by
  induction h with
  | operand inner ih =>
    obtain ⟨token, rest, rfl, hopens⟩ := ih
    exact ⟨token, rest, rfl, opens_operand hopens⟩
  | join known before behind ihbefore ihbehind =>
    obtain ⟨token, rest, rfl, hopens⟩ := ihbefore
    exact ⟨token, _, rfl, hopens⟩
  | negated inner => exact ⟨_, _, rfl, rfl⟩
  | inverted inner => exact ⟨_, _, rfl, rfl⟩
  | plain inner ih =>
    obtain ⟨token, rest, rfl, hopens⟩ := ih
    have hfactor : opensFactor token = true := hopens
    exact ⟨token, rest, rfl, by simp [PhraseKind.opens, hfactor]⟩
  | base inner ih => exact ih
  | power before behind ihbefore ihbehind =>
    obtain ⟨token, rest, rfl, hopens⟩ := ihbefore
    exact ⟨token, _, rfl, hopens⟩
  | number | text | bool | named | call | parenthesized | list => exact ⟨_, _, rfl, rfl⟩

/-- Phrases with commas between them are read up to the closing token. -/
theorem phrasesUntil_complete {phrase : Reader} {depth : Nat} (h : phrase.Complete depth .whole)
    {close : Token} (hw : strength close = 0) (hc : close ≠ .comma) (rest : List Token)
    (item : List Token × Formula) (items : List (List Token × Formula)) {fuel : Nat}
    (hf : (item :: items).length ≤ fuel)
    (hd : ∀ one ∈ item :: items, Derives depth .whole one.1 one.2) :
    phrasesUntil close phrase fuel (separated (item :: items) ++ close :: rest) =
      .ok ((item :: items).map Prod.snd, rest) := by
  induction items generalizing item fuel with
  | nil =>
    obtain ⟨fuel, rfl⟩ : ∃ less, fuel = less + 1 := by
      simp only [List.length_cons, List.length_nil] at hf
      exact ⟨fuel - 1, by omega⟩
    have hends : EndsBelow PhraseKind.whole.reach (close :: rest) :=
      .cons (by rw [hw]; decide) rest
    have hread := h item.1 item.2 (close :: rest) (hd item (by simp)) hends
    rw [separated_singleton]
    unfold phrasesUntil
    rw [hread]
    dsimp only [Bind.bind, Except.bind]
    split
    · rename_i heq
      cases heq
      exact absurd rfl hc
    · rename_i heq
      cases heq
      rw [if_pos rfl]
      rfl
    · rename_i heq
      cases heq
  | cons next items ih =>
    obtain ⟨fuel, rfl⟩ : ∃ less, fuel = less + 1 := by
      simp only [List.length_cons] at hf
      exact ⟨fuel - 1, by omega⟩
    have hends : EndsBelow PhraseKind.whole.reach
        (.comma :: (separated (next :: items) ++ close :: rest)) := .cons (by decide) _
    obtain ⟨hitem, hitems⟩ := List.forall_mem_cons.1 hd
    have hread := h item.1 item.2 _ hitem hends
    have hshort : (next :: items).length ≤ fuel := by
      simp only [List.length_cons] at hf ⊢
      omega
    have hmore := ih next hshort hitems
    rw [separated_cons, List.append_assoc, List.cons_append]
    unfold phrasesUntil
    rw [hread]
    change (phrasesUntil close phrase fuel (separated (next :: items) ++ close :: rest) >>= _) = _
    rw [hmore]
    rfl

/-- Lists are read up to the closing token. -/
theorem listUntil_complete {phrase : Reader} {depth : Nat} (h : phrase.Complete depth .whole)
    (close : Token) (hw : strength close = 0) (hc : close ≠ .comma)
    (ho : PhraseKind.whole.opens close = false) {items : List (List Token × Formula)}
    (hd : ∀ item ∈ items, Derives depth .whole item.1 item.2) (rest : List Token) :
    listUntil close phrase (separated items ++ close :: rest) =
      .ok (items.map Prod.snd, rest) := by
  cases items with
  | nil =>
    change (if close = close then _ else _) = _
    rw [if_pos rfl]
    rfl
  | cons item items =>
    obtain ⟨token, after, hstart, hopens⟩ := (hd item (by simp)).opens
    obtain ⟨tail, htail⟩ : ∃ tail, separated (item :: items) = token :: tail := by
      cases items with
      | nil => exact ⟨after, by rw [separated_singleton, hstart]⟩
      | cons next items => exact ⟨_, by rw [separated_cons, hstart, List.cons_append]⟩
    have hne : token ≠ close := by
      rintro rfl
      rw [ho] at hopens
      cases hopens
    have hcount := length_le_separated (item :: items)
    have hfuel : (item :: items).length ≤
        (separated (item :: items) ++ close :: rest).length := by
      simp only [List.length_append, List.length_cons] at hcount ⊢
      omega
    have hread := phrasesUntil_complete h hw hc rest item items hfuel hd
    unfold listUntil
    rw [htail] at hread ⊢
    dsimp only [List.cons_append] at hread ⊢
    rw [if_neg hne]
    exact hread

/-- Factors are read completely if whole phrases are. -/
theorem factor_complete {phrase : Reader} {depth : Nat} (h : phrase.Complete depth .whole) :
    (factor phrase).Complete depth .factor := by
  intro used formula rest hderives hends
  cases hderives with
  | number value => rfl
  | text content => rfl
  | bool value => rfl
  | named name =>
    cases rest with
    | nil => rfl
    | cons token rest =>
      have hweak := hends token (by simp)
      cases token with
      | leftParen => exact absurd hweak (by decide)
      | number | text | bool | name | op | not | rightParen | leftSquare | rightSquare | comma =>
        rfl
  | @call _ function items inner takes =>
    have hread := listUntil_complete h .rightParen rfl (by decide) rfl inner rest
    have hshape : Token.name function.name :: .leftParen ::
        (separated items ++ [.rightParen]) ++ rest =
          .name function.name :: .leftParen :: (separated items ++ .rightParen :: rest) := by simp
    rw [hshape]
    unfold factor
    dsimp only
    rw [ofName?_name]
    dsimp only
    rw [hread]
    change (if function.takes (items.map Prod.snd).length = true then _ else _) = _
    rw [List.length_map, if_pos takes]
  | @parenthesized _ tokens formula inner =>
    have hclose : EndsBelow PhraseKind.whole.reach (.rightParen :: rest) := .cons (by decide) rest
    have hread := h tokens formula _ inner hclose
    have hshape : Token.leftParen :: (tokens ++ [.rightParen]) ++ rest =
        .leftParen :: (tokens ++ .rightParen :: rest) := by simp
    rw [hshape]
    unfold factor
    dsimp only
    rw [hread]
    rfl
  | @list _ items inner =>
    have hread := listUntil_complete h .rightSquare rfl (by decide) rfl inner rest
    have hshape : Token.leftSquare :: (separated items ++ [.rightSquare]) ++ rest =
        .leftSquare :: (separated items ++ .rightSquare :: rest) := by simp
    rw [hshape]
    unfold factor
    dsimp only
    rw [hread]
    rfl

/-- Powers are read completely if their parts are. -/
theorem power_complete {operand phrase : Reader} {depth : Nat}
    (ho : operand.Complete depth .prefixed) (hp : phrase.Complete depth .whole) :
    (power operand phrase).Complete depth .powered := by
  intro used formula rest hderives hends
  cases hderives with
  | base inner =>
    have hread := factor_complete hp used formula rest inner (hends.mono (by decide))
    have hnone : nextOp? [.pow] rest = none := by
      unfold nextOp?
      split
      · rename_i op after
        have hweak := hends (.op op) (by simp)
        cases op <;> first | rfl | exact absurd hweak (by decide)
      · rfl
    unfold power
    rw [hread]
    dsimp only [Bind.bind, Except.bind]
    rw [hnone]
  | @power _ first second base exponent before behind =>
    have hpower : EndsBelow PhraseKind.factor.reach (.op .pow :: (second ++ rest)) :=
      .cons (by decide) _
    have hbase := factor_complete hp first base _ before hpower
    have hexponent := ho second exponent rest behind hends
    unfold power
    rw [List.append_assoc, List.cons_append, hbase]
    change (operand (second ++ rest) >>= _) = _
    rw [hexponent]
    rfl

/-- Prefixed operands are read completely, as deep as they may be nested. -/
theorem operand_complete (room : Nat) : (operand room).Complete room .prefixed := by
  induction room with
  | zero =>
    intro used formula rest hderives
    cases hderives
  | succ room ih =>
    intro used formula rest hderives hends
    cases hderives with
    | @negated _ tokens formula inner =>
      have hread := ih tokens formula rest inner hends
      unfold operand
      dsimp only [List.cons_append]
      rw [hread]
      rfl
    | @inverted _ tokens formula inner =>
      have hread := ih tokens formula rest inner hends
      unfold operand
      dsimp only [List.cons_append]
      rw [hread]
      rfl
    | plain inner =>
      have hread := power_complete ih (phrase_complete ih) used formula rest inner hends
      obtain ⟨token, after, rfl, hopens⟩ := inner.opens
      unfold operand
      cases token with
      | number | text | bool | name | leftParen | leftSquare => exact hread
      | op | not | rightParen | rightSquare | comma => cases hopens

/-- Tokens that are read as a formula form it in the grammar. -/
theorem derives_of_ofTokens {tokens : List Token} {formula : Formula}
    (h : ofTokens tokens = .ok formula) : Derives maxDepth .whole tokens formula := by
  obtain ⟨⟨found, rest⟩, hread, hend⟩ := bind_eq_ok h
  obtain ⟨used, rfl, hderives⟩ := phrase_sound (operand_sound maxDepth) _ _ _ hread
  dsimp only at hend
  split at hend
  · rename_i hempty
    cases hend
    rw [List.isEmpty_iff.1 hempty, List.append_nil]
    exact hderives
  · unfold unexpected at hend
    split at hend <;> cases hend

/-- Reading accepts exactly the tokens that form a formula in the grammar, with at most
`maxDepth` nested prefixed phrases, and gives the formula they stand for. -/
theorem ofTokens_eq_ok_iff_derives (tokens : List Token) (formula : Formula) :
    ofTokens tokens = .ok formula ↔ Derives maxDepth .whole tokens formula := by
  constructor
  · exact derives_of_ofTokens
  · intro h
    have hends : EndsBelow PhraseKind.whole.reach [] := fun token hm => by cases hm
    have hread := phrase_complete (operand_complete maxDepth) tokens formula [] h hends
    rw [List.append_nil] at hread
    unfold ofTokens
    rw [hread]
    rfl

/-- A prefixed operator binds less than a power before it and may follow one. -/
example : ofTokens [.op .sub, .name "a", .op .pow, .op .sub, .name "b", .op .mul, .name "c"] =
    .ok (.binary .mul
      (.unary .neg (.binary .pow (.var "a") (.unary .neg (.var "b")))) (.var "c")) := rfl

end GridScript.Formula
