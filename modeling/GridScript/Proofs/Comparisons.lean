import GridScript.Actions.Table
import GridScript.Formula.Eval

/-!
# Comparisons of values

Programs order values by one rule and compare them for equality by another. The two rules
agree on all values that have an order and are no items: one of them is less, they are
equal, or one of them is greater. An item has its amount as a number when it is ordered,
but equals nothing but itself. Formulas and conditions give the same answers.
-/

namespace GridScript

namespace Number

/-- Numbers with a minus sign stand below zero and all others do not. There is no zero with a
sign, so both kinds stand where their bits say. -/
theorem rank_cases (n : Number) :
    (signBit < n.bits.toNat ∧ n.rank = signBit - n.bits.toNat) ∨
      (n.bits.toNat < signBit ∧ n.rank = n.bits.toNat) := by
  have hbound := n.bits.toNat_lt
  have hzero : n.bits.toNat ≠ signBit := fun h => n.unsignedZero (UInt64.toNat_inj.1 h)
  unfold rank floatMagnitude
  cases hsign : n.isNegative with
  | true =>
    have hnegative : signBit ≤ n.bits.toNat := of_decide_eq_true hsign
    rw [if_pos rfl]
    unfold signBit at *
    omega
  | false =>
    have hpositive : ¬ signBit ≤ n.bits.toNat := of_decide_eq_false hsign
    rw [if_neg Bool.false_ne_true]
    unfold signBit at *
    omega

/-- The place of a number on the line determines it. -/
theorem eq_of_rank_eq {a b : Number} (h : a.rank = b.rank) : a = b := by
  have hbits : a.bits.toNat = b.bits.toNat := by
    have ha := a.rank_cases
    have hb := b.rank_cases
    omega
  cases a
  cases b
  cases UInt64.toNat_inj.1 hbits
  rfl

/-- Numbers compare as equal exactly when they are. -/
theorem order_eq_eq_iff {a b : Number} : a.order b = .eq ↔ a = b := by
  unfold order
  rw [Std.LawfulEqOrd.compare_eq_iff_eq]
  exact ⟨eq_of_rank_eq, congrArg rank⟩

end Number

namespace Value

/-- How two values are ordered, if they are. -/
inductive Ordered (left right : Value) : Ordering → Prop
  /-- Both can be read as numbers, and these decide. -/
  | numbers {a b : Number} (hleft : left.asNumber = .ok a) (hright : right.asNumber = .ok b) :
      Ordered left right (a.order b)
  /-- Both are texts, of which one cannot be read as a number. -/
  | texts {s t : String} (hleft : left = .text s) (hright : right = .text t)
      (hwords : ∀ a b, ¬ (left.asNumber = .ok a ∧ right.asNumber = .ok b)) :
      Ordered left right (Text.compareFolded s t)

variable {left right : Value} {o : Ordering}

/-- These are the values that have an order. -/
theorem order_eq_ok_iff : left.order right = .ok o ↔ left.Ordered right o := by
  unfold order
  constructor
  · intro h
    split at h
    · rename_i a b hleft hright
      cases h
      exact .numbers hleft hright
    · rename_i hwords
      split at h
      · rename_i s t
        cases h
        exact .texts rfl rfl fun a b hboth => hwords a b hboth.1 hboth.2
      · cases h
  · intro h
    cases h with
    | numbers hleft hright => rw [hleft, hright]
    | texts hleft hright hwords =>
      subst hleft hright
      split
      · rename_i a b hleft hright
        exact absurd ⟨hleft, hright⟩ (hwords a b)
      · rfl

/-- Exchanging the values reverses their order. -/
theorem Ordered.swap (h : left.Ordered right o) : right.Ordered left o.swap := by
  cases h with
  | @numbers a b hleft hright =>
    rw [← Number.order_swap]
    exact .numbers hright hleft
  | @texts s t hleft hright hwords =>
    rw [← Text.compareFolded_swap]
    exact .texts hright hleft fun a b hboth => hwords b a hboth.symm

/-- So do two values that have one. -/
theorem order_eq_ok_swap (h : left.order right = .ok o) : right.order left = .ok o.swap :=
  order_eq_ok_iff.2 (order_eq_ok_iff.1 h).swap

/-- What can be read as a number is a scalar or an item. -/
theorem isScalar_of_asNumber {value : Value} {n : Number} (h : value.asNumber = .ok n)
    (hi : value.kind ≠ .item) : value.isScalar = true := by
  cases value with
  | text | number | bool => rfl
  | item => exact absurd rfl hi
  | list | map | location | actor | any => cases h

/-- Where no item takes part, values are equal in order exactly if they are loosely equal. -/
theorem Ordered.eq_iff_looselyEqual (h : left.Ordered right o) (hl : left.kind ≠ .item)
    (hr : right.kind ≠ .item) : o = .eq ↔ left.looselyEqual right = true := by
  cases h with
  | @numbers a b hleft hright =>
    rw [Number.order_eq_eq_iff, looselyEqual, isScalar_of_asNumber hleft hl,
      isScalar_of_asNumber hright hr, scalarEqual, hleft, hright]
    exact beq_iff_eq.symm
  | @texts s t hleft hright hwords =>
    subst hleft hright
    have htexts : (text s).looselyEqual (text t) = Text.sameFolded s t := by
      change scalarEqual (.text s) (.text t) = _
      unfold scalarEqual
      split
      · rename_i a b hs ht
        exact absurd ⟨hs, ht⟩ (hwords a b)
      · rfl
    rw [htexts, Text.compareFolded_eq_iff]

/-- An item is equal to nothing but itself. -/
theorem looselyEqual_of_item (hi : left.kind = .item ∨ right.kind = .item) :
    left.looselyEqual right = true ↔ left = right := by
  have hscalar {value : Value} (h : value.kind = .item) : value.isScalar = false := by
    cases value with
    | item => rfl
    | text | number | bool | list | map | location | actor | any => cases h
  have hboth : (left.isScalar && right.isScalar) = false := by
    rcases hi with hl | hr
    · rw [hscalar hl, Bool.false_and]
    · rw [hscalar hr, Bool.and_false]
  rw [looselyEqual, hboth]
  exact beq_iff_eq

/-- In the order an item stands where its amount does. -/
theorem Ordered.eq_iff_of_item (h : left.Ordered right o)
    (hi : left.kind = .item ∨ right.kind = .item) :
    o = .eq ↔ left.asNumber = right.asNumber := by
  cases h with
  | numbers hleft hright =>
    rw [Number.order_eq_eq_iff, hleft, hright, Except.ok.injEq]
  | texts hleft hright =>
    subst hleft hright
    rcases hi with hl | hr
    · cases hl
    · cases hr

end Value

/-- The comparisons that formulas and conditions can make. -/
inductive Comparison where
  | equal | unequal | less | atMost | greater | atLeast

namespace Comparison

/-- The operator of formulas. -/
def operator : Comparison → BinaryOp
  | equal => .eq
  | unequal => .ne
  | less => .lt
  | atMost => .le
  | greater => .gt
  | atLeast => .ge

/-- The words that stand for it in a condition. -/
def words : Comparison → List String
  | equal => ["==", "=", "eq", "equals"]
  | unequal => ["!=", "<>", "ne"]
  | less => ["<", "lt"]
  | atMost => ["<=", "le"]
  | greater => [">", "gt"]
  | atLeast => [">=", "ge"]

/-- What a comparison says of two values. -/
def ask (comparison : Comparison) (left right : Value) : Except Fault Bool :=
  match comparison with
  | equal => .ok (left.looselyEqual right)
  | unequal => .ok (!left.looselyEqual right)
  | less => (left.order right).map (·.isLT)
  | atMost => (left.order right).map (·.isLE)
  | greater => (left.order right).map (·.isGT)
  | atLeast => (left.order right).map (·.isGE)

/-- A comparison of two values has an answer, in formulas as well as in conditions. -/
structure Answers (comparison : Comparison) (left right : Value) (answer : Bool) : Prop where
  /-- A formula gives the answer for two parts that have these values. -/
  formula : ∀ {ρ : Type} [RandomSource ρ] (lookup : String → Option Value) (a b : Formula)
    (first second third : ρ), Formula.eval lookup a first = (.ok left, second) →
      Formula.eval lookup b second = (.ok right, third) →
      Formula.eval lookup (.binary comparison.operator a b) first = (.ok (.bool answer), third)
  /-- A condition gives it for every spelling of the comparison. -/
  condition : ∀ word, Text.trim word ∈ comparison.words →
    Actions.relate word left right = .ok answer

variable {comparison : Comparison} {left right : Value} {answer : Bool}

/-- A part that has a value hands it on. -/
theorem eval_bind {ρ α β : Type} {part : Formula.Eval ρ α} {next : α → Formula.Eval ρ β}
    {first second : ρ} {value : α} (h : part first = (.ok value, second)) :
    (part >>= next) first = next value second := by
  change (ExceptT.bindCont next (part first).1) (part first).2 = _
  rw [h]
  rfl

/-- The operator of formulas asks this of the values of its two sides. -/
theorem eval_operator {ρ : Type} [RandomSource ρ] {lookup : String → Option Value}
    {a b : Formula} {first second third : ρ} (h : comparison.ask left right = .ok answer)
    (ha : Formula.eval lookup a first = (.ok left, second))
    (hb : Formula.eval lookup b second = (.ok right, third)) :
    Formula.eval lookup (.binary comparison.operator a b) first = (.ok (.bool answer), third) := by
  have happly : Formula.applyBinary comparison.operator left right = .ok (.bool answer) := by
    cases comparison with
    | equal | unequal =>
      cases h
      rfl
    | less | atMost | greater | atLeast =>
      cases ho : left.order right with
      | error fault =>
        simp only [ask, ho] at h
        cases h
      | ok o =>
        simp only [ask, ho] at h
        cases h
        simp only [operator, Formula.applyBinary, ho]
        rfl
  have hvalues : Formula.eval lookup (.binary comparison.operator a b) first =
      (Formula.applyBinary comparison.operator left right, third) := by
    cases comparison <;>
      simp only [operator, Formula.eval, eval_bind ha, eval_bind hb] <;> rfl
  rw [hvalues, happly]

/-- All words for a comparison ask this in a condition. -/
theorem relate_word {word : String} (hword : Text.trim word ∈ comparison.words) :
    Actions.relate word left right = comparison.ask left right := by
  unfold Actions.relate
  cases comparison <;> simp only [words, List.mem_cons, List.not_mem_nil, or_false] at hword
  case equal => rcases hword with h | h | h | h <;> rw [h] <;> rfl
  case unequal => rcases hword with h | h | h <;> rw [h] <;> rfl
  case less => rcases hword with h | h <;> rw [h] <;> rfl
  case atMost => rcases hword with h | h <;> rw [h] <;> rfl
  case greater => rcases hword with h | h <;> rw [h] <;> rfl
  case atLeast => rcases hword with h | h <;> rw [h] <;> rfl

/-- What is asked is answered by formulas and conditions alike. -/
theorem answers_of_ask (h : comparison.ask left right = .ok answer) :
    comparison.Answers left right answer :=
  ⟨fun _ _ _ _ _ _ ha hb => eval_operator h ha hb,
    fun _ hword => (relate_word hword).trans h⟩

end Comparison

namespace Value

open Comparison

/-- The answers that follow from the order of two values and their equality. -/
theorem Ordered.answers {left right : Value} {o : Ordering} (h : left.Ordered right o) :
    less.Answers left right o.isLT ∧ atMost.Answers left right o.isLE ∧
      greater.Answers left right o.isGT ∧ atLeast.Answers left right o.isGE ∧
      equal.Answers left right (left.looselyEqual right) ∧
      unequal.Answers left right (!left.looselyEqual right) := by
  have horder : left.order right = .ok o := order_eq_ok_iff.2 h
  have hasked (test : Ordering → Bool) : (left.order right).map test = .ok (test o) := by
    rw [horder]
    rfl
  exact ⟨answers_of_ask (hasked _), answers_of_ask (hasked _), answers_of_ask (hasked _),
    answers_of_ask (hasked _), answers_of_ask rfl, answers_of_ask rfl⟩

/-- The order of values and their equality agree up to items. Two values have an order in
both directions, and then one is the reverse of the other, or in neither. If they have one,
formulas and conditions answer all comparisons. If neither of them is an item, they are
equal in order exactly if they are loosely equal: exactly one of less, equal and greater
holds, and at most means less or equal. An item is ordered by its amount but equal to
itself only: at most one of the three holds, and at most means not greater. -/
theorem order_agrees_with_equality {left right : Value} :
    ((∃ o, left.order right = .ok o) ↔ ∃ o, right.order left = .ok o) ∧
    ∀ o, left.order right = .ok o →
      right.order left = .ok o.swap ∧
      (less.Answers left right o.isLT ∧ atMost.Answers left right o.isLE ∧
        greater.Answers left right o.isGT ∧ atLeast.Answers left right o.isGE ∧
        equal.Answers left right (left.looselyEqual right) ∧
        unequal.Answers left right (!left.looselyEqual right)) ∧
      (left.kind ≠ .item → right.kind ≠ .item →
        (o = .eq ↔ left.looselyEqual right = true) ∧
        [o.isLT, left.looselyEqual right, o.isGT].count true = 1 ∧
        o.isLE = (o.isLT || left.looselyEqual right) ∧
        o.isGE = (o.isGT || left.looselyEqual right)) ∧
      (left.kind = .item ∨ right.kind = .item →
        (o = .eq ↔ left.asNumber = right.asNumber) ∧
        (left.looselyEqual right = true ↔ left = right) ∧
        [o.isLT, left.looselyEqual right, o.isGT].count true ≤ 1 ∧
        o.isLE = !o.isGT ∧ o.isGE = !o.isLT) := by
  refine ⟨⟨fun ⟨o, h⟩ => ⟨_, order_eq_ok_swap h⟩, fun ⟨o, h⟩ => ⟨_, order_eq_ok_swap h⟩⟩,
    fun o horder => ?_⟩
  have h : left.Ordered right o := order_eq_ok_iff.1 horder
  refine ⟨order_eq_ok_swap horder, h.answers, fun hl hr => ?_, fun hi => ?_⟩
  · have heq := h.eq_iff_looselyEqual hl hr
    refine ⟨heq, ?_⟩
    cases o <;> cases hs : left.looselyEqual right <;> simp_all
  · have heq := h.eq_iff_of_item hi
    have hself := looselyEqual_of_item hi
    have hsame (hs : left.looselyEqual right = true) : o = .eq := heq.2 (by rw [hself.1 hs])
    refine ⟨heq, hself, ?_, ?_, ?_⟩
    · cases o <;> cases hs : left.looselyEqual right <;> simp_all
    · cases o <;> rfl
    · cases o <;> rfl

/-- A text that is read as a number, and that number. -/
theorem order_agrees_with_equality_hexadecimal :
    (text " 0x10").order (number (.ofInt 16)) = .ok .eq ∧
      (text " 0x10").looselyEqual (number (.ofInt 16)) = true ∧
      less.Answers (text " 0x10") (number (.ofInt 16)) false ∧
      atMost.Answers (text " 0x10") (number (.ofInt 16)) true := by
  have hparse : Number.parse? " 0x10" = some (.ofInt 16) := by decide +kernel
  have hread : (text " 0x10").asNumber = .ok (.ofInt 16) := by rw [asNumber, hparse]
  have hself : (Number.ofInt 16).order (.ofInt 16) = .eq := Number.order_eq_eq_iff.2 rfl
  have horder : (text " 0x10").order (number (.ofInt 16)) = .ok .eq :=
    order_eq_ok_iff.2 (hself ▸ .numbers hread rfl)
  obtain ⟨-, ⟨hless, hmost, -⟩, hscalars, -⟩ :=
    (@order_agrees_with_equality (text " 0x10") (number (.ofInt 16))).2 .eq horder
  exact ⟨horder, (hscalars nofun nofun).1.1 rfl, hless, hmost⟩

/-- Order and equality do not agree on all values: three pieces of something are ordered
like the number three but are not equal to it, so that nothing of less, equal and greater
holds, though at most does. -/
theorem order_disagrees_on_items : ¬ ∀ (left right : Value) (o : Ordering),
    left.order right = .ok o → (o = .eq ↔ left.looselyEqual right = true) := by
  intro h
  have hself : (Number.ofInt 3).order (.ofInt 3) = .eq := Number.order_eq_eq_iff.2 rfl
  have horder : (item ⟨"diamond", 3, none⟩).order (number (.ofInt 3)) = .ok .eq :=
    order_eq_ok_iff.2 (hself ▸ .numbers rfl rfl)
  have hequal := (h _ _ .eq horder).1 rfl
  cases (looselyEqual_of_item (.inl rfl)).1 hequal

end Value

end GridScript
