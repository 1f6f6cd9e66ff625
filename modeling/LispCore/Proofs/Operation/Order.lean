import Mathlib.Algebra.Order.Field.Rat
import Mathlib.Data.List.Chain
import Mathlib.Order.Compare
import Mathlib.Order.WithBot
import LispCore.Proofs.Equality
import LispCore.Proofs.Operation.Arithmetic

/-!
Comparison of neighbours is comparison of all pairs.

NaNs apart, numbers have a place on the rational line with its two ends, and they are compared as
their places are (`Number.holds_iff`). Places are ordered linearly, so each of the relations is
transitive, and a chain of neighbours related by it relates every number in the list to all that
follow (`Comparison.chain_iff`). With a NaN next to it no number is related to anything.
-/

namespace LispCore

namespace Exact

/-- The place on the rational line with its two ends. A NaN has none, and is put anywhere. -/
def place : Exact → WithBot (WithTop Rat)
  | .negativeInfinity | .nan => ⊥
  | .finite value => (value : WithTop Rat)
  | .infinity => (⊤ : WithTop Rat)

theorem exists_compare? {x y : Exact} (proper : x ≠ .nan) (properOther : y ≠ .nan) :
    ∃ order, x.compare? y = some order ∧ order.Compares x.place y.place := by
  cases x with
  | nan => contradiction
  | negativeInfinity =>
      cases y with
      | nan => contradiction
      | negativeInfinity => exact ⟨.eq, rfl, rfl⟩
      | finite | infinity => exact ⟨.lt, rfl, WithBot.bot_lt_coe _⟩
  | infinity =>
      cases y with
      | nan => contradiction
      | negativeInfinity => exact ⟨.gt, rfl, WithBot.bot_lt_coe _⟩
      | finite value =>
          exact ⟨.gt, rfl, WithBot.coe_lt_coe.mpr (WithTop.coe_lt_top value)⟩
      | infinity => exact ⟨.eq, rfl, rfl⟩
  | finite value =>
      cases y with
      | nan => contradiction
      | negativeInfinity => exact ⟨.gt, rfl, WithBot.bot_lt_coe _⟩
      | infinity => exact ⟨.lt, rfl, WithBot.coe_lt_coe.mpr (WithTop.coe_lt_top value)⟩
      | finite other =>
          have lift {a b : Rat} (less : a < b) : (finite a).place < (finite b).place :=
            WithBot.coe_lt_coe.mpr (WithTop.coe_lt_coe.mpr less)
          rcases lt_trichotomy value other with less | rfl | greater
          · exact ⟨.lt, by simp [compare?, less], lift less⟩
          · exact ⟨.eq, by simp [compare?], rfl⟩
          · exact ⟨.gt, by simp [compare?, greater.not_gt, greater.ne'], lift greater⟩

end Exact

namespace Comparison

variable {α : Type} [LinearOrder α]

/-- The relation in a linear order. -/
def Relates : Comparison → α → α → Prop
  | .equal, a, b => a = b
  | .less, a, b => a < b
  | .lessOrEqual, a, b => a ≤ b
  | .greater, a, b => a > b
  | .greaterOrEqual, a, b => a ≥ b

instance (relation : Comparison) : DecidableRel (relation.Relates (α := α)) :=
  fun a b =>
    match relation with
    | .equal => inferInstanceAs (Decidable (a = b))
    | .less => inferInstanceAs (Decidable (a < b))
    | .lessOrEqual => inferInstanceAs (Decidable (a ≤ b))
    | .greater => inferInstanceAs (Decidable (a > b))
    | .greaterOrEqual => inferInstanceAs (Decidable (a ≥ b))

instance (relation : Comparison) :
    Trans (relation.Relates (α := α)) relation.Relates relation.Relates where
  trans first second := by
    cases relation with
    | equal => exact Eq.trans first second
    | less => exact lt_trans first second
    | lessOrEqual => exact le_trans first second
    | greater => exact gt_trans first second
    | greaterOrEqual => exact ge_trans first second

theorem admits_iff (relation : Comparison) {order : Ordering} {a b : α}
    (compared : order.Compares a b) : relation.admits order ↔ relation.Relates a b := by
  cases order with
  | lt =>
      have less : a < b := compared
      cases relation <;> simp [admits, Relates, less, less.le, less.ne]
  | eq =>
      obtain rfl : a = b := compared
      cases relation <;> simp [admits, Relates]
  | gt =>
      have greater : b < a := compared
      cases relation <;> simp [admits, Relates, greater, greater.le, greater.ne']

theorem existsUnique_admits (order : Ordering) :
    ∃! relation, relation ∈ [Comparison.less, .equal, .greater] ∧ relation.admits order := by
  cases order with
  | lt =>
      refine ⟨.less, by decide, fun relation admitted => ?_⟩
      cases relation <;> simp_all [admits]
  | eq =>
      refine ⟨.equal, by decide, fun relation admitted => ?_⟩
      cases relation <;> simp_all [admits]
  | gt =>
      refine ⟨.greater, by decide, fun relation admitted => ?_⟩
      cases relation <;> simp_all [admits]

end Comparison

namespace Number

def IsNaN (number : Number) : Prop :=
  number.exact = .nan

instance : DecidablePred IsNaN :=
  fun number => inferInstanceAs (Decidable (number.exact = .nan))

def place (number : Number) : WithBot (WithTop Rat) :=
  number.exact.place

variable {a b : Number}

theorem exists_compare? (proper : ¬ a.IsNaN) (properOther : ¬ b.IsNaN) :
    ∃ order, a.compare? b = some order ∧ order.Compares a.place b.place :=
  Exact.exists_compare? proper properOther

theorem holds_iff (relation : Comparison) (proper : ¬ a.IsNaN) (properOther : ¬ b.IsNaN) :
    relation.holds a b ↔ relation.Relates a.place b.place := by
  obtain ⟨order, found, compared⟩ := exists_compare? proper properOther
  rw [Comparison.holds, found]
  exact relation.admits_iff compared

theorem compare?_of_isNaN (nan : a.IsNaN ∨ b.IsNaN) : a.compare? b = none := by
  unfold compare?
  rcases nan with nan | nan
  · rw [nan]
    rfl
  · rw [nan]
    cases a.exact <;> rfl

theorem not_holds_of_isNaN (relation : Comparison) (nan : a.IsNaN ∨ b.IsNaN) :
    relation.holds a b = false := by
  rw [Comparison.holds, compare?_of_isNaN nan]
  rfl

end Number

namespace Comparison

variable {relation : Comparison} {numbers : List Number}

/-- Neighbours are all related exactly if every number is related to all that follow. -/
theorem chain_iff (proper : ∀ number ∈ numbers, ¬ number.IsNaN) :
    relation.chain numbers ↔ (numbers.map Number.place).Pairwise relation.Relates := by
  rw [← List.isChain_iff_pairwise]
  fun_induction chain relation numbers with
  | case1 a b rest ih =>
      obtain ⟨properFirst, others⟩ := List.forall_mem_cons.mp proper
      have first := Number.holds_iff relation properFirst (others b List.mem_cons_self)
      rw [Bool.and_eq_true, first, ih others]
      exact List.isChain_cons_cons.symm
  | case2 numbers short =>
      match numbers, short with
      | [], _ => simp
      | [number], _ => simp
      | a :: b :: rest, short => exact absurd rfl (short a b rest)

/-- A NaN breaks every chain. -/
theorem not_chain_of_isNaN (several : 2 ≤ numbers.length)
    (nan : ∃ number ∈ numbers, number.IsNaN) : relation.chain numbers = false := by
  fun_induction chain relation numbers with
  | case1 a b rest ih =>
      rw [Bool.and_eq_false_iff]
      by_cases here : a.IsNaN ∨ b.IsNaN
      · exact .inl (Number.not_holds_of_isNaN relation here)
      · obtain ⟨number, member, nan⟩ := nan
        have later : number ∈ rest := by
          rcases List.mem_cons.mp member with rfl | member
          · exact absurd (.inl nan) here
          · rcases List.mem_cons.mp member with rfl | member
            · exact absurd (.inr nan) here
            · exact member
        have more := List.length_pos_of_mem later
        exact .inr (ih (Nat.succ_le_succ more) ⟨number, List.mem_cons_of_mem b later, nan⟩)
  | case2 numbers short =>
      match numbers, several, short with
      | a :: b :: rest, _, short => exact absurd rfl (short a b rest)

end Comparison

theorem answers_iff {answer : Bool} {store : Store} :
    (EStateM.Result.ok (Object.boolean answer) store : EStateM.Result Interrupt Store Object) =
      .ok (.boolean true) store ↔ answer := by
  simp

theorem Store.equal_numbers (store : Store) (a b : Number) :
    store.equal a.toObject b.toObject = Comparison.equal.holds a b := by
  have apart : a.toObject.identical b.toObject = false := by
    cases a <;> cases b <;> rfl
  have number (number : Number) : Number.ofObject? number.toObject = some number := by
    cases number <;> rfl
  rw [equal_of_notPairs, apart, Bool.false_or]
  · exact Object.equalAtoms_numbers (number a) (number b)
  · intro first second isPair
    cases a <;> cases isPair

namespace Primitive

/-- The standard primitive that tests a relation. -/
def comparer (relation : Comparison) : Primitive :=
  .ofOperation (.compare relation) 1 none

theorem call_comparer (store : Store) (relation : Comparison) {numbers : List Number}
    (nonempty : numbers ≠ []) :
    (comparer relation).call (numbers.map Number.toObject) store =
      .ok (.boolean (relation.chain numbers)) store := by
  have admitted : (comparer relation).admits (numbers.map Number.toObject).length := by
    rw [List.length_map]
    exact admits_atLeast (List.length_pos_of_ne_nil nonempty)
  rw [call_computed admitted rfl, Operation.numbers_toObject]
  rfl

theorem call_comparer_pair (store : Store) (relation : Comparison) (a b : Number) :
    (comparer relation).call [a.toObject, b.toObject] store =
      .ok (.boolean (relation.holds a b)) store := by
  have pair : relation.chain [a, b] = relation.holds a b := Bool.and_true _
  rw [← pair]
  exact call_comparer store relation (List.cons_ne_nil a [b])

end Primitive

/-- To compare neighbours is to compare all: without NaNs by the places of the numbers on the line,
and with a NaN to no avail. -/
structure Store.ComparesAll (store : Store) : Prop where
  pairs : ∀ (relation : Comparison) (numbers : List Number), numbers ≠ [] →
    (∀ number ∈ numbers, ¬ number.IsNaN) →
      (Primitive.comparer relation).call (numbers.map Number.toObject) store =
        .ok (.boolean (decide ((numbers.map Number.place).Pairwise relation.Relates))) store
  /-- Numbers are all equal exactly if they are so two by two. -/
  equal : ∀ numbers : List Number, numbers ≠ [] → (∀ number ∈ numbers, ¬ number.IsNaN) →
    ((Primitive.comparer .equal).call (numbers.map Number.toObject) store =
        .ok (.boolean true) store ↔
      numbers.Pairwise fun a b =>
        Primitive.equality.call [a.toObject, b.toObject] store = .ok (.boolean true) store)
  /-- Two numbers are in one order and in no other. -/
  single : ∀ a b : Number, ¬ a.IsNaN → ¬ b.IsNaN →
    ∃! relation, relation ∈ [Comparison.less, .equal, .greater] ∧
      (Primitive.comparer relation).call [a.toObject, b.toObject] store = .ok (.boolean true) store
  nan : ∀ (relation : Comparison) (numbers : List Number), 2 ≤ numbers.length →
    (∃ number ∈ numbers, number.IsNaN) →
      (Primitive.comparer relation).call (numbers.map Number.toObject) store =
        .ok (.boolean false) store

theorem compares_all (store : Store) : store.ComparesAll where
  pairs relation numbers nonempty proper := by
    rw [Primitive.call_comparer store relation nonempty,
      Bool.eq_iff_iff.mpr ((Comparison.chain_iff proper).trans decide_eq_true_iff.symm)]
  equal numbers nonempty proper := by
    rw [Primitive.call_comparer store .equal nonempty, answers_iff, Comparison.chain_iff proper,
      List.pairwise_map]
    refine List.Pairwise.iff_of_mem fun {a b} first second => ?_
    rw [Primitive.call_equality, answers_iff, Store.equal_numbers,
      Number.holds_iff .equal (proper a first) (proper b second)]
  single a b proper properOther := by
    obtain ⟨order, found, _⟩ := Number.exists_compare? proper properOther
    have decided (relation : Comparison) : relation.holds a b = relation.admits order := by
      rw [Comparison.holds, found]
      rfl
    simp only [Primitive.call_comparer_pair, answers_iff, decided]
    exact Comparison.existsUnique_admits order
  nan relation numbers several nan := by
    have nonempty : numbers ≠ [] := List.ne_nil_of_length_pos (Nat.lt_of_succ_lt several)
    rw [Primitive.call_comparer store relation nonempty, Comparison.not_chain_of_isNaN several nan]

/-- Integers are not rounded to be compared with doubles, an end of the line is beyond them all, and
a NaN is not even equal to itself. -/
theorem comparisons_beyond_doubles :
    (Primitive.comparer .less).call [.float (-1 / 0), .float 9007199254740992,
        .integer 9007199254740993, .float (1 / 0)] .empty = .ok (.boolean true) .empty ∧
      (Primitive.comparer .equal).call [.integer 0, .float (-0), .float 0] .empty =
        .ok (.boolean true) .empty ∧
      (Primitive.comparer .equal).call [.float (0 / 0), .float (0 / 0)] .empty =
        .ok (.boolean false) .empty := by
  have all := compares_all .empty
  have increasing := all.pairs .less [.float (-1 / 0), .float 9007199254740992,
    .integer 9007199254740993, .float (1 / 0)] (by decide) (by decide +kernel)
  have same := all.pairs .equal [.integer 0, .float (-0), .float 0] (by decide) (by decide +kernel)
  have nan := all.nan .equal [.float (0 / 0), .float (0 / 0)] (by decide) (by decide +kernel)
  refine ⟨increasing.trans ?_, same.trans ?_, nan⟩
  · rw [decide_eq_true (by decide +kernel)]
  · rw [decide_eq_true (by decide +kernel)]

end LispCore
