import Mathlib.Data.Rat.Floor
import LispCore.Proofs.Operation.Folds

namespace LispCore

/-- A rational number without what follows its point. -/
def truncated (value : Rat) : Int :=
  if 0 ≤ value then ⌊value⌋ else ⌈value⌉

theorem truncated_neg (value : Rat) : truncated (-value) = -truncated value := by
  rcases lt_trichotomy value 0 with negative | rfl | positive
  · have back : 0 ≤ -value := by linarith
    rw [truncated, truncated, if_pos back, if_neg (not_le.mpr negative), Int.floor_neg]
  · rfl
  · have back : ¬ 0 ≤ -value := by linarith
    rw [truncated, truncated, if_neg back, if_pos positive.le, Int.ceil_neg]

theorem truncated_natural (a b : Nat) : truncated (a / b) = a / b := by
  have positive : (0 : Rat) ≤ a / b := by positivity
  rw [truncated, if_pos positive]
  exact Rat.floor_intCast_div_natCast a b

/-- Division that is cut off toward zero is rational division that is truncated. -/
theorem truncated_div (a b : Int) : truncated (a / b) = a.tdiv b := by
  obtain ⟨n, rfl | rfl⟩ := a.eq_nat_or_neg <;> obtain ⟨m, rfl | rfl⟩ := b.eq_nat_or_neg <;>
    simp [truncated_neg, truncated_natural, neg_div, div_neg, Int.neg_tdiv, Int.tdiv_neg]

theorem tdiv_tdiv_natural (a b c : Nat) :
    ((a : Int).tdiv b).tdiv c = (a : Int).tdiv (b * c) := by
  rw [← Int.natCast_mul, ← Int.ofNat_tdiv, ← Int.ofNat_tdiv, ← Int.ofNat_tdiv,
    Nat.div_div_eq_div_mul]

/-- Cutting off on the way makes no difference. -/
theorem tdiv_tdiv (a b c : Int) : (a.tdiv b).tdiv c = a.tdiv (b * c) := by
  obtain ⟨n, rfl | rfl⟩ := a.eq_nat_or_neg <;> obtain ⟨m, rfl | rfl⟩ := b.eq_nat_or_neg <;>
    obtain ⟨k, rfl | rfl⟩ := c.eq_nat_or_neg <;>
    simp only [Int.neg_tdiv, Int.tdiv_neg, Int.neg_mul, Int.mul_neg, Int.neg_neg,
      tdiv_tdiv_natural]

namespace Number

theorem isZero_integer (value : Int) : (integer value).isZero = decide (value = 0) := by
  by_cases zero : value = 0 <;> simp [isZero, compare?_integers, zero]

/-- One step divides by zero, or it is exact up to the cut and held against the range. -/
theorem dividedBy_integers (operation : Operation) (a b : Int) :
    dividedBy operation (.integer a) (.integer b) =
      if b = 0 then .error (.divisionByZero operation.name)
      else operation.settle [a.tdiv b] (.integer (a.tdiv b)) := by
  by_cases zero : b = 0
  · rw [dividedBy, isZero_integer, if_pos (decide_eq_true zero), if_pos zero]
  · rw [dividedBy, isZero_integer, if_neg (by simpa using zero), if_neg zero,
      ← truncatedDiv_eq_tdiv]
    exact checked_integer operation _

/-- Only the negation of the least integer leaves the range, and only division by one leaves the
least integer as it is. -/
theorem tdiv_inside {a b : Int} (inside : inIntegerRange a) (nonzero : b ≠ 0) (notOne : b ≠ 1)
    (spared : ¬ (a = leastInteger ∧ b = -1)) :
    inIntegerRange (a.tdiv b) ∧ a.tdiv b ≠ leastInteger := by
  have range := inIntegerRange_iff.mp inside
  unfold leastInteger at spared ⊢
  rw [inIntegerRange_iff]
  by_cases opposite : b = -1
  · rw [opposite, Int.tdiv_neg, Int.tdiv_one]
    omega
  · have half : (a.tdiv b).natAbs ≤ a.natAbs / 2 := by
      rw [Int.natAbs_tdiv]
      exact Nat.div_le_div_left (by omega) (by decide)
    omega

/-- What it comes to if an integer is divided by others in turn: the least integer is not negated,
nothing is divided by zero, and all else is one quotient, cut off toward zero. -/
def quotientBy (dividend : Int) (divisors : List Int) : Except Fault Int :=
  if dividend = leastInteger ∧ divisors.find? (· ≠ 1) = some (-1) then
    .error (.overflow Operation.divide.name (-leastInteger))
  else if 0 ∈ divisors then .error (.divisionByZero Operation.divide.name)
  else .ok (truncated (dividend / divisors.prod))

section quotientBy

theorem quotientBy_eq (dividend : Int) (divisors : List Int) :
    quotientBy dividend divisors =
      if dividend = leastInteger ∧ divisors.find? (· ≠ 1) = some (-1) then
        .error (.overflow Operation.divide.name (-leastInteger))
      else if 0 ∈ divisors then .error (.divisionByZero Operation.divide.name)
      else .ok (dividend.tdiv divisors.prod) := by
  rw [quotientBy, truncated_div]

variable {a b : Int} {rest : List Int}

theorem quotientBy_nil : quotientBy a [] = .ok a := by
  simp [quotientBy_eq]

theorem quotientBy_zero : quotientBy a (0 :: rest) = .error (.divisionByZero "/") := by
  simp [quotientBy_eq, Operation.name]

theorem quotientBy_one : quotientBy a (1 :: rest) = quotientBy a rest := by
  simp [quotientBy_eq]

theorem quotientBy_least :
    quotientBy leastInteger (-1 :: rest) = .error (.overflow "/" (-leastInteger)) := by
  simp [quotientBy_eq, Operation.name]

theorem quotientBy_tdiv (nonzero : b ≠ 0) (notOne : b ≠ 1)
    (spared : ¬ (a = leastInteger ∧ b = -1)) (later : a.tdiv b ≠ leastInteger) :
    quotientBy a (b :: rest) = quotientBy (a.tdiv b) rest := by
  simp [quotientBy_eq, nonzero.symm, notOne, spared, later, tdiv_tdiv]

end quotientBy

/-- Divided in turn, integers come to one quotient, or fail as can be told beforehand. -/
theorem foldlM_dividedBy {dividend : Int} (inside : inIntegerRange dividend)
    (divisors : List Int) :
    (divisors.map integer).foldlM (dividedBy .divide) (.integer dividend) =
      (quotientBy dividend divisors).map integer := by
  induction divisors generalizing dividend with
  | nil =>
      rw [quotientBy_nil]
      rfl
  | cons divisor rest ih =>
      rw [List.map_cons, List.foldlM_cons, dividedBy_integers]
      by_cases zero : divisor = 0
      · rw [if_pos zero, zero, quotientBy_zero]
        rfl
      rw [if_neg zero]
      by_cases one : divisor = 1
      · rw [one, Int.tdiv_one, Operation.settle_inside inside, quotientBy_one]
        exact ih inside
      by_cases least : dividend = leastInteger ∧ divisor = -1
      · obtain ⟨rfl, rfl⟩ := least
        rw [quotientBy_least]
        rfl
      · obtain ⟨next, later⟩ := tdiv_inside inside zero one least
        rw [Operation.settle_inside next, quotientBy_tdiv zero one least later]
        exact ih next

theorem ratio_single (number : Number) : ratio number [] = ratio (.integer 1) [number] :=
  (bind_pure _).symm

theorem ratio_integers {dividend : Int} (inside : inIntegerRange dividend) (divisor : Int)
    (rest : List Int) :
    ratio (.integer dividend) ((divisor :: rest).map integer) =
      (quotientBy dividend (divisor :: rest)).map integer :=
  foldlM_dividedBy inside (divisor :: rest)

/-- A division of integers in range that does not fail comes to an integer in range. -/
theorem ratio_inside {first : Int} {rest : List Int} {number : Number}
    (inside : inIntegerRange first) (others : ∀ integer ∈ rest, inIntegerRange integer)
    (ends : ratio (.integer first) (rest.map integer) = .ok number) :
    ∃ quotient, number = .integer quotient ∧ inIntegerRange quotient := by
  have start : (integer first).Fits := inside
  have fit : ∀ number ∈ rest.map integer, number.Fits := List.forall_mem_map.mpr others
  have sound := ratio_sound start fit
  have exact : ∃ outcome : Except Fault Int,
      ratio (.integer first) (rest.map integer) = outcome.map integer := by
    cases rest with
    | nil => exact ⟨_, (ratio_single _).trans (ratio_integers (by decide) first [])⟩
    | cons second rest => exact ⟨_, ratio_integers inside second rest⟩
  obtain ⟨outcome, same⟩ := exact
  rw [ends] at sound same
  cases outcome with
  | error fault => cases same
  | ok quotient =>
      cases same
      exact ⟨quotient, rfl, sound⟩

end Number

namespace Primitive

/-- The standard primitive that divides. -/
def divider : Primitive :=
  .ofOperation .divide 1 none

variable (store : Store)

theorem call_divider (first : Number) (rest : List Number) :
    divider.call ((first :: rest).map Number.toObject) store =
      Eval.ofExcept ((Number.ratio first rest).map Number.toObject) store :=
  call_onFirst store (admits_atLeast (Nat.le_add_left 1 _)) fun _ => rfl

end Primitive

/-- Division of integers is one cut quotient, or fails where it must. -/
structure Store.DividesOnce (store : Store) : Prop where
  /-- Division by one or more integers. -/
  repeated : ∀ (dividend divisor : Int) (rest : List Int), inIntegerRange dividend →
    Primitive.divider.call ((dividend :: divisor :: rest).map .integer) store =
      Eval.ofExcept ((Number.quotientBy dividend (divisor :: rest)).map .integer) store
  /-- A single operand divides one. -/
  reciprocal : ∀ object : Object, Primitive.divider.call [object] store =
    Primitive.divider.call [.integer 1, object] store
  /-- What integers come to is an integer in range. -/
  inRange : ∀ integers : List Int, (∀ integer ∈ integers, inIntegerRange integer) →
    ∀ value after, Primitive.divider.call (integers.map .integer) store = .ok value after →
      ∃ quotient, value = .integer quotient ∧ inIntegerRange quotient ∧ after = store

theorem divides_once (store : Store) : store.DividesOnce where
  repeated dividend divisor rest inside := by
    rw [Number.map_toObject_integers, List.map_cons, Primitive.call_divider,
      Number.ratio_integers inside]
    cases Number.quotientBy dividend (divisor :: rest) <;> rfl
  reciprocal object := by
    have number (number : Number) : Primitive.divider.call [number.toObject] store =
        Primitive.divider.call [.integer 1, number.toObject] store := by
      refine (Primitive.call_divider store number []).trans ?_
      rw [Number.ratio_single]
      exact (Primitive.call_divider store (.integer 1) [number]).symm
    cases object with
    | integer value => exact number (.integer value)
    | float value => exact number (.float value)
    | _ => rfl
  inRange integers known value after ends := by
    cases integers with
    | nil => cases ends
    | cons first rest =>
        obtain ⟨inside, others⟩ := List.forall_mem_cons.mp known
        rw [Number.map_toObject_integers, List.map_cons, Primitive.call_divider] at ends
        cases outcome : Number.ratio (.integer first) (rest.map Number.integer) with
        | error fault =>
            rw [outcome] at ends
            cases ends
        | ok number =>
            obtain ⟨quotient, rfl, fits⟩ := Number.ratio_inside inside others outcome
            rw [outcome] at ends
            cases ends
            exact ⟨quotient, rfl, fits, rfl⟩

/-- The least integer cannot be negated before it has been divided, and is not negated after a
division by zero. -/
theorem divisions_of_least :
    inIntegerRange (-9223372036854775808) ∧
      Primitive.divider.call
          [.integer (-9223372036854775808), .integer 1, .integer (-1), .integer 0] .empty =
        .error (.fault (.overflow "/" 9223372036854775808)) .empty ∧
      Primitive.divider.call
          [.integer (-9223372036854775808), .integer 2, .integer (-1)] .empty =
        .ok (.integer 4611686018427387904) .empty ∧
      Primitive.divider.call
          [.integer (-9223372036854775808), .integer 4, .integer 0, .integer (-1)] .empty =
        .error (.fault (.divisionByZero "/")) .empty := by
  have least : inIntegerRange (-9223372036854775808) := by decide
  have once := (divides_once .empty).repeated (-9223372036854775808)
  refine ⟨least, (once 1 [-1, 0] least).trans ?_, (once 2 [-1] least).trans ?_,
    (once 4 [0, -1] least).trans ?_⟩
  all_goals rw [Number.quotientBy_eq]; rfl

end LispCore
