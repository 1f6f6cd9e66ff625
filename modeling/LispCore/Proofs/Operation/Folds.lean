import Mathlib.Algebra.BigOperators.Group.List.Basic
import Mathlib.Data.Rat.Floor
import LispCore.Proofs.Operation.Precedence

namespace LispCore

namespace Operation

/-- The outcome of a computation that comes to a value unless one of its results on the way is out
of the range of values: the first of those is reported. -/
def settle {α : Type} (operation : Operation) (results : List Int) (value : α) : Except Fault α :=
  match results.find? fun result => !inIntegerRange result with
  | some result => .error (.overflow operation.name result)
  | none => .ok value

variable {α β : Type} {operation : Operation} {results : List Int} {result : Int} {value : α}

theorem settle_inside (inside : inIntegerRange result) :
    operation.settle (result :: results) value = operation.settle results value := by
  simp [settle, inside]

theorem settle_outside (outside : ¬ inIntegerRange result) :
    operation.settle (result :: results) value = .error (.overflow operation.name result) := by
  simp [settle, outside]

theorem settle_of_inside (inside : ∀ result ∈ results, inIntegerRange result) :
    operation.settle results value = .ok value := by
  have none : (results.find? fun result => !inIntegerRange result) = none := by
    simpa using inside
  rw [settle, none]

theorem map_settle (change : α → β) :
    (operation.settle results value).map change = operation.settle results (change value) := by
  unfold settle
  split <;> rfl

/-- What is done to the value may rely on it that all results were in range. -/
theorem settle_bind {next : α → Except Fault β} {other : β}
    (goesOn : (∀ result ∈ results, inIntegerRange result) → next value = .ok other) :
    (operation.settle results value >>= next) = operation.settle results other := by
  unfold settle
  split
  · rfl
  · rename_i none
    exact goesOn (by simpa using none)

end Operation

namespace Number

theorem checked_integer (operation : Operation) (value : Int) :
    checked operation (.integer value) = operation.settle [value] (.integer value) := by
  by_cases inside : inIntegerRange value
  · rw [Operation.settle_inside inside, checked, if_pos inside]
    rfl
  · rw [Operation.settle_outside inside, checked, if_neg inside]

/-- A step whose result is held against the range. -/
def checkedStep (operation : Operation) (step : Number → Number → Except Fault Number)
    (result number : Number) : Except Fault Number := do
  let next ← step result number
  checked operation next

variable {exact : Int → Int → Int} {compute : Float → Float → Float}
  {step : Number → Number → Except Fault Number} {operation : Operation} {number : Number}
  {numbers : List Number}

/-- Once floats, always floats. -/
theorem foldlM_float (steps : ∀ value, ∀ number ∈ numbers, ∃ next,
      step (.float value) number = .ok (.float next)) (value : Float) :
    ∃ last, numbers.foldlM step (.float value) = .ok (.float last) := by
  induction numbers generalizing value with
  | nil => exact ⟨value, rfl⟩
  | cons number rest ih =>
      obtain ⟨next, stepped⟩ := steps value number List.mem_cons_self
      obtain ⟨last, folded⟩ := ih (fun value number member =>
        steps value number (List.mem_cons_of_mem _ member)) next
      exact ⟨last, by rw [List.foldlM_cons, stepped]; exact folded⟩

theorem Steps.fromFloat (steps : Steps exact compute step) (value : Float) (fits : number.Fits) :
    ∃ next, step (.float value) number = .ok (.float next) := by
  rw [steps.onFloat]
  exact exists_onFloats compute trivial fits.onTheWay

theorem Steps.checkedFromFloat (steps : Steps exact compute step) (value : Float)
    (fits : number.Fits) :
    ∃ next, checkedStep operation step (.float value) number = .ok (.float next) := by
  obtain ⟨next, stepped⟩ := steps.fromFloat value fits
  exact ⟨next, by rw [checkedStep, stepped]; rfl⟩

/-- With every step held against the range, a run over integers reports the first result out of
range. -/
theorem foldlM_integers (steps : Steps exact compute step) {start : Int}
    (inside : inIntegerRange start) (integers : List Int) :
    (integers.map integer).foldlM (checkedStep operation step) (.integer start) =
      operation.settle (integers.scanl exact start) (.integer (integers.foldl exact start)) := by
  induction integers generalizing start with
  | nil => exact (Operation.settle_of_inside (by simpa using inside)).symm
  | cons next rest ih =>
      have first : checkedStep operation step (.integer start) (.integer next) =
          operation.settle [exact start next] (.integer (exact start next)) := by
        rw [checkedStep, steps.integers]
        exact checked_integer operation _
      rw [List.map_cons, List.foldlM_cons, first, List.scanl_cons, List.foldl_cons,
        Operation.settle_inside inside]
      by_cases fits : inIntegerRange (exact start next)
      · rw [Operation.settle_inside fits]
        exact ih fits
      · -- the run ends here, whatever would follow
        rw [Operation.settle_outside fits]
        cases rest <;> simp only [List.scanl_nil, List.scanl_cons] <;>
          exact (Operation.settle_outside fits).symm

/-- The integers that come before the first float. -/
def leading : List Number → List Int
  | .integer value :: rest => value :: leading rest
  | _ => []

theorem exists_first_float {value : Float} (member : .float value ∈ numbers) :
    ∃ integers first rest, leading numbers = integers ∧
      numbers = integers.map integer ++ .float first :: rest := by
  induction numbers with
  | nil => contradiction
  | cons number rest ih =>
      cases number with
      | float first => exact ⟨[], first, rest, rfl, rfl⟩
      | integer _ =>
          obtain ⟨integers, first, others, leads, same⟩ := ih (by simpa using member)
          exact ⟨_ :: integers, first, others, congrArg (List.cons _) leads,
            congrArg (List.cons _) same⟩

/-- From a float on, nothing is held against the range. -/
theorem foldlM_beyond (steps : Steps exact compute step) {total : Int}
    (fits : (integer total).Fits) (first : Float) {rest : List Number}
    (others : ∀ number ∈ rest, number.Fits) :
    ∃ last, (.float first :: rest).foldlM (checkedStep operation step) (.integer total) =
      .ok (.float last) := by
  have float : (Number.float first).Within mostOnTheWay := trivial
  obtain ⟨next, stepped⟩ := exists_onFloats compute fits.onTheWay float
  have onward : ∀ value, ∀ number ∈ rest, ∃ next,
      checkedStep operation step (.float value) number = .ok (.float next) :=
    fun value number member => steps.checkedFromFloat value (others number member)
  obtain ⟨last, folded⟩ := foldlM_float onward next
  refine ⟨last, ?_⟩
  rw [List.foldlM_cons, checkedStep, steps.byFloat, stepped]
  exact folded

/-- A run that meets a float reports the first result out of range before it. -/
theorem foldlM_mixed (steps : Steps exact compute step) {start : Int}
    (inside : inIntegerRange start) (fit : ∀ number ∈ numbers, number.Fits) {value : Float}
    (member : .float value ∈ numbers) :
    ∃ last, numbers.foldlM (checkedStep operation step) (.integer start) =
      operation.settle ((leading numbers).scanl exact start) (.float last) := by
  obtain ⟨integers, first, rest, leads, rfl⟩ := exists_first_float member
  rw [leads, List.foldlM_append, foldlM_integers steps inside]
  by_cases kept : ∀ result ∈ integers.scanl exact start, inIntegerRange result
  · have total : (integer (integers.foldl exact start)).Fits := by
      rw [← List.getLast_scanl List.scanl_ne_nil]
      exact kept _ (List.getLast_mem _)
    have others : ∀ number ∈ rest, number.Fits := fun number member =>
      fit number (List.mem_append_right _ (List.mem_cons_of_mem _ member))
    obtain ⟨last, goesOn⟩ := foldlM_beyond steps total first others
    exact ⟨last, Operation.settle_bind fun _ => goesOn⟩
  · -- the fold has ended before, so that any float will do
    exact ⟨first, Operation.settle_bind fun all => absurd all kept⟩

/-- Integers are summed up exactly, whatever follows them. -/
theorem foldlM_plus_integers (start : Int) (integers : List Int) (rest : List Number) :
    (integers.map integer ++ rest).foldlM plus (.integer start) =
      rest.foldlM plus (.integer (start + integers.sum)) := by
  induction integers generalizing start with
  | nil => rw [List.sum_nil, Int.add_zero, List.map_nil, List.nil_append]
  | cons next others ih =>
      rw [List.sum_cons, ← Int.add_assoc, ← ih, List.map_cons, List.cons_append, List.foldlM_cons,
        plus_steps.integers]
      rfl

theorem sum_integers (integers : List Int) :
    sum (integers.map integer) = Operation.add.settle [integers.sum] (.integer integers.sum) := by
  have total := foldlM_plus_integers 0 integers []
  rw [List.append_nil, Int.zero_add] at total
  rw [sum, total]
  exact checked_integer .add _

/-- What is summed up before the first float is turned into a float there, if it can be. -/
theorem sum_mixed (fit : ∀ number ∈ numbers, number.Fits) {value : Float}
    (member : .float value ∈ numbers) :
    ((leading numbers).sum.natAbs < doubleBound → ∃ last, sum numbers = .ok (.float last)) ∧
      (¬ (leading numbers).sum.natAbs < doubleBound →
        sum numbers = .error (.host .tooLarge)) := by
  obtain ⟨integers, first, rest, leads, rfl⟩ := exists_first_float member
  rw [leads]
  have others : ∀ number ∈ rest, number.Fits := fun number member =>
    fit number (List.mem_append_right _ (List.mem_cons_of_mem _ member))
  constructor
  · intro small
    obtain ⟨last, folded⟩ := foldlM_float (fun value number member =>
      plus_steps.fromFloat value (others number member)) (nearestFloat integers.sum + first)
    refine ⟨last, ?_⟩
    rw [sum, foldlM_plus_integers, Int.zero_add, List.foldlM_cons, plus_steps.byFloat, onFloats,
      toFloat, if_pos small]
    change (rest.foldlM plus (.float (nearestFloat integers.sum + first)) >>= checked .add) = _
    rw [folded]
    rfl
  · intro large
    rw [sum, foldlM_plus_integers, Int.zero_add, List.foldlM_cons, plus_steps.byFloat, onFloats,
      toFloat, if_neg large]
    rfl

theorem product_integers (integers : List Int) :
    product (integers.map integer) =
      Operation.multiply.settle (integers.scanl (· * ·) 1) (.integer integers.prod) := by
  rw [List.prod_eq_foldl]
  exact foldlM_integers times_steps (by decide) integers

theorem product_mixed (fit : ∀ number ∈ numbers, number.Fits) {value : Float}
    (member : .float value ∈ numbers) :
    ∃ last, product numbers =
      Operation.multiply.settle ((leading numbers).scanl (· * ·) 1) (.float last) :=
  foldlM_mixed times_steps (by decide) fit member

/-- What is left on the way when integers are subtracted from the first of them. -/
def differences : List Int → List Int
  | [] => []
  | first :: rest => rest.scanl (· - ·) first

theorem foldl_sub (start : Int) (integers : List Int) :
    integers.foldl (· - ·) start = start - integers.sum := by
  induction integers generalizing start with
  | nil => simp
  | cons next rest ih =>
      rw [List.foldl_cons, ih, List.sum_cons]
      omega

theorem negation_integer (value : Int) :
    difference (.integer value) [] = Operation.subtract.settle [-value] (.integer (-value)) :=
  checked_integer .subtract _

theorem difference_integers {first : Int} (inside : inIntegerRange first) (second : Int)
    (rest : List Int) :
    difference (.integer first) ((second :: rest).map integer) =
      Operation.subtract.settle (differences (first :: second :: rest))
        (.integer (first - (second :: rest).sum)) := by
  rw [← foldl_sub]
  exact foldlM_integers minus_steps inside (second :: rest)

theorem difference_mixed {first : Number} {rest : List Number} (start : first.Fits)
    (fit : ∀ number ∈ rest, number.Fits) {value : Float} (member : .float value ∈ first :: rest) :
    ∃ last, difference first rest =
      Operation.subtract.settle (differences (leading (first :: rest))) (.float last) := by
  cases first with
  | integer first =>
      have later : .float value ∈ rest := by simpa using member
      cases rest with
      | nil => contradiction
      | cons second rest => exact foldlM_mixed minus_steps start fit later
  | float first =>
      cases rest with
      | nil => exact ⟨-first, rfl⟩
      | cons second rest =>
          exact foldlM_float (fun value number member =>
            minus_steps.checkedFromFloat value (fit number member)) first

end Number

namespace Primitive

/-- The standard primitives that sum up, subtract and multiply. -/
def adder : Primitive :=
  .ofOperation .add 0 none

def subtracter : Primitive :=
  .ofOperation .subtract 1 none

def multiplier : Primitive :=
  .ofOperation .multiply 0 none

variable (store : Store) (numbers : List Number)

theorem call_adder :
    adder.call (numbers.map Number.toObject) store =
      Eval.ofExcept ((Number.sum numbers).map Number.toObject) store :=
  call_onNumbers store (admits_atLeast (Nat.zero_le _)) fun _ => rfl

theorem call_multiplier :
    multiplier.call (numbers.map Number.toObject) store =
      Eval.ofExcept ((Number.product numbers).map Number.toObject) store :=
  call_onNumbers store (admits_atLeast (Nat.zero_le _)) fun _ => rfl

theorem call_told {primitive : Primitive} {operands : List Object} {wanted : String}
    {accepts : Object → Bool} {fault : Fault} {after : Store} (standing : primitive ∈ standard)
    (demanded : primitive.operation.demand? = some (wanted, accepts))
    (known : ∀ operand ∈ operands, operand.isValue) (few : operands.length ≤ mostCounted)
    (failed : primitive.call operands store = .error (.fault fault) after) :
    fault.told after = fault ∨ ∃ operand ∈ operands, accepts operand = false ∧
      fault.shows = [operand] ∧ after.writable operand = false := by
  by_cases admitted : primitive.admits operands.length
  · obtain ⟨outcome, computed⟩ := (Operation.checksFirst demanded).exists_outcome operands
    rw [call_computed admitted computed] at failed
    cases outcome with
    | ok value => cases failed
    | error _ =>
        cases failed
        exact (Operation.arithmetic_told demanded computed (suits_of_admits standing admitted) known
          (fun _ => few) store).2
  · rw [call_apply, if_neg admitted] at failed
    cases failed
    exact .inl rfl

theorem call_subtracter (first : Number) :
    subtracter.call ((first :: numbers).map Number.toObject) store =
      Eval.ofExcept ((Number.difference first numbers).map Number.toObject) store :=
  call_onFirst store (admits_atLeast (Nat.le_add_left 1 _)) fun _ => rfl

end Primitive

theorem Number.map_toObject_integers (integers : List Int) :
    integers.map Object.integer = (integers.map Number.integer).map Number.toObject := by
  rw [List.map_map]
  rfl

/-- Arithmetic on integers is exact, or it reports exactly what left the range of values; and
with floats among its operands, only what comes before the first of them can be reported. -/
structure Store.FoldsExactly (store : Store) : Prop where
  /-- Of a sum, only the end is held against the range, so the order does not matter. -/
  sum : ∀ integers : List Int, Primitive.adder.call (integers.map .integer) store =
    Eval.ofExcept (Operation.add.settle [integers.sum] (.integer integers.sum)) store
  sum_perm : ∀ integers others : List Int, integers.Perm others →
    Primitive.adder.call (integers.map .integer) store =
      Primitive.adder.call (others.map .integer) store
  /-- Of a product and of a difference, every partial result is. -/
  product : ∀ integers : List Int, Primitive.multiplier.call (integers.map .integer) store =
    Eval.ofExcept (Operation.multiply.settle (integers.scanl (· * ·) 1) (.integer integers.prod))
      store
  difference : ∀ (first second : Int) (rest : List Int), inIntegerRange first →
    Primitive.subtracter.call ((first :: second :: rest).map .integer) store =
      Eval.ofExcept (Operation.subtract.settle (Number.differences (first :: second :: rest))
        (.integer (first - (second :: rest).sum))) store
  negation : ∀ integer : Int, Primitive.subtracter.call [.integer integer] store =
    Eval.ofExcept (Operation.subtract.settle [-integer] (.integer (-integer))) store
  /-- A sum with a float is never out of range. The integers before the first float can only be too
  large in sum for any double. -/
  sum_float : ∀ numbers : List Number, (∀ number ∈ numbers, number.Fits) →
    ∀ value : Float, .float value ∈ numbers →
      ((Number.leading numbers).sum.natAbs < doubleBound → ∃ last,
        Primitive.adder.call (numbers.map Number.toObject) store = .ok (.float last) store) ∧
      (¬ (Number.leading numbers).sum.natAbs < doubleBound →
        Primitive.adder.call (numbers.map Number.toObject) store =
          .error (.fault (.host .tooLarge)) store)
  product_float : ∀ numbers : List Number, (∀ number ∈ numbers, number.Fits) →
    ∀ value : Float, .float value ∈ numbers → ∃ last,
      Primitive.multiplier.call (numbers.map Number.toObject) store =
        Eval.ofExcept (Operation.multiply.settle ((Number.leading numbers).scanl (· * ·) 1)
          (.float last)) store
  difference_float : ∀ numbers : List Number, (∀ number ∈ numbers, number.Fits) →
    ∀ value : Float, .float value ∈ numbers → ∃ last,
      Primitive.subtracter.call (numbers.map Number.toObject) store =
        Eval.ofExcept (Operation.subtract.settle (Number.differences (Number.leading numbers))
          (.float last)) store
  /-- None of these faults is too long to be told, but where it is about an operand that is no number
  and too long itself. -/
  told : ∀ primitive ∈ [Primitive.adder, Primitive.multiplier, Primitive.subtracter],
    ∀ operands : List Object, (∀ operand ∈ operands, operand.isValue) →
      operands.length ≤ mostCounted → ∀ fault after,
        primitive.call operands store = .error (.fault fault) after →
          fault.told after = fault ∨ ∃ operand ∈ operands, operand.isNumber = false ∧
            fault.shows = [operand] ∧ after.writable operand = false

theorem folds_exactly (store : Store) : store.FoldsExactly where
  sum integers := by
    rw [Number.map_toObject_integers, Primitive.call_adder, Number.sum_integers,
      Operation.map_settle]
    rfl
  sum_perm integers others same := by
    rw [Number.map_toObject_integers, Number.map_toObject_integers, Primitive.call_adder,
      Primitive.call_adder, Number.sum_integers, Number.sum_integers, same.sum_eq]
  product integers := by
    rw [Number.map_toObject_integers, Primitive.call_multiplier, Number.product_integers,
      Operation.map_settle]
    rfl
  difference first second rest inside := by
    rw [Number.map_toObject_integers, List.map_cons, Primitive.call_subtracter,
      Number.difference_integers inside, Operation.map_settle]
    rfl
  negation integer := by
    refine (Primitive.call_subtracter store [] (.integer integer)).trans ?_
    rw [Number.negation_integer, Operation.map_settle]
    rfl
  sum_float numbers fit value member := by
    obtain ⟨comes, refused⟩ := Number.sum_mixed fit member
    rw [Primitive.call_adder]
    constructor
    · intro small
      obtain ⟨last, same⟩ := comes small
      exact ⟨last, by rw [same]; rfl⟩
    · intro large
      rw [refused large]
      rfl
  product_float numbers fit value member := by
    obtain ⟨last, same⟩ := Number.product_mixed fit member
    refine ⟨last, ?_⟩
    rw [Primitive.call_multiplier, same, Operation.map_settle]
    rfl
  difference_float numbers fit value member := by
    cases numbers with
    | nil => contradiction
    | cons first rest =>
        obtain ⟨start, others⟩ := List.forall_mem_cons.mp fit
        obtain ⟨last, same⟩ := Number.difference_mixed start others member
        refine ⟨last, ?_⟩
        rw [Primitive.call_subtracter, same, Operation.map_settle]
        rfl
  told primitive member operands known few fault after failed := by
    have standing : ∀ primitive ∈ [Primitive.adder, Primitive.multiplier, Primitive.subtracter],
        primitive ∈ Primitive.standard := by decide
    have demands : ∀ primitive ∈ [Primitive.adder, Primitive.multiplier, Primitive.subtracter],
        primitive.operation.demand? = some ("number", Object.isNumber) := by
      simp only [List.forall_mem_cons]
      exact ⟨rfl, rfl, rfl, nofun⟩
    exact Primitive.call_told store (standing _ member) (demands _ member) known few failed

/-- At the bounds of the range: a sum that leaves it and returns, a product that leaves it and
would return, a number without a negation, and a float that comes before what would leave it. -/
theorem folds_at_the_bounds :
    Primitive.adder.call [.integer 9223372036854775807, .integer 1, .integer (-1)] .empty =
        .ok (.integer 9223372036854775807) .empty ∧
      Primitive.multiplier.call [.integer 4294967296, .integer (-4294967296), .integer 0] .empty =
        .error (.fault (.overflow "*" (-18446744073709551616))) .empty ∧
      Primitive.subtracter.call [.integer (-9223372036854775808)] .empty =
        .error (.fault (.overflow "-" 9223372036854775808)) .empty ∧
      ∃ last, Primitive.subtracter.call
          [.integer (-9223372036854775808), .float 0.5, .integer 1] .empty =
        .ok (.float last) .empty := by
  have exactly := folds_exactly .empty
  refine ⟨exactly.sum [9223372036854775807, 1, -1],
    exactly.product [4294967296, -4294967296, 0], exactly.negation (-9223372036854775808), ?_⟩
  have fit : ∀ number ∈ [Number.integer (-9223372036854775808), .float 0.5, .integer 1],
      number.Fits := by
    simp only [List.forall_mem_cons]
    exact ⟨rfl, rfl, rfl, nofun⟩
  obtain ⟨last, ends⟩ := exactly.difference_float _ fit 0.5 (by simp)
  exact ⟨last, ends.trans rfl⟩

end LispCore
