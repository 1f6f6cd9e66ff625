import LispCore.Proofs.Operation.Arithmetic

namespace LispCore

namespace Fault

/-- Is this a fault of computing with numbers? -/
def isOfNumbers : Fault → Bool
  | .divisionByZero _ | .overflow .. | .host _ => true
  | _ => false

/-- Is this a fault of calling a primitive? -/
def isOfCalls : Fault → Bool
  | .arity .. | .wrongKind .. => true
  | fault => fault.isOfNumbers

theorem isOfCalls_of_isOfNumbers {fault : Fault} (ofNumbers : fault.isOfNumbers) :
    fault.isOfCalls := by
  cases fault with
  | divisionByZero | overflow | host => rfl
  | _ => contradiction

end Fault

/-- Can it fail only with faults of a kind? -/
def FailsOnly {α : Type} (kind : Fault → Bool) (outcome : Except Fault α) : Prop :=
  ∀ fault, outcome = .error fault → kind fault

namespace FailsOnly

variable {α β : Type} {kind : Fault → Bool}

theorem ok (value : α) : FailsOnly kind (.ok value) :=
  nofun

theorem error {fault : Fault} (ofKind : kind fault) :
    FailsOnly kind (.error fault : Except Fault α) := by
  rintro _ ⟨⟩
  exact ofKind

theorem bind {outcome : Except Fault α} {next : α → Except Fault β}
    (first : FailsOnly kind outcome) (rest : ∀ value, FailsOnly kind (next value)) :
    FailsOnly kind (outcome >>= next) := by
  cases outcome with
  | ok value => exact rest value
  | error fault => exact error (first fault rfl)

theorem map {outcome : Except Fault α} (fails : FailsOnly kind outcome) (change : α → β) :
    FailsOnly kind (outcome.map change) := by
  cases outcome with
  | ok value => exact ok (change value)
  | error fault => exact error (fails fault rfl)

theorem foldlM {step : α → β → Except Fault α}
    (each : ∀ value item, FailsOnly kind (step value item)) (items : List β) (start : α) :
    FailsOnly kind (items.foldlM step start) := by
  induction items generalizing start with
  | nil => exact ok start
  | cons item items ih =>
      rw [List.foldlM_cons]
      exact bind (each start item) ih

theorem ofCalls {outcome : Except Fault α} (fails : FailsOnly Fault.isOfNumbers outcome) :
    FailsOnly Fault.isOfCalls outcome :=
  fun fault failed => Fault.isOfCalls_of_isOfNumbers (fails fault failed)

end FailsOnly

namespace Number

theorem toFloat_fails (number : Number) : FailsOnly Fault.isOfNumbers number.toFloat := by
  cases number with
  | integer value =>
      rw [toFloat]
      split
      · exact .ok _
      · exact .error rfl
  | float value => exact .ok value

theorem onFloats_fails (compute : Float → Float → Float) (a b : Number) :
    FailsOnly Fault.isOfNumbers (onFloats compute a b) :=
  (toFloat_fails a).bind fun _ => (toFloat_fails b).bind fun _ => .ok _

theorem IsStep.fails {exact : Int → Int → Int} {a b : Number} {outcome : Except Fault Number}
    (step : IsStep exact a b outcome) : FailsOnly Fault.isOfNumbers outcome := by
  rcases step with ⟨x, y, _, _, rfl⟩ | ⟨compute, rfl⟩
  · exact .ok _
  · exact onFloats_fails compute a b

theorem checked_fails (operation : Operation) (number : Number) :
    FailsOnly Fault.isOfNumbers (checked operation number) := by
  cases number with
  | integer value =>
      rw [checked]
      split
      · exact .ok _
      · exact .error rfl
  | float value => exact .ok _

theorem dividedBy_fails (operation : Operation) (a b : Number) :
    FailsOnly Fault.isOfNumbers (dividedBy operation a b) := by
  unfold dividedBy
  split
  · exact .error rfl
  · split
    · exact checked_fails operation _
    · exact onFloats_fails _ _ _

theorem sum_fails (numbers : List Number) : FailsOnly Fault.isOfNumbers (sum numbers) :=
  (FailsOnly.foldlM (fun a b => (plus_steps.isStep a b).fails) numbers _).bind
    (checked_fails .add)

theorem product_fails (numbers : List Number) : FailsOnly Fault.isOfNumbers (product numbers) :=
  FailsOnly.foldlM (fun a b => (times_steps.isStep a b).fails.bind (checked_fails .multiply))
    numbers _

theorem difference_fails (first : Number) (rest : List Number) :
    FailsOnly Fault.isOfNumbers (difference first rest) := by
  cases rest with
  | nil => exact checked_fails .subtract _
  | cons second rest =>
      exact FailsOnly.foldlM
        (fun a b => (minus_steps.isStep a b).fails.bind (checked_fails .subtract)) _ _

theorem ratio_fails (first : Number) (rest : List Number) :
    FailsOnly Fault.isOfNumbers (ratio first rest) := by
  cases rest with
  | nil => exact dividedBy_fails .divide _ _
  | cons second rest => exact FailsOnly.foldlM (dividedBy_fails .divide) _ _

theorem remainder_fails (a b : Int) : FailsOnly Fault.isOfNumbers (remainder a b) := by
  unfold remainder
  split
  · exact .error rfl
  · exact .ok _

theorem modulo_fails (a b : Int) : FailsOnly Fault.isOfNumbers (modulo a b) := by
  unfold modulo
  split
  · exact .error rfl
  · exact .ok _

end Number

namespace Operation

variable {operation : Operation} {operands : List Object}

theorem numbers_fails (operation : Operation) (operands : List Object) :
    FailsOnly Fault.isOfCalls (operation.numbers operands) := by
  induction operands with
  | nil => exact .ok _
  | cons operand operands ih =>
      unfold numbers
      split
      · exact .error rfl
      · exact ih.bind fun _ => .ok _

theorem integers_fails (operation : Operation) (operands : List Object) :
    FailsOnly Fault.isOfCalls (operation.integers operands) := by
  induction operands with
  | nil => exact .ok _
  | cons operand operands ih =>
      unfold integers
      split
      · exact .error rfl
      · exact ih.bind fun _ => .ok _

/-- What an operation on numbers wants its operands to be: the word for it, and the test. -/
def demand? : Operation → Option (String × (Object → Bool))
  | .add | .subtract | .multiply | .divide | .absolute | .minimum | .maximum | .compare _ =>
      some ("number", Object.isNumber)
  | .quotient | .remainder | .modulo => some ("integer", Object.isInteger)
  | _ => none

/-- An operation on numbers first checks that all operands are what it wants, and all that it does
then is to compute with them. -/
inductive ChecksFirst (operation : Operation) : String → (Object → Bool) → Prop
  | numbers {compute : List Number → Except Fault Object}
      (computes : ∀ operands, operation.arithmetic? operands =
        some (operation.numbers operands >>= compute))
      (fails : ∀ numbers, FailsOnly Fault.isOfNumbers (compute numbers)) :
      ChecksFirst operation "number" Object.isNumber
  | integers {compute : List Int → Except Fault Object}
      (computes : ∀ operands, operation.arithmetic? operands =
        some (operation.integers operands >>= compute))
      (fails : ∀ integers, FailsOnly Fault.isOfNumbers (compute integers)) :
      ChecksFirst operation "integer" Object.isInteger

namespace ChecksFirst

theorem onNumbers {compute : List Number → Except Fault Number}
    (computes : ∀ operands, operation.arithmetic? operands =
      some (operation.onNumbers compute operands))
    (fails : ∀ numbers, FailsOnly Fault.isOfNumbers (compute numbers)) :
    ChecksFirst operation "number" Object.isNumber :=
  .numbers computes fun numbers => (fails numbers).map _

theorem onFirst {ifNone : HostFault} {compute : Number → List Number → Except Fault Number}
    (computes : ∀ operands, operation.arithmetic? operands =
      some (operation.onFirst ifNone compute operands))
    (fails : ∀ first rest, FailsOnly Fault.isOfNumbers (compute first rest)) :
    ChecksFirst operation "number" Object.isNumber := by
  refine .onNumbers computes fun numbers => ?_
  cases numbers with
  | nil => exact .error rfl
  | cons first rest => exact fails first rest

theorem onNumber {compute : Number → Except Fault Number}
    (computes : ∀ operands, operation.arithmetic? operands =
      some (operation.onNumber compute operands))
    (fails : ∀ number, FailsOnly Fault.isOfNumbers (compute number)) :
    ChecksFirst operation "number" Object.isNumber := by
  refine .onNumbers computes fun numbers => ?_
  match numbers with
  | [number] => exact fails number
  | [] | _ :: _ :: _ => exact .error rfl

theorem onIntegers {compute : Int → Int → Except Fault Number}
    (computes : ∀ operands, operation.arithmetic? operands =
      some (operation.onIntegers compute operands))
    (fails : ∀ a b, FailsOnly Fault.isOfNumbers (compute a b)) :
    ChecksFirst operation "integer" Object.isInteger := by
  refine .integers computes fun integers => ?_
  match integers with
  | [a, b] => exact (fails a b).map _
  | [] | [_] | _ :: _ :: _ :: _ => exact .error rfl

end ChecksFirst

theorem checksFirst {wanted : String} {accepts : Object → Bool}
    (demanded : operation.demand? = some (wanted, accepts)) :
    ChecksFirst operation wanted accepts := by
  cases operation with
  | add =>
      cases demanded
      exact .onNumbers (fun _ => rfl) Number.sum_fails
  | subtract =>
      cases demanded
      exact .onFirst (fun _ => rfl) Number.difference_fails
  | multiply =>
      cases demanded
      exact .onNumbers (fun _ => rfl) Number.product_fails
  | divide =>
      cases demanded
      exact .onFirst (fun _ => rfl) Number.ratio_fails
  | quotient =>
      cases demanded
      exact .onIntegers (fun _ => rfl) fun _ _ => Number.dividedBy_fails _ _ _
  | remainder =>
      cases demanded
      exact .onIntegers (fun _ => rfl) Number.remainder_fails
  | modulo =>
      cases demanded
      exact .onIntegers (fun _ => rfl) Number.modulo_fails
  | absolute =>
      cases demanded
      exact .onNumber (fun _ => rfl) fun _ => Number.checked_fails .absolute _
  | minimum | maximum =>
      cases demanded
      exact .onFirst (fun _ => rfl) fun _ _ => .ok _
  | compare relation =>
      cases demanded
      have answers (numbers : List Number) : FailsOnly Fault.isOfNumbers
          (.ok (.boolean (relation.chain numbers)) : Except Fault Object) := .ok _
      refine .numbers (fun operands => congrArg some ?_) answers
      cases (compare relation).numbers operands <;> rfl
  | _ => contradiction

theorem arithmetic?_of_demand?_eq_none (demanded : operation.demand? = none) :
    operation.arithmetic? operands = none := by
  cases operation <;> first | rfl | contradiction

theorem arithmetic?_fails {outcome : Except Fault Object}
    (computed : operation.arithmetic? operands = some outcome) :
    FailsOnly Fault.isOfCalls outcome := by
  cases demanded : operation.demand? with
  | none => cases (arithmetic?_of_demand?_eq_none demanded).symm.trans computed
  | some demand =>
      obtain ⟨wanted, accepts⟩ := demand
      cases checksFirst demanded with
      | numbers computes fails =>
          obtain rfl := Option.some.inj ((computes operands).symm.trans computed)
          exact (numbers_fails operation operands).bind fun numbers => (fails numbers).ofCalls
      | integers computes fails =>
          obtain rfl := Option.some.inj ((computes operands).symm.trans computed)
          exact (integers_fails operation operands).bind fun integers => (fails integers).ofCalls

theorem Effect.fails_only {store after : Store} {interrupt : Interrupt}
    (effect : Effect store operation operands (.error interrupt after)) :
    ∃ fault, interrupt = .fault fault ∧ fault.isOfCalls := by
  cases effect with
  | fails computed => exact ⟨_, rfl, arithmetic?_fails computed _ rfl⟩
  | refuses | misses => exact ⟨_, rfl, rfl⟩

end Operation

/-- A call of a primitive is never cut short, and fails with a fault of calls if it fails. -/
theorem Primitive.call_fails {primitive : Primitive} {operands : List Object}
    {store after : Store} {interrupt : Interrupt}
    (failed : primitive.call operands store = .error interrupt after) :
    ∃ fault, interrupt = .fault fault ∧ fault.isOfCalls := by
  rw [call_apply] at failed
  split at failed
  · have effect := primitive.operation.run_effect operands store
    rw [failed] at effect
    exact effect.fails_only
  · cases failed
    exact ⟨_, rfl, rfl⟩

end LispCore
