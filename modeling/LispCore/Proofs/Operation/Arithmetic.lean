import LispCore.Message
import LispCore.Proofs.Operation
import LispCore.Proofs.Telling

namespace LispCore

/-- Is this a fault of the language itself, rather than one of its host? -/
def Fault.isOfLanguage : Fault → Bool
  | .improperList | .notValue _ | .host _ => false
  | _ => true

/-- Is this a fault of the language that is not itself about a number too long to be told? -/
def Fault.isTellable (fault : Fault) : Bool :=
  fault.isOfLanguage && fault.shows.all fun object => !object.isTooLong

/-- No container of the host holds more elements than this. -/
def mostCounted : Nat := greatestInteger.toNat

/-- An outcome is sound if it is a value as wanted, or a fault of the language that can be told as
far as numbers go. -/
def Sound {α : Type} (wanted : α → Prop) : Except Fault α → Prop
  | .ok value => wanted value
  | .error fault => fault.isTellable

namespace Sound

variable {α β : Type} {wanted : α → Prop} {other : β → Prop}

theorem bind {first : Except Fault α} {next : α → Except Fault β} (started : Sound wanted first)
    (rest : ∀ value, wanted value → Sound other (next value)) : Sound other (first >>= next) := by
  cases first with
  | ok value => exact rest value started
  | error fault => exact started

theorem map {outcome : Except Fault α} {change : α → β} (sound : Sound wanted outcome)
    (changed : ∀ value, wanted value → other (change value)) :
    Sound other (outcome.map change) := by
  cases outcome with
  | ok value => exact changed value sound
  | error fault => exact sound

theorem mono {outcome : Except Fault α} {weaker : α → Prop} (sound : Sound wanted outcome)
    (weaken : ∀ value, wanted value → weaker value) : Sound weaker outcome := by
  cases outcome with
  | ok value => exact weaken value sound
  | error fault => exact sound

theorem foldlM {step : α → β → Except Fault α} {items : List β} {start : α}
    (started : wanted start)
    (keeps : ∀ value, wanted value → ∀ item ∈ items, Sound wanted (step value item)) :
    Sound wanted (items.foldlM step start) := by
  induction items generalizing start with
  | nil => exact started
  | cons item items ih =>
      rw [List.foldlM_cons]
      refine bind (keeps start started item List.mem_cons_self) fun value next => ?_
      exact ih next fun value known other member =>
        keeps value known other (List.mem_cons_of_mem item member)

end Sound

theorem inIntegerRange_iff {value : Int} :
    inIntegerRange value ↔ -9223372036854775808 ≤ value ∧ value ≤ 9223372036854775807 := by
  rw [inIntegerRange, Bool.and_eq_true, decide_eq_true_iff, decide_eq_true_iff]
  exact Iff.rfl

namespace Number

theorem compare?_integers (a b : Int) :
    (integer a).compare? (integer b) = some (compare a b) := by
  simp only [compare?, exact, Exact.compare?, Rat.intCast_lt_intCast, Rat.intCast_inj]
  rfl

def Fits (number : Number) : Prop :=
  number.toObject.isValue

/-- Is this a double, or an integer of at most this magnitude? -/
def Within (bound : Nat) : Number → Prop
  | .integer value => value.natAbs ≤ bound
  | .float _ => True

/-- No integer on the way through arithmetic on values is any larger. -/
def mostOnTheWay : Nat := Nat.pow 2 126

theorem mostOnTheWay_lt_doubleBound : mostOnTheWay < doubleBound := by
  decide +kernel

theorem mostOnTheWay_lt_digitBound : mostOnTheWay < digitBound := by
  decide +kernel

variable {a b number : Number} {bound : Nat}

theorem Fits.natAbs_le {value : Int} (fits : (integer value).Fits) :
    value.natAbs ≤ 9223372036854775808 := by
  have range := inIntegerRange_iff.mp fits
  omega

theorem Fits.within (fits : number.Fits) (enough : 9223372036854775808 ≤ bound) :
    number.Within bound := by
  cases number with
  | integer value => exact Nat.le_trans fits.natAbs_le enough
  | float value => trivial

theorem Fits.onTheWay (fits : number.Fits) : number.Within mostOnTheWay :=
  fits.within (by decide)

/-- No integer on the way is too large for a double. -/
theorem exists_toFloat (within : number.Within mostOnTheWay) :
    ∃ value, number.toFloat = .ok value := by
  cases number with
  | integer value =>
      have small : value.natAbs < doubleBound :=
        Nat.lt_of_le_of_lt within mostOnTheWay_lt_doubleBound
      exact ⟨nearestFloat value, by rw [toFloat, if_pos small]⟩
  | float value => exact ⟨value, rfl⟩

theorem exists_onFloats (compute : Float → Float → Float) (left : a.Within mostOnTheWay)
    (right : b.Within mostOnTheWay) : ∃ value, onFloats compute a b = .ok (.float value) := by
  obtain ⟨x, first⟩ := exists_toFloat left
  obtain ⟨y, second⟩ := exists_toFloat right
  rw [onFloats, first, second]
  exact ⟨compute x y, rfl⟩

theorem onFloats_sound (compute : Float → Float → Float) (left : a.Within mostOnTheWay)
    (right : b.Within mostOnTheWay) : Sound Fits (onFloats compute a b) := by
  obtain ⟨value, same⟩ := exists_onFloats compute left right
  rw [same]
  exact rfl

theorem checked_sound (operation : Operation) (within : number.Within mostOnTheWay) :
    Sound Fits (checked operation number) := by
  cases number with
  | integer value =>
      by_cases inRange : inIntegerRange value
      · rw [checked, if_pos inRange]
        exact inRange
      · have short : value.natAbs < digitBound :=
          Nat.lt_of_le_of_lt within mostOnTheWay_lt_digitBound
        simp [checked, inRange, Sound, Fault.isTellable, Fault.isOfLanguage, Fault.shows,
          Object.isTooLong, short]
  | float value => exact rfl

/-- What an addition, a subtraction or a multiplication comes to: on integers something
exact, otherwise a step of double arithmetic. -/
def IsStep (exact : Int → Int → Int) (a b : Number) (outcome : Except Fault Number) : Prop :=
  (∃ x y, a = .integer x ∧ b = .integer y ∧ outcome = .ok (.integer (exact x y))) ∨
    ∃ compute, outcome = onFloats compute a b

/-- A step of arithmetic is exact on two integers, and one of double arithmetic otherwise. -/
structure Steps (exact : Int → Int → Int) (compute : Float → Float → Float)
    (step : Number → Number → Except Fault Number) : Prop where
  integers : ∀ a b, step (.integer a) (.integer b) = .ok (.integer (exact a b))
  onFloat : ∀ a b, step (.float a) b = onFloats compute (.float a) b
  byFloat : ∀ a b, step (.integer a) (.float b) = onFloats compute (.integer a) (.float b)

theorem plus_steps : Steps (· + ·) (· + ·) plus :=
  ⟨fun _ _ => rfl, fun _ _ => rfl, fun _ _ => rfl⟩

theorem minus_steps : Steps (· - ·) (· - ·) minus :=
  ⟨fun _ _ => rfl, fun _ _ => rfl, fun _ _ => rfl⟩

theorem times_steps : Steps (· * ·) (· * ·) times :=
  ⟨fun _ _ => rfl, fun _ _ => rfl, fun _ _ => rfl⟩

theorem Steps.isStep {exact : Int → Int → Int} {compute : Float → Float → Float}
    {step : Number → Number → Except Fault Number} (steps : Steps exact compute step)
    (a b : Number) : IsStep exact a b (step a b) := by
  cases a with
  | float x => exact .inr ⟨compute, steps.onFloat x b⟩
  | integer x =>
      cases b with
      | integer y => exact .inl ⟨x, y, rfl, rfl, steps.integers x y⟩
      | float y => exact .inr ⟨compute, steps.byFloat x y⟩

theorem IsStep.sound {exact : Int → Int → Int} {outcome : Except Fault Number}
    (step : IsStep exact a b outcome) (left : a.Within mostOnTheWay)
    (right : b.Within mostOnTheWay) (room : 9223372036854775808 ≤ bound)
    (bounded : ∀ x y, a = .integer x → b = .integer y → (exact x y).natAbs ≤ bound) :
    Sound (Within bound) outcome := by
  rcases step with ⟨x, y, first, second, rfl⟩ | ⟨compute, rfl⟩
  · exact bounded x y first second
  · exact (onFloats_sound compute left right).mono fun _ fits => fits.within room

theorem magnitude_within (within : number.Within bound) : number.magnitude.Within bound := by
  cases number with
  | integer value => exact within
  | float value => trivial

theorem plus_sound (left : a.Within bound) (right : b.Fits)
    (room : bound + 9223372036854775808 ≤ mostOnTheWay) :
    Sound (Within (bound + 9223372036854775808)) (a.plus b) := by
  have wide : a.Within mostOnTheWay := by
    cases a with
    | integer value => exact Nat.le_trans left (by omega)
    | float value => trivial
  refine (plus_steps.isStep a b).sound wide right.onTheWay (by omega) ?_
  rintro x y rfl rfl
  have one : x.natAbs ≤ bound := left
  have other := right.natAbs_le
  omega

theorem minus_sound (left : a.Fits) (right : b.Fits) :
    Sound (Within mostOnTheWay) (a.minus b) := by
  refine (minus_steps.isStep a b).sound left.onTheWay right.onTheWay (by decide) ?_
  rintro x y rfl rfl
  have one := left.natAbs_le
  have other := right.natAbs_le
  have most : 2 * 9223372036854775808 ≤ mostOnTheWay := by decide
  omega

theorem times_sound (left : a.Fits) (right : b.Fits) :
    Sound (Within mostOnTheWay) (a.times b) := by
  refine (times_steps.isStep a b).sound left.onTheWay right.onTheWay (by decide) ?_
  rintro x y rfl rfl
  rw [Int.natAbs_mul]
  exact Nat.le_trans (Nat.mul_le_mul left.natAbs_le right.natAbs_le) (by decide)

theorem dividedBy_sound (operation : Operation) (left : a.Fits) (right : b.Fits) :
    Sound Fits (dividedBy operation a b) := by
  unfold dividedBy
  split
  · exact rfl
  · have floats := onFloats_sound (· / ·) left.onTheWay right.onTheWay
    split
    · refine checked_sound operation ?_
      rw [truncatedDiv_eq_tdiv]
      exact Nat.le_trans (Int.natAbs_tdiv_le_natAbs _ _) left.onTheWay
    · exact floats

/-- A sum on the way grows by at most one value with every number. -/
theorem foldlM_plus_sound {start : Number} {numbers : List Number} (within : start.Within bound)
    (fit : ∀ number ∈ numbers, number.Fits)
    (room : bound + numbers.length * 9223372036854775808 ≤ mostOnTheWay) :
    Sound (Within mostOnTheWay) (numbers.foldlM plus start) := by
  induction numbers generalizing start bound with
  | nil =>
      cases start with
      | integer value => exact Nat.le_trans within room
      | float value => trivial
  | cons number numbers ih =>
      obtain ⟨first, rest⟩ := List.forall_mem_cons.mp fit
      rw [List.length_cons] at room
      rw [List.foldlM_cons]
      refine (plus_sound within first (by omega)).bind fun next known => ?_
      exact ih known rest (by omega)

theorem sum_sound {numbers : List Number} (fit : ∀ number ∈ numbers, number.Fits)
    (few : numbers.length ≤ mostCounted) : Sound Fits (sum numbers) := by
  have start : (integer 0).Within 0 := Nat.le_refl 0
  have most : mostCounted * 9223372036854775808 ≤ mostOnTheWay := by decide
  have room := Nat.le_trans (Nat.mul_le_mul_right _ few) most
  have total := foldlM_plus_sound start fit ((Nat.zero_add _).symm ▸ room)
  exact total.bind fun _ => checked_sound .add

theorem product_sound {numbers : List Number} (fit : ∀ number ∈ numbers, number.Fits) :
    Sound Fits (product numbers) := by
  refine Sound.foldlM rfl fun result known number member => ?_
  exact (times_sound known (fit number member)).bind fun _ => checked_sound .multiply

theorem difference_sound {first : Number} {rest : List Number} (start : first.Fits)
    (fit : ∀ number ∈ rest, number.Fits) : Sound Fits (difference first rest) := by
  cases rest with
  | nil =>
      refine checked_sound .subtract ?_
      cases first with
      | integer value =>
          change (-value).natAbs ≤ mostOnTheWay
          rw [Int.natAbs_neg]
          exact start.onTheWay
      | float value => trivial
  | cons second rest =>
      refine Sound.foldlM start fun result known number member => ?_
      exact (minus_sound known (fit number member)).bind fun _ => checked_sound .subtract

theorem ratio_sound {first : Number} {rest : List Number} (start : first.Fits)
    (fit : ∀ number ∈ rest, number.Fits) : Sound Fits (ratio first rest) := by
  cases rest with
  | nil => exact dividedBy_sound .divide rfl start
  | cons second rest =>
      exact Sound.foldlM start fun result known number member =>
        dividedBy_sound .divide known (fit number member)

/-- A division leaves something over: less than the divisor in magnitude, zero or of the sign of
`side`, and off the dividend by a multiple of the divisor. -/
structure Leaves (dividend divisor side left : Int) : Prop where
  smaller : left.natAbs < divisor.natAbs
  sided : left = 0 ∨ left.sign = side.sign
  multiple : divisor ∣ dividend - left

theorem tmod_leaves (dividend : Int) {divisor : Int} (nonzero : divisor ≠ 0) :
    Leaves dividend divisor dividend (dividend.tmod divisor) where
  smaller := by
    rw [Int.natAbs_tmod]
    exact Nat.mod_lt _ (Int.natAbs_pos.mpr nonzero)
  sided := by
    have sign := Int.sign_tmod dividend divisor
    split at sign
    · exact .inl (Int.sign_eq_zero_iff_zero.mp sign)
    · exact .inr sign
  multiple := Int.dvd_self_sub_tmod

theorem fmod_leaves (dividend : Int) {divisor : Int} (nonzero : divisor ≠ 0) :
    Leaves dividend divisor divisor (dividend.fmod divisor) := by
  have multiple : divisor ∣ dividend - dividend.fmod divisor := Int.dvd_self_sub_fmod
  rcases Int.lt_or_gt_of_ne nonzero with negative | positive
  · -- what remains by a negative number mirrors what remains by its opposite
    have least := Int.fmod_nonneg_of_pos (-dividend) (Int.neg_pos_of_neg negative)
    have most := Int.fmod_lt_of_pos (-dividend) (Int.neg_pos_of_neg negative)
    rw [Int.neg_fmod_neg] at least most
    refine ⟨by omega, ?_, multiple⟩
    rw [Int.sign_eq_neg_one_of_neg negative, Int.sign_eq_neg_one_iff_neg]
    omega
  · have least := Int.fmod_nonneg_of_pos dividend positive
    have most := Int.fmod_lt_of_pos dividend positive
    refine ⟨by omega, ?_, multiple⟩
    rw [Int.sign_eq_one_of_pos positive, Int.sign_eq_one_iff_pos]
    omega

theorem Leaves.inside {dividend divisor side left : Int}
    (leaves : Leaves dividend divisor side left) (fits : (integer divisor).Fits) :
    inIntegerRange left := by
  have small := fits.natAbs_le
  have less := leaves.smaller
  exact inIntegerRange_iff.mpr (by omega)

theorem remainder_sound {x y : Int} (divisor : (integer y).Fits) :
    Sound Fits (remainder x y) := by
  unfold remainder
  split
  · exact rfl
  · rename_i nonzero
    rw [sub_truncatedDiv_eq_tmod]
    exact (tmod_leaves x nonzero).inside divisor

theorem modulo_sound {x y : Int} (divisor : (integer y).Fits) : Sound Fits (modulo x y) := by
  unfold modulo
  split
  · exact rfl
  · rename_i nonzero
    exact (fmod_leaves x nonzero).inside divisor

theorem extreme_fits (before : Ordering) {first : Number} {rest : List Number}
    (start : first.Fits) (fit : ∀ number ∈ rest, number.Fits) :
    (extreme before first rest).Fits := by
  unfold extreme
  induction rest generalizing first with
  | nil => exact start
  | cons number rest ih =>
      obtain ⟨next, others⟩ := List.forall_mem_cons.mp fit
      refine ih ?_ others
      change Fits (if number.compare? first = some before then number else first)
      split
      · exact next
      · exact start

end Number

def Object.isScalar : Object → Bool
  | .boolean _ | .float _ => true
  | .integer value => inIntegerRange value
  | _ => false

theorem Number.Fits.isScalar {number : Number} (fits : number.Fits) :
    number.toObject.isScalar := by
  cases number with
  | integer value => exact fits
  | float value => rfl

namespace Operation

variable {operation : Operation} {operands : List Object}

theorem numbers_sound (operation : Operation) (operands : List Object) :
    Sound (fun numbers => numbers.map Number.toObject = operands)
      (operation.numbers operands) := by
  induction operands with
  | nil => exact rfl
  | cons object objects ih =>
      cases object with
      | integer | float =>
          exact ih.bind fun numbers same => congrArg (List.cons _) same
      | _ => exact rfl

theorem numbers_toObject (operation : Operation) (numbers : List Number) :
    operation.numbers (numbers.map Number.toObject) = .ok numbers := by
  induction numbers with
  | nil => rfl
  | cons number rest ih =>
      cases number with
      | integer | float =>
          simp only [Operation.numbers, List.map_cons, Number.toObject, Number.ofObject?, ih]
          rfl

theorem onNumbers_toObject (operation : Operation) (compute : List Number → Except Fault Number)
    (numbers : List Number) :
    operation.onNumbers compute (numbers.map Number.toObject) =
      (compute numbers).map Number.toObject := by
  rw [onNumbers, numbers_toObject]
  rfl

theorem select_toObject (operation : Operation) (before : Ordering) (first : Number)
    (rest : List Number) :
    operation.select before ((first :: rest).map Number.toObject) =
      .ok (Number.extreme before first rest).toObject :=
  onNumbers_toObject operation _ (first :: rest)

theorem integers_sound (operation : Operation) (operands : List Object) :
    Sound (fun integers => integers.map Object.integer = operands)
      (operation.integers operands) := by
  induction operands with
  | nil => exact rfl
  | cons object objects ih =>
      cases object with
      | integer => exact ih.bind fun integers same => congrArg (List.cons _) same
      | _ => exact rfl

theorem onNumbers_sound {compute : List Number → Except Fault Number}
    (known : ∀ operand ∈ operands, operand.isValue)
    (computed : ∀ numbers : List Number, numbers.length = operands.length →
      (∀ number ∈ numbers, number.Fits) → Sound Number.Fits (compute numbers)) :
    Sound (fun value => value.isScalar) (operation.onNumbers compute operands) := by
  refine (numbers_sound operation operands).bind fun numbers same => ?_
  subst same
  refine (computed numbers (List.length_map _).symm fun number member => ?_).map
    fun _ => Number.Fits.isScalar
  exact known _ (List.mem_map_of_mem member)

theorem onFirst_sound {ifNone : HostFault} {compute : Number → List Number → Except Fault Number}
    (some : 1 ≤ operands.length) (known : ∀ operand ∈ operands, operand.isValue)
    (computed : ∀ first rest, first.Fits → (∀ number ∈ rest, number.Fits) →
      Sound Number.Fits (compute first rest)) :
    Sound (fun value => value.isScalar) (operation.onFirst ifNone compute operands) := by
  refine onNumbers_sound known fun numbers count fit => ?_
  cases numbers with
  | nil => simp [← count] at some
  | cons first rest =>
      obtain ⟨start, others⟩ := List.forall_mem_cons.mp fit
      exact computed first rest start others

theorem onNumber_sound {compute : Number → Except Fault Number} (one : operands.length = 1)
    (known : ∀ operand ∈ operands, operand.isValue)
    (computed : ∀ number, number.Fits → Sound Number.Fits (compute number)) :
    Sound (fun value => value.isScalar) (operation.onNumber compute operands) := by
  refine onNumbers_sound known fun numbers count fit => ?_
  obtain ⟨number, rfl⟩ := List.length_eq_one_iff.mp (count.trans one)
  exact computed number (fit number List.mem_cons_self)

theorem onIntegers_sound {compute : Int → Int → Except Fault Number}
    (two : operands.length = 2) (known : ∀ operand ∈ operands, operand.isValue)
    (computed : ∀ x y, (Number.integer x).Fits → (Number.integer y).Fits →
      Sound Number.Fits (compute x y)) :
    Sound (fun value => value.isScalar) (operation.onIntegers compute operands) := by
  refine (integers_sound operation operands).bind fun integers same => ?_
  subst same
  match integers, two with
  | [x, y], _ =>
      exact (computed x y (known (.integer x) (by simp)) (known (.integer y) (by simp))).map
        fun _ => Number.Fits.isScalar

/-- Given values in a number that it can do with, arithmetic comes to a truth value or to
a number in range, or fails as the language does. Only a sum is not held against the range on the
way, and of more numbers than can be counted it might not be. -/
theorem arithmetic_sound {outcome : Except Fault Object}
    (computed : operation.arithmetic? operands = some outcome)
    (suits : operation.Suits operands.length)
    (known : ∀ operand ∈ operands, operand.isValue)
    (few : operation = .add → operands.length ≤ mostCounted) :
    Sound (fun value => value.isScalar) outcome := by
  cases operation with
  | add =>
      obtain rfl := Option.some.inj computed
      exact onNumbers_sound known fun _ count fit => Number.sum_sound fit (count ▸ few rfl)
  | multiply =>
      obtain rfl := Option.some.inj computed
      exact onNumbers_sound known fun _ _ => Number.product_sound
  | subtract =>
      obtain rfl := Option.some.inj computed
      exact onFirst_sound suits.1 known fun _ _ => Number.difference_sound
  | divide =>
      obtain rfl := Option.some.inj computed
      exact onFirst_sound suits.1 known fun _ _ => Number.ratio_sound
  | minimum | maximum =>
      obtain rfl := Option.some.inj computed
      exact onFirst_sound suits.1 known fun _ _ => Number.extreme_fits _
  | absolute =>
      obtain rfl := Option.some.inj computed
      refine onNumber_sound (Nat.le_antisymm (suits.2 1 rfl) suits.1) known fun number fits => ?_
      exact Number.checked_sound .absolute (Number.magnitude_within fits.onTheWay)
  | quotient =>
      obtain rfl := Option.some.inj computed
      exact onIntegers_sound (Nat.le_antisymm (suits.2 2 rfl) suits.1) known
        fun _ _ => Number.dividedBy_sound .quotient
  | remainder =>
      obtain rfl := Option.some.inj computed
      exact onIntegers_sound (Nat.le_antisymm (suits.2 2 rfl) suits.1) known
        fun _ _ _ => Number.remainder_sound
  | modulo =>
      obtain rfl := Option.some.inj computed
      exact onIntegers_sound (Nat.le_antisymm (suits.2 2 rfl) suits.1) known
        fun _ _ _ => Number.modulo_sound
  | compare relation =>
      obtain rfl := Option.some.inj computed
      exact (numbers_sound _ operands).map fun _ _ => rfl
  | _ => simp [arithmetic?] at computed

end Operation

namespace Primitive

variable {primitive : Primitive}

theorem admits_atLeast {operation : Operation} {minimum count : Nat} (enough : minimum ≤ count) :
    (ofOperation operation minimum none).admits count := by
  simp [ofOperation, admits, enough]

/-- A call on numbers ends as what is computed from them. -/
theorem call_onNumbers {compute : List Number → Except Fault Number} {numbers : List Number}
    (store : Store) (admitted : primitive.admits numbers.length)
    (computes : ∀ operands, primitive.operation.arithmetic? operands =
      some (primitive.operation.onNumbers compute operands)) :
    primitive.call (numbers.map Number.toObject) store =
      Eval.ofExcept ((compute numbers).map Number.toObject) store := by
  rw [← Operation.onNumbers_toObject primitive.operation]
  exact call_computed (by rwa [List.length_map]) (computes _)

theorem call_onFirst {ifNone : HostFault} {compute : Number → List Number → Except Fault Number}
    {first : Number} {rest : List Number} (store : Store)
    (admitted : primitive.admits (first :: rest).length)
    (computes : ∀ operands, primitive.operation.arithmetic? operands =
      some (primitive.operation.onFirst ifNone compute operands)) :
    primitive.call ((first :: rest).map Number.toObject) store =
      Eval.ofExcept ((compute first rest).map Number.toObject) store :=
  (call_onNumbers store admitted computes).trans rfl

theorem call_onIntegers {compute : Int → Int → Except Fault Number} (store : Store) (a b : Int)
    (admitted : primitive.admits 2)
    (computes : ∀ operands, primitive.operation.arithmetic? operands =
      some (primitive.operation.onIntegers compute operands)) :
    primitive.call [.integer a, .integer b] store =
      Eval.ofExcept ((compute a b).map Number.toObject) store :=
  call_computed admitted (computes _)

end Primitive

end LispCore
