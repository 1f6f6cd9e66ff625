import LispCore.Proofs.Operation.Division

namespace LispCore

namespace Number

variable {dividend divisor side left other : Int}

/-- On the side of the divisor there is the same left over as on any other side, or what is one
divisor further. -/
theorem Leaves.next (leaves : Leaves dividend divisor side left)
    (modulus : Leaves dividend divisor divisor other) :
    other = left ∨ other = left + divisor := by
  obtain ⟨times, apart⟩ : divisor ∣ left - other := by
    have both := Int.dvd_sub modulus.multiple leaves.multiple
    rwa [sub_sub_sub_cancel_left] at both
  have less := leaves.smaller
  have lessModulus := modulus.smaller
  have few : times.natAbs < 2 := by
    have size := congrArg Int.natAbs apart
    rw [Int.natAbs_mul] at size
    refine Nat.lt_of_mul_lt_mul_left (a := divisor.natAbs) ?_
    omega
  obtain rfl | rfl | rfl : times = 0 ∨ times = -1 ∨ times = 1 := by omega
  · exact .inl (by omega)
  · exact .inr (by omega)
  · -- one divisor back is no longer on the side of the divisor
    rcases modulus.sided with zero | sign
    · omega
    · rcases lt_trichotomy divisor 0 with negative | zero | positive
      · rw [Int.sign_eq_neg_one_of_neg negative, Int.sign_eq_neg_one_iff_neg] at sign
        omega
      · omega
      · rw [Int.sign_eq_one_of_pos positive, Int.sign_eq_one_iff_pos] at sign
        omega

/-- The only quotient of integers in range that is out of range is the opposite of the least
integer. -/
theorem dividedBy_inside (operation : Operation) (inside : inIntegerRange dividend)
    (nonzero : divisor ≠ 0) :
    dividedBy operation (.integer dividend) (.integer divisor) =
      if dividend = leastInteger ∧ divisor = -1 then
        .error (.overflow operation.name (-leastInteger))
      else .ok (.integer (dividend.tdiv divisor)) := by
  rw [dividedBy_integers, if_neg nonzero]
  by_cases least : dividend = leastInteger ∧ divisor = -1
  · obtain ⟨rfl, rfl⟩ := least
    rfl
  rw [if_neg least]
  by_cases one : divisor = 1
  · rw [one, Int.tdiv_one]
    exact Operation.settle_inside inside
  · exact Operation.settle_inside (tdiv_inside inside nonzero one least).1

theorem ratio_pair (first second : Number) :
    ratio first [second] = dividedBy .divide first second :=
  bind_pure _

end Number

namespace Primitive

/-- The standard primitives of integer division. -/
def quotient : Primitive :=
  .ofOperation .quotient 2 (some 2)

def remainder : Primitive :=
  .ofOperation .remainder 2 (some 2)

def modulo : Primitive :=
  .ofOperation .modulo 2 (some 2)

variable (store : Store) (dividend divisor : Int)

theorem call_quotient :
    quotient.call [.integer dividend, .integer divisor] store =
      Eval.ofExcept ((Number.quotient dividend divisor).map Number.toObject) store :=
  call_onIntegers store dividend divisor rfl fun _ => rfl

theorem call_remainder :
    remainder.call [.integer dividend, .integer divisor] store =
      Eval.ofExcept ((Number.remainder dividend divisor).map Number.toObject) store :=
  call_onIntegers store dividend divisor rfl fun _ => rfl

theorem call_modulo :
    modulo.call [.integer dividend, .integer divisor] store =
      Eval.ofExcept ((Number.modulo dividend divisor).map Number.toObject) store :=
  call_onIntegers store dividend divisor rfl fun _ => rfl

end Primitive

/-- What comes of dividing an integer by another: `left` is left over on the side of the dividend,
`modulus` on that of the divisor, and the quotient goes with the former. -/
structure Store.Divides (store : Store) (dividend divisor left modulus : Int) : Prop where
  remainder : Primitive.remainder.call [.integer dividend, .integer divisor] store =
    .ok (.integer left) store
  modulo : Primitive.modulo.call [.integer dividend, .integer divisor] store =
    .ok (.integer modulus) store
  leaves : Number.Leaves dividend divisor dividend left
  leaves_modulus : Number.Leaves dividend divisor divisor modulus
  inside : inIntegerRange left ∧ inIntegerRange modulus
  next : modulus = left ∨ modulus = left + divisor
  /-- Only the least integer has no opposite, and all else has a quotient. -/
  overflow : dividend = leastInteger ∧ divisor = -1 →
    Primitive.quotient.call [.integer dividend, .integer divisor] store =
      .error (.fault (.overflow "quotient" (-leastInteger))) store
  quotient : ¬ (dividend = leastInteger ∧ divisor = -1) →
    ∃ quotient, quotient * divisor + left = dividend ∧
      Primitive.quotient.call [.integer dividend, .integer divisor] store =
        .ok (.integer quotient) store ∧
      Primitive.divider.call [.integer dividend, .integer divisor] store =
        .ok (.integer quotient) store

/-- Integers in range are divided by any of them but zero, and by zero none is. -/
structure Store.DivisionLaws (store : Store) : Prop where
  divides : ∀ dividend divisor : Int, inIntegerRange dividend → inIntegerRange divisor →
    divisor ≠ 0 → ∃ left modulus, store.Divides dividend divisor left modulus
  byZero : ∀ dividend : Int,
    ∀ primitive ∈ [Primitive.quotient, Primitive.remainder, Primitive.modulo],
      primitive.call [.integer dividend, .integer 0] store =
        .error (.fault (.divisionByZero primitive.name)) store

theorem division_laws (store : Store) : store.DivisionLaws where
  divides dividend divisor known inside nonzero := by
    have leaves := Number.tmod_leaves dividend nonzero
    have leavesModulus := Number.fmod_leaves dividend nonzero
    refine ⟨dividend.tmod divisor, dividend.fmod divisor, ?_, ?_, leaves, leavesModulus,
      ⟨leaves.inside inside, leavesModulus.inside inside⟩, leaves.next leavesModulus, ?_, ?_⟩
    · rw [Primitive.call_remainder, Number.remainder, if_neg nonzero,
        Number.sub_truncatedDiv_eq_tmod]
      rfl
    · rw [Primitive.call_modulo, Number.modulo, if_neg nonzero]
      rfl
    · intro least
      rw [Primitive.call_quotient, Number.quotient, Number.dividedBy_inside .quotient known nonzero,
        if_pos least]
      rfl
    · intro spared
      refine ⟨dividend.tdiv divisor, Int.tdiv_mul_add_tmod dividend divisor, ?_, ?_⟩
      · rw [Primitive.call_quotient, Number.quotient,
          Number.dividedBy_inside .quotient known nonzero, if_neg spared]
        rfl
      · refine (Primitive.call_divider store (.integer dividend) [.integer divisor]).trans ?_
        rw [Number.ratio_pair, Number.dividedBy_inside .divide known nonzero, if_neg spared]
        rfl
  byZero dividend := by
    simp only [List.forall_mem_cons]
    refine ⟨?_, ?_, ?_, nofun⟩
    · rw [Primitive.call_quotient, Number.quotient, Number.dividedBy_integers, if_pos rfl]
      rfl
    · rw [Primitive.call_remainder, Number.remainder, if_pos rfl]
      rfl
    · rw [Primitive.call_modulo, Number.modulo, if_pos rfl]
      rfl

/-- With different signs, the two sides differ by the divisor; and the least integer leaves nothing
over when it is divided by minus one, but has no quotient. -/
theorem divisions_with_rest :
    Store.empty.Divides (-7) 2 (-1) 1 ∧
      Store.empty.Divides (-9223372036854775808) (-1) 0 0 ∧
      Primitive.quotient.call [.integer (-9223372036854775808), .integer (-1)] .empty =
        .error (.fault (.overflow "quotient" 9223372036854775808)) .empty := by
  have laws := division_laws .empty
  obtain ⟨left, modulus, divides⟩ := laws.divides (-7) 2 (by decide) (by decide) (by decide)
  obtain ⟨left', modulus', divides'⟩ :=
    laws.divides (-9223372036854775808) (-1) (by decide) (by decide) (by decide)
  cases divides.remainder
  cases divides.modulo
  cases divides'.remainder
  cases divides'.modulo
  exact ⟨divides, divides', divides'.overflow ⟨rfl, rfl⟩⟩

end LispCore
