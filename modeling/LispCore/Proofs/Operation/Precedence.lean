import LispCore.Proofs.Operation.Faults

namespace LispCore

namespace Operation

variable {operation : Operation} {operands : List Object} {operand : Object} {wanted : String}
  {accepts : Object → Bool}

theorem numbers_refuses (operation : Operation)
    (found : operands.find? (fun operand => !operand.isNumber) = some operand) :
    operation.numbers operands =
      .error (.wrongKind "number" operand (some operation.name)) := by
  induction operands with
  | nil => contradiction
  | cons first rest ih =>
      cases first with
      | integer | float =>
          rw [numbers, ih found]
          rfl
      | _ =>
          cases found
          rfl

theorem integers_refuses (operation : Operation)
    (found : operands.find? (fun operand => !operand.isInteger) = some operand) :
    operation.integers operands =
      .error (.wrongKind "integer" operand (some operation.name)) := by
  induction operands with
  | nil => contradiction
  | cons first rest ih =>
      cases first with
      | integer =>
          rw [integers, ih found]
          rfl
      | _ =>
          cases found
          rfl

theorem numbers_accepts (operation : Operation)
    (accepted : ∀ operand ∈ operands, operand.isNumber) :
    ∃ numbers, operation.numbers operands = .ok numbers := by
  induction operands with
  | nil => exact ⟨[], rfl⟩
  | cons first rest ih =>
      obtain ⟨isNumber, others⟩ := List.forall_mem_cons.mp accepted
      obtain ⟨numbers, same⟩ := ih others
      cases first with
      | integer | float => exact ⟨_ :: numbers, by rw [Operation.numbers, same]; rfl⟩
      | _ => contradiction

theorem integers_accepts (operation : Operation)
    (accepted : ∀ operand ∈ operands, operand.isInteger) :
    ∃ integers, operation.integers operands = .ok integers := by
  induction operands with
  | nil => exact ⟨[], rfl⟩
  | cons first rest ih =>
      obtain ⟨isInteger, others⟩ := List.forall_mem_cons.mp accepted
      obtain ⟨integers, same⟩ := ih others
      cases first with
      | integer => exact ⟨_ :: integers, by rw [Operation.integers, same]; rfl⟩
      | _ => contradiction

namespace ChecksFirst

theorem exists_outcome (checks : ChecksFirst operation wanted accepts) (operands : List Object) :
    ∃ outcome, operation.arithmetic? operands = some outcome := by
  cases checks with
  | numbers computes | integers computes => exact ⟨_, computes operands⟩

/-- The leftmost operand that is not what is wanted is at fault, whatever the others are. -/
theorem refuses (checks : ChecksFirst operation wanted accepts)
    (found : operands.find? (fun operand => !accepts operand) = some operand) :
    operation.arithmetic? operands =
      some (.error (.wrongKind wanted operand (some operation.name))) := by
  cases checks with
  | numbers computes =>
      rw [computes, numbers_refuses operation found]
      rfl
  | integers computes =>
      rw [computes, integers_refuses operation found]
      rfl

theorem fails (checks : ChecksFirst operation wanted accepts)
    (accepted : ∀ operand ∈ operands, accepts operand) :
    ∃ outcome, operation.arithmetic? operands = some outcome ∧
      FailsOnly Fault.isOfNumbers outcome := by
  cases checks with
  | numbers computes fails =>
      obtain ⟨numbers, same⟩ := numbers_accepts operation accepted
      rw [computes, same]
      exact ⟨_, rfl, fails numbers⟩
  | integers computes fails =>
      obtain ⟨integers, same⟩ := integers_accepts operation accepted
      rw [computes, same]
      exact ⟨_, rfl, fails integers⟩

end ChecksFirst

/-- Does an operation only compare numbers with each other? -/
def compares : Operation → Bool
  | .minimum | .maximum | .compare _ => true
  | _ => false

theorem demand?_of_compares (compares : operation.compares) :
    operation.demand? = some ("number", Object.isNumber) := by
  cases operation <;> first | rfl | contradiction

theorem compares_ok (compares : operation.compares) (suits : operation.Suits operands.length)
    (accepted : ∀ operand ∈ operands, operand.isNumber) :
    ∃ value, operation.arithmetic? operands = some (.ok value) := by
  obtain ⟨numbers, same⟩ := numbers_accepts operation accepted
  have sound := numbers_sound operation operands
  rw [same] at sound
  obtain rfl : numbers.map Number.toObject = operands := sound
  cases operation with
  | minimum | maximum =>
      cases numbers with
      | nil => exact absurd suits.1 (by decide)
      | cons first rest => exact ⟨_, congrArg some (select_toObject _ _ first rest)⟩
  | compare relation =>
      refine ⟨.boolean (relation.chain numbers), ?_⟩
      rw [arithmetic?, same]
      rfl
  | _ => contradiction

end Operation

namespace Fault

variable {fault : Fault}

theorem isArithmetic_of_isOfNumbers (ofNumbers : fault.isOfNumbers)
    (ofLanguage : fault.isOfLanguage) : fault.isArithmetic := by
  cases fault with
  | divisionByZero | overflow => rfl
  | _ => contradiction

theorem isOfLanguage_of_isTellable (tellable : fault.isTellable) : fault.isOfLanguage :=
  ((Bool.and_eq_true _ _).mp tellable).1

/-- Faults of computing show no objects but numbers, so these can be told if the numbers can. -/
theorem told_of_isOfNumbers (ofNumbers : fault.isOfNumbers) (tellable : fault.isTellable)
    (store : Store) : fault.told store = fault := by
  cases fault with
  | divisionByZero | host => rfl
  | overflow operation result =>
      have short := List.all_eq_true.mp ((Bool.and_eq_true _ _).mp tellable).2
      refine told_of_writable (List.forall_mem_singleton.mpr ?_)
      rw [Store.writable_of_bare rfl rfl]
      exact short _ (List.mem_singleton_self _)
  | _ => contradiction

end Fault

theorem Operation.exists_demand {operation : Operation} {operands : List Object}
    {outcome : Except Fault Object} (computed : operation.arithmetic? operands = some outcome) :
    ∃ wanted accepts, operation.demand? = some (wanted, accepts) := by
  cases operation <;> first | exact ⟨_, _, rfl⟩ | contradiction

/-- Arithmetic on values fails as the language does, and that can be told, unless it is about an
operand of a wrong kind that cannot be written. -/
theorem Operation.arithmetic_told {operation : Operation} {operands : List Object} {wanted : String}
    {accepts : Object → Bool} {fault : Fault}
    (demanded : operation.demand? = some (wanted, accepts))
    (computed : operation.arithmetic? operands = some (.error fault))
    (suits : operation.Suits operands.length) (known : ∀ operand ∈ operands, operand.isValue)
    (few : operation = .add → operands.length ≤ mostCounted) (store : Store) :
    fault.isOfLanguage ∧ (fault.told store = fault ∨ ∃ operand ∈ operands,
      accepts operand = false ∧ fault.shows = [operand] ∧ store.writable operand = false) := by
  have checks := checksFirst demanded
  have tellable : fault.isTellable := arithmetic_sound computed suits known few
  refine ⟨Fault.isOfLanguage_of_isTellable tellable, ?_⟩
  cases found : operands.find? fun operand => !accepts operand with
  | some operand =>
      cases (checks.refuses found).symm.trans computed
      by_cases writable : store.writable operand
      · exact .inl (Fault.told_of_writable (List.forall_mem_singleton.mpr writable))
      · exact .inr ⟨operand, List.mem_of_find?_eq_some found, by simpa using List.find?_some found,
          rfl, by simpa using writable⟩
  | none =>
      have accepted : ∀ operand ∈ operands, accepts operand := by
        simpa using List.find?_eq_none.mp found
      obtain ⟨outcome, same, fails⟩ := checks.fails accepted
      cases same.symm.trans computed
      exact .inl (Fault.told_of_isOfNumbers (fails fault rfl) tellable store)

/-- The faults of a primitive on numbers come in one order, whatever else is wrong with a call. -/
structure Store.FailsInOrder (store : Store) (primitive : Primitive) (wanted : String)
    (accepts : Object → Bool) : Prop where
  /-- First, the operands must be as many as the primitive admits. -/
  arity : ∀ operands : List Object, ¬ primitive.admits operands.length →
    primitive.call operands store =
      .error (.fault (.arity primitive.name primitive.minimum primitive.maximum operands.length))
        store
  /-- Next, they must all be of the wanted kind, from the left. -/
  kind : ∀ operands : List Object, primitive.admits operands.length → ∀ operand,
    operands.find? (fun operand => !accepts operand) = some operand →
      primitive.call operands store =
        .error (.fault (.wrongKind wanted operand (some primitive.name))) store
  /-- Then there can only be a fault of arithmetic. No list holds more than can be counted, but a
  sum of more numbers than that might be too large for the host. -/
  computing : ∀ operands : List Object, primitive.admits operands.length →
    (∀ operand ∈ operands, accepts operand) → (∀ operand ∈ operands, operand.isValue) →
      (∃ value, primitive.call operands store = .ok value store) ∨
        ∃ fault, primitive.call operands store = .error (.fault fault) store ∧ fault.isOfNumbers ∧
          ((primitive.operation = .add → operands.length ≤ mostCounted) →
            fault.isArithmetic ∧ fault.told store = fault)
  /-- And where numbers are only compared, there is none. -/
  comparing : primitive.operation.compares → ∀ operands : List Object,
    primitive.admits operands.length → (∀ operand ∈ operands, accepts operand) →
      ∃ value, primitive.call operands store = .ok value store

theorem faults_in_order (store : Store) : ∀ primitive ∈ Primitive.standard, ∀ wanted accepts,
    primitive.operation.demand? = some (wanted, accepts) →
      store.FailsInOrder primitive wanted accepts := by
  intro primitive standing wanted accepts demanded
  have checks := Operation.checksFirst demanded
  exact {
    arity := by
      intro operands refused
      rw [Primitive.call_apply, if_neg refused]
    kind := by
      intro operands admitted operand found
      have named : ∀ primitive ∈ Primitive.standard, primitive.operation.name = primitive.name := by
        decide
      rw [Primitive.call_computed admitted (checks.refuses found), named primitive standing]
      rfl
    computing := by
      intro operands admitted accepted known
      obtain ⟨outcome, computed, fails⟩ := checks.fails accepted
      rw [Primitive.call_computed admitted computed]
      cases outcome with
      | ok value => exact .inl ⟨value, rfl⟩
      | error fault =>
          have ofNumbers := fails fault rfl
          refine .inr ⟨fault, rfl, ofNumbers, fun few => ?_⟩
          have tellable : fault.isTellable := Operation.arithmetic_sound computed
            (Primitive.suits_of_admits standing admitted) known few
          exact ⟨Fault.isArithmetic_of_isOfNumbers ofNumbers
            (Fault.isOfLanguage_of_isTellable tellable), Fault.told_of_isOfNumbers ofNumbers
              tellable store⟩
    comparing := by
      intro compares operands admitted accepted
      cases (Operation.demand?_of_compares compares).symm.trans demanded
      have suits := Primitive.suits_of_admits standing admitted
      obtain ⟨value, computed⟩ := Operation.compares_ok compares suits accepted
      exact ⟨value, Primitive.call_computed admitted computed⟩ }

/-- The primitives on numbers. -/
example : (Primitive.standard.filter (·.operation.demand?.isSome)).map (·.name) =
    ["+", "-", "*", "/", "quotient", "remainder", "modulo", "abs", "min", "max",
      "=", "<", "<=", ">", ">="] := rfl

/-- An operand that is no number is told of before the division by zero on its left, and a wrong
count before either. -/
theorem divisions_at_fault :
    (Primitive.ofOperation .divide 1 none).call
        [.integer 1, .integer 0, .string "two", .boolean true] .empty =
        .error (.fault (.wrongKind "number" (.string "two") (some "/"))) .empty ∧
      (Primitive.ofOperation .quotient 2 (some 2)).call
        [.integer 1, .integer 0, .string "two"] .empty =
        .error (.fault (.arity "quotient" 2 (some 2) 3)) .empty ∧
      ∃ fault, (Primitive.ofOperation .divide 1 none).call [.integer 1, .integer 0] .empty =
        .error (.fault fault) .empty ∧ fault.isArithmetic := by
  have ordered := faults_in_order .empty (.ofOperation .divide 1 none) (by decide) "number"
    Object.isNumber rfl
  have counted := faults_in_order .empty (.ofOperation .quotient 2 (some 2)) (by decide) "integer"
    Object.isInteger rfl
  refine ⟨ordered.kind _ (by decide) (.string "two") rfl, counted.arity _ (by decide), ?_⟩
  obtain ⟨value, came⟩ | ⟨fault, failed, _, arithmetic⟩ :=
    ordered.computing [.integer 1, .integer 0] (by decide) (by decide) (by decide)
  · cases came
  · exact ⟨fault, failed, (arithmetic nofun).1⟩

end LispCore
