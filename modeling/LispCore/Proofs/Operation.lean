import LispCore.Application
import LispCore.Proofs.Runs

/-!
What operations do: every way in which an operation can end, with what it has done to
the store by then.

`Operation.run_effect` says that the list of `Operation.Effect` is complete, so that an
invariant of operations is a matter of one case for each line of it.
-/

namespace LispCore

theorem itemsOr_apply (fault : Fault) (object : Object) (store : Store) :
    itemsOr fault object store =
      match store.listItems? object with
      | some items => .ok items store
      | none => .error (.fault fault) store := by
  change (match store.listItems? object with
    | some items => pure items
    | none => raise fault : Eval (List Object)) store = _
  cases store.listItems? object <;> rfl

namespace Operation

/-- How many operands an operation cannot do without. -/
def least : Operation → Nat
  | .same | .equal | .cons | .setHead | .setTail | .quotient | .remainder | .modulo => 2
  | .head | .tail | .length | .ask _ | .record => 1
  | .subtract | .divide | .absolute | .minimum | .maximum => 1
  | .add | .multiply | .compare _ | .list => 0

/-- How many operands an operation can do with, if there is a bound. It leaves alone
what it does not look at, but arithmetic on a fixed number of operands does not. -/
def most? : Operation → Option Nat
  | .quotient | .remainder | .modulo => some 2
  | .absolute => some 1
  | _ => none

def Suits (operation : Operation) (count : Nat) : Prop :=
  operation.least ≤ count ∧ ∀ most ∈ operation.most?, count ≤ most

/-- The ways in which an operation on operands can end, started in a store. -/
inductive Effect (store : Store) :
    Operation → List Object → EStateM.Result Interrupt Store Object → Prop
  | computes {operation operands value}
      (computed : operation.arithmetic? operands = some (.ok value)) :
      Effect store operation operands (.ok value store)
  | fails {operation operands fault}
      (computed : operation.arithmetic? operands = some (.error fault)) :
      Effect store operation operands (.error (.fault fault) store)
  | decides {operation operands} (value : Bool) :
      Effect store operation operands (.ok (.boolean value) store)
  | joins {head tail rest} :
      Effect store .cons (head :: tail :: rest)
        (.ok (.pair (store.cons head tail).1) (store.cons head tail).2)
  | head {id rest} : Effect store .head (.pair id :: rest) (.ok (store.cell id).head store)
  | tail {id rest} : Effect store .tail (.pair id :: rest) (.ok (store.cell id).tail store)
  | lists {operands} :
      Effect store .list operands
        (.ok (store.ofItems operands .nil).1 (store.ofItems operands .nil).2)
  | counts {object items rest} (proper : store.listItems? object = some items) :
      Effect store .length (object :: rest) (.ok (.integer items.length) store)
  | setsHead {id value rest} :
      Effect store .setHead (.pair id :: value :: rest) (.ok .nil (store.setHead id value))
  | setsTail {id value rest} :
      Effect store .setTail (.pair id :: value :: rest) (.ok .nil (store.setTail id value))
  | records {object rest} :
      Effect store .record (object :: rest)
        (.ok object (store.note (store.written object true)))
  | refuses {operation operands object} (expected : String) (member : object ∈ operands) :
      Effect store operation operands
        (.error (.fault (.wrongKind expected object (some operation.name))) store)
  | misses {operation operands} (short : operands.length < operation.least) :
      Effect store operation operands (.error (.fault (.host .missingOperand)) store)

theorem pairOperand_effect {operation : Operation} {operands : List Object} {store : Store}
    {next : CellId → Eval Object} {object : Object} (member : object ∈ operands)
    (pair : ∀ id, object = .pair id → Effect store operation operands (next id store)) :
    Effect store operation operands
      ((Eval.ofExcept (operation.pairOperand object) >>= next) store) := by
  cases object with
  | pair id => exact pair id rfl
  | _ => exact .refuses "pair" member

theorem runOnStore_effect (operation : Operation) (operands : List Object) (store : Store)
    (outside : operation.arithmetic? operands = none) :
    Effect store operation operands (operation.runOnStore operands store) := by
  cases operation with
  | same | equal =>
      match operands with
      | _ :: _ :: _ => exact .decides _
      | [] | [_] => exact .misses (by simp [least])
  | cons =>
      match operands with
      | _ :: _ :: _ => exact .joins
      | [] | [_] => exact .misses (by simp [least])
  | head =>
      match operands with
      | _ :: _ => exact pairOperand_effect List.mem_cons_self fun _ same => same ▸ .head
      | [] => exact .misses (by simp [least])
  | tail =>
      match operands with
      | _ :: _ => exact pairOperand_effect List.mem_cons_self fun _ same => same ▸ .tail
      | [] => exact .misses (by simp [least])
  | list => exact .lists
  | length =>
      match operands with
      | object :: _ =>
          change Effect store .length _ ((itemsOr _ object >>= fun items =>
            pure (.integer items.length)) store)
          rw [Eval.bind_apply, itemsOr_apply]
          cases proper : store.listItems? object with
          | some items => exact .counts proper
          | none => exact .refuses "proper list" List.mem_cons_self
      | [] => exact .misses (by simp [least])
  | setHead =>
      match operands with
      | _ :: _ :: _ => exact pairOperand_effect List.mem_cons_self fun _ same => same ▸ .setsHead
      | [] | [_] => exact .misses (by simp [least])
  | setTail =>
      match operands with
      | _ :: _ :: _ => exact pairOperand_effect List.mem_cons_self fun _ same => same ▸ .setsTail
      | [] | [_] => exact .misses (by simp [least])
  | ask question =>
      match operands with
      | _ :: _ => exact .decides _
      | [] => exact .misses (by simp [least])
  | record =>
      match operands with
      | _ :: _ => exact .records
      | [] => exact .misses (by simp [least])
  | _ => simp [arithmetic?] at outside

theorem run_effect (operation : Operation) (operands : List Object) (store : Store) :
    Effect store operation operands (operation.run operands store) := by
  unfold run
  cases computed : operation.arithmetic? operands with
  | none => exact runOnStore_effect operation operands store computed
  | some outcome =>
      cases outcome with
      | ok value => exact .computes computed
      | error fault => exact .fails computed

end Operation

namespace Primitive

theorem call_apply (primitive : Primitive) (operands : List Object) (store : Store) :
    primitive.call operands store =
      if primitive.admits operands.length then primitive.operation.run operands store
      else .error (.fault (.arity primitive.name primitive.minimum primitive.maximum
        operands.length)) store := by
  unfold call checkArity
  split <;> rfl

/-- A call that computes on numbers alone ends as the computation does, and changes nothing. -/
theorem call_computed {primitive : Primitive} {operands : List Object} {store : Store}
    {outcome : Except Fault Object} (admitted : primitive.admits operands.length)
    (computed : primitive.operation.arithmetic? operands = some outcome) :
    primitive.call operands store = Eval.ofExcept outcome store := by
  rw [call_apply, if_pos admitted, Operation.run, computed]

/-- The standard primitives admit only what their operations can do with. -/
theorem standard_bounds : ∀ primitive ∈ standard,
    primitive.operation.least ≤ primitive.minimum ∧
      primitive.operation.most?.all fun (most : Nat) =>
        primitive.maximum.any fun maximum => maximum ≤ (most : Int) := by
  decide

theorem suits_of_admits {primitive : Primitive} (member : primitive ∈ standard) {count : Nat}
    (admitted : primitive.admits count) : primitive.operation.Suits count := by
  obtain ⟨least, most⟩ := standard_bounds primitive member
  obtain ⟨low, high⟩ := (Bool.and_eq_true _ _).mp admitted
  refine ⟨Int.ofNat_le.mp (Int.le_trans least (of_decide_eq_true low)), ?_⟩
  intro bound bounded
  cases maximum : primitive.maximum with
  | none => simp [Option.mem_def.mp bounded, maximum] at most
  | some maximal =>
      simp only [Option.mem_def.mp bounded, maximum, Option.all_some, Option.any_some,
        decide_eq_true_eq] at most high
      exact Int.ofNat_le.mp (Int.le_trans high most)

end Primitive

end LispCore
