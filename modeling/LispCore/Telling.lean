import LispCore.Eval
import LispCore.Text.Digit
import LispCore.Visited

/-!
Faults as they are told.

The message of a fault shows the objects that the fault is about, and the host writes no
integer of too many digits. If there is one in what the message has to show, it is the failure
of the host to write it that is told instead. Functions that only a host calls tell of
their faults where these are raised. Inside an evaluation nothing looks at a fault, so
there it is told when it comes out (`Eval.told`).
-/

namespace LispCore

namespace Object

/-- Is this an integer with too many digits to be written? -/
def isTooLong : Object → Bool
  | .integer value => digitBound ≤ value.natAbs
  | _ => false

/-- What an object holds in itself, and shows where it is written. -/
def contents : Object → List Object
  | .sequence _ _ items => items
  | .literal _ value => [value]
  | .reference _ name => [name]
  | .form _ _ elements => elements
  | _ => []

theorem sizeOf_append (first rest : List Object) :
    sizeOf (first ++ rest) + 1 = sizeOf first + sizeOf rest := by
  induction first with
  | nil => simp +arith
  | cons object first ih =>
      simp only [List.cons_append, List.cons.sizeOf_spec]
      omega

theorem sizeOf_contents_le (object : Object) : sizeOf object.contents ≤ sizeOf object := by
  cases object with
  | literal label | reference label => cases label <;> simp +arith [contents]
  | _ => simp +arith [contents]

end Object

namespace Store

/-- Can all these objects be written? Pairs that have been seen are not looked into again. -/
def writableAll (store : Store) (seen : Std.TreeSet CellId compare) : List Object → Bool
  | [] => true
  | .pair id :: pending =>
      if id ∉ seen ∧ id < store.cells.size then
        store.writableAll (seen.insert id)
          ((store.cell id).head :: (store.cell id).tail :: pending)
      else store.writableAll seen pending
  | object :: pending =>
      !object.isTooLong && store.writableAll seen (object.contents ++ pending)
termination_by pending => (unvisited (List.range store.cells.size) seen, sizeOf pending)
decreasing_by
  · exact .left _ _ (unvisited_insert_lt (List.mem_range.mpr ‹_ ∧ _›.2) ‹_ ∧ _›.1)
  · exact .right _ (by simp +arith)
  · refine .right _ ?_
    have size := Object.sizeOf_append object.contents pending
    have smaller := object.sizeOf_contents_le
    simp only [List.cons.sizeOf_spec]
    omega

/-- Can the text of an object be written? It can unless the object shows an integer that is
too long. -/
def writable (store : Store) (object : Object) : Bool :=
  store.writableAll ∅ [object]

end Store

namespace Fault

/-- The objects that the message of a fault shows. Counts of operands are left out, and so is
the limit of the host, as none of them has that many digits. -/
def shows : Fault → List Object
  | .invalidName object | .unbound object | .notCallable object | .wrongKind _ object _
  | .malformed object _ | .notValue object => [object]
  | .overflow _ result => [.integer result]
  | .arity .. | .divisionByZero _ | .tooDeep _ | .improperList | .host _ => []

/-- The fault that is told of instead of a fault: this fault itself, if its message can be
written. -/
def told (store : Store) (fault : Fault) : Fault :=
  if fault.shows.all store.writable then fault else .host .tooLong

end Fault

/-- Raises what is told of a fault in the present store. -/
def raiseTold {α : Type} (fault : Fault) : Eval α := do
  let store ← get
  raise (fault.told store)

/-- What the host sees of an outcome, with a fault told in a store. -/
def toldOutcome {α : Type} (store : Store) (outcome : Except Fault α) : Except Fault α :=
  outcome.mapError (Fault.told store)

/-- A run as its host sees it, with a fault told in the store that it leaves. -/
def Eval.told {α : Type} (run : Eval α) : Eval α := fun store =>
  match run store with
  | .error (.fault fault) after => .error (.fault (fault.told after)) after
  | outcome => outcome

end LispCore
