import LispCore.Telling

/-!
Walking a value: a visitor is called for its atoms in reading order.

A walk goes down into heads and along tails and takes no notice of where it has been, so it has no
end in a value with a circle: there it is given up, after more steps than any other walk takes.
-/

namespace LispCore

/-- The work of a visitor, which has a state of its own and leaves the store as it is. A fault stops
it, but what it has done by then is kept. It comes to nothing if it is given up. -/
abbrev Visit (σ : Type) := ExceptT Fault (StateT σ Option)

/-- What a visitor does at atoms, by their kinds: nothing, if it is not told. -/
structure Visitor (σ : Type) where
  nil : Visit σ Unit := pure ()
  boolean (value : Bool) : Visit σ Unit := pure ()
  integer (value : Int) : Visit σ Unit := pure ()
  float (value : Float) : Visit σ Unit := pure ()
  symbol (symbol : Symbol) : Visit σ Unit := pure ()
  string (text : String) : Visit σ Unit := pure ()
  closure (closure : ClosureId) : Visit σ Unit := pure ()
  primitive (primitive : Primitive) : Visit σ Unit := pure ()

namespace Visitor

variable {σ : Type}

/-- Calls the visitor for an atom. What has no kind stops it. -/
def visitAtom (visitor : Visitor σ) (store : Store) (object : Object) : Visit σ Unit :=
  match object with
  | .nil => visitor.nil
  | .boolean value => visitor.boolean value
  | .integer value => visitor.integer value
  | .float value => visitor.float value
  | .symbol symbol => visitor.symbol symbol
  | .string text => visitor.string text
  | .closure closure => visitor.closure closure
  | .primitive primitive => visitor.primitive primitive
  | object => throw ((Fault.notValue object).told store)

/-- A walk is given up. -/
def giveUp : Visit σ Unit :=
  ExceptT.lift failure

mutual

/-- Visits an object in at most the given number of steps. -/
def visitWithin (visitor : Visitor σ) (store : Store) : Nat → Object → Visit σ Unit
  | 0, .pair _ => giveUp
  | steps + 1, .pair id => visitor.visitPairWithin store steps id
  | _, object => visitor.visitAtom store object

/-- Visits the heads of a chain in turn, and then its end, unless that is nil. -/
def visitPairWithin (visitor : Visitor σ) (store : Store) : Nat → CellId → Visit σ Unit
  | 0, _ => giveUp
  | steps + 1, id => do
      visitor.visitWithin store steps (store.cell id).head
      match (store.cell id).tail with
      | .pair next => visitor.visitPairWithin store steps next
      | .nil => pure ()
      | last => visitor.visitWithin store steps last

end

/-- Visits an object. Each pair on a way down takes two steps at most. Without a circle these are
different pairs of the store, but for one at the end that may never have been given out. -/
def visit (visitor : Visitor σ) (store : Store) (object : Object) : Visit σ Unit :=
  visitor.visitWithin store (2 * store.cells.size + 2) object

/-- Notes the kind that the visitor has been called for, and the atom. -/
def note (kind : Kind) (atom : Object) : Visit (Array (Kind × Object)) Unit :=
  modify fun met => met.push (kind, atom)

/-- The visitor that notes every call. -/
def recorder : Visitor (Array (Kind × Object)) where
  nil := note .nil .nil
  boolean value := note .boolean (.boolean value)
  integer value := note .integer (.integer value)
  float value := note .float (.float value)
  symbol symbol := note .symbol (.symbol symbol)
  string text := note .string (.string text)
  closure closure := note .closure (.closure closure)
  primitive primitive := note .primitive (.primitive primitive)

end Visitor

/-- The record of a walk: the atoms met, each with its kind, and what stopped the walk, if
anything did. -/
structure Walk where
  atoms : List (Kind × Object)
  stopped : Option Fault

namespace Store

/-- The record of the walk through a value, if it comes to an end. -/
def walk? (store : Store) (object : Object) : Option Walk := do
  let (outcome, met) ← (Visitor.recorder.visit store object).run.run #[]
  match outcome with
  | .ok _ => some ⟨met.toList, none⟩
  | .error fault => some ⟨met.toList, some fault⟩

/-- The record of the walk through a value, an empty one if the walk is given up. -/
def walk (store : Store) (object : Object) : Walk :=
  (store.walk? object).getD ⟨[], none⟩

end Store

end LispCore
