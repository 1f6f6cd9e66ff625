import LispCore.Eval
import Std.Data.TreeSet.Basic

namespace LispCore

namespace Store

/-- The heads passed and the tail arrived at by following tails, through at most
the given number of pairs. -/
def follow (store : Store) : Nat → Object → List Object × Object
  | steps + 1, .pair id =>
      let cell := store.cell id
      let (heads, last) := store.follow steps cell.tail
      (cell.head :: heads, last)
  | _, object => ([], object)

/-- The heads of a chain and the tail it ends in, which is a pair exactly if the
chain is circular. -/
def chain (store : Store) (object : Object) : List Object × Object :=
  store.follow store.cells.size object

/-- The elements of a proper list. -/
def listItems? (store : Store) (object : Object) : Option (List Object) :=
  match store.chain object with
  | (heads, .nil) => some heads
  | _ => none

def isProperList (store : Store) (object : Object) : Bool :=
  (store.listItems? object).isSome

/-- The first pair that tails lead back to. -/
def firstRepeated (store : Store) : Nat → Std.TreeSet CellId compare → Object → Object
  | steps + 1, passed, .pair id =>
      if id ∈ passed then .pair id
      else store.firstRepeated steps (passed.insert id) (store.cell id).tail
  | _, _, object => object

/-- Where tails lead: to what is no pair, or around, to the first pair met twice. -/
def lastTail (store : Store) (object : Object) : Object :=
  match store.chain object with
  | (_, .pair _) => store.firstRepeated (store.cells.size + 1) ∅ object
  | (_, last) => last

/-- A chain of new pairs with the given heads, ending in the given tail. -/
def ofItems (store : Store) (items : List Object) (tail : Object) : Object × Store :=
  items.foldr
    (fun item (rest, store) =>
      let (id, store) := store.cons item rest
      (.pair id, store))
    (tail, store)

end Store

def newList (items : List Object) : Eval Object :=
  Eval.create fun store => store.ofItems items .nil

def itemsOr (fault : Fault) (object : Object) : Eval (List Object) := do
  match (← get).listItems? object with
  | some items => pure items
  | none => raise fault

end LispCore
