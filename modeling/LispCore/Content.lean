import LispCore.Equality
import LispCore.Key

/-!
Equality as the host sees it.

The host compares containers by kind and content and takes the booleans for the
numbers zero and one. Pairs keep the equality of the language. It decides which
nodes are equal and which names of an update are one name.
-/

namespace LispCore

namespace Object

/-- The number that the host takes an object for. -/
def hostNumber? : Object → Option Number
  | .boolean value => some (.integer (if value then 1 else 0))
  | object => Number.ofObject? object

/-- Equality of objects without parts that the host can see. -/
def sameAtom (store : Store) (a b : Object) : Bool :=
  match a, b with
  | .symbol a, .symbol b => a == b
  | .string a, .string b => a == b
  | .pair _, .pair _ => store.equal a b
  | a, b =>
      match a.hostNumber?, b.hostNumber? with
      | some a, some b => Comparison.equal.holds a b
      | _, _ => a.identical b

mutual

/-- Are these the same to the host? -/
def sameContent (store : Store) : Object → Object → Bool
  | .sequence _ kind items, .sequence _ kind' items' =>
      kind == kind' && sameContents store items items'
  | .literal _ value, .literal _ value' => sameContent store value value'
  | .reference _ name, .reference _ name' => sameContent store name name'
  | .form _ shape elements, .form _ shape' elements' =>
      shape == shape' && sameContents store elements elements'
  | a, b => a.sameAtom store b

def sameContents (store : Store) : List Object → List Object → Bool
  | [], [] => true
  | item :: items, item' :: items' =>
      sameContent store item item' && sameContents store items items'
  | _, _ => false

end

/-- Puts an entry where its key stands already, or at the end. -/
def joinEntry (store : Store) (joined : List (Object × Object)) (name value : Object) :
    List (Object × Object) :=
  if joined.any fun entry => name.sameContent store entry.1 then
    joined.map fun entry => if name.sameContent store entry.1 then (entry.1, value) else entry
  else joined ++ [(name, value)]

/-- Joins entries with the same key: the first place and the last value count. -/
def joinEntries (store : Store) (entries : List (Object × Object)) :
    Except Fault (List (Object × Object)) :=
  let step (joined : List (Object × Object)) (entry : Object × Object) :
      Except Fault (List (Object × Object)) := do
    checkKey entry.1
    .ok (joinEntry store joined entry.1 entry.2)
  entries.foldlM step []

end Object

end LispCore
