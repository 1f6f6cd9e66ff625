import LispCore.Fault

namespace LispCore

namespace Object

mutual

/-- The first part of an object whose content can change. -/
def changeable? : Object → Option Object
  | .pair id => some (.pair id)
  | .alien .emptyMap => some (.alien .emptyMap)
  | .sequence label .list items => some (.sequence label .list items)
  | .sequence _ .tuple items => firstChangeable? items
  | .literal _ value => changeable? value
  | .reference _ name => changeable? name
  | .form _ .list elements => some (.sequence none .list elements)
  | .form _ .tuple elements => firstChangeable? elements
  | _ => none

def firstChangeable? : List Object → Option Object
  | [] => none
  | item :: items =>
      match changeable? item with
      | some part => some part
      | none => firstChangeable? items

end

def checkKey (object : Object) : Except Fault Unit :=
  match object.changeable? with
  | none => .ok ()
  | some part => .error (.host (.changeableKey part))

end Object

end LispCore
