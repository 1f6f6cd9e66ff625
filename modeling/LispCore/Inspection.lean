import LispCore.Environment
import LispCore.Printer

namespace LispCore

namespace Store

def bindingsText (store : Store) (frame : FrameId) : String :=
  let entries := (store.frame frame).bindings.map fun (name, value) =>
    name.name ++ ": " ++ store.shown value
  "\x7b" ++ ", ".intercalate entries ++ "\x7d"

/-- A frame by itself, with a sign that it stands in another one if it does. -/
def frameText (store : Store) (frame : FrameId) : String :=
  let outer := if (store.frame frame).ancestors.isEmpty then "" else " -> ..."
  store.bindingsText frame ++ outer

/-- A frame with all frames around it. Of the outermost only the size is told. -/
def scopeText (store : Store) (frame : FrameId) : String :=
  let texts := (store.scope frame).map fun id =>
    if (store.frame id).ancestors.isEmpty then
      "<root: " ++ Nat.repr (store.frame id).bindings.length ++ " bindings>"
    else store.bindingsText id
  "<Environment chain: " ++ " -> ".intercalate texts ++ ">"

end Store

end LispCore
