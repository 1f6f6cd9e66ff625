import LispCore.Fault
import LispCore.Store

namespace LispCore

/-- What cuts a computation short: a fault of the program, evaluations nested
deeper than allowed, or more tail calls in a row than the host is willing to wait
for. The last is no answer of the program at all. -/
inductive Interrupt
  | fault (fault : Fault)
  | depth
  | patience

/-- A computation on a store. An interrupted one keeps its changes to the store. -/
abbrev Eval := EStateM Interrupt Store

def raise {α : Type} (fault : Fault) : Eval α :=
  throw (.fault fault)

def malformed {α : Type} (node : Object) (reason : Malformation) : Eval α :=
  raise (.malformed node reason)

def Eval.ofExcept {α : Type} : Except Fault α → Eval α
  | .ok value => pure value
  | .error fault => raise fault

/-- A change of the store that yields something new in it. -/
def Eval.create {α : Type} (change : Store → α × Store) : Eval α :=
  modifyGet change

end LispCore
