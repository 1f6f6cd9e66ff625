import LispCore.Eval

namespace LispCore

namespace Object

/-- A sequence with a new label. All empty tuples are one. -/
def labelSequence (kind : SequenceKind) (items : List Object) (next : Label) : Object × Label :=
  match kind, items with
  | .tuple, [] => (.sequence (some emptyTupleLabel) .tuple [], next)
  | kind, items => (.sequence (some next) kind items, next + 1)

mutual

/-- Labels all containers in an object that have none, from the given label on. -/
def withLabels (next : Label) : Object → Object × Label
  | .sequence label kind items =>
      let (items, next) := allWithLabels next items
      match label with
      | none => labelSequence kind items next
      | some label => (.sequence (some label) kind items, next)
  | .literal label value =>
      let (value, next) := withLabels next value
      match label with
      | none => (.literal (some next) value, next + 1)
      | some label => (.literal (some label) value, next)
  | .reference label name =>
      let (name, next) := withLabels next name
      match label with
      | none => (.reference (some next) name, next + 1)
      | some label => (.reference (some label) name, next)
  | .form label shape elements =>
      let (elements, next) := allWithLabels next elements
      match label with
      | none => (.form (some next) shape elements, next + 1)
      | some label => (.form (some label) shape elements, next)
  | object => (object, next)

def allWithLabels (next : Label) : List Object → List Object × Label
  | [] => ([], next)
  | object :: rest =>
      let (object, next) := withLabels next object
      let (rest, next) := allWithLabels next rest
      (object :: rest, next)

end

end Object

/-- Labels the containers of an object that the host is going to keep. -/
def keep (object : Object) : Eval Object :=
  Eval.create fun store =>
    let (object, next) := object.withLabels store.labels
    (object, { store with labels := next })

end LispCore
