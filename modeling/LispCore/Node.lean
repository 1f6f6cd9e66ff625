import LispCore.Chain
import LispCore.Telling

namespace LispCore

namespace Object

mutual

/-- The node for source data: a reference for a symbol, a form for a sequence, a
literal for any other value, and a node for itself. Pairs are no source. -/
def toNode (store : Store) : Object → Except Fault Object
  | .literal label value => .ok (.literal label value)
  | .reference label name => .ok (.reference label name)
  | .form label shape elements => .ok (.form label shape elements)
  | .symbol name => .ok (.reference none (.symbol name))
  | .sequence _ _ items => (toNodes store items).map (.form none .tuple)
  | .pair id => .error ((Fault.malformed (.pair id) .pairInSource).told store)
  | object =>
      if object.isValue then .ok (.literal none object)
      else .error ((Fault.malformed object .notLiteral).told store)

def toNodes (store : Store) : List Object → Except Fault (List Object)
  | [] => .ok []
  | item :: items => do
      let node ← toNode store item
      let nodes ← toNodes store items
      .ok (node :: nodes)

end

mutual

/-- The data a node was written as, with new pairs for its forms. Nothing in it is
evaluated. What is wrong with a node is raised, and told by `Eval.told`. -/
def quoted : Object → Eval Object
  | .literal label value =>
      if value.isValue then pure value
      else malformed (.literal label value) .literalNotValue
  | .reference _ name => pure name
  | .form _ _ elements => do
      let items ← quotedAll elements
      newList items
  | object => malformed object .unrecognised

def quotedAll : List Object → Eval (List Object)
  | [] => pure []
  | element :: elements => do
      let item ← quoted element
      let items ← quotedAll elements
      pure (item :: items)

end

mutual

/-- What becomes a node in one store does in any: only what is told of a refusal depends on it. -/
theorem toNode_ok_congr {store : Store} : ∀ {object node : Object}, object.toNode store = .ok node →
    ∀ other : Store, object.toNode other = .ok node
  | .sequence _ _ items, node, made, other => by
      rw [toNode] at made ⊢
      cases parts : toNodes store items with
      | error fault => simp [parts, Except.map] at made
      | ok nodes => rwa [toNodes_ok_congr parts other, ← parts]
  | .literal _ _, _, made, _ | .reference _ _, _, made, _ | .form _ _ _, _, made, _
  | .symbol _, _, made, _ => made
  | .pair _, _, made, _ => by cases made
  | .nil, _, made, other | .boolean _, _, made, other | .integer _, _, made, other
  | .float _, _, made, other | .string _, _, made, other | .closure _, _, made, other
  | .primitive _, _, made, other | .alien _, _, made, other => by
      simp only [toNode] at made ⊢
      split at made
      · rename_i isValue
        rwa [if_pos isValue]
      · cases made

theorem toNodes_ok_congr {store : Store} : ∀ {items nodes : List Object},
    toNodes store items = .ok nodes → ∀ other : Store, toNodes other items = .ok nodes
  | [], _, made, _ => made
  | item :: items, nodes, made, other => by
      rw [toNodes] at made ⊢
      cases first : item.toNode store with
      | error fault => simp [first, bind, Except.bind] at made
      | ok node =>
          cases rest : toNodes store items with
          | error fault => simp [first, rest, bind, Except.bind] at made
          | ok others =>
              rw [toNode_ok_congr first other, toNodes_ok_congr rest other]
              rwa [first, rest] at made

end

def referenceName? : Object → Option Symbol
  | .reference _ (.symbol name) => some name
  | _ => none

/-- The elements of a form that the evaluator takes for a sequence. -/
def sequenceElements? : Object → Option (List Object)
  | .form _ .text _ => none
  | .form _ _ elements => some elements
  | _ => none

def formElements? : Object → Option (List Object)
  | .form _ _ elements => some elements
  | _ => none

end Object

/-- The parameters named by a list of nodes, none of them among those already taken. What
is wrong with them is told by `toldOutcome`. -/
def formalsFrom (taken : List Symbol) : List Object → Except Fault (List Symbol)
  | [] => .ok taken
  | node :: nodes =>
      match node.referenceName? with
      | none => .error (.malformed node .formalNotSymbol)
      | some name =>
          if name ∈ taken then .error (.malformed node (.duplicateFormal name))
          else formalsFrom (taken ++ [name]) nodes

def parseFormals (node : Object) : Except Fault (List Symbol) :=
  match node.formElements? with
  | none => .error (.malformed node .formalsNotList)
  | some elements => formalsFrom [] elements

/-- The keyword that puts nodes in sequence. -/
def beginKeyword : Symbol := ⟨"begin"⟩

/-- One node for a function body of any number of nodes. -/
def bodyNode : List Object → Object
  | [] => .literal none .nil
  | [node] => node
  | nodes => .form none .tuple (.reference none (.symbol beginKeyword) :: nodes)

end LispCore
