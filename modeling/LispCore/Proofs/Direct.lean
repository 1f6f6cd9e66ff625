import LispCore.Evaluator

/-!
Direct evaluation: a reference evaluator without pending calls.

A node is evaluated to a value on the spot, wherever it stands: no place is a tail
position, and the body of a closure is evaluated inside the call. Every call nests,
so a loop of tail calls takes as much depth as it has turns.
-/

namespace LispCore

namespace Direct

variable (eval : Object → FrameId → Eval Object) (frame : FrameId)

def operands : List Object → Eval (List Object)
  | [] => pure []
  | node :: nodes => do
      let value ← eval node frame
      let values ← operands nodes
      pure (value :: values)

/-- Applies an object to operands; a closure by evaluating its body. -/
def call (callee : Object) (operands : List Object) : Eval Object :=
  match callee with
  | .closure id => do
      let store ← get
      let inner ← (store.closure id).extend operands
      eval (store.closure id).body inner
  | .primitive primitive => primitive.call operands
  | other => raise (.notCallable other)

def sequence (value : Object) : List Object → Eval Object
  | [] => pure value
  | node :: nodes => do
      let value ← eval node frame
      sequence value nodes

def quote : List Object → Eval Object
  | [node] => node.quoted
  | operands => malformed (operandList operands) .quoteOperands

def conditional : List Object → Eval Object
  | [condition, consequent] => do
      let value ← eval condition frame
      if value.isTruthy then eval consequent frame else pure .nil
  | [condition, consequent, alternative] => do
      let value ← eval condition frame
      if value.isTruthy then eval consequent frame else eval alternative frame
  | operands => malformed (operandList operands) .conditionalOperands

def define : List Object → Eval Object
  | [target, node] =>
      match target.referenceName? with
      | none => malformed target .defineName
      | some name => do
          let value ← eval node frame
          modify fun store => store.define frame name value
          pure .nil
  | operands => malformed (operandList operands) .defineOperands

def lambda (frame : FrameId) : List Object → Eval Object
  | [] => malformed (operandList []) .lambdaOperands
  | formals :: body => do
      let names ← Eval.ofExcept (parseFormals formals)
      let id ← Eval.create fun store => store.addClosure ⟨names, bodyNode body, frame⟩
      pure (.closure id)

def entries (done : List (Symbol × Object)) : List Object → Eval (List (Symbol × Object))
  | [] => pure done
  | binding :: rest =>
      match bindingParts? binding with
      | none => malformed binding .letBinding
      | some (name, node) =>
          if name ∈ done.map Prod.fst then malformed binding (.duplicateBinding name)
          else do
            let value ← eval node frame
            entries (done ++ [(name, value)]) rest

def binding (operands : List Object) : Eval Object :=
  match operands with
  | [] => malformed (operandList operands) .letOperands
  | first :: body =>
      match first.formElements? with
      | none => malformed (operandList operands) .letOperands
      | some nodes => do
          let entries ← entries eval frame [] nodes
          let inner ← Eval.create fun store => store.child frame
          modify fun store => store.defineAll inner entries
          sequence eval inner .nil body

def conjunction (value : Object) : List Object → Eval Object
  | [] => pure value
  | node :: nodes => do
      let value ← eval node frame
      if value.isTruthy then conjunction value nodes else pure value

def disjunction (value : Object) : List Object → Eval Object
  | [] => pure value
  | node :: nodes => do
      let value ← eval node frame
      if value.isTruthy then pure value else disjunction value nodes

def apply : List Object → Eval Object
  | [function, list] => do
      let callee ← eval function frame
      let value ← eval list frame
      let items ← itemsOr (.wrongKind "proper list" value (some "apply")) value
      call eval callee items
  | operands => malformed (operandList operands) .applyOperands

def special (form : SpecialForm) (operands : List Object) : Eval Object :=
  match form with
  | .quote => quote operands
  | .conditional => conditional eval frame operands
  | .define => define eval frame operands
  | .lambda => lambda frame operands
  | .begin => sequence eval frame .nil operands
  | .binding => binding eval frame operands
  | .conjunction => conjunction eval frame (.boolean true) operands
  | .disjunction => disjunction eval frame (.boolean false) operands
  | .apply => apply eval frame operands

def form : List Object → Eval Object
  | [] => pure .nil
  | head :: nodes =>
      match SpecialForm.ofHead? head with
      | some form => special eval frame form nodes
      | none => do
          let callee ← eval head frame
          let values ← operands eval frame nodes
          call eval callee values

/-- Evaluates one node, given how to evaluate the nodes inside it. -/
def step (node : Object) (frame : FrameId) : Eval Object :=
  match node with
  | .literal _ value =>
      if value.isValue then pure value else malformed node .literalNotValue
  | .reference _ name =>
      if name.isSymbol then Environment.lookup frame name
      else malformed node .referenceNotSymbol
  | _ =>
      match node.sequenceElements? with
      | none => malformed node .unrecognised
      | some elements => form eval frame elements

end Direct

/-- The value of a node, by at most the given number of evaluations inside each other. -/
def evaluateDirectly : Nat → Object → FrameId → Eval Object
  | 0 => fun _ _ => throw .depth
  | depth + 1 => Direct.step (evaluateDirectly depth)

end LispCore
