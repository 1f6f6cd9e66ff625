import LispCore.Proofs.Coupling.Evaluation

namespace LispCore

structure Likeness where
  Stores : Store → Store → Prop
  Task : Object → FrameId → FrameId → Prop
  Outer : List Object → FrameId → FrameId → Prop
  Inner : FrameId → FrameId → Prop
  Interrupts : Interrupt → Interrupt → Prop
  Excused : Interrupt → Prop

namespace Likeness

def coupling (L : Likeness) : Coupling where
  Stage := Unit
  Later _ _ := True
  Stores _ := L.Stores
  Value _ := Eq
  Task _ := L.Task
  Outer _ := L.Outer
  Inner _ := L.Inner
  Interrupts _ := L.Interrupts
  Excused := L.Excused

/-- Started from stores that are alike, two runs come to the same. -/
abbrev Alike {α : Type} (L : Likeness) (run run' : Eval α) : Prop :=
  L.coupling.Coupled () (fun _ => Eq) run run'

structure Lawful (L : Likeness) : Prop where
  lookup : ∀ {before before' label name frame frame'}, L.Stores before before' →
    L.Task (.reference label (.symbol name)) frame frame' →
      before.lookup? frame name = before'.lookup? frame' name
  items : ∀ {before before'}, L.Stores before before' →
    ∀ value, before.listItems? value = before'.listItems? value
  captured : ∀ {before before'}, L.Stores before before' → ∀ id,
    (before.closure id).formals = (before'.closure id).formals ∧
    (before.closure id).body = (before'.closure id).body ∧
    L.Outer [(before.closure id).body] (before.closure id).frame (before'.closure id).frame
  applied : ∀ {label shape head operands frame frame'},
    L.Task (.form label shape (head :: operands)) frame frame' →
      SpecialForm.ofHead? head = none → ∀ node ∈ head :: operands, L.Task node frame frame'
  evaluated : ∀ {label shape head operands frame frame' form},
    L.Task (.form label shape (head :: operands)) frame frame' →
      SpecialForm.ofHead? head = some form →
        ∀ node ∈ form.evaluated operands, L.Task node frame frame'
  defines : ∀ {label shape head operands frame frame'},
    L.Task (.form label shape (head :: operands)) frame frame' →
      SpecialForm.ofHead? head = some .define → L.Inner frame frame'
  closes : ∀ {label shape head formals body frame frame'},
    L.Task (.form label shape (head :: formals :: body)) frame frame' →
      SpecialForm.ofHead? head = some .lambda → L.Outer [bodyNode body] frame frame'
  opens : ∀ {label shape head first body frame frame'},
    L.Task (.form label shape (head :: first :: body)) frame frame' →
      SpecialForm.ofHead? head = some .binding → L.Outer body frame frame'
  quotes : ∀ node : Object, L.Alike node.quoted node.quoted
  call : ∀ (primitive : Primitive) operands,
    L.Alike (primitive.call operands) (primitive.call operands)
  define : ∀ {frame frame'}, L.Inner frame frame' → ∀ name value,
    L.coupling.Coupled () (fun _ _ _ => True) (modify fun store => store.define frame name value)
      (modify fun store => store.define frame' name value)
  child : ∀ {nodes frame frame'}, L.Outer nodes frame frame' →
    L.coupling.Coupled ()
      (fun _ inner inner' => L.Inner inner inner' ∧ ∀ node ∈ nodes, L.Task node inner inner')
      (Eval.create fun store => store.child frame) (Eval.create fun store => store.child frame')
  addClosure : ∀ {body frame frame'}, L.Outer [body] frame frame' → ∀ formals,
    L.Alike (Eval.create fun store => store.addClosure ⟨formals, body, frame⟩)
      (Eval.create fun store => store.addClosure ⟨formals, body, frame'⟩)
  fault : ∀ fault, L.Interrupts (.fault fault) (.fault fault)
  patience : L.Interrupts .patience .patience

variable {L : Likeness}

theorem Lawful.coupling (lawful : L.Lawful) : L.coupling.Lawful where
  refl _ := trivial
  trans _ _ := trivial
  value_mono _ alike := alike
  task_mono _ task := task
  outer_mono _ outer := outer
  inner_mono _ inner := inner
  nil _ := rfl
  boolean _ _ := rfl
  truthy alike := congrArg _ alike
  procedure alike := congrArg _ alike
  closure alike := ⟨_, alike.symm⟩
  primitive alike := alike.symm
  lookup stores task := Coupling.rel_of_eq (fun _ => rfl) (lawful.lookup stores task)
  items {_ _ _ value _} stores alike := by
    obtain rfl := alike
    exact Coupling.rel_of_eq (fun _ => List.forall₂_same.mpr fun _ _ => rfl)
      (lawful.items stores value)
  captured {_ _ _ id _} stores alike := by
    obtain rfl := Object.closure.inj alike
    exact lawful.captured stores id
  literal _ _ := rfl
  applied := lawful.applied
  evaluated := lawful.evaluated
  quotes {_ _ _ _ node _ _} _ _ := lawful.quotes node
  defines := lawful.defines
  closes := lawful.closes
  opens := lawful.opens
  define {_ _ _ value _} name inner alike := by
    obtain rfl := alike
    exact lawful.define inner name value
  child := lawful.child
  addClosure formals outer := (lawful.addClosure outer formals).imp (congrArg Object.closure)
  call {_ operands _} primitive known := by
    obtain rfl := Coupling.eq_of_forall₂_eq known
    exact lawful.call primitive operands
  fault _ _ _ := lawful.fault _
  notCallable alike := alike ▸ lawful.fault _
  notList alike := alike ▸ lawful.fault _
  patience _ := lawful.patience

/-- What a node comes to is alike in frames that are alike for it. -/
theorem Lawful.complete (lawful : L.Lawful) (floor : L.Interrupts .depth .depth) (budget : Budget)
    {node : Object} {frame frame' : FrameId} (task : L.Task node frame frame') :
    L.Alike (budget.engine.complete node frame) (budget.engine.complete node frame') :=
  lawful.coupling.complete (lawful.coupling.ofDepth (fun _ => floor) _ _) task

end Likeness

end LispCore
