import LispCore.Proofs.Soundness

namespace LispCore

open Store (Grown)

namespace Discipline

variable {holds : Store → Prop}

/-- One property of stores, and nothing else. -/
def preservation (holds : Store → Prop) : Discipline where
  Good := holds
  Grows _ _ := True
  Value _ _ := True
  Node _ _ := True
  Scope _ _ := True
  Outer _ _ := True
  Count _ _ := True
  Admits _ _ := True

theorem preservation_keeps {run : Eval Object} {store : Store}
    (kept : holds store → holds (run.storeAfter store)) :
    (preservation holds).Keeps store (preservation holds).Value run := by
  intro good
  have kept := kept good
  unfold Eval.storeAfter at kept
  cases outcome : run store with
  | ok value after =>
      rw [outcome] at kept
      exact ⟨kept, trivial, trivial⟩
  | error interrupt after =>
      rw [outcome] at kept
      cases interrupt with
      | fault fault => exact ⟨kept, trivial, trivial⟩
      | depth | patience => exact ⟨kept, trivial⟩

theorem preservation_lawful
    (define : ∀ {store} frame name value, holds store → holds (store.define frame name value))
    (child : ∀ {store} frame, holds store → holds (store.child frame).2)
    (addClosure : ∀ {store} closure, holds store → holds (store.addClosure closure).2)
    (cons : ∀ {store} head tail, holds store → holds (store.cons head tail).2)
    (call : ∀ {store} (primitive : Primitive) operands, holds store →
      holds ((primitive.call operands).storeAfter store)) :
    (preservation holds).Lawful where
  refl _ := trivial
  trans _ _ := trivial
  value_mono _ _ := trivial
  node_mono _ _ := trivial
  scope_mono _ _ := trivial
  count_mono _ _ := trivial
  count_le _ _ := trivial
  nil _ := trivial
  boolean _ _ := trivial
  lookup _ _ _ := trivial
  item _ _ _ := ⟨fun _ _ => trivial, trivial⟩
  literal _ _ := trivial
  name _ := trivial
  element _ := ⟨fun _ _ => trivial, trivial⟩
  body _ _ := trivial
  outer _ := trivial
  captured _ _ := ⟨trivial, trivial⟩
  define name good _ _ := ⟨define _ name _ good, trivial⟩
  child good _ := ⟨child _ good, trivial, trivial⟩
  addClosure _ good _ _ := ⟨addClosure _ good, trivial, trivial⟩
  cons good _ _ := ⟨cons _ _ good, trivial, trivial⟩
  call _ _ _ := preservation_keeps (call _ _)
  notLiteral _ _ := trivial
  notReference _ _ := trivial
  notNode _ _ := trivial
  misshapen _ _ _ _ := trivial
  unbound _ _ := trivial
  notCallable _ _ := trivial
  arity _ _ _ _ _ := trivial
  notList _ _ := trivial
  tooDeep _ _ := trivial

theorem growth_lawful (origin : Store) : (preservation (Grown origin)).Lawful :=
  preservation_lawful (fun _ name _ grown => grown.trans (Store.grown_define name))
    (fun _ grown => grown.trans Store.grown_child)
    (fun closure grown => grown.trans (Store.grown_addClosure closure))
    (fun _ _ grown => grown.trans Store.grown_cons)
    fun primitive operands grown => grown.trans (primitive.call_grown operands _)

end Discipline

open Discipline (growth_lawful)

theorem evaluate_grown (budget : Budget) (node : Object) (frame : FrameId) (store : Store) :
    Grown store ((evaluate budget node frame).storeAfter store) :=
  (((growth_lawful store).evaluate budget trivial trivial).storeAfter (.refl store)).1

theorem applyTo_grown (budget : Budget) (callee : Object) (operands : List Object)
    (store : Store) : Grown store ((applyTo budget callee operands).storeAfter store) := by
  have kept : (Discipline.preservation (Grown store)).Keeps store _
      (applyTo budget callee operands) :=
    (growth_lawful store).applyTo budget trivial (fun _ _ => trivial) trivial
  exact (kept.storeAfter (.refl store)).1

end LispCore
