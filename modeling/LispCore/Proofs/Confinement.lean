import LispCore.Proofs.Discipline.Evaluation
import LispCore.Proofs.Operation

namespace LispCore

namespace Bindings

theorem names_prefix_set (name : Symbol) (value : Object) (bindings : Bindings) :
    bindings.names <+: (bindings.set name value).names := by
  induction bindings with
  | nil => exact List.nil_prefix
  | cons entry rest ih =>
      obtain ⟨bound, old⟩ := entry
      by_cases same : bound = name
      · simp only [set, if_pos same]
        exact List.prefix_refl _
      · simp only [set, if_neg same]
        exact (List.prefix_cons_inj bound).mpr ih

end Bindings

namespace Store

/-- From one store to the other, of the frames there were, only writable ones were
written: all others have the bindings they had. A written frame still binds every name
it bound, and no frame or closure has changed its place. -/
structure Confined (writable : FrameId → Prop) (before after : Store) : Prop where
  frames_le : before.frames.size ≤ after.frames.size
  closures_le : before.closures.size ≤ after.closures.size
  frame : ∀ id < before.frames.size, ¬ writable id → after.frame id = before.frame id
  ancestors : ∀ id < before.frames.size,
    (after.frame id).ancestors = (before.frame id).ancestors
  names : ∀ id < before.frames.size,
    (before.frame id).bindings.names <+: (after.frame id).bindings.names
  closure : ∀ id < before.closures.size, after.closure id = before.closure id

namespace Confined

variable {writable narrower : FrameId → Prop} {before between after : Store}

theorem of_eq (frames : after.frames = before.frames)
    (closures : after.closures = before.closures) : Confined writable before after := by
  have frame := Store.frame_congr frames
  have closure := Store.closure_congr closures
  refine ⟨Nat.le_of_eq (congrArg _ frames.symm), Nat.le_of_eq (congrArg _ closures.symm),
    fun id _ _ => frame id, ?_, ?_, fun id _ => closure id⟩
  · intro id _
    rw [frame]
  · intro id _
    simp only [frame, List.prefix_rfl]

theorem refl (store : Store) : Confined writable store store :=
  of_eq rfl rfl

theorem trans (first : Confined writable before between) (second : Confined narrower between after)
    (within : ∀ id < before.frames.size, narrower id → writable id) :
    Confined writable before after where
  frames_le := Nat.le_trans first.frames_le second.frames_le
  closures_le := Nat.le_trans first.closures_le second.closures_le
  frame id old locked := by
    rw [second.frame id (Nat.lt_of_lt_of_le old first.frames_le)
      fun write => locked (within id old write)]
    exact first.frame id old locked
  ancestors id old := by
    rw [second.ancestors id (Nat.lt_of_lt_of_le old first.frames_le)]
    exact first.ancestors id old
  names id old :=
    (first.names id old).trans (second.names id (Nat.lt_of_lt_of_le old first.frames_le))
  closure id old := by
    rw [second.closure id (Nat.lt_of_lt_of_le old first.closures_le)]
    exact first.closure id old

theorem define (store : Store) (frame : FrameId) (name : Symbol) (value : Object) :
    Confined (· = frame) store (store.define frame name value) := by
  have other : ∀ id, id ≠ frame → (store.define frame name value).frame id = store.frame id :=
    fun id different => store.frame_define_ne different name value
  refine ⟨by simp [Store.define], Nat.le_refl _, fun id _ => other id, ?_, ?_, fun _ _ => rfl⟩
  · intro id old
    by_cases same : id = frame
    · subst same
      rw [store.frame_define_self old]
    · rw [other id same]
  · intro id old
    by_cases same : id = frame
    · subst same
      rw [store.frame_define_self old]
      exact Bindings.names_prefix_set name value _
    · simp only [other id same, List.prefix_rfl]

theorem child (store : Store) (frame : FrameId) :
    Confined (fun _ => False) store (store.child frame).2 := by
  have old : ∀ id < store.frames.size, (store.child frame).2.frame id = store.frame id :=
    fun id old => store.frame_child_of_lt old
  refine ⟨by simp [Store.child], Nat.le_refl _, fun id inside _ => old id inside, ?_, ?_,
    fun _ _ => rfl⟩
  · intro id inside
    rw [old id inside]
  · intro id inside
    simp only [old id inside, List.prefix_rfl]

theorem addClosure (store : Store) (closure : Closure) :
    Confined (fun _ => False) store (store.addClosure closure).2 := by
  refine ⟨Nat.le_refl _, by simp [Store.addClosure], fun _ _ _ => rfl, fun _ _ => rfl,
    fun _ _ => List.prefix_refl _, ?_⟩
  intro id old
  simp [Store.addClosure, Store.closure, Array.getD, old, Nat.lt_succ_of_lt old,
    Array.getElem_push_lt]

end Confined

end Store

theorem Operation.Effect.frames_eq {store : Store} {operation : Operation}
    {operands : List Object} {result : EStateM.Result Interrupt Store Object}
    (effect : Effect store operation operands result) :
    (Eval.storeOf result).frames = store.frames ∧
      (Eval.storeOf result).closures = store.closures := by
  cases effect with
  | lists => exact store.ofItems_frames operands .nil
  | _ => exact ⟨rfl, rfl⟩

theorem Primitive.call_confined (primitive : Primitive) (operands : List Object)
    (store : Store) :
    store.Confined (fun _ => False) ((primitive.call operands).storeAfter store) := by
  rw [Eval.storeAfter, Primitive.call_apply]
  split
  · obtain ⟨frames, closures⟩ := (primitive.operation.run_effect operands store).frames_eq
    exact .of_eq frames closures
  · exact .refl store

namespace Discipline

variable {origin store : Store} {writable : FrameId → Prop}

/-- Of the frames of a store of old, only some are written. Evaluation runs in these and
in new frames, and all frames may be looked into. -/
def confinement (origin : Store) (writable : FrameId → Prop) : Discipline where
  Good := origin.Confined writable
  Grows _ _ := True
  Value _ _ := True
  Node _ _ := True
  Scope _ frame := writable frame ∨ origin.frames.size ≤ frame
  Outer _ _ := True
  Count _ _ := True
  Admits _ _ := True

theorem confinement_keeps_iff {α : Type} {wanted : Store → α → Prop} {run : Eval α}
    (good : origin.Confined writable store) (always : ∀ store value, wanted store value) :
    (confinement origin writable).Keeps store wanted run ↔
      origin.Confined writable (run.storeAfter store) := by
  unfold Keeps Eval.storeAfter
  cases run store with
  | ok value after =>
      exact ⟨fun kept => (kept good).1, fun kept _ => ⟨kept, trivial, always after value⟩⟩
  | error interrupt after =>
      cases interrupt with
      | fault fault => exact ⟨fun kept => (kept good).1, fun kept _ => ⟨kept, trivial, trivial⟩⟩
      | depth | patience => exact ⟨fun kept => (kept good).1, fun kept _ => ⟨kept, trivial⟩⟩

theorem confinement_lawful (origin : Store) (writable : FrameId → Prop) :
    (confinement origin writable).Lawful where
  refl _ := trivial
  trans _ _ := trivial
  value_mono _ _ := trivial
  node_mono _ _ := trivial
  scope_mono _ scope := scope
  count_mono _ _ := trivial
  count_le _ _ := trivial
  nil _ := trivial
  boolean _ _ := trivial
  lookup _ _ _ := trivial
  item _ _ _ := ⟨fun _ _ => trivial, trivial⟩
  literal _ _ := trivial
  name _ := trivial
  element _ := ⟨fun _ _ => trivial, trivial⟩
  body _ _ := trivial
  outer _ := trivial
  captured _ _ := ⟨trivial, trivial⟩
  define name good scope _ := by
    refine ⟨good.trans (.define _ _ name _) ?_, trivial⟩
    rintro id old rfl
    rcases scope with write | new
    · exact write
    · exact absurd old (Nat.not_lt.mpr new)
  child good _ :=
    ⟨good.trans (.child _ _) fun _ _ => False.elim, trivial, .inr good.frames_le⟩
  addClosure _ good _ _ :=
    ⟨good.trans (.addClosure _ _) fun _ _ => False.elim, trivial, trivial⟩
  cons {store head tail} good _ _ := by
    have unchanged : store.Confined (fun _ => False) (store.cons head tail).2 := .of_eq rfl rfl
    exact ⟨good.trans unchanged fun _ _ => False.elim, trivial, trivial⟩
  call _ _ _ := fun good =>
    (confinement_keeps_iff good fun _ _ => trivial).mpr
      (good.trans (Primitive.call_confined _ _ _) fun _ _ => False.elim) good
  notLiteral _ _ := trivial
  notReference _ _ := trivial
  notNode _ _ := trivial
  misshapen _ _ _ _ := trivial
  unbound _ _ := trivial
  notCallable _ _ := trivial
  arity _ _ _ _ _ := trivial
  notList _ _ := trivial
  tooDeep _ _ := trivial

end Discipline

/-- Whatever comes of it, evaluation in a frame writes no frame that was there before but
this one, and application writes none of them. -/
theorem evaluation_confined (budget : Budget) (before : Store) :
    (∀ node frame, before.Confined (· = frame)
      ((evaluate budget node frame).storeAfter before)) ∧
    ∀ callee operands, before.Confined (fun _ => False)
      ((applyTo budget callee operands).storeAfter before) := by
  constructor
  · intro node frame
    have lawful := Discipline.confinement_lawful before (· = frame)
    have kept : (Discipline.confinement before (· = frame)).Keeps before _
        (evaluate budget node frame) := lawful.evaluate budget trivial (.inl rfl)
    exact (Discipline.confinement_keeps_iff (.refl before) fun _ _ => trivial).mp kept
  · intro callee operands
    have lawful := Discipline.confinement_lawful before (fun _ => False)
    have kept : (Discipline.confinement before (fun _ => False)).Keeps before _
        (applyTo budget callee operands) :=
      lawful.applyTo budget trivial (fun _ _ => trivial) trivial
    exact (Discipline.confinement_keeps_iff (.refl before) fun _ _ => trivial).mp kept

end LispCore
