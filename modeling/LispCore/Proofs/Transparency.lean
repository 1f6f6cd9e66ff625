import LispCore.Proofs.Confinement
import LispCore.Proofs.Coupling.Likeness
import LispCore.Proofs.Immutability
import LispCore.Proofs.Operation.Frameless
import LispCore.Proofs.Renaming.Evaluation

/-!
Evaluating a node again.

A node that defines nothing in its own frame leaves all frames there were as they are: what is
defined on the way is defined in frames of calls and of bindings, which are new. If moreover
nothing writes pairs, a store is found again in the store that the evaluation leaves, so that a
second evaluation runs in a twin of the first store, and comes to the same but for the numbers
of what is new (`evaluation_repeats`).
-/

namespace LispCore

open Store (Twin Accrues Confined)

/-- Nodes that evaluate no definition in the frame that they are evaluated in themselves. What
is quoted, and the bodies of functions and of bindings, may be anything. -/
inductive Object.DefinesNothing : Object → Prop
  | plain {node : Object} (noForm : node.formElements? = none) : DefinesNothing node
  | empty {label : Option Label} {shape : FormShape} : DefinesNothing (.form label shape [])
  | applied {label : Option Label} {shape : FormShape} {head : Object} {operands : List Object}
      (asked : SpecialForm.ofHead? head = none)
      (each : ∀ node ∈ head :: operands, DefinesNothing node) :
      DefinesNothing (.form label shape (head :: operands))
  | special {label : Option Label} {shape : FormShape} {head : Object} {operands : List Object}
      {form : SpecialForm} (asked : SpecialForm.ofHead? head = some form) (other : form ≠ .define)
      (each : ∀ node ∈ form.evaluated operands, DefinesNothing node) :
      DefinesNothing (.form label shape (head :: operands))

namespace Object.DefinesNothing

variable {label : Option Label} {shape : FormShape} {head : Object} {operands : List Object}
  {form : SpecialForm}

theorem of_applied (nothing : DefinesNothing (.form label shape (head :: operands)))
    (asked : SpecialForm.ofHead? head = none) : ∀ node ∈ head :: operands, DefinesNothing node := by
  cases nothing with
  | plain noForm => contradiction
  | applied _ each => exact each
  | special other _ _ =>
      rw [asked] at other
      contradiction

theorem of_special (nothing : DefinesNothing (.form label shape (head :: operands)))
    (asked : SpecialForm.ofHead? head = some form) :
    form ≠ .define ∧ ∀ node ∈ form.evaluated operands, DefinesNothing node := by
  cases nothing with
  | plain noForm => contradiction
  | applied other _ =>
      rw [asked] at other
      contradiction
  | special same other each =>
      obtain rfl := Option.some.inj (asked.symm.trans same)
      exact ⟨other, each⟩

end Object.DefinesNothing

namespace Likeness

/-- One run twice, in frames that are new since a store of old, or on nodes that define
nothing. It writes none of the old frames. -/
def secluded (origin : Store) : Likeness where
  Stores store store' := store = store' ∧ origin.Confined (fun _ => False) store
  Task node frame frame' :=
    frame = frame' ∧ (origin.frames.size ≤ frame ∨ node.DefinesNothing)
  Outer _ := Eq
  Inner frame frame' := frame = frame' ∧ origin.frames.size ≤ frame
  Interrupts := Eq
  Excused _ := False

variable {origin : Store}

theorem secluded_alike {α : Type} {run : Eval α}
    (confined : ∀ store : Store, store.Confined (fun _ => False) (run.storeAfter store)) :
    (secluded origin).Alike run run := by
  have always : (secluded origin).coupling.Later () () := trivial
  rintro store _ ⟨rfl, before⟩
  have after : origin.Confined (fun _ => False) (run.storeAfter store) :=
    before.trans (confined store) fun _ _ => False.elim
  unfold Eval.storeAfter at after
  cases outcome : run store with
  | ok value last =>
      rw [outcome] at after
      exact .value always ⟨rfl, after⟩ rfl
  | error interrupt last =>
      rw [outcome] at after
      exact .interrupt always ⟨rfl, after⟩ rfl

theorem secluded_lawful (origin : Store) : (secluded origin).Lawful where
  lookup stores task := by
    obtain ⟨rfl, _⟩ := stores
    obtain ⟨rfl, _⟩ := task
    rfl
  items stores value := by rw [stores.1]
  captured stores id := by
    rw [stores.1]
    exact ⟨rfl, rfl, rfl⟩
  applied task asked node member :=
    ⟨task.1, task.2.imp_right fun nothing => nothing.of_applied asked node member⟩
  evaluated task asked node member :=
    ⟨task.1, task.2.imp_right fun nothing => (nothing.of_special asked).2 node member⟩
  defines task asked :=
    ⟨task.1, task.2.resolve_right fun nothing => (nothing.of_special asked).1 rfl⟩
  closes task _ := task.1
  opens task _ := task.1
  quotes node := secluded_alike fun store =>
    .of_eq ((quoted_frameless node).frames store) ((quoted_frameless node).closures store)
  call primitive operands := secluded_alike (Primitive.call_confined primitive operands)
  define {frame _} inner name value := by
    obtain ⟨rfl, new⟩ := inner
    refine Coupling.changes trivial fun {store _} stores => ?_
    obtain ⟨rfl, before⟩ := stores
    refine ⟨rfl, before.trans (.define store frame name value) ?_⟩
    rintro id old rfl
    exact absurd old (Nat.not_lt.mpr new)
  child {nodes frame _} outer := by
    obtain rfl := outer
    refine Coupling.creates trivial fun {store _} stores => ?_
    obtain ⟨rfl, before⟩ := stores
    have new : origin.frames.size ≤ (store.child frame).1 := before.frames_le
    exact ⟨⟨rfl, before.trans (.child store frame) fun _ _ => False.elim⟩, ⟨rfl, new⟩,
      fun _ _ => ⟨rfl, .inl new⟩⟩
  addClosure outer formals := by
    obtain rfl := outer
    exact secluded_alike fun store => .addClosure store _
  fault _ := rfl
  patience := rfl

end Likeness

theorem Budget.storeAfter_guard {α : Type} (budget : Budget) (run : Eval α) (store : Store) :
    (budget.guard run).storeAfter store = run.storeAfter store := by
  unfold Eval.storeAfter guard
  cases run store with
  | ok value after => rfl
  | error interrupt after => cases interrupt <;> rfl

theorem evaluate_secluded (budget : Budget) {node : Object} (nothing : node.DefinesNothing)
    (frame : FrameId) (store : Store) :
    store.Confined (fun _ => False) ((evaluate budget node frame).storeAfter store) := by
  have lawful := Likeness.secluded_lawful store
  have task : (Likeness.secluded store).Task node frame frame := ⟨rfl, .inr nothing⟩
  have ends := lawful.complete rfl budget task store store ⟨rfl, .refl store⟩
  rw [evaluate, Budget.storeAfter_guard, Eval.storeAfter]
  generalize budget.engine.complete node frame store = result at ends
  cases ends with
  | value _ stores _ => exact stores.2
  | interrupt _ stores _ => exact stores.2
  | excused excuse => exact False.elim excuse

/-- What was there stays, and what comes next is moved past what has come in between. -/
def Renaming.past (before after : Store) : Renaming where
  cells := ⟨before.cells.size, after.cells.size - before.cells.size⟩
  closures := ⟨before.closures.size, after.closures.size - before.closures.size⟩
  frames := ⟨before.frames.size, after.frames.size - before.frames.size⟩

theorem Store.frame_of_ge {store : Store} {id : FrameId} (new : store.frames.size ≤ id) :
    store.frame id = ⟨[], []⟩ := by
  simp [frame, Array.getD, Nat.not_lt.mpr new]

namespace Renaming

variable {before after : Store} {admitted : Operation → Prop} {value : Object}

theorem past_object (known : before.Knows admitted value) :
    (past before after).object value = value := by
  cases value with
  | pair id => exact congrArg Object.pair (Shift.of_lt known)
  | closure id => exact congrArg Object.closure (Shift.of_lt known)
  | _ => rfl

theorem past_frame (whole : before.Whole admitted) (id : FrameId) :
    (past before after).frame (before.frame id) = before.frame id := by
  have bindings : ∀ entry ∈ (before.frame id).bindings,
      (past before after).entry entry = entry := fun entry member =>
    Prod.ext rfl (past_object (whole.binding id entry member))
  have ancestors : ∀ outer ∈ (before.frame id).ancestors,
      (past before after).frames.of outer = outer := fun outer member =>
    Shift.of_lt (whole.ancestor id outer member)
  rw [Renaming.frame, List.map_congr_left bindings, List.map_congr_left ancestors]
  simp

/-- A store is found again in every later one in which all that was there has stayed. -/
theorem past_twin_of_kept (whole : before.Whole admitted)
    (more : before.cells.size ≤ after.cells.size)
    (kept : ∀ id < before.cells.size, after.cell id = before.cell id)
    (confined : before.Confined (fun _ => False) after) :
    Twin (past before after) before after where
  cells := ⟨Nat.le_refl _, (Nat.add_sub_cancel' more).symm⟩
  closures := ⟨Nat.le_refl _, (Nat.add_sub_cancel' confined.closures_le).symm⟩
  frames := ⟨Nat.le_refl _, (Nat.add_sub_cancel' confined.frames_le).symm⟩
  cell id := by
    have same : (past before after).cell (before.cell id) = before.cell id :=
      congrArg₂ Cell.mk (past_object (whole.head id)) (past_object (whole.tail id))
    by_cases old : id < before.cells.size
    · have stays : (past before after).cells.of id = id := Shift.of_lt old
      rw [stays, kept id old, same]
    · have new := Nat.le_of_not_lt old
      have moved : (past before after).cells.of id = id + (after.cells.size - before.cells.size) :=
        Shift.of_ge new
      have beyond : after.cells.size ≤ id + (after.cells.size - before.cells.size) := by omega
      rw [moved, Store.cell_of_ge beyond, Store.cell_of_ge new]
      rfl
  closure id old := by
    have stays : (past before after).closures.of id = id := Shift.of_lt old
    have inside : (past before after).frames.of (before.closure id).frame =
        (before.closure id).frame := Shift.of_lt (whole.captured id old)
    rw [stays, confined.closure id old, Renaming.closure, inside]
  frame id := by
    by_cases old : id < before.frames.size
    · have stays : (past before after).frames.of id = id := Shift.of_lt old
      rw [stays, confined.frame id old not_false, past_frame whole]
    · have new := Nat.le_of_not_lt old
      have moved : (past before after).frames.of id =
          id + (after.frames.size - before.frames.size) := Shift.of_ge new
      have beyond : after.frames.size ≤ id + (after.frames.size - before.frames.size) := by omega
      rw [moved, Store.frame_of_ge beyond, Store.frame_of_ge new]
      rfl
  body id value carried := past_object (whole.body id value carried)

theorem past_twin (whole : before.Whole admitted) (accrues : Accrues before after)
    (confined : before.Confined (fun _ => False) after) :
    Twin (past before after) before after :=
  past_twin_of_kept whole accrues.grown.cells_le (fun _ => accrues.cell_eq) confined

end Renaming

/-- What is true of two evaluations of one node in one frame, the second in the store that the
first one leaves. -/
structure Repeats (budget : Budget) (node : Object) (frame : FrameId) (store after : Store) :
    Prop where
  frames : ∀ id < store.frames.size, after.frame id = store.frame id
  pairs : ∀ id < store.cells.size, after.cell id = store.cell id
  /-- The second evaluation comes to what the first came to, in a store that is a twin of what
  the first has left. -/
  again : (Renaming.past store after).Ends (Renaming.past store after).object
    (evaluate budget node frame store) (evaluate budget node frame after)

/-- Where neither the store nor the data of the node have a primitive that writes pairs, to
evaluate a node that defines nothing leaves all frames and pairs as they are, and to evaluate it
again comes to the same, be it a value or a fault, but for the numbers of pairs, closures and
frames that are new. -/
theorem evaluation_repeats (budget : Budget) {store : Store} {node : Object} {frame : FrameId}
    (whole : store.Whole Operation.SparesPairs) (known : store.KnowsNode Operation.SparesPairs node)
    (inside : frame < store.frames.size) (nothing : node.DefinesNothing) :
    Repeats budget node frame store ((evaluate budget node frame).storeAfter store) := by
  have accrues : Accrues store ((evaluate budget node frame).storeAfter store) :=
    (evaluate_whole budget whole known inside).2
  have confined := evaluate_secluded budget nothing frame store
  have twin := Renaming.past_twin whole accrues confined
  refine ⟨fun id old => confined.frame id old not_false, fun _ => accrues.cell_eq, ?_⟩
  have steady : (Renaming.past store ((evaluate budget node frame).storeAfter store)).Steady
      store node := by
    refine ⟨fun value carried => (known value carried).widen fun _ _ => trivial, ?_⟩
    exact fun value carried => Renaming.past_object (known value carried)
  have ends := Renaming.evaluate_ends budget twin (whole.widen fun _ _ => trivial) steady inside
  rwa [show (Renaming.past store _).frames.of frame = frame from Shift.of_lt inside] at ends

/-- A binding whose body defines a name as a new pair, and comes to a function that holds it. -/
def pairHeld : Object :=
  .formOf [.refer "let", .formOf [.formOf [.refer "x", .literal none (.integer 1)]],
    .formOf [.refer "define", .refer "y", .formOf [.refer "cons", .refer "x", .refer "p"]],
    .formOf [.refer "lambda", .formOf [], .refer "y"]]

theorem pairHeld_repeats :
    Repeats ⟨5, 1⟩ pairHeld 0 .paired ((evaluate ⟨5, 1⟩ pairHeld 0).storeAfter .paired) ∧
      ∃ after after', evaluate ⟨5, 1⟩ pairHeld 0 .paired = .ok (.closure 0) after ∧
        evaluate ⟨5, 1⟩ pairHeld 0 after = .ok (.closure 1) after' := by
  have known : Store.paired.KnowsNode Operation.SparesPairs pairHeld := by
    simp [pairHeld, Object.formOf, Object.refer, Store.Knows]
  have nothing : pairHeld.DefinesNothing := by
    have asked : SpecialForm.ofHead? (.refer "let") = some .binding := rfl
    refine .special asked (by decide) fun part member => ?_
    obtain rfl : part = .literal none (.integer 1) := List.mem_singleton.mp member
    exact .plain rfl
  exact ⟨evaluation_repeats ⟨5, 1⟩ Store.paired_whole known (by decide) nothing,
    _, _, rfl, rfl⟩

end LispCore
