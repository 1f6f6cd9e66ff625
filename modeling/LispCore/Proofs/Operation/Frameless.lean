import LispCore.Application
import LispCore.Node
import LispCore.Proofs.Chains
import LispCore.Proofs.Operation

namespace LispCore

namespace Store

variable (store : Store) (frames : Array Frame)

def withFrames : Store :=
  { store with frames := frames }

theorem follow_withFrames (steps : Nat) (object : Object) :
    (store.withFrames frames).follow steps object = store.follow steps object := by
  induction steps generalizing object with
  | zero => cases object <;> rfl
  | succ steps ih =>
      cases object with
      | pair id => simp only [follow, ih]; rfl
      | _ => rfl

theorem listItems?_withFrames (object : Object) :
    (store.withFrames frames).listItems? object = store.listItems? object := by
  unfold listItems? chain
  rw [follow_withFrames]
  rfl

-- comparing and writing recurse on measures of the store; their definitions do not mention
-- the frames, so both sides are the same term once they are unfolded
theorem same_withFrames (a b : Object) :
    (store.withFrames frames).same a b = store.same a b := by
  with_unfolding_all rfl

theorem equal_withFrames (a b : Object) :
    (store.withFrames frames).equal a b = store.equal a b := by
  with_unfolding_all rfl

theorem written_withFrames (object : Object) (readable : Bool) :
    (store.withFrames frames).written object readable = store.written object readable := by
  with_unfolding_all rfl

theorem ofItems_withFrames (items : List Object) (tail : Object) :
    (store.withFrames frames).ofItems items tail =
      ((store.ofItems items tail).1, (store.ofItems items tail).2.withFrames frames) := by
  induction items with
  | nil => rfl
  | cons item items ih =>
      simp only [ofItems, List.foldr_cons] at ih ⊢
      rw [ih]
      rfl

end Store

theorem Question.answer_withFrames (store : Store) (frames : Array Frame) (question : Question)
    (object : Object) :
    question.answer (store.withFrames frames) object = question.answer store object := by
  cases question with
  | isList =>
      change Option.isSome _ = Option.isSome _
      rw [store.listItems?_withFrames]
  | _ => rfl

namespace Eval

variable {α β : Type}

/-- The same result with other frames in the store. -/
def withFrames (frames : Array Frame) :
    EStateM.Result Interrupt Store α → EStateM.Result Interrupt Store α
  | .ok value after => .ok value (after.withFrames frames)
  | .error interrupt after => .error interrupt (after.withFrames frames)

/-- The run neither sees nor changes frames, makes no closure, and is not cut short. -/
structure Frameless (run : Eval α) : Prop where
  blind : ∀ store frames, run (store.withFrames frames) = withFrames frames (run store)
  closures : ∀ store, (run.storeAfter store).closures = store.closures
  finishes : ∀ store, run.Finishes store

namespace Frameless

theorem frames {run : Eval α} (frameless : Frameless run) (store : Store) :
    (run.storeAfter store).frames = store.frames := by
  have same : run store = withFrames store.frames (run store) := frameless.blind store store.frames
  rw [storeAfter, same]
  cases run store <;> rfl

theorem pure (value : α) : Frameless (Pure.pure value) :=
  ⟨fun _ _ => rfl, fun _ => rfl, fun _ => trivial⟩

theorem raise (fault : Fault) : Frameless (LispCore.raise fault : Eval α) :=
  ⟨fun _ _ => rfl, fun _ => rfl, fun _ => rfl⟩

theorem ofExcept (outcome : Except Fault α) : Frameless (Eval.ofExcept outcome) := by
  cases outcome with
  | ok value => exact pure value
  | error fault => exact raise fault

theorem bind {run : Eval α} {next : α → Eval β} (first : Frameless run)
    (rest : ∀ value, Frameless (next value)) : Frameless (run >>= next) where
  blind store frames := by
    rw [bind_apply, bind_apply, first.blind]
    cases run store with
    | ok value after => exact (rest value).blind after frames
    | error interrupt after => rfl
  closures store := by
    have before := first.closures store
    unfold storeAfter at before ⊢
    rw [bind_apply]
    cases outcome : run store with
    | ok value after =>
        rw [outcome] at before
        exact ((rest value).closures after).trans before
    | error interrupt after =>
        rw [outcome] at before
        exact before
  finishes store := by
    have before := first.finishes store
    unfold Finishes at before ⊢
    rw [bind_apply]
    cases outcome : run store with
    | ok value after => exact (rest value).finishes after
    | error interrupt after => simpa only [outcome] using before

theorem map (change : α → β) {run : Eval α} (first : Frameless run) :
    Frameless (change <$> run) := by
  rw [map_eq_pure_bind]
  exact first.bind fun value => pure (change value)

theorem create {change : Store → α × Store}
    (blind : ∀ store frames, change (store.withFrames frames) =
      ((change store).1, (change store).2.withFrames frames))
    (closures : ∀ store, (change store).2.closures = store.closures) :
    Frameless (Eval.create change) := by
  refine ⟨fun store frames => ?_, closures, fun _ => trivial⟩
  change (match change (store.withFrames frames) with
    | (value, after) => EStateM.Result.ok value after) = _
  rw [blind]
  rfl

theorem changes {change : Store → Store}
    (blind : ∀ store frames, change (store.withFrames frames) =
      (change store).withFrames frames)
    (closures : ∀ store, (change store).closures = store.closures) :
    Frameless (modify change) := by
  refine create (fun store frames => ?_) closures
  rw [blind]

theorem reads {next : Store → Eval α}
    (blind : ∀ store frames, next (store.withFrames frames) = next store)
    (rest : ∀ store, Frameless (next store)) : Frameless (get >>= next) where
  blind store frames := by
    change next (store.withFrames frames) (store.withFrames frames) =
      withFrames frames (next store store)
    rw [blind]
    exact (rest store).blind store frames
  closures store := (rest store).closures store
  finishes store := (rest store).finishes store

theorem decides {test : Store → Bool}
    (blind : ∀ store frames, test (store.withFrames frames) = test store) :
    Frameless (do let store ← get; Pure.pure (Object.boolean (test store))) :=
  reads (fun store frames => by rw [blind]) fun _ => pure _

end Frameless

end Eval

open Eval (Frameless)

theorem newList_frameless (items : List Object) : Frameless (newList items) :=
  .create (fun store frames => store.ofItems_withFrames frames items .nil)
    fun store => (store.ofItems_frames items .nil).2

theorem itemsOr_frameless (fault : Fault) (object : Object) :
    Frameless (itemsOr fault object) := by
  constructor
  · intro store frames
    rw [itemsOr_apply, itemsOr_apply, store.listItems?_withFrames]
    cases store.listItems? object <;> rfl
  · intro store
    rw [Eval.storeAfter, itemsOr_apply]
    cases store.listItems? object <;> rfl
  · intro store
    rw [Eval.Finishes, itemsOr_apply]
    cases store.listItems? object <;> trivial

mutual

theorem quoted_frameless : ∀ node : Object, Frameless node.quoted
  | .literal label value => by
      simp only [Object.quoted]
      by_cases proper : value.isValue
      · simpa only [if_pos proper] using .pure value
      · simpa only [if_neg proper] using .raise _
  | .reference label name => by
      simpa only [Object.quoted] using .pure name
  | .form label shape elements => by
      simp only [Object.quoted]
      exact (quotedAll_frameless elements).bind newList_frameless
  | .nil | .boolean _ | .integer _ | .float _ | .symbol _ | .string _ | .pair _ | .closure _
  | .primitive _ | .alien _ | .sequence _ _ _ => by
      simpa only [Object.quoted] using .raise _

theorem quotedAll_frameless : ∀ nodes : List Object, Frameless (Object.quotedAll nodes)
  | [] => by
      simpa only [Object.quotedAll] using .pure []
  | node :: nodes => by
      simp only [Object.quotedAll]
      refine (quoted_frameless node).bind fun value => ?_
      exact (quotedAll_frameless nodes).bind fun values => .pure _

end

namespace Operation

theorem setPart_frameless (operation : Operation) (side : Side) (pair value : Object) :
    Frameless (do
      let id ← Eval.ofExcept (operation.pairOperand pair)
      modify fun store => store.setPart id side value
      pure Object.nil) := by
  refine (Frameless.ofExcept _).bind fun id => ?_
  have sets : Frameless (modify fun store => store.setPart id side value) :=
    .changes (fun _ _ => rfl) fun _ => rfl
  exact sets.bind fun _ => .pure Object.nil

theorem runOnStore_frameless (operation : Operation) (operands : List Object) :
    Frameless (operation.runOnStore operands) := by
  cases operation with
  | same =>
      match operands with
      | a :: b :: _ =>
          exact .decides fun store frames => store.same_withFrames frames a b
      | [] | [_] => exact .raise _
  | equal =>
      match operands with
      | a :: b :: _ =>
          exact .decides fun store frames => store.equal_withFrames frames a b
      | [] | [_] => exact .raise _
  | cons =>
      match operands with
      | a :: b :: _ =>
          have joins : Frameless (Eval.create fun store => store.cons a b) :=
            .create (fun _ _ => rfl) fun _ => rfl
          exact joins.map Object.pair
      | [] | [_] => exact .raise _
  | head =>
      match operands with
      | pair :: _ =>
          exact .reads (fun _ _ => rfl) fun store =>
            (Frameless.ofExcept _).bind fun id => .pure (store.cell id).head
      | [] => exact .raise _
  | tail =>
      match operands with
      | pair :: _ =>
          exact .reads (fun _ _ => rfl) fun store =>
            (Frameless.ofExcept _).bind fun id => .pure (store.cell id).tail
      | [] => exact .raise _
  | list => exact newList_frameless operands
  | length =>
      match operands with
      | object :: _ => exact (itemsOr_frameless _ object).bind fun items => .pure _
      | [] => exact .raise _
  | setHead =>
      match operands with
      | pair :: value :: _ => exact setPart_frameless _ .head pair value
      | [] | [_] => exact .raise _
  | setTail =>
      match operands with
      | pair :: value :: _ => exact setPart_frameless _ .tail pair value
      | [] | [_] => exact .raise _
  | ask question =>
      match operands with
      | a :: _ =>
          exact .decides fun store frames => question.answer_withFrames store frames a
      | [] => exact .raise _
  | record =>
      match operands with
      | object :: _ =>
          have notes : Frameless (modify fun store => store.note (store.written object true)) := by
            refine .changes (fun store frames => ?_) fun _ => rfl
            rw [store.written_withFrames]
            rfl
          exact notes.bind fun _ => .pure object
      | [] => exact .raise _
  | _ => exact .raise _

theorem run_frameless (operation : Operation) (operands : List Object) :
    Frameless (operation.run operands) := by
  unfold run
  cases operation.arithmetic? operands with
  | some outcome => exact .ofExcept outcome
  | none => exact operation.runOnStore_frameless operands

end Operation

theorem Primitive.call_frameless (primitive : Primitive) (operands : List Object) :
    Frameless (primitive.call operands) :=
  (Frameless.ofExcept _).bind fun _ => primitive.operation.run_frameless operands

end LispCore
