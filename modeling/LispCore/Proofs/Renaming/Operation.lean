import LispCore.Proofs.Operation.Faults
import LispCore.Proofs.Renaming

namespace LispCore

open Store (Twin)

namespace Renaming

/-- Results that are the same but for the numbers of entries. -/
inductive Ends (ρ : Renaming) {α : Type} (rename : α → α) :
    EStateM.Result Interrupt Store α → EStateM.Result Interrupt Store α → Prop
  | value {value : α} {after after' : Store} (twin : Twin ρ after after') :
      Ends ρ rename (.ok value after) (.ok (rename value) after')
  | interrupt {interrupt : Interrupt} {after after' : Store} (twin : Twin ρ after after') :
      Ends ρ rename (.error interrupt after) (.error (ρ.interrupt interrupt) after')

variable {ρ : Renaming} {α β : Type} {first second : Store}

theorem Ends.bind {rename : α → α} {rename' : β → β} {run run' : Eval α}
    {next next' : α → Eval β} (ends : ρ.Ends rename (run first) (run' second))
    (rest : ∀ {value after after'}, Twin ρ after after' →
      ρ.Ends rename' (next value after) (next' (rename value) after')) :
    ρ.Ends rename' ((run >>= next) first) ((run' >>= next') second) := by
  rw [Eval.bind_apply, Eval.bind_apply]
  generalize run first = result at ends
  generalize run' second = result' at ends
  cases ends with
  | value twin => exact rest twin
  | interrupt twin => exact .interrupt twin

/-- A value of which nothing is renamed comes out of both. -/
theorem Ends.of_fixed {rename : α → α} {value : α} (twin : Twin ρ first second)
    (fixed : rename value = value) : ρ.Ends rename (.ok value first) (.ok value second) := by
  have ends : ρ.Ends rename (.ok value first) (.ok (rename value) second) := .value twin
  rwa [fixed] at ends

theorem newList_ends (twin : Twin ρ first second) (items : List Object) :
    ρ.Ends ρ.object (newList items first) (newList (items.map ρ.object) second) := by
  obtain ⟨after, chain⟩ := twin.ofItems items .nil
  change ρ.Ends ρ.object (.ok (first.ofItems items .nil).1 (first.ofItems items .nil).2)
    (.ok (second.ofItems (items.map ρ.object) (ρ.object .nil)).1
      (second.ofItems (items.map ρ.object) (ρ.object .nil)).2)
  rw [chain]
  exact .value after

theorem Fixes.literal {label : Option Label} {value : Object}
    (fixed : ρ.Fixes (.literal label value)) : ρ.object value = value :=
  fixed value .literal

theorem Fixes.name {label : Option Label} {name : Object}
    (fixed : ρ.Fixes (.reference label name)) : ρ.object name = name :=
  fixed name .name

theorem Fixes.element {label : Option Label} {shape : FormShape} {elements : List Object}
    (fixed : ρ.Fixes (.form label shape elements)) : ∀ element ∈ elements, ρ.Fixes element :=
  fun _ member value carried => fixed value (.element member carried)

mutual

theorem quoted_ends : ∀ {node : Object} {first second : Store}, ρ.Fixes node →
    Twin ρ first second → ρ.Ends ρ.object (node.quoted first) (node.quoted second)
  | .literal label value, _, _, fixed, twin => by
      simp only [Object.quoted]
      by_cases proper : value.isValue
      · rw [if_pos proper]
        exact .of_fixed twin fixed.literal
      · rw [if_neg proper]
        exact .interrupt twin
  | .reference label name, _, _, fixed, twin => by
      simp only [Object.quoted]
      exact .of_fixed twin fixed.name
  | .form label shape elements, _, _, fixed, twin => by
      simp only [Object.quoted]
      exact (quotedAll_ends fixed.element twin).bind fun after => newList_ends after _
  | .nil, _, _, _, twin | .boolean _, _, _, _, twin | .integer _, _, _, _, twin
  | .float _, _, _, _, twin | .symbol _, _, _, _, twin | .string _, _, _, _, twin
  | .pair _, _, _, _, twin | .closure _, _, _, _, twin | .primitive _, _, _, _, twin
  | .alien _, _, _, _, twin | .sequence _ _ _, _, _, _, twin => by
      simp only [Object.quoted]
      exact .interrupt twin

theorem quotedAll_ends : ∀ {nodes : List Object} {first second : Store},
    (∀ node ∈ nodes, ρ.Fixes node) → Twin ρ first second →
      ρ.Ends (List.map ρ.object) (Object.quotedAll nodes first) (Object.quotedAll nodes second)
  | [], _, _, _, twin => by
      simp only [Object.quotedAll]
      exact .of_fixed twin rfl
  | node :: nodes, _, _, fixed, twin => by
      simp only [Object.quotedAll]
      obtain ⟨one, others⟩ := List.forall_mem_cons.mp fixed
      refine (quoted_ends one twin).bind fun after => ?_
      refine (quotedAll_ends others after).bind fun last => ?_
      exact .value last

end

end Renaming

namespace Object

mutual

theorem quoted_silent : ∀ node : Object, node.quoted.Silent
  | .form label shape elements => by
      simp only [quoted]
      exact (quotedAll_silent elements).bind fun items store => store.ofItems_log items .nil
  | .literal label value => by
      simp only [quoted]
      split <;> exact fun _ => rfl
  | .reference _ _ | .nil | .boolean _ | .integer _ | .float _ | .symbol _ | .string _ | .pair _
  | .closure _ | .primitive _ | .alien _ | .sequence _ _ _ => by
      simp only [quoted]
      exact fun _ => rfl

theorem quotedAll_silent : ∀ nodes : List Object, (quotedAll nodes).Silent
  | [] => by
      simp only [quotedAll]
      exact fun _ => rfl
  | node :: nodes => by
      simp only [quotedAll]
      exact (quoted_silent node).bind fun _ => (quotedAll_silent nodes).bind fun _ _ => rfl

end

end Object

/-- Does the fault tell of no value? -/
def Fault.isBare : Fault → Bool
  | .notCallable _ | .wrongKind .. => false
  | _ => true

theorem Renaming.fault_of_isBare (ρ : Renaming) {fault : Fault} (bare : fault.isBare) :
    ρ.fault fault = fault := by
  cases fault with
  | notCallable | wrongKind => contradiction
  | _ => rfl

theorem Fault.isBare_of_isOfNumbers {fault : Fault} (ofNumbers : fault.isOfNumbers) :
    fault.isBare := by
  cases fault with
  | notCallable | wrongKind => contradiction
  | _ => rfl

theorem FailsOnly.renamed {α : Type} {outcome : Except Fault α}
    (fails : FailsOnly Fault.isOfNumbers outcome) (ρ : Renaming) :
    outcome.mapError ρ.fault = outcome := by
  cases outcome with
  | ok value => rfl
  | error fault =>
      have bare := Fault.isBare_of_isOfNumbers (fails fault rfl)
      exact congrArg Except.error (ρ.fault_of_isBare bare)

namespace Operation

variable {ρ : Renaming} {operation : Operation} {operands : List Object}

theorem numbers_renamed (operation : Operation) (operands : List Object) :
    operation.numbers (operands.map ρ.object) =
      (operation.numbers operands).mapError ρ.fault := by
  induction operands with
  | nil => rfl
  | cons operand operands ih =>
      rw [List.map_cons, numbers, numbers, Renaming.number?_object]
      cases Number.ofObject? operand with
      | none => rfl
      | some number =>
          dsimp only
          rw [ih]
          cases operation.numbers operands <;> rfl

theorem integers_renamed (operation : Operation) (operands : List Object) :
    operation.integers (operands.map ρ.object) =
      (operation.integers operands).mapError ρ.fault := by
  induction operands with
  | nil => rfl
  | cons operand operands ih =>
      rw [List.map_cons, integers, integers, Renaming.integer?_object]
      cases operand.integer? with
      | none => rfl
      | some number =>
          dsimp only
          rw [ih]
          cases operation.integers operands <;> rfl

/-- Arithmetic does not see numbers of entries, and tells of them only in the operand that it
refuses. -/
theorem arithmetic?_renamed (operation : Operation) (operands : List Object) :
    operation.arithmetic? (operands.map ρ.object) =
      (operation.arithmetic? operands).map fun outcome => outcome.mapError ρ.fault := by
  cases demanded : operation.demand? with
  | none =>
      rw [arithmetic?_of_demand?_eq_none demanded, arithmetic?_of_demand?_eq_none demanded]
      rfl
  | some demand =>
      obtain ⟨wanted, accepts⟩ := demand
      cases checksFirst demanded with
      | numbers computes fails =>
          rw [computes, computes, numbers_renamed]
          cases operation.numbers operands with
          | error fault => rfl
          | ok numbers => exact congrArg some ((fails numbers).renamed ρ).symm
      | integers computes fails =>
          rw [computes, computes, integers_renamed]
          cases operation.integers operands with
          | error fault => rfl
          | ok integers => exact congrArg some ((fails integers).renamed ρ).symm

theorem pairOperand_ends {first second : Store} (twin : Twin ρ first second)
    {next next' : CellId → Eval Object} {object : Object}
    (pair : ∀ id, ρ.Ends ρ.object (next id first) (next' (ρ.cells.of id) second)) :
    ρ.Ends ρ.object ((Eval.ofExcept (operation.pairOperand object) >>= next) first)
      ((Eval.ofExcept (operation.pairOperand (ρ.object object)) >>= next') second) := by
  cases object with
  | pair id => exact pair id
  | _ => exact .interrupt twin

end Operation

theorem Question.answer_renamed {ρ : Renaming} {first second : Store} (twin : Twin ρ first second)
    (closed : first.Closed) (question : Question) {object : Object} (known : first.Has object) :
    question.answer second (ρ.object object) = question.answer first object := by
  cases question with
  | isList =>
      simp only [Question.answer, Store.isProperList, twin.listItems? closed known]
      cases first.listItems? object <;> rfl
  | _ => cases object <;> rfl

namespace Operation

variable {ρ : Renaming}

theorem runOnStore_ends {first second : Store} (twin : Twin ρ first second)
    (closed : first.Closed) (operation : Operation) {operands : List Object}
    (known : ∀ operand ∈ operands, first.Has operand) :
    ρ.Ends ρ.object (operation.runOnStore operands first)
      (operation.runOnStore (operands.map ρ.object) second) := by
  have decides : ∀ {answer answer'}, answer' = answer →
      ρ.Ends ρ.object (.ok (.boolean answer) first) (.ok (.boolean answer') second) := by
    rintro answer _ rfl
    exact .of_fixed twin rfl
  have finds : ∀ {value value'}, value' = ρ.object value →
      ρ.Ends ρ.object (.ok value first) (.ok value' second) := by
    rintro value _ rfl
    exact .value twin
  have sets : ∀ {after after'}, Twin ρ after after' →
      ρ.Ends ρ.object (.ok .nil after) (.ok .nil after') :=
    fun changed => .of_fixed changed rfl
  cases operation with
  | same =>
      match operands with
      | a :: b :: _ => exact decides (twin.same a b)
      | [] | [_] => exact .interrupt twin
  | equal =>
      match operands with
      | a :: b :: _ => exact decides (twin.equal a b)
      | [] | [_] => exact .interrupt twin
  | cons =>
      match operands with
      | a :: b :: _ =>
          have made : ρ.object (.pair (first.cons a b).1) =
              .pair (second.cons (ρ.object a) (ρ.object b)).1 :=
            congrArg Object.pair twin.cells.of_size
          have ends : ρ.Ends ρ.object (.ok (.pair (first.cons a b).1) (first.cons a b).2)
              (.ok _ (second.cons (ρ.object a) (ρ.object b)).2) := .value (twin.cons a b)
          rw [made] at ends
          exact ends
      | [] | [_] => exact .interrupt twin
  | head =>
      match operands with
      | pair :: _ =>
          exact pairOperand_ends twin fun id => finds (congrArg Cell.head (twin.cell id))
      | [] => exact .interrupt twin
  | tail =>
      match operands with
      | pair :: _ =>
          exact pairOperand_ends twin fun id => finds (congrArg Cell.tail (twin.cell id))
      | [] => exact .interrupt twin
  | list => exact Renaming.newList_ends twin operands
  | length =>
      match operands with
      | object :: _ =>
          change ρ.Ends ρ.object
            ((itemsOr _ object >>= fun items => pure (.integer items.length)) first)
            ((itemsOr _ (ρ.object object) >>= fun items => pure (.integer items.length)) second)
          rw [Eval.bind_apply, Eval.bind_apply, itemsOr_apply, itemsOr_apply,
            twin.listItems? closed (known object (by simp))]
          cases first.listItems? object with
          | none => exact .interrupt twin
          | some items =>
              simp only [Option.map_some, List.length_map]
              exact .of_fixed twin rfl
      | [] => exact .interrupt twin
  | setHead =>
      match operands with
      | pair :: value :: _ =>
          exact pairOperand_ends twin fun id => sets (twin.setPart id .head value)
      | [] | [_] => exact .interrupt twin
  | setTail =>
      match operands with
      | pair :: value :: _ =>
          exact pairOperand_ends twin fun id => sets (twin.setPart id .tail value)
      | [] | [_] => exact .interrupt twin
  | ask question =>
      match operands with
      | object :: _ =>
          exact decides (question.answer_renamed twin closed (known object (by simp)))
      | [] => exact .interrupt twin
  | record =>
      match operands with
      | object :: _ => exact .value (twin.note _ _)
      | [] => exact .interrupt twin
  | _ => exact .interrupt twin

theorem run_ends {first second : Store} (twin : Twin ρ first second) (closed : first.Closed)
    (operation : Operation) {operands : List Object}
    (known : ∀ operand ∈ operands, first.Has operand) :
    ρ.Ends ρ.object (operation.run operands first)
      (operation.run (operands.map ρ.object) second) := by
  unfold run
  rw [arithmetic?_renamed]
  cases computed : operation.arithmetic? operands with
  | none => exact runOnStore_ends twin closed operation known
  | some outcome =>
      cases outcome with
      | error fault => exact .interrupt twin
      | ok value =>
          have fixed : ρ.object value = value := by
            rcases number_or_boolean_of_arithmetic? computed with ⟨number, rfl⟩ | ⟨truth, rfl⟩
            · cases number <;> rfl
            · rfl
          exact .of_fixed twin fixed

end Operation

theorem Primitive.call_ends {ρ : Renaming} {first second : Store} (twin : Twin ρ first second)
    (closed : first.Closed) (primitive : Primitive) {operands : List Object}
    (known : ∀ operand ∈ operands, first.Has operand) :
    ρ.Ends ρ.object (primitive.call operands first)
      (primitive.call (operands.map ρ.object) second) := by
  rw [call_apply, call_apply, List.length_map]
  split
  · exact Operation.run_ends twin closed primitive.operation known
  · exact .interrupt twin

end LispCore
