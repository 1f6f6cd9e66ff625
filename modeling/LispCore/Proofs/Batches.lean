import LispCore.Interpreter
import LispCore.Proofs.Budgets
import LispCore.Proofs.Echoes
import LispCore.Proofs.Quotation.RoundTrip
import Mathlib.Data.List.TFAE
import Mathlib.Tactic.TFAE

namespace LispCore

open Direct (Evaluates)
open Eval (Below ComesTo Final Follows bind_apply bind_ok comesTo_bind comesTo_of_steps
  comesTo_value)

namespace Direct

/-- What nodes come to one after the other, if there is a value at hand for none of them. -/
abbrev Sequences (value : Object) (nodes : List Object) (frame : FrameId) :
    Store → EStateM.Result Interrupt Store Object → Prop :=
  ComesTo fun depth => sequence (evaluateDirectly depth) frame value nodes

variable {frame : FrameId} {value other node : Object} {nodes first second operands : List Object}
  {before : Store} {result : EStateM.Result Interrupt Store Object} {asked : SpecialForm}

theorem step_over (formed : asked.Over operands node) (depth : Nat) :
    evaluateDirectly (depth + 1) node frame =
      special (evaluateDirectly depth) frame asked operands := by
  obtain ⟨sequence⟩ := formed
  rename_i shape
  cases shape with
  | text => contradiction
  | tuple | list =>
      change Direct.form (evaluateDirectly depth) frame (_ :: operands) = _
      simp only [Direct.form, asked.ofHead?_keyword]

theorem evaluates_begin (formed : SpecialForm.begin.Over nodes node) :
    Evaluates node frame before result ↔ Sequences .nil nodes frame before result :=
  comesTo_of_steps (evaluate_rises node frame) fun depth => congrFun (step_over formed depth) before

theorem sequence_append (eval : Object → FrameId → Eval Object) :
    sequence eval frame value (first ++ second) =
      sequence eval frame value first >>= fun value => sequence eval frame value second := by
  induction first generalizing value with
  | nil => simp only [List.nil_append, sequence, pure_bind]
  | cons node first ih => simp only [List.cons_append, sequence, ih, bind_assoc]

theorem sequences_nil : Sequences value [] frame before result ↔ result = .ok value before :=
  comesTo_value (.constant _) fun _ => rfl

theorem sequences_cons :
    Sequences value (node :: nodes) frame before result ↔
      Follows (Evaluates node frame before)
        (fun value between => Sequences value nodes frame between) result :=
  comesTo_bind (evaluate_rises node frame) fun value => sequence_rises value nodes

theorem sequences_append :
    Sequences value (first ++ second) frame before result ↔
      Follows (Sequences value first frame before)
        (fun value between => Sequences value second frame between) result := by
  simp only [Sequences, sequence_append]
  exact comesTo_bind (sequence_rises value first) fun value => sequence_rises value second

theorem sequences_of_ne_nil (nonempty : nodes ≠ []) :
    Sequences value nodes frame before result ↔ Sequences other nodes frame before result := by
  obtain ⟨node, nodes, rfl⟩ := List.exists_cons_of_ne_nil nonempty
  rw [sequences_cons, sequences_cons]

/-- Some of the nodes may be put in sequence by themselves. -/
theorem sequences_nested {front run back : List Object} (nonempty : run ≠ [])
    (inner : SpecialForm.begin.Over run node) :
    Sequences value (front ++ run ++ back) frame before result ↔
      Sequences value (front ++ node :: back) frame before result := by
  rw [List.append_assoc, sequences_append, sequences_append]
  refine Follows.congr fun value between _ => ?_
  have begins : Sequences value run frame between = Evaluates node frame between :=
    funext fun result =>
      propext ((sequences_of_ne_nil nonempty).trans (evaluates_begin inner).symm)
  rw [sequences_append, sequences_cons, begins]

theorem evaluates_nested {front run back : List Object} {whole inner nested : Object}
    (nonempty : run ≠ []) (overWhole : SpecialForm.begin.Over (front ++ run ++ back) whole)
    (overRun : SpecialForm.begin.Over run inner)
    (overNested : SpecialForm.begin.Over (front ++ inner :: back) nested) :
    Evaluates whole frame before result ↔ Evaluates nested frame before result := by
  rw [evaluates_begin overWhole, evaluates_begin overNested]
  exact sequences_nested nonempty overRun

end Direct

namespace Budget

variable {budget : Budget} {node : Object} {frame : FrameId} {before : Store}
  {result : EStateM.Result Interrupt Store Object}

theorem guard_of_final {α : Type} {run : Eval α} (final : Final (run before)) :
    budget.guard run before = run before := by
  unfold guard
  cases outcome : run before with
  | ok value after => rfl
  | error interrupt after =>
      rw [outcome] at final
      cases interrupt with
      | fault fault => rfl
      | depth | patience => contradiction

theorem evaluates_of_evaluate (conclusive : Conclusive (evaluate budget node frame before)) :
    Evaluates node frame before (evaluate budget node frame before) := by
  obtain ⟨finishes, plain⟩ := guard_of_conclusive conclusive
  have costs : budget.engine.Costs _ := Engine.ofDepth_costs budget.patience budget.limit
  have below : Below (budget.engine.complete node frame) (evaluateDirectly _ node frame) :=
    costs (costs.settle budget.patience) (Nat.le_refl _) .tail node frame
  have same : evaluate budget node frame before = evaluateDirectly _ node frame before :=
    (plain budget).trans (below before finishes).symm
  exact same ▸ ⟨below.finishes finishes, _, rfl⟩

theorem evaluate_of_evaluates (comes : Evaluates node frame before result) :
    ∃ least, ∀ budget : Budget, least ≤ budget.limit → least ≤ budget.patience →
      evaluate budget node frame before = result := by
  obtain ⟨final, depth, ends⟩ := comes
  refine ⟨depth, fun budget deep patient => ?_⟩
  have below : Below (evaluateDirectly depth node frame) (budget.engine.complete node frame) :=
    direct_below_settled patient deep deep patient .tail node frame
  subst ends
  have same := below before final
  exact (guard_of_final (same ▸ final)).trans same

/-- Within some budget a node comes to just what it comes to in direct evaluation. -/
theorem exists_evaluate_iff (conclusive : Conclusive result) :
    (∃ budget, evaluate budget node frame before = result) ↔
      Evaluates node frame before result := by
  constructor
  · intro ⟨budget, ends⟩
    subst ends
    exact evaluates_of_evaluate conclusive
  · intro comes
    obtain ⟨least, ends⟩ := evaluate_of_evaluates comes
    exact ⟨⟨least, least⟩, ends _ (Nat.le_refl _) (Nat.le_refl _)⟩

end Budget

namespace Interpreter

/-- Nodes are evaluated one after the other, each within some budget: up to the last, for its
value, or up to the first that fails. -/
inductive InTurn (frame : FrameId) :
    Object → List Object → Store → EStateM.Result Interrupt Store Object → Prop
  | done {value : Object} {before : Store} : InTurn frame value [] before (.ok value before)
  | next {budget : Budget} {value found node : Object} {nodes : List Object}
      {before between : Store} {result : EStateM.Result Interrupt Store Object}
      (ends : evaluate budget node frame before = .ok found between)
      (goesOn : InTurn frame found nodes between result) :
      InTurn frame value (node :: nodes) before result
  | fails {budget : Budget} {value node : Object} {nodes : List Object} {fault : Fault}
      {before after : Store}
      (ends : evaluate budget node frame before = .error (.fault fault) after) :
      InTurn frame value (node :: nodes) before (.error (.fault fault) after)

variable {budget : Budget} {frame root : FrameId} {value : Object} {sources nodes : List Object}
  {before : Store} {result : EStateM.Result Interrupt Store Object}

theorem inTurn_iff (conclusive : Conclusive result) :
    InTurn frame value nodes before result ↔
      Direct.Sequences value nodes frame before result := by
  induction nodes generalizing value before with
  | nil =>
      rw [Direct.sequences_nil]
      constructor
      · intro turns
        cases turns
        rfl
      · intro same
        exact same ▸ .done
  | cons node nodes ih =>
      rw [Direct.sequences_cons]
      constructor
      · intro turns
        cases turns with
        | next ends goesOn =>
            exact .value ((Budget.exists_evaluate_iff (by trivial)).mp ⟨_, ends⟩) (ih.mp goesOn)
        | fails ends => exact .fault ((Budget.exists_evaluate_iff conclusive).mp ⟨_, ends⟩)
      · intro follows
        cases follows with
        | value comes goesOn =>
            obtain ⟨budget, ends⟩ := (Budget.exists_evaluate_iff (by trivial)).mpr comes
            exact .next ends (ih.mpr goesOn)
        | fault comes =>
            obtain ⟨budget, ends⟩ := (Budget.exists_evaluate_iff conclusive).mpr comes
            exact .fails ends

theorem inTurn_of_sequence
    (conclusive : Conclusive (Direct.sequence (evaluate budget) frame value nodes before)) :
    InTurn frame value nodes before
      (Direct.sequence (evaluate budget) frame value nodes before) := by
  induction nodes generalizing value before with
  | nil => exact .done
  | cons node nodes ih =>
      simp only [Direct.sequence, bind_apply] at conclusive ⊢
      cases ends : evaluate budget node frame before with
      | ok found between =>
          simp only [ends] at conclusive ⊢
          exact .next ends (ih conclusive)
      | error interrupt after =>
          simp only [ends] at conclusive ⊢
          cases interrupt with
          | fault fault => exact .fails ends
          | depth | patience => contradiction

theorem sequence_of_sequences (comes : Direct.Sequences value nodes frame before result) :
    ∃ least, ∀ budget : Budget, least ≤ budget.limit → least ≤ budget.patience →
      Direct.sequence (evaluate budget) frame value nodes before = result := by
  induction nodes generalizing value before with
  | nil => exact ⟨0, fun _ _ _ => (Direct.sequences_nil.mp comes).symm⟩
  | cons node nodes ih =>
      cases Direct.sequences_cons.mp comes with
      | value first rest =>
          obtain ⟨least, ends⟩ := Budget.evaluate_of_evaluates first
          obtain ⟨least', goesOn⟩ := ih rest
          refine ⟨max least least', fun budget deep patient => ?_⟩
          have ended := ends budget (by omega) (by omega)
          exact (bind_ok ended _).trans (goesOn budget (by omega) (by omega))
      | fault first =>
          obtain ⟨least, ends⟩ := Budget.evaluate_of_evaluates first
          refine ⟨least, fun budget deep patient => ?_⟩
          rw [Direct.sequence, bind_apply, ends budget deep patient]

theorem evaluateSource_eq {store : Store} {source node : Object}
    (made : source.toNode store = .ok node) :
    evaluateSource budget root source = evaluate budget node root := by
  funext before
  change (Eval.ofExcept (source.toNode before) >>= fun node => evaluate budget node root) before = _
  rw [Object.toNode_ok_congr made before]
  rfl

theorem evaluateFrom_eq {store : Store}
    (converts : List.Forall₂ (fun source node => source.toNode store = .ok node) sources nodes) :
    evaluateFrom budget root value sources =
      Direct.sequence (evaluate budget) root value nodes := by
  induction converts generalizing value with
  | nil => rfl
  | cons made _ ih => simp only [evaluateFrom, evaluateSource_eq made, Direct.sequence, ih]

/-- The keyword before data for nodes is data for the form over the nodes. -/
theorem exists_begin {store : Store} (label : Option Label) (kind : SequenceKind)
    (converts : List.Forall₂ (fun source node => source.toNode store = .ok node) sources nodes) :
    ∃ node,
      (Object.sequence label kind (.symbol beginKeyword :: sources)).toNode store = .ok node ∧
      SpecialForm.begin.Over nodes node := by
  have all := Object.toNodes_ok_iff.mpr (.cons (a := .symbol beginKeyword) rfl converts)
  refine ⟨.form none .tuple (.reference none (.symbol beginKeyword) :: nodes), ?_, ?_⟩
  · rw [Object.toNode, all]
    rfl
  · exact .form (by decide)

end Interpreter

open Interpreter (InTurn evaluateAll evaluateSource)

/-- Source that converts comes to the same as a batch and in one `begin`, with the same store and
record, budgets aside: to the value of the last piece, to nil if there is none, or to the fault of
the first that fails. The form over it is the source after the keyword. And it makes no difference
where some nodes of a `begin`, one at least, are in a `begin` of their own. -/
theorem batch_is_begin (root : FrameId) (sources nodes : List Object) (before : Store)
    (converts : List.Forall₂ (fun source node => source.toNode before = .ok node) sources nodes) :
    (∀ label kind, ∃ whole,
      (Object.sequence label kind (.symbol beginKeyword :: sources)).toNode before = .ok whole ∧
        SpecialForm.begin.Over nodes whole) ∧
    (∀ source whole, source.toNode before = .ok whole → SpecialForm.begin.Over nodes whole →
      ∀ result, Conclusive result → List.TFAE [
        ∃ budget, evaluateAll budget root sources before = result,
        ∃ budget, evaluateSource budget root source before = result,
        ∃ least, ∀ budget : Budget, least ≤ budget.limit → least ≤ budget.patience →
          evaluateAll budget root sources before = result ∧
            evaluateSource budget root source before = result,
        InTurn root .nil nodes before result]) ∧
    ∀ front run back whole inner nested, run ≠ [] →
      SpecialForm.begin.Over (front ++ run ++ back) whole → SpecialForm.begin.Over run inner →
      SpecialForm.begin.Over (front ++ inner :: back) nested →
        ∀ way way' frame before outcome, Way.ComesTo way whole frame before outcome ↔
          Way.ComesTo way' nested frame before outcome := by
  refine ⟨fun label kind => Interpreter.exists_begin label kind converts, ?_, ?_⟩
  · intro source whole made formed result conclusive
    have inSequence : ∀ budget, evaluateAll budget root sources =
        Direct.sequence (evaluate budget) root .nil nodes :=
      fun _ => Interpreter.evaluateFrom_eq converts
    have inOne : ∀ budget, evaluateSource budget root source = evaluate budget whole root :=
      fun _ => Interpreter.evaluateSource_eq made
    simp only [inSequence, inOne]
    tfae_have 1 → 4 := by
      intro ⟨budget, ends⟩
      subst ends
      exact Interpreter.inTurn_of_sequence conclusive
    tfae_have 4 ↔ 2 := by
      rw [Budget.exists_evaluate_iff conclusive, Direct.evaluates_begin formed]
      exact Interpreter.inTurn_iff conclusive
    tfae_have 4 → 3 := by
      intro turns
      have comes := (Interpreter.inTurn_iff conclusive).mp turns
      obtain ⟨least, all⟩ := Interpreter.sequence_of_sequences comes
      obtain ⟨least', one⟩ :=
        Budget.evaluate_of_evaluates ((Direct.evaluates_begin formed).mpr comes)
      refine ⟨max least least', fun budget deep patient => ⟨?_, ?_⟩⟩
      · exact all budget (by omega) (by omega)
      · exact one budget (by omega) (by omega)
    tfae_have 3 → 1 := by
      intro ⟨least, ends⟩
      exact ⟨⟨least, least⟩, (ends _ (Nat.le_refl _) (Nat.le_refl _)).1⟩
    tfae_finish
  · intro front run back whole inner nested nonempty overWhole overRun overNested way way' frame
      before outcome
    simp only [Way.comesTo_iff, Direct.evaluates_nested nonempty overWhole overRun overNested]

open Object (formOf refer)

/-- Data for a definition of `x`, and for `x`. -/
def defineThenRead : List Object :=
  [.sequence none .list [.symbol ⟨"define"⟩, .symbol ⟨"x"⟩, .integer 1], .symbol ⟨"x"⟩]

def defineOne : Object :=
  formOf [refer "define", refer "x", .literal none (.integer 1)]

theorem defineThenRead_batched :
    let before := Store.empty.rootFrame.2
    let after := before.define 0 ⟨"x"⟩ (.integer 1)
    (∃ least, ∀ budget : Budget, least ≤ budget.limit → least ≤ budget.patience →
      evaluateAll budget 0 defineThenRead before = .ok (.integer 1) after ∧
        evaluateSource budget 0 (.sequence none .list (.symbol beginKeyword :: defineThenRead))
          before = .ok (.integer 1) after) ∧
    ∀ outcome, Way.deferred.ComesTo (formOf [refer "begin", defineOne, refer "x"]) 0 before
        outcome ↔
      Way.inPlace.ComesTo
        (formOf [refer "begin", formOf [refer "begin", defineOne], refer "x"]) 0 before
        outcome := by
  intro before after
  obtain ⟨written, agree, nesting⟩ := batch_is_begin 0 defineThenRead [defineOne, refer "x"]
    before (.cons rfl (.cons rfl .nil))
  obtain ⟨whole, made, formed⟩ := written none .list
  have agreed := agree _ whole made formed (.ok (.integer 1) after) trivial
  have evaluated : ∃ budget, evaluateAll budget 0 defineThenRead before =
      .ok (.integer 1) after := ⟨⟨2, 1⟩, rfl⟩
  refine ⟨(agreed.out 0 2).mp evaluated, ?_⟩
  exact nesting [] [defineOne] [refer "x"] _ _ _ (by simp) (.form (by decide))
    (.form (by decide)) (.form (by decide)) .deferred .inPlace 0 before

end LispCore
