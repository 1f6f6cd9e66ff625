import LispCore.Proofs.Coupling
import LispCore.Proofs.Forms

namespace LispCore

theorem Engine.apply_of_not_procedure (engine : Engine) (position : Position) {callee : Object}
    (operands : List Object) (plain : callee.isProcedure = false) :
    engine.apply position callee operands = raise (.notCallable callee) := by
  cases callee with
  | closure | primitive => contradiction
  | _ => rfl

namespace Coupling

structure Aligned (K : Coupling) (engine engine' : Engine) : Prop where
  answer : ∀ {stage node frame frame'} position, K.Task stage node frame frame' →
    K.Coupled stage K.Answer (engine.answer position node frame)
      (engine'.answer position node frame')
  patience : engine.patience = engine'.patience ∨
    K.Excused .patience ∧ engine.patience ≤ engine'.patience

namespace Lawful

variable {K : Coupling} {stage later : K.Stage} {engine engine' : Engine} {position : Position}
  {node : Object} {nodes : List Object} {frame frame' : FrameId}

theorem tasks_mono (lawful : K.Lawful) (grown : K.Later stage later)
    (tasks : K.Tasks stage nodes frame frame') : K.Tasks later nodes frame frame' :=
  fun node member => lawful.task_mono grown (tasks node member)

theorem entries_mono (lawful : K.Lawful) (grown : K.Later stage later)
    {entries entries' : List (Symbol × Object)} (known : K.Entries stage entries entries') :
    K.Entries later entries entries' :=
  List.Forall₂.imp (fun _ _ entry => ⟨entry.1, lawful.value_mono grown entry.2⟩) known

theorem entries_names {entries entries' : List (Symbol × Object)}
    (known : K.Entries stage entries entries') :
    entries.map Prod.fst = entries'.map Prod.fst := by
  induction known with
  | nil => rfl
  | cons entry _ ih => rw [List.map_cons, List.map_cons, entry.1, ih]

theorem entries_zip (names : List Symbol) {values values' : List Object}
    (known : K.Values stage values values') :
    K.Entries stage (names.zip values) (names.zip values') := by
  induction known generalizing names with
  | nil => simp [Entries]
  | cons value _ ih =>
      cases names with
      | nil => exact .nil
      | cons name names => exact .cons ⟨rfl, value⟩ (ih names)

theorem settleWithin (lawful : K.Lawful) (aligned : K.Aligned engine engine') {turns turns' : Nat}
    (enough : turns = turns' ∨ K.Excused .patience ∧ turns ≤ turns')
    {answer answer' : LispCore.Answer} (known : K.Answer stage answer answer') :
    K.Coupled stage K.Value (engine.settleWithin turns answer)
      (engine'.settleWithin turns' answer') := by
  induction turns generalizing turns' stage answer answer' with
  | zero =>
      cases known with
      | value alike =>
          rw [Engine.settleWithin_value, Engine.settleWithin_value]
          exact lawful.done alike
      | pending task =>
          rcases enough with rfl | ⟨excused, _⟩
          · exact lawful.interrupts (lawful.patience stage)
          · exact excuse excused _
  | succ turns ih =>
      cases known with
      | value alike =>
          rw [Engine.settleWithin_value, Engine.settleWithin_value]
          exact lawful.done alike
      | pending task =>
          obtain ⟨turns', rfl⟩ : ∃ fewer, turns' = fewer + 1 := ⟨turns' - 1, by omega⟩
          have still : turns = turns' ∨ K.Excused .patience ∧ turns ≤ turns' :=
            enough.imp Nat.succ.inj fun more => ⟨more.1, Nat.le_of_succ_le_succ more.2⟩
          exact lawful.bind (aligned.answer .tail task) fun _ next => ih still next

theorem settled (lawful : K.Lawful) (aligned : K.Aligned engine engine') (position : Position)
    (task : K.Task stage node frame frame') :
    K.Coupled stage K.Value (engine.answer position node frame >>= engine.settle)
      (engine'.answer position node frame' >>= engine'.settle) :=
  lawful.bind (aligned.answer position task) fun _ answer =>
    lawful.settleWithin aligned aligned.patience answer

theorem operand (lawful : K.Lawful) (aligned : K.Aligned engine engine')
    (task : K.Task stage node frame frame') :
    K.Coupled stage K.Value (engine.operand node frame) (engine'.operand node frame') :=
  lawful.settled aligned .operand task

theorem complete (lawful : K.Lawful) (aligned : K.Aligned engine engine')
    (task : K.Task stage node frame frame') :
    K.Coupled stage K.Value (engine.complete node frame) (engine'.complete node frame') :=
  lawful.settled aligned .tail task

theorem operands (lawful : K.Lawful) (aligned : K.Aligned engine engine')
    (tasks : K.Tasks stage nodes frame frame') :
    K.Coupled stage K.Values (engine.operands frame nodes) (engine'.operands frame' nodes) := by
  induction nodes generalizing stage with
  | nil => exact lawful.done .nil
  | cons node nodes ih =>
      obtain ⟨first, rest⟩ := List.forall_mem_cons.mp tasks
      refine lawful.bind (lawful.operand aligned first) fun grown value => ?_
      refine lawful.bind (ih (lawful.tasks_mono grown rest)) fun more values => ?_
      exact lawful.done (.cons (lawful.value_mono more value) values)

theorem defineAll (lawful : K.Lawful) {entries entries' : List (Symbol × Object)}
    (inner : K.Inner stage frame frame') (known : K.Entries stage entries entries') :
    K.Coupled stage (fun _ _ _ => True) (modify fun store => store.defineAll frame entries)
      (modify fun store => store.defineAll frame' entries') := by
  induction entries generalizing stage entries' with
  | nil =>
      cases known
      exact lawful.done trivial
  | cons entry entries ih =>
      cases known with
      | @cons _ entry' _ entries' first rest =>
          obtain ⟨name, value⟩ := entry
          obtain ⟨name', value'⟩ := entry'
          obtain ⟨rfl, alike⟩ : name = name' ∧ K.Value stage value value' := first
          exact lawful.bind (lawful.define name inner alike) fun grown _ =>
            ih (lawful.inner_mono grown inner) (lawful.entries_mono grown rest)

theorem extend (lawful : K.Lawful) {closure closure' : Closure} {operands operands' : List Object}
    (formals : closure.formals = closure'.formals)
    (outer : K.Outer stage nodes closure.frame closure'.frame)
    (known : K.Values stage operands operands') :
    K.Coupled stage (fun later inner inner' => K.Tasks later nodes inner inner')
      (closure.extend operands) (closure'.extend operands') := by
  have text : closure.text = closure'.text := by
    rw [Closure.text, formals, Closure.text]
  unfold Closure.extend
  rw [text, ← formals, ← known.length_eq]
  by_cases fits : operands.length = closure.formals.length
  · rw [if_pos fits, if_pos fits]
    have entries := entries_zip closure.formals known
    rw [Engine.create_enter, Engine.create_enter, ← formals]
    refine lawful.bind (lawful.child outer) fun grown inner => ?_
    refine lawful.bind (lawful.defineAll inner.1 (lawful.entries_mono grown entries))
      fun more _ => ?_
    exact lawful.done (lawful.tasks_mono more inner.2)
  · rw [if_neg fits, if_neg fits]
    exact lawful.fails rfl

theorem applyClosure (lawful : K.Lawful) (aligned : K.Aligned engine engine')
    {id id' : ClosureId} {operands operands' : List Object}
    (callee : K.Value stage (.closure id) (.closure id'))
    (known : K.Values stage operands operands') :
    K.Coupled stage K.Answer (engine.applyClosure position id operands)
      (engine'.applyClosure position id' operands') := by
  refine reads fun {before before'} stores => ?_
  obtain ⟨formals, body, outer⟩ := lawful.captured stores callee
  refine lawful.bind (lawful.extend formals outer known) fun grown inner => ?_
  have task := inner (before.closure id).body List.mem_cons_self
  rw [← body]
  cases position with
  | tail => exact lawful.done (.pending task)
  | operand => exact lawful.map (lawful.complete aligned task) .value

theorem apply (lawful : K.Lawful) (aligned : K.Aligned engine engine') {callee callee' : Object}
    {operands operands' : List Object} (value : K.Value stage callee callee')
    (known : K.Values stage operands operands') :
    K.Coupled stage K.Answer (engine.apply position callee operands)
      (engine'.apply position callee' operands') := by
  by_cases procedure : callee.isProcedure
  · cases callee with
    | closure id =>
        obtain ⟨id', rfl⟩ := lawful.closure value
        exact lawful.applyClosure aligned value known
    | primitive primitive =>
        obtain rfl := lawful.primitive value
        exact lawful.map (lawful.call primitive known) .value
    | _ => contradiction
  · have plain : callee.isProcedure = false := Bool.eq_false_iff.mpr procedure
    rw [engine.apply_of_not_procedure position operands plain,
      engine'.apply_of_not_procedure position operands' ((lawful.procedure value).symm.trans plain)]
    exact lawful.interrupts (lawful.notCallable value)

theorem answerConditional (lawful : K.Lawful) (aligned : K.Aligned engine engine')
    (tasks : K.Tasks stage nodes frame frame') :
    K.Coupled stage K.Answer (engine.answerConditional position frame nodes)
      (engine'.answerConditional position frame' nodes) := by
  match nodes with
  | [condition, consequent] =>
      have first := tasks condition (by simp)
      refine lawful.bind (lawful.operand aligned first) fun {_ value _} grown alike => ?_
      rw [← lawful.truthy alike]
      by_cases true : value.isTruthy
      · rw [if_pos true, if_pos true]
        exact aligned.answer position (lawful.task_mono grown (tasks consequent (by simp)))
      · rw [if_neg true, if_neg true]
        exact lawful.done (.value (lawful.nil _))
  | [condition, consequent, alternative] =>
      have first := tasks condition (by simp)
      refine lawful.bind (lawful.operand aligned first) fun {_ value _} grown alike => ?_
      rw [← lawful.truthy alike]
      refine aligned.answer position (lawful.task_mono grown (tasks _ ?_))
      by_cases true : value.isTruthy
      · simp [true]
      · simp [true]
  | [] | [_] | _ :: _ :: _ :: _ :: _ => exact lawful.refuses _ _

theorem answerDefine (lawful : K.Lawful) (aligned : K.Aligned engine engine')
    (tasks : K.Tasks stage (SpecialForm.define.evaluated nodes) frame frame')
    (inner : K.Inner stage frame frame') :
    K.Coupled stage K.Answer (engine.answerDefine frame nodes)
      (engine'.answerDefine frame' nodes) := by
  match nodes with
  | [target, node] =>
      have task := tasks node (by simp [SpecialForm.evaluated])
      simp only [Engine.answerDefine]
      cases target.referenceName? with
      | none => exact lawful.refuses _ _
      | some name =>
          refine lawful.bind (lawful.operand aligned task) fun grown value => ?_
          refine lawful.bind (lawful.define name (lawful.inner_mono grown inner) value)
            fun _ _ => ?_
          exact lawful.done (.value (lawful.nil _))
  | [] | [_] | _ :: _ :: _ :: _ => exact lawful.refuses _ _

theorem parses (lawful : K.Lawful) (formals : Object) :
    K.Coupled stage (fun _ => Eq) (Eval.ofExcept (parseFormals formals))
      (Eval.ofExcept (parseFormals formals)) := by
  refine lawful.tries fun fault fails => ?_
  obtain ⟨node, reason, rfl, _⟩ := parseFormals_error_iff.mp fails
  rfl

theorem answerLambda (lawful : K.Lawful)
    (outer : ∀ formals body, nodes = formals :: body →
      K.Outer stage [bodyNode body] frame frame') :
    K.Coupled stage K.Answer (Engine.answerLambda frame nodes)
      (Engine.answerLambda frame' nodes) := by
  cases nodes with
  | nil => exact lawful.refuses _ _
  | cons formals body =>
      have inside := outer formals body rfl
      refine lawful.bind (lawful.parses formals) fun {_ names _} grown same => ?_
      obtain rfl := same
      refine lawful.bind (lawful.addClosure names (lawful.outer_mono grown inside))
        fun _ made => ?_
      exact lawful.done (.value made)

theorem answerBegin (lawful : K.Lawful) (aligned : K.Aligned engine engine')
    (tasks : K.Tasks stage nodes frame frame') :
    K.Coupled stage K.Answer (engine.answerBegin position frame nodes)
      (engine'.answerBegin position frame' nodes) := by
  induction nodes generalizing stage with
  | nil => exact lawful.done (.value (lawful.nil stage))
  | cons node nodes ih =>
      obtain ⟨first, rest⟩ := List.forall_mem_cons.mp tasks
      cases nodes with
      | nil => exact aligned.answer position first
      | cons next nodes =>
          refine lawful.bind (lawful.operand aligned first) fun grown _ => ?_
          exact ih (lawful.tasks_mono grown rest)

theorem answerConjunction (lawful : K.Lawful) (aligned : K.Aligned engine engine')
    (tasks : K.Tasks stage nodes frame frame') :
    K.Coupled stage K.Answer (engine.answerConjunction position frame nodes)
      (engine'.answerConjunction position frame' nodes) := by
  induction nodes generalizing stage with
  | nil => exact lawful.done (.value (lawful.boolean stage true))
  | cons node nodes ih =>
      obtain ⟨first, rest⟩ := List.forall_mem_cons.mp tasks
      cases nodes with
      | nil => exact aligned.answer position first
      | cons next nodes =>
          refine lawful.bind (lawful.operand aligned first) fun {_ value _} grown alike => ?_
          rw [← lawful.truthy alike]
          by_cases true : value.isTruthy
          · rw [if_pos true, if_pos true]
            exact ih (lawful.tasks_mono grown rest)
          · rw [if_neg true, if_neg true]
            exact lawful.done (.value alike)

theorem answerDisjunction (lawful : K.Lawful) (aligned : K.Aligned engine engine')
    (tasks : K.Tasks stage nodes frame frame') :
    K.Coupled stage K.Answer (engine.answerDisjunction position frame nodes)
      (engine'.answerDisjunction position frame' nodes) := by
  induction nodes generalizing stage with
  | nil => exact lawful.done (.value (lawful.boolean stage false))
  | cons node nodes ih =>
      obtain ⟨first, rest⟩ := List.forall_mem_cons.mp tasks
      cases nodes with
      | nil => exact aligned.answer position first
      | cons next nodes =>
          refine lawful.bind (lawful.operand aligned first) fun {_ value _} grown alike => ?_
          rw [← lawful.truthy alike]
          by_cases true : value.isTruthy
          · rw [if_pos true, if_pos true]
            exact lawful.done (.value alike)
          · rw [if_neg true, if_neg true]
            exact ih (lawful.tasks_mono grown rest)

theorem bindings (lawful : K.Lawful) (aligned : K.Aligned engine engine')
    {done done' : List (Symbol × Object)} (known : K.Entries stage done done')
    (tasks : ∀ binding ∈ nodes, ∀ parts, bindingParts? binding = some parts →
      K.Task stage parts.2 frame frame') :
    K.Coupled stage K.Entries (engine.bindings frame done nodes)
      (engine'.bindings frame' done' nodes) := by
  induction nodes generalizing stage done done' with
  | nil => exact lawful.done known
  | cons binding rest ih =>
      obtain ⟨first, others⟩ := List.forall_mem_cons.mp tasks
      simp only [Engine.bindings]
      cases parts : bindingParts? binding with
      | none => exact lawful.refuses _ _
      | some named =>
          rw [← entries_names known]
          by_cases repeated : named.1 ∈ done.map Prod.fst
          · simp only [if_pos repeated]
            exact lawful.refuses _ _
          · simp only [if_neg repeated]
            refine lawful.bind (lawful.operand aligned (first named parts)) fun grown value => ?_
            have before := lawful.entries_mono grown known
            refine ih (List.rel_append before (.cons ⟨rfl, value⟩ .nil)) ?_
            intro binding member parts split
            exact lawful.task_mono grown (others binding member parts split)

theorem answerBinding (lawful : K.Lawful) (aligned : K.Aligned engine engine')
    (tasks : K.Tasks stage (SpecialForm.binding.evaluated nodes) frame frame')
    (outer : ∀ first body, nodes = first :: body → K.Outer stage body frame frame') :
    K.Coupled stage K.Answer (engine.answerBinding position frame nodes)
      (engine'.answerBinding position frame' nodes) := by
  cases nodes with
  | nil => exact lawful.refuses _ _
  | cons first body =>
      have inside := outer first body rfl
      simp only [Engine.answerBinding]
      cases form : first.formElements? with
      | none => exact lawful.refuses _ _
      | some bindings =>
          have nodes : ∀ binding ∈ bindings, ∀ parts, bindingParts? binding = some parts →
              K.Task stage parts.2 frame frame' := by
            intro binding member parts split
            refine tasks parts.2 (List.mem_filterMap.mpr ⟨binding, ?_, ?_⟩)
            · rw [form]
              exact member
            · rw [split]
              rfl
          refine lawful.bind (lawful.bindings aligned .nil nodes) fun grown entries => ?_
          refine lawful.bind (lawful.child (lawful.outer_mono grown inside)) fun more inner => ?_
          refine lawful.bind (lawful.defineAll inner.1 (lawful.entries_mono more entries))
            fun last _ => ?_
          exact lawful.answerBegin aligned (lawful.tasks_mono last inner.2)

theorem itemsOr (lawful : K.Lawful) {value value' : Object} {fault fault' : Fault}
    (alike : K.Value stage value value')
    (faults : K.Interrupts stage (.fault fault) (.fault fault')) :
    K.Coupled stage K.Values (itemsOr fault value) (itemsOr fault' value') := by
  refine reads fun {before before'} stores => ?_
  have items := lawful.items stores alike
  generalize before.listItems? value = outcome at items ⊢
  generalize before'.listItems? value' = outcome' at items ⊢
  cases items with
  | some known => exact lawful.done known
  | none => exact lawful.interrupts faults

theorem answerApply (lawful : K.Lawful) (aligned : K.Aligned engine engine')
    (tasks : K.Tasks stage nodes frame frame') :
    K.Coupled stage K.Answer (engine.answerApply position frame nodes)
      (engine'.answerApply position frame' nodes) := by
  match nodes with
  | [function, list] =>
      have first := tasks function (by simp)
      have second := tasks list (by simp)
      refine lawful.bind (lawful.operand aligned first) fun grown callee => ?_
      refine lawful.bind (lawful.operand aligned (lawful.task_mono grown second))
        fun more value => ?_
      refine lawful.bind (lawful.itemsOr value (lawful.notList value)) fun last items => ?_
      exact lawful.apply aligned (lawful.value_mono (lawful.trans more last) callee) items
  | [] | [_] | _ :: _ :: _ :: _ => exact lawful.refuses _ _

theorem answerQuote (lawful : K.Lawful)
    (quotes : ∀ node, nodes = [node] → K.Coupled stage K.Value node.quoted node.quoted) :
    K.Coupled stage K.Answer (Engine.answerQuote nodes) (Engine.answerQuote nodes) := by
  match nodes with
  | [node] => exact lawful.map (quotes node rfl) .value
  | [] | _ :: _ :: _ => exact lawful.refuses _ _

theorem answerSpecial (lawful : K.Lawful) (aligned : K.Aligned engine engine')
    {label : Option Label} {shape : FormShape} {head : Object} {form : SpecialForm}
    (task : K.Task stage (.form label shape (head :: nodes)) frame frame')
    (asked : SpecialForm.ofHead? head = some form) :
    K.Coupled stage K.Answer (engine.answerSpecial position frame form nodes)
      (engine'.answerSpecial position frame' form nodes) := by
  have tasks := lawful.evaluated task asked
  cases form with
  | quote => exact lawful.answerQuote fun node one => lawful.quotes (one ▸ task) asked
  | conditional => exact lawful.answerConditional aligned tasks
  | define => exact lawful.answerDefine aligned tasks (lawful.defines task asked)
  | lambda => exact lawful.answerLambda fun formals body all => lawful.closes (all ▸ task) asked
  | begin => exact lawful.answerBegin aligned tasks
  | binding =>
      exact lawful.answerBinding aligned tasks fun first body all => lawful.opens (all ▸ task) asked
  | conjunction => exact lawful.answerConjunction aligned tasks
  | disjunction => exact lawful.answerDisjunction aligned tasks
  | apply => exact lawful.answerApply aligned tasks

theorem answerForm (lawful : K.Lawful) (aligned : K.Aligned engine engine')
    {label : Option Label} {shape : FormShape}
    (task : K.Task stage (.form label shape nodes) frame frame') :
    K.Coupled stage K.Answer (engine.answerForm position frame nodes)
      (engine'.answerForm position frame' nodes) := by
  cases nodes with
  | nil => exact lawful.done (.value (lawful.nil stage))
  | cons head operands =>
      simp only [Engine.answerForm]
      cases asked : SpecialForm.ofHead? head with
      | some form => exact lawful.answerSpecial aligned task asked
      | none =>
          obtain ⟨first, rest⟩ := List.forall_mem_cons.mp (lawful.applied task asked)
          refine lawful.bind (lawful.operand aligned first) fun grown callee => ?_
          refine lawful.bind (lawful.operands aligned (lawful.tasks_mono grown rest))
            fun more values => ?_
          exact lawful.apply aligned (lawful.value_mono more callee) values

theorem lookup_coupled (lawful : K.Lawful) {label : Option Label} {name : Symbol}
    (task : K.Task stage (.reference label (.symbol name)) frame frame') :
    K.Coupled stage K.Value (Environment.lookup frame (.symbol name))
      (Environment.lookup frame' (.symbol name)) := by
  refine reads fun {before before'} stores => ?_
  have found := lawful.lookup stores task
  dsimp only
  generalize before.lookup? frame name = outcome at found ⊢
  generalize before'.lookup? frame' name = outcome' at found ⊢
  cases found with
  | some alike => exact lawful.done alike
  | none => exact lawful.fails rfl

/-- One evaluation step keeps two runs coupled if the evaluations inside it do. -/
theorem step (lawful : K.Lawful) (aligned : K.Aligned engine engine')
    (task : K.Task stage node frame frame') :
    K.Coupled stage K.Answer (engine.step position node frame)
      (engine'.step position node frame') := by
  cases node with
  | literal label value =>
      simp only [Engine.step]
      by_cases proper : value.isValue
      · rw [if_pos proper]
        exact lawful.done (.value (lawful.literal task proper))
      · rw [if_neg proper]
        exact lawful.refuses _ _
  | reference label name =>
      cases name with
      | symbol name => exact lawful.map (lawful.lookup_coupled task) .value
      | _ => exact lawful.refuses _ _
  | form label shape elements =>
      rw [Engine.step_form, Engine.step_form]
      by_cases text : shape = .text
      · rw [if_pos text, if_pos text]
        exact lawful.refuses _ _
      · rw [if_neg text, if_neg text]
        exact lawful.answerForm aligned task
  | _ => exact lawful.refuses _ _

theorem ofDepth (lawful : K.Lawful) (floor : ∀ stage, K.Interrupts stage .depth .depth)
    (patience depth : Nat) : K.Aligned (.ofDepth patience depth) (.ofDepth patience depth) := by
  refine ⟨?_, .inl rfl⟩
  induction depth with
  | zero => exact fun _ _ => lawful.interrupts (floor _)
  | succ depth ih => exact fun _ task => lawful.step ⟨ih, .inl rfl⟩ task

end Lawful

end Coupling

end LispCore
