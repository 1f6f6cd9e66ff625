import LispCore.Proofs.Chains
import LispCore.Proofs.Discipline
import LispCore.Proofs.Forms

namespace LispCore

namespace Discipline

/-- An engine keeps a discipline on every node and frame that the discipline lets it see. -/
def Safe (D : Discipline) (engine : Engine) : Prop :=
  ∀ {store node frame} position, D.Node store node → D.Scope store frame →
    D.Keeps store D.Answer (engine.answer position node frame)

def Values (D : Discipline) (store : Store) (values : List Object) : Prop :=
  ∀ value ∈ values, D.Value store value

def Nodes (D : Discipline) (store : Store) (nodes : List Object) : Prop :=
  ∀ node ∈ nodes, D.Node store node

def Entries (D : Discipline) (store : Store) (entries : List (Symbol × Object)) : Prop :=
  ∀ entry ∈ entries, D.Value store entry.2

namespace Lawful

variable {D : Discipline} {store : Store} {engine : Engine} {position : Position}
  {frame : FrameId}

theorem nodes_mono (lawful : D.Lawful) {later : Store} (grown : D.Grows store later)
    {nodes : List Object} (known : D.Nodes store nodes) : D.Nodes later nodes :=
  fun node member => lawful.node_mono grown (known node member)

theorem entries_mono (lawful : D.Lawful) {later : Store} (grown : D.Grows store later)
    {entries : List (Symbol × Object)} (known : D.Entries store entries) :
    D.Entries later entries :=
  fun entry member => lawful.value_mono grown (known entry member)

theorem refuses (lawful : D.Lawful) {node : Object} {reason : Malformation}
    (admitted : D.Admits store (.malformed node reason)) {α : Type} {wanted : Store → α → Prop} :
    D.Keeps store wanted (malformed node reason) :=
  lawful.fails fun _ => admitted

/-- A special form refuses its operands, all together or one of them. -/
theorem misshapes (lawful : D.Lawful) {operands : List Object} {node : Object}
    {reason : Malformation} (ofForm : reason.isOfForm) (known : D.Nodes store operands)
    (refused : node = operandList operands ∨ node ∈ operands) {α : Type}
    {wanted : Store → α → Prop} : D.Keeps store wanted (malformed node reason) :=
  lawful.fails fun good => lawful.misshapen ofForm good known refused

theorem settleWithin (lawful : D.Lawful) (safe : D.Safe engine) (turns : Nat)
    {answer : LispCore.Answer} (known : D.Answer store answer) :
    D.Keeps store D.Value (engine.settleWithin turns answer) := by
  induction turns generalizing store answer with
  | zero =>
      cases answer with
      | value value => exact lawful.done known
      | pending body frame => exact lawful.cutShort rfl
  | succ turns ih =>
      cases answer with
      | value value => exact lawful.done known
      | pending body frame =>
          refine lawful.bind (safe .tail known.1 known.2) fun _ _ next => ?_
          exact ih next

theorem settled (lawful : D.Lawful) (safe : D.Safe engine) (position : Position) {node : Object}
    (known : D.Node store node) (scope : D.Scope store frame) :
    D.Keeps store D.Value (engine.answer position node frame >>= engine.settle) :=
  lawful.bind (safe position known scope) fun _ _ answer => lawful.settleWithin safe _ answer

theorem operand (lawful : D.Lawful) (safe : D.Safe engine) {node : Object}
    (known : D.Node store node) (scope : D.Scope store frame) :
    D.Keeps store D.Value (engine.operand node frame) :=
  lawful.settled safe .operand known scope

theorem complete (lawful : D.Lawful) (safe : D.Safe engine) {node : Object}
    (known : D.Node store node) (scope : D.Scope store frame) :
    D.Keeps store D.Value (engine.complete node frame) :=
  lawful.settled safe .tail known scope

theorem operands (lawful : D.Lawful) (safe : D.Safe engine) {nodes : List Object}
    (known : D.Nodes store nodes) (scope : D.Scope store frame) :
    D.Keeps store (fun after values => D.Values after values ∧ values.length = nodes.length)
      (engine.operands frame nodes) := by
  induction nodes generalizing store with
  | nil => exact lawful.done ⟨by simp [Values], rfl⟩
  | cons node nodes ih =>
      obtain ⟨first, rest⟩ := List.forall_mem_cons.mp known
      refine lawful.bind (lawful.operand safe first scope) fun _ grown value => ?_
      refine lawful.bind (ih (lawful.nodes_mono grown rest) (lawful.scope_mono grown scope))
        fun _ more values => ?_
      exact lawful.done ⟨List.forall_mem_cons.mpr ⟨lawful.value_mono more value, values.1⟩,
        congrArg Nat.succ values.2⟩

theorem defineAll (lawful : D.Lawful) {entries : List (Symbol × Object)} (good : D.Good store)
    (scope : D.Scope store frame) (known : D.Entries store entries) :
    D.Good (store.defineAll frame entries) ∧ D.Grows store (store.defineAll frame entries) := by
  induction entries generalizing store with
  | nil => exact ⟨good, lawful.refl store⟩
  | cons entry entries ih =>
      obtain ⟨first, rest⟩ := List.forall_mem_cons.mp known
      obtain ⟨goodNext, grown⟩ := lawful.define entry.1 good scope first
      obtain ⟨goodLast, more⟩ :=
        ih goodNext (lawful.scope_mono grown scope) (lawful.entries_mono grown rest)
      exact ⟨goodLast, lawful.trans grown more⟩

theorem enter (lawful : D.Lawful) {id : ClosureId} {operands : List Object}
    (good : D.Good store) (callee : D.Value store (.closure id))
    (known : D.Values store operands) :
    D.Good (store.enter (store.closure id) operands).2 ∧
      D.Grows store (store.enter (store.closure id) operands).2 ∧
      D.Scope (store.enter (store.closure id) operands).2
        (store.enter (store.closure id) operands).1 := by
  obtain ⟨goodChild, grown, scope⟩ := lawful.child good (lawful.captured good callee).2
  have entries : D.Entries (store.child (store.closure id).frame).2
      ((store.closure id).formals.zip operands) := fun entry member =>
    lawful.value_mono grown (known entry.2 (List.of_mem_zip member).2)
  obtain ⟨goodLast, more⟩ := lawful.defineAll goodChild scope entries
  exact ⟨goodLast, lawful.trans grown more, lawful.scope_mono more scope⟩

theorem extend (lawful : D.Lawful) {id : ClosureId} {operands : List Object}
    (callee : D.Value store (.closure id)) (known : D.Values store operands) :
    D.Keeps store D.Scope ((store.closure id).extend operands) := by
  by_cases fits : operands.length = (store.closure id).formals.length
  · simp only [Closure.extend, if_pos fits]
    exact creates fun good => lawful.enter good callee known
  · simp only [Closure.extend, if_neg fits]
    exact lawful.fails fun _ => lawful.arity _ _ _ _ _

theorem applyClosure (lawful : D.Lawful) (safe : D.Safe engine) {id : ClosureId}
    {operands : List Object} (callee : D.Value store (.closure id))
    (known : D.Values store operands) :
    D.Keeps store D.Answer (engine.applyClosure position id operands) := by
  intro good
  refine reads ?_ good
  refine lawful.bind (lawful.extend callee known) fun _ grown scope => ?_
  have body := lawful.node_mono grown (lawful.captured good callee).1
  cases position with
  | tail => exact lawful.done ⟨body, scope⟩
  | operand => exact lawful.map (lawful.complete safe body scope) fun value => value

theorem apply (lawful : D.Lawful) (safe : D.Safe engine) {callee : Object}
    {operands : List Object} (value : D.Value store callee) (known : D.Values store operands)
    (count : D.Count store operands.length) :
    D.Keeps store D.Answer (engine.apply position callee operands) := by
  cases callee with
  | closure id => exact lawful.applyClosure safe value known
  | primitive primitive => exact lawful.map (lawful.call value known count) fun value => value
  | _ => exact lawful.fails fun good => lawful.notCallable good value

theorem ofItems (lawful : D.Lawful) {items : List Object} {tail : Object} (good : D.Good store)
    (known : D.Values store items) (last : D.Value store tail) :
    D.Good (store.ofItems items tail).2 ∧ D.Grows store (store.ofItems items tail).2 ∧
      D.Value (store.ofItems items tail).2 (store.ofItems items tail).1 := by
  refine Store.ofItems_induction (motive := fun value after => D.Good after ∧
    D.Grows store after ∧ D.Value after value) ⟨good, lawful.refl store, last⟩ ?_
  rintro item member rest between ⟨goodRest, grown, chain⟩
  obtain ⟨goodLast, more, pair⟩ :=
    lawful.cons goodRest (lawful.value_mono grown (known item member)) chain
  exact ⟨goodLast, lawful.trans grown more, pair⟩

theorem newList (lawful : D.Lawful) {items : List Object} (known : D.Values store items) :
    D.Keeps store D.Value (newList items) :=
  creates fun good => lawful.ofItems good known (lawful.nil store)

mutual

/-- Quoting makes values of what a node holds, and lists of forms. -/
theorem quoted (lawful : D.Lawful) {store : Store} :
    ∀ node : Object, D.Node store node → D.Keeps store D.Value node.quoted
  | .literal label value, known => by
      simp only [Object.quoted]
      by_cases proper : value.isValue
      · simpa only [if_pos proper] using lawful.done (lawful.literal known proper)
      · simpa only [if_neg proper] using lawful.refuses (lawful.notLiteral known proper)
  | .reference label name, known => by
      simpa only [Object.quoted] using lawful.done (lawful.name known)
  | .form label shape elements, known => by
      simp only [Object.quoted]
      exact lawful.bind (lawful.quotedAll elements (lawful.element known).1)
        fun _ _ items => lawful.newList items
  | .nil, known | .boolean _, known | .integer _, known | .float _, known | .symbol _, known
  | .string _, known | .pair _, known | .closure _, known | .primitive _, known
  | .alien _, known | .sequence _ _ _, known => by
      simpa only [Object.quoted] using lawful.refuses (lawful.notNode known (.inl nofun))

theorem quotedAll (lawful : D.Lawful) {store : Store} :
    ∀ nodes : List Object, D.Nodes store nodes →
      D.Keeps store D.Values (Object.quotedAll nodes)
  | [], known => by
      simpa only [Object.quotedAll] using lawful.done (by simp [Values])
  | node :: nodes, known => by
      simp only [Object.quotedAll]
      obtain ⟨first, rest⟩ := List.forall_mem_cons.mp known
      refine lawful.bind (lawful.quoted node first) fun _ grown value => ?_
      refine lawful.bind (lawful.quotedAll nodes (lawful.nodes_mono grown rest))
        fun _ more values => ?_
      exact lawful.done (List.forall_mem_cons.mpr ⟨lawful.value_mono more value, values⟩)

end

theorem answerQuote (lawful : D.Lawful) {nodes : List Object} (known : D.Nodes store nodes) :
    D.Keeps store D.Answer (Engine.answerQuote nodes) := by
  match nodes with
  | [node] =>
      exact lawful.map (lawful.quoted node (known node List.mem_cons_self)) fun value => value
  | [] | _ :: _ :: _ => exact lawful.misshapes rfl known (.inl rfl)

theorem answerConditional (lawful : D.Lawful) (safe : D.Safe engine) {nodes : List Object}
    (known : D.Nodes store nodes) (scope : D.Scope store frame) :
    D.Keeps store D.Answer (engine.answerConditional position frame nodes) := by
  match nodes with
  | [condition, consequent] =>
      refine lawful.bind (lawful.operand safe (known condition (by simp)) scope)
        fun _ grown _ => ?_
      split
      · exact safe position (lawful.node_mono grown (known consequent (by simp)))
          (lawful.scope_mono grown scope)
      · exact lawful.done (lawful.nil _)
  | [condition, consequent, alternative] =>
      refine lawful.bind (lawful.operand safe (known condition (by simp)) scope)
        fun _ grown _ => ?_
      refine safe position (lawful.node_mono grown ?_) (lawful.scope_mono grown scope)
      split
      · exact known consequent (by simp)
      · exact known alternative (by simp)
  | [] | [_] | _ :: _ :: _ :: _ :: _ => exact lawful.misshapes rfl known (.inl rfl)

theorem answerDefine (lawful : D.Lawful) (safe : D.Safe engine) {nodes : List Object}
    (known : D.Nodes store nodes) (scope : D.Scope store frame) :
    D.Keeps store D.Answer (engine.answerDefine frame nodes) := by
  match nodes with
  | [target, node] =>
      simp only [Engine.answerDefine]
      cases target.referenceName? with
      | none => exact lawful.misshapes rfl known (.inr List.mem_cons_self)
      | some name =>
          refine lawful.bind (lawful.operand safe (known node (by simp)) scope)
            fun _ grown value => ?_
          refine lawful.bind (changes fun good => ?_) fun _ _ _ => lawful.done (lawful.nil _)
          exact lawful.define name good (lawful.scope_mono grown scope) value
  | [] | [_] | _ :: _ :: _ :: _ => exact lawful.misshapes rfl known (.inl rfl)

theorem refusedFormals (lawful : D.Lawful) {formals node : Object} {reason : Malformation}
    (good : D.Good store) (known : D.Node store formals)
    (refused : RefusedFormals formals node reason) : D.Admits store (.malformed node reason) := by
  cases refused with
  | notList =>
      exact lawful.misshapen rfl good (List.forall_mem_singleton.mpr known)
        (.inr (List.mem_singleton_self _))
  | notSymbol | repeated =>
      exact lawful.misshapen rfl good (lawful.element known).1
        (.inr (List.mem_append_right _ List.mem_cons_self))

theorem parses (lawful : D.Lawful) {formals : Object} (known : D.Node store formals) :
    D.Keeps store (fun _ _ => True) (Eval.ofExcept (parseFormals formals)) := by
  refine lawful.tries (fun _ _ => trivial) fun fault failed good => ?_
  obtain ⟨node, reason, rfl, refused⟩ := parseFormals_error_iff.mp failed
  exact lawful.refusedFormals good known refused

theorem answerLambda (lawful : D.Lawful) {nodes : List Object} (known : D.Nodes store nodes)
    (count : D.Count store nodes.length) (scope : D.Scope store frame) :
    D.Keeps store D.Answer (Engine.answerLambda frame nodes) := by
  cases nodes with
  | nil => exact lawful.misshapes rfl known (.inl rfl)
  | cons formals body =>
      obtain ⟨first, rest⟩ := List.forall_mem_cons.mp known
      have bodyNode := lawful.body rest count
      refine lawful.bind (lawful.parses first) fun {between names} _ grown _ => ?_
      have made : D.Keeps between (fun after id => D.Value after (.closure id))
          (Eval.create fun store => store.addClosure ⟨names, LispCore.bodyNode body, frame⟩) :=
        creates fun good => lawful.addClosure names good (lawful.scope_mono grown scope)
          (lawful.node_mono grown bodyNode)
      exact lawful.bind made fun _ _ value => lawful.done value

theorem answerBegin (lawful : D.Lawful) (safe : D.Safe engine) {nodes : List Object}
    (known : D.Nodes store nodes) (scope : D.Scope store frame) :
    D.Keeps store D.Answer (engine.answerBegin position frame nodes) := by
  induction nodes generalizing store with
  | nil => exact lawful.done (lawful.nil store)
  | cons node nodes ih =>
      obtain ⟨first, rest⟩ := List.forall_mem_cons.mp known
      cases nodes with
      | nil => exact safe position first scope
      | cons next nodes =>
          refine lawful.bind (lawful.operand safe first scope) fun _ grown _ => ?_
          exact ih (lawful.nodes_mono grown rest) (lawful.scope_mono grown scope)

theorem sequenceElements (lawful : D.Lawful) {node : Object} {elements : List Object}
    (known : D.Node store node) (sequence : node.sequenceElements? = some elements) :
    D.Nodes store elements := by
  unfold Object.sequenceElements? at sequence
  split at sequence
  · simp at sequence
  · obtain rfl := Option.some.inj sequence
    exact (lawful.element known).1
  · simp at sequence

theorem formElements (lawful : D.Lawful) {node : Object} {elements : List Object}
    (known : D.Node store node) (form : node.formElements? = some elements) :
    D.Nodes store elements := by
  unfold Object.formElements? at form
  split at form
  · obtain rfl := Option.some.inj form
    exact (lawful.element known).1
  · simp at form

theorem bindingParts (lawful : D.Lawful) {binding node : Object} {name : Symbol}
    (known : D.Node store binding) (parts : bindingParts? binding = some (name, node)) :
    D.Node store node := by
  unfold bindingParts? at parts
  split at parts
  · rename_i target part elements
    obtain ⟨_, _, pair⟩ := Option.map_eq_some_iff.mp parts
    have same : part = node := congrArg Prod.snd pair
    exact lawful.sequenceElements known elements node (by simp [same])
  · simp at parts

theorem bindings (lawful : D.Lawful) (safe : D.Safe engine) {done : List (Symbol × Object)}
    {nodes : List Object} (entries : D.Entries store done) (known : D.Nodes store nodes)
    (scope : D.Scope store frame) :
    D.Keeps store D.Entries (engine.bindings frame done nodes) := by
  induction nodes generalizing store done with
  | nil => exact lawful.done entries
  | cons binding rest ih =>
      obtain ⟨first, others⟩ := List.forall_mem_cons.mp known
      simp only [Engine.bindings]
      cases parts : bindingParts? binding with
      | none => exact lawful.misshapes rfl known (.inr List.mem_cons_self)
      | some named =>
          by_cases repeated : named.1 ∈ done.map Prod.fst
          · simp only [if_pos repeated]
            exact lawful.misshapes rfl known (.inr List.mem_cons_self)
          · simp only [if_neg repeated]
            refine lawful.bind (lawful.operand safe (lawful.bindingParts first parts) scope)
              fun _ grown value => ?_
            refine ih ?_ (lawful.nodes_mono grown others) (lawful.scope_mono grown scope)
            intro entry member
            rcases List.mem_append.mp member with old | new
            · exact lawful.entries_mono grown entries entry old
            · obtain rfl := List.mem_singleton.mp new
              exact value

theorem answerBinding (lawful : D.Lawful) (safe : D.Safe engine) {nodes : List Object}
    (known : D.Nodes store nodes) (scope : D.Scope store frame) :
    D.Keeps store D.Answer (engine.answerBinding position frame nodes) := by
  cases nodes with
  | nil => exact lawful.misshapes rfl known (.inl rfl)
  | cons first body =>
      obtain ⟨knownFirst, knownBody⟩ := List.forall_mem_cons.mp known
      simp only [Engine.answerBinding]
      cases form : first.formElements? with
      | none => exact lawful.misshapes rfl known (.inl rfl)
      | some bindings =>
          have none : D.Entries store [] := by simp [Entries]
          refine lawful.bind (lawful.bindings safe none (lawful.formElements knownFirst form) scope)
            fun _ grown entries => ?_
          refine lawful.bind (creates fun good => lawful.child good
            (lawful.outer (lawful.scope_mono grown scope))) fun _ more inner => ?_
          refine lawful.bind (changes fun good => lawful.defineAll good inner
            (lawful.entries_mono more entries)) fun _ last _ => ?_
          have whole := lawful.trans grown (lawful.trans more last)
          exact lawful.answerBegin safe (lawful.nodes_mono whole knownBody)
            (lawful.scope_mono last inner)

theorem answerConjunction (lawful : D.Lawful) (safe : D.Safe engine) {nodes : List Object}
    (known : D.Nodes store nodes) (scope : D.Scope store frame) :
    D.Keeps store D.Answer (engine.answerConjunction position frame nodes) := by
  induction nodes generalizing store with
  | nil => exact lawful.done (lawful.boolean store true)
  | cons node nodes ih =>
      obtain ⟨first, rest⟩ := List.forall_mem_cons.mp known
      cases nodes with
      | nil => exact safe position first scope
      | cons next nodes =>
          refine lawful.bind (lawful.operand safe first scope) fun _ grown value => ?_
          split
          · exact ih (lawful.nodes_mono grown rest) (lawful.scope_mono grown scope)
          · exact lawful.done value

theorem answerDisjunction (lawful : D.Lawful) (safe : D.Safe engine) {nodes : List Object}
    (known : D.Nodes store nodes) (scope : D.Scope store frame) :
    D.Keeps store D.Answer (engine.answerDisjunction position frame nodes) := by
  induction nodes generalizing store with
  | nil => exact lawful.done (lawful.boolean store false)
  | cons node nodes ih =>
      obtain ⟨first, rest⟩ := List.forall_mem_cons.mp known
      cases nodes with
      | nil => exact safe position first scope
      | cons next nodes =>
          refine lawful.bind (lawful.operand safe first scope) fun _ grown value => ?_
          split
          · exact lawful.done value
          · exact ih (lawful.nodes_mono grown rest) (lawful.scope_mono grown scope)

theorem itemsOr (lawful : D.Lawful) {value : Object} {fault : Fault}
    (known : D.Value store value) (admitted : D.Good store → D.Admits store fault) :
    D.Keeps store (fun after items => D.Values after items ∧ D.Count after items.length)
      (itemsOr fault value) := by
  intro good
  refine reads ?_ good
  cases items : store.listItems? value with
  | some items => exact lawful.done (lawful.item good known items)
  | none => exact lawful.fails admitted

theorem answerApply (lawful : D.Lawful) (safe : D.Safe engine) {nodes : List Object}
    (known : D.Nodes store nodes) (scope : D.Scope store frame) :
    D.Keeps store D.Answer (engine.answerApply position frame nodes) := by
  match nodes with
  | [function, list] =>
      refine lawful.bind (lawful.operand safe (known function (by simp)) scope)
        fun _ grown callee => ?_
      refine lawful.bind (lawful.operand safe (lawful.node_mono grown (known list (by simp)))
        (lawful.scope_mono grown scope)) fun _ more value => ?_
      refine lawful.bind (lawful.itemsOr value fun good => lawful.notList good value) fun _ last items => ?_
      exact lawful.apply safe (lawful.value_mono (lawful.trans more last) callee) items.1
        items.2
  | [] | [_] | _ :: _ :: _ :: _ => exact lawful.misshapes rfl known (.inl rfl)

theorem answerSpecial (lawful : D.Lawful) (safe : D.Safe engine) (form : SpecialForm)
    {nodes : List Object} (known : D.Nodes store nodes) (count : D.Count store nodes.length)
    (scope : D.Scope store frame) :
    D.Keeps store D.Answer (engine.answerSpecial position frame form nodes) := by
  cases form with
  | quote => exact lawful.answerQuote known
  | conditional => exact lawful.answerConditional safe known scope
  | define => exact lawful.answerDefine safe known scope
  | lambda => exact lawful.answerLambda known count scope
  | begin => exact lawful.answerBegin safe known scope
  | binding => exact lawful.answerBinding safe known scope
  | conjunction => exact lawful.answerConjunction safe known scope
  | disjunction => exact lawful.answerDisjunction safe known scope
  | apply => exact lawful.answerApply safe known scope

theorem answerForm (lawful : D.Lawful) (safe : D.Safe engine) {elements : List Object}
    (known : D.Nodes store elements) (count : D.Count store elements.length)
    (scope : D.Scope store frame) :
    D.Keeps store D.Answer (engine.answerForm position frame elements) := by
  cases elements with
  | nil => exact lawful.done (lawful.nil store)
  | cons head nodes =>
      obtain ⟨first, rest⟩ := List.forall_mem_cons.mp known
      have fewer := lawful.count_le (Nat.le_succ nodes.length) count
      simp only [Engine.answerForm]
      cases SpecialForm.ofHead? head with
      | some form => exact lawful.answerSpecial safe form rest fewer scope
      | none =>
          refine lawful.bind (lawful.operand safe first scope) fun _ grown callee => ?_
          refine lawful.bind (lawful.operands safe (lawful.nodes_mono grown rest)
            (lawful.scope_mono grown scope)) fun _ more values => ?_
          refine lawful.apply safe (lawful.value_mono more callee) values.1 ?_
          rw [values.2]
          exact lawful.count_mono (lawful.trans grown more) fewer

theorem lookup_keeps (lawful : D.Lawful) (name : Symbol) (scope : D.Scope store frame) :
    D.Keeps store D.Value (Environment.lookup frame (.symbol name)) := by
  intro good
  refine reads ?_ good
  cases found : store.lookup? frame name with
  | some value =>
      simp only [found]
      exact lawful.done (lawful.lookup good scope found)
  | none =>
      simp only [found]
      exact lawful.fails fun _ => lawful.unbound _ name

/-- One evaluation step keeps a discipline if the evaluations inside it do. -/
theorem step (lawful : D.Lawful) (safe : D.Safe engine) {node : Object}
    (known : D.Node store node) (scope : D.Scope store frame) :
    D.Keeps store D.Answer (engine.step position node frame) := by
  cases node with
  | literal label value =>
      simp only [Engine.step]
      by_cases proper : value.isValue
      · simp only [if_pos proper]
        exact lawful.done (lawful.literal known proper)
      · simpa only [if_neg proper] using lawful.refuses (lawful.notLiteral known proper)
  | reference label name =>
      simp only [Engine.step]
      by_cases proper : name.isSymbol
      · simp only [if_pos proper]
        cases name with
        | symbol name => exact lawful.map (lawful.lookup_keeps name scope) fun value => value
        | _ => simp [Object.isSymbol] at proper
      · simpa only [if_neg proper] using lawful.refuses (lawful.notReference known proper)
  | form label shape elements =>
      rw [Engine.step_form]
      split
      · rename_i text
        exact lawful.refuses (lawful.notNode known (.inr ⟨label, elements, by rw [text]⟩))
      · exact lawful.answerForm safe (lawful.element known).1 (lawful.element known).2 scope
  | _ => exact lawful.refuses (lawful.notNode known (.inl nofun))

theorem ofDepth (lawful : D.Lawful) (patience depth : Nat) :
    D.Safe (.ofDepth patience depth) := by
  induction depth with
  | zero => exact fun _ _ _ => lawful.cutShort rfl
  | succ depth ih => exact fun _ known scope => lawful.step ih known scope

theorem guard (lawful : D.Lawful) (budget : Budget) {run : Eval Object}
    (kept : D.Keeps store D.Value run) : D.Keeps store D.Value (budget.guard run) := by
  intro good
  have ended := kept good
  unfold Budget.guard
  cases outcome : run store with
  | ok value after => simpa only [outcome] using ended
  | error interrupt after =>
      simp only [outcome] at ended
      cases interrupt with
      | fault fault => exact ended
      | depth => exact ⟨ended.1, ended.2, lawful.tooDeep _ _⟩
      | patience => exact ended

theorem evaluate (lawful : D.Lawful) (budget : Budget) {node : Object}
    (known : D.Node store node) (scope : D.Scope store frame) :
    D.Keeps store D.Value (evaluate budget node frame) :=
  lawful.guard budget (lawful.complete (lawful.ofDepth _ _) known scope)

theorem applyTo (lawful : D.Lawful) (budget : Budget) {callee : Object} {operands : List Object}
    (value : D.Value store callee) (known : D.Values store operands)
    (count : D.Count store operands.length) :
    D.Keeps store D.Value (applyTo budget callee operands) := by
  have safe : D.Safe budget.engine := lawful.ofDepth _ _
  refine lawful.guard budget (lawful.bind (lawful.apply safe value known count)
    fun _ _ answer => ?_)
  exact lawful.settleWithin safe _ answer

end Lawful

end Discipline

end LispCore
