import LispCore.Proofs.Coupling.Evaluation
import LispCore.Proofs.Renaming.Operation

namespace LispCore

open Store (Twin Develops Log)

theorem Fault.isBare_of_isOfSource {fault : Fault} (ofSource : fault.isOfSource) :
    fault.isBare := by
  cases fault with
  | notCallable | wrongKind => contradiction
  | _ => rfl

namespace Object

variable {node inner value head : Object} {operands : List Object} {label : Option Label}
  {shape : FormShape} {special : SpecialForm}

/-- A node, or a node anywhere in its elements. -/
inductive Inside : Object → Object → Prop
  | whole {node : Object} : Inside node node
  | element {label : Option Label} {shape : FormShape} {elements : List Object}
      {element inner : Object} (member : element ∈ elements) (inside : Inside element inner) :
      Inside (.form label shape elements) inner

theorem Carries.of_inside (inside : node.Inside inner) (carried : inner.Carries value) :
    node.Carries value := by
  induction inside with
  | whole => exact carried
  | element member _ ih => exact .element member (ih carried)

/-- What a form evaluates in its own frame is found inside it. -/
theorem inside_of_evaluated (member : node ∈ special.evaluated operands) :
    (form label shape (head :: operands)).Inside node := by
  have among : node ∈ operands → (form label shape (head :: operands)).Inside node :=
    fun inside => .element (List.mem_cons_of_mem head inside) .whole
  cases special with
  | quote | lambda => simp [SpecialForm.evaluated] at member
  | define =>
      rcases operands with _ | ⟨target, _ | ⟨part, _ | ⟨more, rest⟩⟩⟩
      case cons.cons.nil =>
        obtain rfl := List.mem_singleton.mp member
        exact among (by simp)
      all_goals simp [SpecialForm.evaluated] at member
  | binding =>
      cases operands with
      | nil => simp [SpecialForm.evaluated] at member
      | cons first body =>
          obtain ⟨binding, inFirst, named⟩ := List.mem_filterMap.mp member
          obtain ⟨⟨bound, part⟩, parts, rfl⟩ := Option.map_eq_some_iff.mp named
          obtain ⟨bindingLabel, bindingShape, target, rfl⟩ := form_of_bindingParts? parts
          cases first with
          | form firstLabel firstShape bindings =>
              refine .element (List.mem_cons_of_mem head List.mem_cons_self) ?_
              exact .element inFirst (.element (by simp) .whole)
          | _ => simp [formElements?] at inFirst
  | conditional | begin | conjunction | disjunction | apply => exact among member

end Object

theorem Discipline.Lawful.inside {D : Discipline} (lawful : D.Lawful) {store : Store}
    {node inner : Object} (inside : node.Inside inner) (known : D.Node store node) :
    D.Node store inner := by
  induction inside with
  | whole => exact known
  | element member _ ih => exact ih ((lawful.element known).1 _ member)

namespace Renaming

variable {ρ : Renaming}

theorem Fixes.inside {node inner : Object} (inside : node.Inside inner) (fixed : ρ.Fixes node) :
    ρ.Fixes inner :=
  fun value carried => fixed value (carried.of_inside inside)

theorem Fixes.bodyNode {nodes : List Object} (fixed : ∀ node ∈ nodes, ρ.Fixes node) :
    ρ.Fixes (bodyNode nodes) := by
  intro value carried
  rcases carried.of_bodyNode with rfl | rfl | ⟨node, member, carried⟩
  · rfl
  · rfl
  · exact fixed node member value carried

/-- What is kept in the first of two twin stores, and what of their logs. -/
structure Suits (ρ : Renaming) (D : Discipline) (Logs : Log → Log → Prop) : Prop where
  lawful : D.Lawful
  whole : ∀ {store}, D.Good store → store.Whole Operation.Any
  known : ∀ {store value}, D.Value store value → store.Knows Operation.Any value
  primitive : ∀ store primitive, D.Value store (.primitive primitive)
  scope : ∀ {store frame}, D.Outer store frame → D.Scope store frame
  count : ∀ store count, D.Count store count
  call : ∀ {first second : Store} (primitive : Primitive) {operands : List Object},
    D.Good first → Twin ρ first second → (∀ operand ∈ operands, D.Value first operand) →
      Logs first.log second.log →
        Logs ((primitive.call operands).storeAfter first).log
          ((primitive.call (operands.map ρ.object)).storeAfter second).log

/-- The first run goes through stages that are its stores. The second is its twin. -/
def coupling (ρ : Renaming) (D : Discipline) (Logs : Log → Log → Prop) : Coupling where
  Stage := Store
  Later := D.Grows
  Stores stage store store' :=
    stage = store ∧ D.Good stage ∧ Twin ρ stage store' ∧ Logs stage.log store'.log
  Value stage value value' := D.Value stage value ∧ value' = ρ.object value
  Task stage node frame frame' :=
    (D.Node stage node ∧ ρ.Fixes node) ∧ D.Scope stage frame ∧ frame' = ρ.frames.of frame
  Outer stage nodes frame frame' :=
    (∀ node ∈ nodes, D.Node stage node ∧ ρ.Fixes node) ∧ D.Scope stage frame ∧
      frame' = ρ.frames.of frame
  Inner stage frame frame' := D.Scope stage frame ∧ frame' = ρ.frames.of frame
  Interrupts _ interrupt interrupt' := interrupt' = ρ.interrupt interrupt
  Excused _ := False

variable {D : Discipline} {Logs : Log → Log → Prop} {stage : Store}
  {values values' : List Object} {run run' : Eval Object}

theorem coupling_values_map (known : ∀ value ∈ values, D.Value stage value) :
    (ρ.coupling D Logs).Values stage values (values.map ρ.object) := by
  refine List.forall₂_map_right_iff.mpr (List.forall₂_same.mpr fun value member => ?_)
  exact ⟨known value member, rfl⟩

theorem coupling_values_iff :
    (ρ.coupling D Logs).Values stage values values' ↔
      (∀ value ∈ values, D.Value stage value) ∧ values' = values.map ρ.object := by
  refine ⟨fun alike => ?_, fun ⟨known, renamed⟩ => renamed ▸ coupling_values_map known⟩
  induction alike with
  | nil => simp
  | cons first _ ih => exact ⟨List.forall_mem_cons.mpr ⟨first.1, ih.1⟩, by simp [first.2, ih.2]⟩

/-- What keeps stores good, and comes to the same in twins, is coupled. -/
theorem coupled_of_ends (keeps : D.Keeps stage D.Value run)
    (ends : D.Good stage → ∀ {second}, Twin ρ stage second →
      Logs stage.log second.log → ρ.Ends ρ.object (run stage) (run' second) ∧
        Logs (run.storeAfter stage).log (run'.storeAfter second).log) :
    (ρ.coupling D Logs).Coupled stage (ρ.coupling D Logs).Value run run' := by
  rintro _ second ⟨rfl, good, twin, logs⟩
  have kept := keeps good
  obtain ⟨ended, logged⟩ := ends good twin logs
  unfold Eval.storeAfter at logged
  generalize run stage = result at kept ended logged
  generalize run' second = result' at ended logged
  cases ended with
  | value twin => exact .value kept.2.1 ⟨rfl, kept.1, twin, logged⟩ ⟨kept.2.2, rfl⟩
  | @interrupt interrupt _ _ twin =>
      cases interrupt with
      | fault fault => exact .interrupt kept.2.1 ⟨rfl, kept.1, twin, logged⟩ rfl
      | depth | patience => exact .interrupt kept.2 ⟨rfl, kept.1, twin, logged⟩ rfl

theorem Suits.coupling_lawful (suits : ρ.Suits D Logs) : (ρ.coupling D Logs).Lawful where
  refl := suits.lawful.refl
  trans := suits.lawful.trans
  value_mono grown alike := ⟨suits.lawful.value_mono grown alike.1, alike.2⟩
  task_mono grown task :=
    ⟨⟨suits.lawful.node_mono grown task.1.1, task.1.2⟩, suits.lawful.scope_mono grown task.2.1,
      task.2.2⟩
  outer_mono grown outer :=
    ⟨fun node member => (outer.1 node member).imp_left (suits.lawful.node_mono grown),
      suits.lawful.scope_mono grown outer.2.1, outer.2.2⟩
  inner_mono grown inner := inner.imp_left (suits.lawful.scope_mono grown)
  nil stage := ⟨suits.lawful.nil stage, rfl⟩
  boolean stage truth := ⟨suits.lawful.boolean stage truth, rfl⟩
  truthy alike := by rw [alike.2, isTruthy_object]
  procedure alike := by rw [alike.2, isProcedure_object]
  closure alike := ⟨_, alike.2⟩
  primitive alike := alike.2
  lookup {stage _ _ _ name frame _} stores task := by
    obtain ⟨rfl, good, twin, _⟩ := stores
    obtain ⟨_, scope, rfl⟩ := task
    rw [twin.lookup?]
    cases found : Store.lookup? stage frame name with
    | none => exact .none
    | some value => exact .some ⟨suits.lawful.lookup good scope found, rfl⟩
  items {stage _ _ value _} stores alike := by
    obtain ⟨rfl, good, twin, _⟩ := stores
    obtain ⟨known, rfl⟩ := alike
    rw [twin.listItems? (suits.whole good).closed (suits.known known).has]
    cases proper : Store.listItems? stage value with
    | none => exact .none
    | some items => exact .some (coupling_values_map (suits.lawful.item good known proper).1)
  captured {_ _ _ id _} stores alike := by
    obtain ⟨rfl, good, twin, _⟩ := stores
    obtain ⟨known, same⟩ := alike
    obtain rfl := Object.closure.inj same
    have inside : id < _ := suits.known known
    obtain ⟨body, outer⟩ := suits.lawful.captured good known
    rw [twin.closure id inside]
    refine ⟨rfl, rfl, ?_, suits.scope outer, rfl⟩
    exact List.forall_mem_singleton.mpr ⟨body, twin.body id⟩
  literal task proper := ⟨suits.lawful.literal task.1.1 proper, task.1.2.literal.symm⟩
  applied task _ node member :=
    ⟨⟨(suits.lawful.element task.1.1).1 node member, task.1.2.element node member⟩, task.2⟩
  evaluated {_ label shape head operands _ _ _} task _ node member := by
    have inside : (Object.form label shape (head :: operands)).Inside node :=
      Object.inside_of_evaluated member
    exact ⟨⟨suits.lawful.inside inside task.1.1, task.1.2.inside inside⟩, task.2⟩
  quotes {_ _ _ _ node _ _} task _ := by
    have known := (suits.lawful.element task.1.1).1 node (by simp)
    have fixed := task.1.2.element node (by simp)
    refine coupled_of_ends (suits.lawful.quoted node known) fun _ second twin logs => ?_
    refine ⟨quoted_ends fixed twin, ?_⟩
    exact (node.quoted_silent _).symm ▸ (node.quoted_silent second).symm ▸ logs
  defines task _ := task.2
  closes task _ := by
    have known := (suits.lawful.element task.1.1).1
    have fixed := task.1.2.element
    refine ⟨List.forall_mem_singleton.mpr ⟨?_, .bodyNode fun node member => ?_⟩, task.2⟩
    · exact suits.lawful.body (fun node member => known node (by simp [member])) (suits.count _ _)
    · exact fixed node (by simp [member])
  opens task _ := by
    refine ⟨fun node member => ⟨?_, ?_⟩, task.2⟩
    · exact (suits.lawful.element task.1.1).1 node (by simp [member])
    · exact task.1.2.element node (by simp [member])
  define {_ frame _ value _} name inner alike := by
    rintro _ second ⟨rfl, good, twin, logs⟩
    obtain ⟨scope, rfl⟩ := inner
    obtain ⟨known, rfl⟩ := alike
    obtain ⟨goodAfter, grown⟩ := suits.lawful.define name good scope known
    exact .value grown ⟨rfl, goodAfter, twin.define frame name value, logs⟩ trivial
  child {stage nodes frame _} outer := by
    rintro _ second ⟨rfl, good, twin, logs⟩
    obtain ⟨nodes, scope, rfl⟩ := outer
    obtain ⟨goodAfter, grown, within⟩ := suits.lawful.child good (suits.lawful.outer scope)
    have inner : (ρ.coupling D Logs).Inner (stage.child frame).2 (stage.child frame).1
        (second.child (ρ.frames.of frame)).1 :=
      ⟨within, twin.frames.of_size.symm⟩
    refine .value grown ⟨rfl, goodAfter, twin.child frame, logs⟩ ⟨inner, fun node member => ?_⟩
    exact ⟨(nodes node member).imp_left (suits.lawful.node_mono grown), inner⟩
  addClosure {stage body frame _} formals outer := by
    rintro _ second ⟨rfl, good, twin, logs⟩
    obtain ⟨nodes, scope, rfl⟩ := outer
    have body := nodes body List.mem_cons_self
    obtain ⟨goodAfter, grown, known⟩ := suits.lawful.addClosure formals good scope body.1
    exact .value grown ⟨rfl, goodAfter, twin.addClosure body.2, logs⟩
      ⟨known, congrArg Object.closure twin.closures.of_size.symm⟩
  call {_ operands _} primitive alike := by
    obtain ⟨known, rfl⟩ := coupling_values_iff.mp alike
    have keeps := suits.lawful.call (suits.primitive _ primitive) known (suits.count _ _)
    refine coupled_of_ends keeps fun good _ twin logs => ⟨?_, ?_⟩
    · have has : ∀ operand ∈ operands, _ := fun operand member =>
        (suits.known (known operand member)).has
      exact primitive.call_ends twin (suits.whole good).closed has
    · exact suits.call primitive good twin known logs
  fault _ fault ofSource :=
    congrArg Interrupt.fault (ρ.fault_of_isBare (Fault.isBare_of_isOfSource ofSource)).symm
  notCallable alike := by rw [alike.2]; rfl
  notList alike := by rw [alike.2]; rfl
  patience _ := rfl

/-- Whole stores, and any logs, suit all renamings. -/
theorem suits_presence (ρ : Renaming) :
    ρ.Suits (Discipline.presence Operation.Any) fun _ _ => True where
  lawful := Discipline.presence_lawful Operation.Any
  whole whole := whole
  known known := known
  primitive _ _ := trivial
  scope inside := inside
  count _ _ := trivial
  call _ _ _ _ _ _ := trivial

/-- A node of what is in a store, without data that are renamed. -/
structure Steady (ρ : Renaming) (store : Store) (node : Object) : Prop where
  known : store.KnowsNode Operation.Any node
  fixed : ρ.Fixes node

/-- Evaluation comes to the same in twin stores, and leaves them twins. -/
theorem evaluate_ends {first second : Store} {node : Object} {frame : FrameId} (budget : Budget)
    (twin : Twin ρ first second) (whole : first.Whole Operation.Any) (steady : ρ.Steady first node)
    (inside : frame < first.frames.size) :
    ρ.Ends ρ.object (evaluate budget node frame first)
      (evaluate budget node (ρ.frames.of frame) second) := by
  let K := ρ.coupling (Discipline.presence Operation.Any) fun _ _ => True
  have lawful : K.Lawful := ρ.suits_presence.coupling_lawful
  have aligned := lawful.ofDepth (fun _ => rfl) budget.patience budget.limit
  have task : K.Task first node frame (ρ.frames.of frame) :=
    ⟨⟨steady.known, steady.fixed⟩, inside, rfl⟩
  have ends := lawful.complete aligned task first second ⟨rfl, whole, twin, trivial⟩
  change K.Ends first K.Value (budget.engine.complete node frame first)
    (budget.engine.complete node (ρ.frames.of frame) second) at ends
  unfold evaluate Budget.guard
  generalize budget.engine.complete node frame first = result at ends
  generalize budget.engine.complete node (ρ.frames.of frame) second = result' at ends
  cases ends with
  | excused excuse => exact False.elim excuse
  | value _ stores alike =>
      obtain ⟨rfl, _, twin, _⟩ := stores
      obtain ⟨_, rfl⟩ := alike
      exact .value twin
  | @interrupt _ interrupt _ _ _ _ stores alike =>
      obtain ⟨rfl, _, twin, _⟩ := stores
      obtain rfl := alike
      cases interrupt <;> exact .interrupt twin

end Renaming

end LispCore
