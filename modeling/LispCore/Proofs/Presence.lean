import LispCore.Proofs.Bisimulation
import LispCore.Proofs.Discipline.Evaluation
import LispCore.Proofs.GoodStore
import Mathlib.Logic.Relation

/-!
What is there: stores in which all that is referred to exists, and how they develop.

Objects name pairs, closures and primitives. A store is *whole* if none of them is missing,
where only primitives of admitted operations count as there (`Store.Whole`). Evaluation
takes a whole store to another, by single changes that all keep what there was but for the
pairs that an admitted operation writes (`Store.Develops`).
-/

namespace LispCore

namespace Operation

/-- All operations, those that write pairs among them. -/
def Any (_ : Operation) : Prop :=
  True

/-- Does the operation leave all pairs as they are? -/
def SparesPairs : Operation → Prop
  | .setHead | .setTail => False
  | _ => True

end Operation

namespace Object

/-- Data that stands somewhere in a node: in its literals, or in place of its names. -/
inductive Carries : Object → Object → Prop
  | literal {label : Option Label} {value : Object} : Carries (.literal label value) value
  | name {label : Option Label} {value : Object} : Carries (.reference label value) value
  | element {label : Option Label} {shape : FormShape} {elements : List Object}
      {element value : Object} (member : element ∈ elements) (carried : Carries element value) :
      Carries (.form label shape elements) value

variable {value : Object}

theorem Carries.of_bodyNode {nodes : List Object} (carried : (bodyNode nodes).Carries value) :
    value = .nil ∨ value = .symbol beginKeyword ∨ ∃ node ∈ nodes, node.Carries value := by
  match nodes with
  | [] =>
      cases carried
      exact .inl rfl
  | [node] => exact .inr (.inr ⟨node, List.mem_cons_self, carried⟩)
  | first :: second :: rest =>
      cases carried with
      | element member carried =>
          rcases List.mem_cons.mp member with rfl | member
          · cases carried
            exact .inr (.inl rfl)
          · exact .inr (.inr ⟨_, member, carried⟩)

end Object

namespace Operation

variable {α β : Type}

theorem ok_of_bind {outcome : Except Fault α} {next : α → Except Fault β} {value : β}
    (ended : (outcome >>= next) = .ok value) : ∃ result, next result = .ok value := by
  cases outcome with
  | ok result => exact ⟨result, ended⟩
  | error fault => contradiction

theorem ok_of_map {outcome : Except Fault α} {change : α → β} {value : β}
    (ended : outcome.map change = .ok value) : ∃ result, value = change result := by
  cases outcome with
  | ok result => exact ⟨result, (Except.ok.inj ended).symm⟩
  | error fault => contradiction

theorem number_of_onNumbers {operation : Operation} {operands : List Object}
    {compute : List Number → Except Fault Number} {value : Object}
    (computed : operation.onNumbers compute operands = .ok value) :
    ∃ number : Number, value = number.toObject := by
  obtain ⟨numbers, rest⟩ := ok_of_bind computed
  exact ok_of_map rest

theorem number_of_onIntegers {operation : Operation} {operands : List Object}
    {compute : Int → Int → Except Fault Number} {value : Object}
    (computed : operation.onIntegers compute operands = .ok value) :
    ∃ number : Number, value = number.toObject := by
  obtain ⟨integers, rest⟩ := ok_of_bind computed
  match integers, rest with
  | [a, b], rest => exact ok_of_map rest
  | [], rest | [_], rest | _ :: _ :: _ :: _, rest => contradiction

/-- Arithmetic comes to nothing but numbers and truth values. -/
theorem number_or_boolean_of_arithmetic? {operation : Operation} {operands : List Object}
    {value : Object} (computed : operation.arithmetic? operands = some (.ok value)) :
    (∃ number : Number, value = number.toObject) ∨ ∃ truth, value = .boolean truth := by
  cases operation with
  | add | subtract | multiply | divide | absolute | minimum | maximum =>
      exact .inl (number_of_onNumbers (Option.some.inj computed))
  | quotient | remainder | modulo => exact .inl (number_of_onIntegers (Option.some.inj computed))
  | compare relation =>
      obtain ⟨numbers, rfl⟩ := ok_of_map (Option.some.inj computed)
      exact .inr ⟨_, rfl⟩
  | _ => contradiction

end Operation

namespace Store

/-- Is what an object names in the store there, and is a primitive of an operation that is
admitted? -/
def Knows (store : Store) (admitted : Operation → Prop) : Object → Prop
  | .pair id => id < store.cells.size
  | .closure id => id < store.closures.size
  | .primitive primitive => admitted primitive.operation
  | _ => True

/-- A node of which all data are known. -/
def KnowsNode (store : Store) (admitted : Operation → Prop) (node : Object) : Prop :=
  ∀ value, node.Carries value → store.Knows admitted value

structure Whole (store : Store) (admitted : Operation → Prop) : Prop where
  head : ∀ id, store.Knows admitted (store.cell id).head
  tail : ∀ id, store.Knows admitted (store.cell id).tail
  binding : ∀ id, ∀ entry ∈ (store.frame id).bindings, store.Knows admitted entry.2
  ancestor : ∀ id, ∀ outer ∈ (store.frame id).ancestors, outer < store.frames.size
  body : ∀ id, store.KnowsNode admitted (store.closure id).body
  captured : ∀ id < store.closures.size, (store.closure id).frame < store.frames.size

/-- The single changes that evaluation makes to a store. New pairs are made of what is there,
and old ones are written by admitted operations only. -/
inductive Change (admitted : Operation → Prop) (store : Store) : Store → Prop
  | define (frame : FrameId) (name : Symbol) (value : Object) :
      Change admitted store (store.define frame name value)
  | child (frame : FrameId) : Change admitted store (store.child frame).2
  | addClosure (closure : Closure) : Change admitted store (store.addClosure closure).2
  | cons {head tail : Object} (first : store.Knows admitted head)
      (last : store.Knows admitted tail) : Change admitted store (store.cons head tail).2
  | setHead (id : CellId) (head : Object) (possible : admitted .setHead) :
      Change admitted store (store.setHead id head)
  | setTail (id : CellId) (tail : Object) (possible : admitted .setTail) :
      Change admitted store (store.setTail id tail)
  | note (text : String) : Change admitted store (store.note text)

/-- Changes one after the other. -/
abbrev Develops (admitted : Operation → Prop) : Store → Store → Prop :=
  Relation.ReflTransGen (Change admitted)

variable {admitted : Operation → Prop} {store before after : Store} {value head tail node : Object}
  {frame : FrameId}

theorem Change.grown (change : Change admitted before after) : Grown before after := by
  cases change with
  | define frame name value => exact grown_define name
  | child frame => exact grown_child
  | addClosure closure => exact grown_addClosure closure
  | cons first last => exact grown_cons
  | setHead id head possible => exact grown_setPart id .head
  | setTail id tail possible => exact grown_setPart id .tail
  | note text => exact grown_note text

theorem Develops.grown (develops : Develops admitted before after) : Grown before after := by
  induction develops with
  | refl => exact .refl before
  | tail _ change grown => exact grown.trans change.grown

theorem Knows.mono (known : before.Knows admitted value) (grown : Grown before after) :
    after.Knows admitted value := by
  cases value with
  | pair id => exact Nat.lt_of_lt_of_le known grown.cells_le
  | closure id => exact Nat.lt_of_lt_of_le known grown.closures_le
  | _ => exact known

theorem KnowsNode.mono (known : before.KnowsNode admitted node) (grown : Grown before after) :
    after.KnowsNode admitted node :=
  fun value carried => (known value carried).mono grown

theorem Knows.widen {more : Operation → Prop} (known : store.Knows admitted value)
    (weaker : ∀ operation, admitted operation → more operation) : store.Knows more value := by
  cases value with
  | primitive primitive => exact weaker _ known
  | _ => exact known

theorem Knows.has (known : store.Knows admitted value) : store.Has value := by
  cases value with
  | pair id => exact known
  | _ => trivial

theorem knows_cons (admitted : Operation → Prop) :
    (store.cons head tail).2.Knows admitted (.pair (store.cons head tail).1) := by
  simp [Knows, cons]

theorem knows_addClosure (admitted : Operation → Prop) {closure : Closure} :
    (store.addClosure closure).2.Knows admitted (.closure (store.addClosure closure).1) := by
  simp [Knows, addClosure]

theorem child_lt : (store.child frame).1 < (store.child frame).2.frames.size := by
  simp [child]

theorem KnowsNode.body {nodes : List Object}
    (known : ∀ node ∈ nodes, store.KnowsNode admitted node) :
    store.KnowsNode admitted (bodyNode nodes) := by
  intro value carried
  rcases carried.of_bodyNode with rfl | rfl | ⟨node, member, carried⟩
  · exact trivial
  · exact trivial
  · exact known node member value carried

@[simp]
theorem knowsNode_literal {label : Option Label} :
    store.KnowsNode admitted (.literal label value) ↔ store.Knows admitted value := by
  refine ⟨fun known => known value .literal, fun known other carried => ?_⟩
  cases carried
  exact known

@[simp]
theorem knowsNode_reference {label : Option Label} {name : Object} :
    store.KnowsNode admitted (.reference label name) ↔ store.Knows admitted name := by
  refine ⟨fun known => known name .name, fun known other carried => ?_⟩
  cases carried
  exact known

@[simp]
theorem knowsNode_form {label : Option Label} {shape : FormShape} {elements : List Object} :
    store.KnowsNode admitted (.form label shape elements) ↔
      ∀ element ∈ elements, store.KnowsNode admitted element := by
  refine ⟨fun known _ member value carried => known value (.element member carried), ?_⟩
  intro known value carried
  cases carried with
  | element member carried => exact known _ member value carried

namespace Whole

theorem define (whole : store.Whole admitted) (name : Symbol)
    (known : store.Knows admitted value) : (store.define frame name value).Whole admitted where
  head id := (whole.head id).mono (grown_define name)
  tail id := (whole.tail id).mono (grown_define name)
  binding id entry member := by
    rw [frame_define] at member
    split at member
    · rcases Bindings.mem_set member with rfl | old
      · exact known.mono (grown_define name)
      · exact (whole.binding id entry old).mono (grown_define name)
    · exact (whole.binding id entry member).mono (grown_define name)
  ancestor id outer member := by
    have old : outer ∈ (store.frame id).ancestors := by
      rw [frame_define] at member
      split at member <;> exact member
    exact Nat.lt_of_lt_of_le (whole.ancestor id outer old) (grown_define name).frames_le
  body id := (whole.body id).mono (grown_define name)
  captured id inside :=
    Nat.lt_of_lt_of_le (whole.captured id inside) (grown_define name).frames_le

theorem child (whole : store.Whole admitted) (inside : frame < store.frames.size) :
    (store.child frame).2.Whole admitted where
  head id := (whole.head id).mono grown_child
  tail id := (whole.tail id).mono grown_child
  binding id entry member := by
    rw [frame_child] at member
    split at member
    · contradiction
    · exact (whole.binding id entry member).mono grown_child
  ancestor id outer member := by
    have old : outer < store.frames.size := by
      rw [frame_child] at member
      split at member
      · rcases List.mem_cons.mp member with rfl | further
        · exact inside
        · exact whole.ancestor frame outer further
      · exact whole.ancestor id outer member
    exact Nat.lt_of_lt_of_le old grown_child.frames_le
  body id := (whole.body id).mono grown_child
  captured id there := Nat.lt_of_lt_of_le (whole.captured id there) grown_child.frames_le

theorem addClosure (whole : store.Whole admitted) {closure : Closure}
    (body : store.KnowsNode admitted closure.body) (inside : closure.frame < store.frames.size) :
    (store.addClosure closure).2.Whole admitted where
  head id := (whole.head id).mono (grown_addClosure closure)
  tail id := (whole.tail id).mono (grown_addClosure closure)
  binding id entry member := (whole.binding id entry member).mono (grown_addClosure closure)
  ancestor := whole.ancestor
  body id := by
    rw [closure_addClosure]
    split
    · exact body.mono (grown_addClosure closure)
    · exact (whole.body id).mono (grown_addClosure closure)
  captured id there := by
    rw [closure_addClosure]
    split
    · exact inside
    · rename_i old
      have less : id < store.closures.size + 1 := by simpa [Store.addClosure] using there
      exact whole.captured id (Nat.lt_of_le_of_ne (Nat.le_of_lt_succ less) old)

/-- A store with other pairs is whole if these are made of what is there. -/
theorem of_cells (whole : store.Whole admitted) (grown : Grown store after)
    (frames : after.frames = store.frames) (closures : after.closures = store.closures)
    (head : ∀ id, after.Knows admitted (after.cell id).head)
    (tail : ∀ id, after.Knows admitted (after.cell id).tail) : after.Whole admitted where
  head := head
  tail := tail
  binding id entry member := by
    rw [frame_congr frames] at member
    exact (whole.binding id entry member).mono grown
  ancestor id outer member := by
    rw [frame_congr frames] at member
    exact frames ▸ whole.ancestor id outer member
  body id := by
    rw [closure_congr closures]
    exact (whole.body id).mono grown
  captured id inside := by
    rw [closure_congr closures, frames]
    exact whole.captured id (closures ▸ inside)

theorem cons (whole : store.Whole admitted) (first : store.Knows admitted head)
    (last : store.Knows admitted tail) : (store.cons head tail).2.Whole admitted := by
  have grown : Grown store (store.cons head tail).2 := grown_cons
  refine whole.of_cells grown rfl rfl ?_ ?_
  · intro id
    rw [cell_cons]
    split
    · exact first.mono grown
    · exact (whole.head id).mono grown
  · intro id
    rw [cell_cons]
    split
    · exact last.mono grown
    · exact (whole.tail id).mono grown

theorem setPart (whole : store.Whole admitted) (id : CellId) (side : Side)
    (known : store.Knows admitted value) : (store.setPart id side value).Whole admitted := by
  have grown : Grown store (store.setPart id side value) := grown_setPart id side
  have halves := store.halves_setPart (fun id => (whole.head id).mono grown)
    (fun id => (whole.tail id).mono grown) id side (known.mono grown)
  exact whole.of_cells grown rfl rfl (fun other => (halves other).1) fun other => (halves other).2

theorem note (whole : store.Whole admitted) (text : String) :
    (store.note text).Whole admitted :=
  whole.of_cells (grown_note text) rfl rfl whole.head whole.tail

theorem widen {more : Operation → Prop} (whole : store.Whole admitted)
    (weaker : ∀ operation, admitted operation → more operation) : store.Whole more where
  head id := (whole.head id).widen weaker
  tail id := (whole.tail id).widen weaker
  binding id entry member := (whole.binding id entry member).widen weaker
  ancestor := whole.ancestor
  body id value carried := (whole.body id value carried).widen weaker
  captured := whole.captured

theorem closed (whole : store.Whole admitted) : store.Closed :=
  fun id _ => ⟨(whole.head id).has, (whole.tail id).has⟩

theorem lookup (whole : store.Whole admitted) {name : Symbol}
    (found : store.lookup? frame name = some value) : store.Knows admitted value := by
  obtain ⟨id, _, bound⟩ := List.exists_of_findSome?_eq_some found
  exact whole.binding id (name, value) (Bindings.mem_of_get? bound)

theorem items (whole : store.Whole admitted) {items : List Object}
    (known : store.Knows admitted value) (proper : store.listItems? value = some items) :
    ∀ item ∈ items, store.Knows admitted item := by
  rw [heads_of_listItems? proper]
  exact follow_heads (fun id _ => ⟨whole.head id, whole.tail id⟩) _ known

theorem ofItems (whole : store.Whole admitted) {items : List Object}
    (known : ∀ item ∈ items, store.Knows admitted item) (last : store.Knows admitted tail) :
    (store.ofItems items tail).2.Whole admitted ∧
      Develops admitted store (store.ofItems items tail).2 ∧
      (store.ofItems items tail).2.Knows admitted (store.ofItems items tail).1 := by
  refine ofItems_induction (motive := fun value after => after.Whole admitted ∧
    Develops admitted store after ∧ after.Knows admitted value) ⟨whole, .refl, last⟩ ?_
  rintro item member rest between ⟨wholeRest, develops, chain⟩
  have first : between.Knows admitted item := (known item member).mono develops.grown
  exact ⟨wholeRest.cons first chain, develops.tail (.cons first chain), knows_cons admitted⟩

end Whole

end Store

open Store (Develops)

section Results

variable {admitted : Operation → Prop} {store : Store} {operation : Operation}
  {operands : List Object} {result : EStateM.Result Interrupt Store Object}

/-- The result leaves a whole store, to which the first has developed, and comes to what is
there. -/
structure Store.Sustains (store : Store) (admitted : Operation → Prop)
    (result : EStateM.Result Interrupt Store Object) : Prop where
  whole : (Eval.storeOf result).Whole admitted
  develops : Develops admitted store (Eval.storeOf result)
  known : ∀ value after, result = .ok value after → after.Knows admitted value

theorem Store.Sustains.ok {value : Object} {after : Store} (whole : after.Whole admitted)
    (develops : Develops admitted store after) (known : after.Knows admitted value) :
    store.Sustains admitted (.ok value after) := by
  refine ⟨whole, develops, fun _ _ same => ?_⟩
  cases same
  exact known

theorem Operation.Effect.sustains (effect : Effect store operation operands result)
    (whole : store.Whole admitted) (possible : admitted operation)
    (known : ∀ operand ∈ operands, store.Knows admitted operand) :
    store.Sustains admitted result := by
  cases effect with
  | computes computed =>
      refine .ok whole .refl ?_
      rcases number_or_boolean_of_arithmetic? computed with ⟨number, rfl⟩ | ⟨truth, rfl⟩
      · cases number <;> trivial
      · trivial
  | fails | refuses | misses => exact ⟨whole, .refl, nofun⟩
  | decides | counts => exact .ok whole .refl trivial
  | @joins head tail rest =>
      have first := known head (by simp)
      have last := known tail (by simp)
      exact .ok (whole.cons first last) (.single (.cons first last)) (Store.knows_cons admitted)
  | @head id rest => exact .ok whole .refl (whole.head id)
  | @tail id rest => exact .ok whole .refl (whole.tail id)
  | lists =>
      have last : store.Knows admitted .nil := trivial
      obtain ⟨wholeAfter, develops, value⟩ := whole.ofItems known last
      exact .ok wholeAfter develops value
  | @setsHead id value rest =>
      have new := known value (by simp)
      exact .ok (whole.setPart id .head new) (.single (.setHead id value possible)) trivial
  | @setsTail id value rest =>
      have new := known value (by simp)
      exact .ok (whole.setPart id .tail new) (.single (.setTail id value possible)) trivial
  | @records object rest =>
      have there : store.Knows admitted object := known object (by simp)
      exact .ok (whole.note _) (.single (.note _)) (there.mono (Store.grown_note _))

end Results

namespace Discipline

/-- Stores stay whole, and develop by admitted changes only. -/
def presence (admitted : Operation → Prop) : Discipline where
  Good store := store.Whole admitted
  Grows := Develops admitted
  Value store := store.Knows admitted
  Node store := store.KnowsNode admitted
  Scope store frame := frame < store.frames.size
  Outer store frame := frame < store.frames.size
  Count _ _ := True
  Admits _ _ := True

variable {admitted : Operation → Prop} {store : Store}

theorem presence_keeps {run : Eval Object}
    (sustains : store.Whole admitted → store.Sustains admitted (run store)) :
    (presence admitted).Keeps store (presence admitted).Value run := by
  intro good
  have ends := sustains good
  generalize run store = result at ends ⊢
  cases result with
  | ok value after => exact ⟨ends.whole, ends.develops, ends.known value after rfl⟩
  | error interrupt after =>
      cases interrupt with
      | fault fault => exact ⟨ends.whole, ends.develops, trivial⟩
      | depth | patience => exact ⟨ends.whole, ends.develops⟩

theorem presence_call {primitive : Primitive} {operands : List Object}
    (possible : admitted primitive.operation)
    (known : ∀ operand ∈ operands, store.Knows admitted operand) :
    (presence admitted).Keeps store (presence admitted).Value (primitive.call operands) := by
  refine presence_keeps fun whole => ?_
  rw [primitive.call_apply]
  split
  · exact (primitive.operation.run_effect operands store).sustains whole possible known
  · exact ⟨whole, .refl, nofun⟩

theorem presence_lawful (admitted : Operation → Prop) : (presence admitted).Lawful where
  refl _ := .refl
  trans first second := first.trans second
  value_mono grown known := known.mono grown.grown
  node_mono grown known := known.mono grown.grown
  scope_mono grown inside := Nat.lt_of_lt_of_le inside grown.grown.frames_le
  count_mono _ _ := trivial
  count_le _ _ := trivial
  nil _ := trivial
  boolean _ _ := trivial
  lookup whole _ found := whole.lookup found
  item whole known proper := ⟨whole.items known proper, trivial⟩
  literal known _ := Store.knowsNode_literal.mp known
  name known := Store.knowsNode_reference.mp known
  element known := ⟨Store.knowsNode_form.mp known, trivial⟩
  body known _ := .body known
  outer inside := inside
  captured whole known := ⟨whole.body _, whole.captured _ known⟩
  define name whole _ known := ⟨whole.define name known, .single (.define _ name _)⟩
  child whole inside := ⟨whole.child inside, .single (.child _), Store.child_lt⟩
  addClosure _ whole inside known :=
    ⟨whole.addClosure known inside, .single (.addClosure _), Store.knows_addClosure admitted⟩
  cons whole first last :=
    ⟨whole.cons first last, .single (.cons first last), Store.knows_cons admitted⟩
  call callee known _ := presence_call callee known
  notLiteral _ _ := trivial
  notReference _ _ := trivial
  notNode _ _ := trivial
  misshapen _ _ _ _ := trivial
  unbound _ _ := trivial
  notCallable _ _ := trivial
  arity _ _ _ _ _ := trivial
  notList _ _ := trivial
  tooDeep _ _ := trivial

end Discipline

theorem evaluate_whole {admitted : Operation → Prop} {store : Store} {node : Object}
    {frame : FrameId} (budget : Budget) (whole : store.Whole admitted)
    (known : store.KnowsNode admitted node) (inside : frame < store.frames.size) :
    ((evaluate budget node frame).storeAfter store).Whole admitted ∧
      Develops admitted store ((evaluate budget node frame).storeAfter store) := by
  have lawful := Discipline.presence_lawful admitted
  exact (lawful.evaluate budget known inside).storeAfter whole

end LispCore
