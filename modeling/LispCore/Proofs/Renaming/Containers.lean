import LispCore.Proofs.Renaming.Evaluation

/-!
Containers of the host, and what is held in them.

Evaluation makes no containers, and hands on those that it is given as they are: in literals it
takes none for values, and as names it leaves them to quoting. So containers hold nothing but
what there was in a store of old, for as long as evaluation goes on
(`Discipline.settlement_lawful`). All stores in which everything that is named is there are
such to begin with (`Store.Complete`).
-/

namespace LispCore

open Store (Develops Grown)

namespace Object

/-- Is it no container of the host? -/
def isSimple : Object → Bool
  | .sequence .. | .literal .. | .reference .. | .form .. => false
  | _ => true

theorem isSimple_of_isValue {object : Object} (proper : object.isValue) : object.isSimple := by
  cases object with
  | sequence | literal | reference | form => contradiction
  | _ => rfl

/-- An object itself, and all that containers of the host hold inside of it. -/
inductive Mentions : Object → Object → Prop
  | itself {object : Object} : Mentions object object
  | item {label : Option Label} {kind : SequenceKind} {items : List Object} {item part : Object}
      (member : item ∈ items) (inside : Mentions item part) :
      Mentions (.sequence label kind items) part
  | value {label : Option Label} {value part : Object} (inside : Mentions value part) :
      Mentions (.literal label value) part
  | name {label : Option Label} {name part : Object} (inside : Mentions name part) :
      Mentions (.reference label name) part
  | element {label : Option Label} {shape : FormShape} {elements : List Object}
      {element part : Object} (member : element ∈ elements) (inside : Mentions element part) :
      Mentions (.form label shape elements) part

end Object

/-- Is all that an object mentions there in a store? -/
def Store.KnowsAll (store : Store) (object : Object) : Prop :=
  ∀ part, object.Mentions part → store.Knows Operation.Any part

namespace Object

/-- Is an object no container, or one that holds only what there was in a store of old? -/
def Settled (origin : Store) (object : Object) : Prop :=
  object.isSimple ∨ origin.KnowsAll object

/-- Are all names in a node settled? Quoted, they come out as they are. -/
def NamesSettled (origin : Store) (node : Object) : Prop :=
  ∀ label name, node.Inside (.reference label name) → name.Settled origin

namespace NamesSettled

variable {origin : Store} {label : Option Label} {shape : FormShape} {name : Object}
  {elements : List Object}

theorem literal (value : Object) : NamesSettled origin (.literal label value) := by
  rintro _ _ ⟨⟩

theorem reference (settled : name.Settled origin) :
    NamesSettled origin (.reference label name) := by
  rintro _ _ ⟨⟩
  exact settled

theorem form (each : ∀ element ∈ elements, element.NamesSettled origin) :
    NamesSettled origin (.form label shape elements) := by
  rintro _ _ (_ | ⟨member, inside⟩)
  exact each _ member _ _ inside

theorem element (settled : NamesSettled origin (.form label shape elements)) :
    ∀ element ∈ elements, element.NamesSettled origin :=
  fun _ member _ _ inside => settled _ _ (.element member inside)

theorem bodyNode {nodes : List Object} (settled : ∀ node ∈ nodes, node.NamesSettled origin) :
    (bodyNode nodes).NamesSettled origin := by
  rcases nodes with _ | ⟨node, _ | ⟨next, rest⟩⟩
  · exact literal .nil
  · exact settled node List.mem_cons_self
  · exact form (List.forall_mem_cons.mpr ⟨reference (.inl rfl), settled⟩)

end NamesSettled

end Object

namespace Store

/-- Do the containers in a store hold only what there was in a store of old? -/
structure Settles (origin store : Store) : Prop where
  head : ∀ id, (store.cell id).head.Settled origin
  tail : ∀ id, (store.cell id).tail.Settled origin
  binding : ∀ id, ∀ entry ∈ (store.frame id).bindings, entry.2.Settled origin
  body : ∀ id, (store.closure id).body.NamesSettled origin

namespace Settles

variable {origin store after : Store} {frame : FrameId} {value head tail : Object}

theorem define (settled : origin.Settles store) (name : Symbol) (new : value.Settled origin) :
    origin.Settles (store.define frame name value) where
  head := settled.head
  tail := settled.tail
  binding id entry member := by
    rw [frame_define] at member
    split at member
    · rcases Bindings.mem_set member with rfl | old
      · exact new
      · exact settled.binding id entry old
    · exact settled.binding id entry member
  body := settled.body

theorem child (settled : origin.Settles store) (frame : FrameId) :
    origin.Settles (store.child frame).2 where
  head := settled.head
  tail := settled.tail
  binding id entry member := by
    rw [frame_child] at member
    split at member
    · contradiction
    · exact settled.binding id entry member
  body := settled.body

theorem addClosure (settled : origin.Settles store) {closure : Closure}
    (new : closure.body.NamesSettled origin) : origin.Settles (store.addClosure closure).2 where
  head := settled.head
  tail := settled.tail
  binding := settled.binding
  body id := by
    rw [closure_addClosure]
    split
    · exact new
    · exact settled.body id

theorem of_cells (settled : origin.Settles store) (frames : after.frames = store.frames)
    (closures : after.closures = store.closures) (head : ∀ id, (after.cell id).head.Settled origin)
    (tail : ∀ id, (after.cell id).tail.Settled origin) : origin.Settles after where
  head := head
  tail := tail
  binding id entry member := by
    rw [frame_congr frames] at member
    exact settled.binding id entry member
  body id := by
    rw [closure_congr closures]
    exact settled.body id

theorem cons (settled : origin.Settles store) (first : head.Settled origin)
    (last : tail.Settled origin) : origin.Settles (store.cons head tail).2 := by
  refine settled.of_cells rfl rfl (fun id => ?_) fun id => ?_
  · rw [cell_cons]
    split
    · exact first
    · exact settled.head id
  · rw [cell_cons]
    split
    · exact last
    · exact settled.tail id

theorem setPart (settled : origin.Settles store) (id : CellId) (side : Side)
    (new : head.Settled origin) : origin.Settles (store.setPart id side head) := by
  have halves := store.halves_setPart settled.head settled.tail id side new
  exact settled.of_cells rfl rfl (fun other => (halves other).1) fun other => (halves other).2

theorem note (settled : origin.Settles store) (text : String) : origin.Settles (store.note text) :=
  settled.of_cells rfl rfl settled.head settled.tail

theorem ofItems (settled : origin.Settles store) {items : List Object}
    (known : ∀ item ∈ items, item.Settled origin) :
    origin.Settles (store.ofItems items .nil).2 ∧ (store.ofItems items .nil).1.Settled origin := by
  refine ofItems_induction
    (motive := fun value after => origin.Settles after ∧ value.Settled origin)
    ⟨settled, .inl rfl⟩ ?_
  exact fun item member rest between chain => ⟨chain.1.cons (known item member) chain.2, .inl rfl⟩

theorem lookup (settled : origin.Settles store) {name : Symbol}
    (found : store.lookup? frame name = some value) : value.Settled origin := by
  obtain ⟨id, _, bound⟩ := List.exists_of_findSome?_eq_some found
  exact settled.binding id (name, value) (Bindings.mem_of_get? bound)

theorem items (settled : origin.Settles store) {items : List Object} (known : value.Settled origin)
    (proper : store.listItems? value = some items) : ∀ item ∈ items, item.Settled origin := by
  rw [heads_of_listItems? proper]
  exact follow_heads (fun id _ => ⟨settled.head id, settled.tail id⟩) _ known

end Settles

/-- A store in which everything is there that it mentions. -/
structure Complete (store : Store) : Prop where
  head : ∀ id, store.KnowsAll (store.cell id).head
  tail : ∀ id, store.KnowsAll (store.cell id).tail
  binding : ∀ id, ∀ entry ∈ (store.frame id).bindings, store.KnowsAll entry.2
  ancestor : ∀ id, ∀ outer ∈ (store.frame id).ancestors, outer < store.frames.size
  body : ∀ id, store.KnowsAll (store.closure id).body
  captured : ∀ id < store.closures.size, (store.closure id).frame < store.frames.size

namespace KnowsAll

variable {store : Store} {node inner value : Object} {label : Option Label}

theorem inside (inside : node.Inside inner) (known : store.KnowsAll node) :
    store.KnowsAll inner := by
  induction inside with
  | whole => exact known
  | element member _ ih => exact ih fun part inside => known part (.element member inside)

theorem carried (known : store.KnowsAll node) (carried : node.Carries value) :
    store.KnowsAll value := by
  induction carried with
  | literal => exact fun part inside => known part (.value inside)
  | name => exact fun part inside => known part (.name inside)
  | element member _ ih => exact ih fun part inside => known part (.element member inside)

theorem knowsNode (known : store.KnowsAll node) : store.KnowsNode Operation.Any node :=
  fun value carried => known.carried carried value .itself

theorem namesSettled (known : store.KnowsAll node) : node.NamesSettled store :=
  fun _ _ found => .inr fun part inside => known.inside found part (.name inside)

theorem of_isSimple (simple : value.isSimple) (known : store.Knows Operation.Any value) :
    store.KnowsAll value := by
  rintro part (_ | _ | _ | _ | _)
  · exact known
  all_goals contradiction

@[simp]
theorem literal_iff : store.KnowsAll (.literal label value) ↔ store.KnowsAll value := by
  refine ⟨fun known part inside => known part (.value inside), fun known => ?_⟩
  rintro part (_ | _ | inside)
  · trivial
  · exact known part inside

@[simp]
theorem reference (name : Symbol) : store.KnowsAll (.reference label (.symbol name)) := by
  rintro part (_ | _ | _ | inside)
  · trivial
  · have known : store.Knows Operation.Any (.symbol name) := trivial
    exact of_isSimple rfl known part inside

@[simp]
theorem form_iff {shape : FormShape} {elements : List Object} :
    store.KnowsAll (.form label shape elements) ↔
      ∀ element ∈ elements, store.KnowsAll element := by
  refine ⟨fun known _ member part inside => known part (.element member inside), fun each => ?_⟩
  rintro part (_ | _ | _ | _ | ⟨member, inside⟩)
  · trivial
  · exact each _ member part inside

end KnowsAll

namespace Complete

variable {store : Store}

theorem whole (complete : store.Complete) : store.Whole Operation.Any where
  head id := complete.head id _ .itself
  tail id := complete.tail id _ .itself
  binding id entry member := complete.binding id entry member _ .itself
  ancestor := complete.ancestor
  body id := (complete.body id).knowsNode
  captured := complete.captured

theorem settles (complete : store.Complete) : store.Settles store where
  head id := .inr (complete.head id)
  tail id := .inr (complete.tail id)
  binding id entry member := .inr (complete.binding id entry member)
  body id := (complete.body id).namesSettled

end Complete

end Store

namespace Operation.Effect

variable {origin store : Store} {operation : Operation} {operands : List Object}
  {result : EStateM.Result Interrupt Store Object}

theorem settled (effect : Effect store operation operands result)
    (settled : origin.Settles store) (known : ∀ operand ∈ operands, operand.Settled origin) :
    origin.Settles (Eval.storeOf result) ∧
      ∀ value after, result = .ok value after → value.Settled origin := by
  have ends : ∀ {value after}, origin.Settles after → value.Settled origin →
      origin.Settles (Eval.storeOf (.ok value after : EStateM.Result Interrupt Store Object)) ∧
        ∀ other last, (.ok value after : EStateM.Result Interrupt Store Object) = .ok other last →
          other.Settled origin := by
    rintro value after good new
    refine ⟨good, fun _ _ same => ?_⟩
    cases same
    exact new
  cases effect with
  | computes computed =>
      refine ends settled ?_
      rcases number_or_boolean_of_arithmetic? computed with ⟨number, rfl⟩ | ⟨truth, rfl⟩
      · exact .inl (by cases number <;> rfl)
      · exact .inl rfl
  | fails | refuses | misses => exact ⟨settled, nofun⟩
  | decides | counts => exact ends settled (.inl rfl)
  | joins => exact ends (settled.cons (known _ (by simp)) (known _ (by simp))) (.inl rfl)
  | head => exact ends settled (settled.head _)
  | tail => exact ends settled (settled.tail _)
  | lists => exact ends (settled.ofItems known).1 (settled.ofItems known).2
  | setsHead => exact ends (settled.setPart _ .head (known _ (by simp))) (.inl rfl)
  | setsTail => exact ends (settled.setPart _ .tail (known _ (by simp))) (.inl rfl)
  | records => exact ends (settled.note _) (known _ (by simp))

end Operation.Effect

namespace Discipline

/-- Whole stores that have grown from a store of old, and containers that hold only what there
was in it. -/
def settlement (origin : Store) : Discipline where
  Good store := store.Whole Operation.Any ∧ origin.Settles store ∧ Grown origin store
  Grows := Develops Operation.Any
  Value store value := store.Knows Operation.Any value ∧ value.Settled origin
  Node store node := store.KnowsNode Operation.Any node ∧ node.NamesSettled origin
  Scope store frame := frame < store.frames.size
  Outer store frame := frame < store.frames.size
  Count _ _ := True
  Admits _ _ := True

variable {origin store : Store}

theorem settlement_good (complete : store.Complete) : (settlement store).Good store :=
  ⟨complete.whole, complete.settles, .refl store⟩

theorem settlement_node {node : Object} (known : store.KnowsAll node) :
    (settlement store).Node store node :=
  ⟨known.knowsNode, known.namesSettled⟩

theorem settlement_call (primitive : Primitive) {operands : List Object}
    (known : ∀ operand ∈ operands, (settlement origin).Value store operand) :
    (settlement origin).Keeps store (settlement origin).Value (primitive.call operands) := by
  rintro ⟨whole, settled, grown⟩
  have possible : Operation.Any primitive.operation := trivial
  have kept := presence_call possible (fun operand member => (known operand member).1) whole
  have ends : origin.Settles (Eval.storeOf (primitive.call operands store)) ∧
      ∀ value after, primitive.call operands store = .ok value after → value.Settled origin := by
    rw [primitive.call_apply]
    split
    · exact (primitive.operation.run_effect operands store).settled settled
        fun operand member => (known operand member).2
    · exact ⟨settled, nofun⟩
  generalize primitive.call operands store = result at kept ends
  cases result with
  | ok value after =>
      exact ⟨⟨kept.1, ends.1, grown.trans kept.2.1.grown⟩, kept.2.1, kept.2.2,
        ends.2 value after rfl⟩
  | error interrupt after =>
      cases interrupt with
      | fault fault => exact ⟨⟨kept.1, ends.1, grown.trans kept.2.1.grown⟩, kept.2⟩
      | depth | patience => exact ⟨⟨kept.1, ends.1, grown.trans kept.2.grown⟩, kept.2⟩

theorem settlement_lawful (origin : Store) : (settlement origin).Lawful where
  refl _ := .refl
  trans first second := first.trans second
  value_mono grown known := ⟨known.1.mono grown.grown, known.2⟩
  node_mono grown known := ⟨known.1.mono grown.grown, known.2⟩
  scope_mono grown inside := Nat.lt_of_lt_of_le inside grown.grown.frames_le
  count_mono _ _ := trivial
  count_le _ _ := trivial
  nil _ := ⟨trivial, .inl rfl⟩
  boolean _ _ := ⟨trivial, .inl rfl⟩
  lookup good _ found := ⟨good.1.lookup found, good.2.1.lookup found⟩
  item good known proper :=
    ⟨fun item member => ⟨good.1.items known.1 proper item member,
      good.2.1.items known.2 proper item member⟩, trivial⟩
  literal known proper :=
    ⟨Store.knowsNode_literal.mp known.1, .inl (Object.isSimple_of_isValue proper)⟩
  name known := ⟨Store.knowsNode_reference.mp known.1, known.2 _ _ .whole⟩
  element known :=
    ⟨fun element member => ⟨Store.knowsNode_form.mp known.1 element member,
      known.2.element element member⟩, trivial⟩
  body known _ :=
    ⟨.body fun node member => (known node member).1,
      .bodyNode fun node member => (known node member).2⟩
  outer inside := inside
  captured good known := ⟨⟨good.1.body _, good.2.1.body _⟩, good.1.captured _ known.1⟩
  define name good _ known :=
    ⟨⟨good.1.define name known.1, good.2.1.define name known.2,
      good.2.2.trans (Store.grown_define name)⟩, .single (.define _ name _)⟩
  child good inside :=
    ⟨⟨good.1.child inside, good.2.1.child _, good.2.2.trans Store.grown_child⟩,
      .single (.child _), Store.child_lt⟩
  addClosure _ good inside known :=
    ⟨⟨good.1.addClosure known.1 inside, good.2.1.addClosure known.2,
      good.2.2.trans (Store.grown_addClosure _)⟩, .single (.addClosure _),
      Store.knows_addClosure Operation.Any, .inl rfl⟩
  cons good first last :=
    ⟨⟨good.1.cons first.1 last.1, good.2.1.cons first.2 last.2,
      good.2.2.trans Store.grown_cons⟩, .single (.cons first.1 last.1),
      Store.knows_cons Operation.Any, .inl rfl⟩
  call _ known _ := settlement_call _ known
  notLiteral _ _ := trivial
  notReference _ _ := trivial
  notNode _ _ := trivial
  misshapen _ _ _ _ := trivial
  unbound _ _ := trivial
  notCallable _ _ := trivial
  arity _ _ _ _ _ := trivial
  notList _ _ := trivial
  tooDeep _ _ := trivial

end Discipline

end LispCore
