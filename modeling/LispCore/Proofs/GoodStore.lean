import LispCore.Proofs.Chains
import LispCore.Proofs.Operation.Arithmetic
import LispCore.SpecialForm

namespace LispCore

namespace Bindings

theorem mem_set {name : Symbol} {value : Object} {bindings : Bindings} {entry : Symbol × Object}
    (member : entry ∈ bindings.set name value) : entry = (name, value) ∨ entry ∈ bindings := by
  induction bindings with
  | nil => exact .inl (List.mem_singleton.mp member)
  | cons first rest ih =>
      obtain ⟨bound, old⟩ := first
      by_cases same : bound = name
      · rw [set, if_pos same, List.mem_cons, same] at member
        exact member.imp_right (List.mem_cons_of_mem _)
      · rw [set, if_neg same, List.mem_cons] at member
        rcases member with rfl | later
        · exact .inr List.mem_cons_self
        · exact (ih later).imp_right (List.mem_cons_of_mem _)

theorem mem_of_get? {name : Symbol} {value : Object} {bindings : Bindings}
    (bound : bindings.get? name = some value) : (name, value) ∈ bindings := by
  induction bindings with
  | nil => contradiction
  | cons first rest ih =>
      obtain ⟨other, old⟩ := first
      by_cases same : other = name
      · rw [get?, if_pos same, Option.some.injEq] at bound
        rw [same, bound]
        exact List.mem_cons_self
      · rw [get?, if_neg same] at bound
        exact List.mem_cons_of_mem _ (ih bound)

end Bindings

namespace Store

/-- Is all that a value names in the store there, and is a primitive a standard one? -/
def Refers (store : Store) : Object → Prop
  | .pair id => id < store.cells.size
  | .closure id => id < store.closures.size
  | .primitive primitive => primitive ∈ Primitive.standard
  | _ => True

def Holds (store : Store) (value : Object) : Prop :=
  value.isValue ∧ store.Refers value

/-- Nodes of the shape that source has: literals of values, references to symbols, and
tuples of such nodes, which the host holds and so can count. -/
inductive WellFormed (store : Store) : Object → Prop
  | literal (label : Option Label) {value : Object} (held : store.Holds value) :
      WellFormed store (.literal label value)
  | reference (label : Option Label) (name : Symbol) :
      WellFormed store (.reference label (.symbol name))
  | form (label : Option Label) {elements : List Object}
      (each : ∀ element ∈ elements, WellFormed store element)
      (few : elements.length ≤ mostCounted) : WellFormed store (.form label .tuple elements)

def HoldsCell (store : Store) (cell : Cell) : Prop :=
  store.Holds cell.head ∧ store.Holds cell.tail

structure HoldsFrame (store : Store) (frame : Frame) : Prop where
  binding : ∀ entry ∈ frame.bindings, store.Holds entry.2
  ancestor : ∀ outer ∈ frame.ancestors, outer < store.frames.size

structure HoldsClosure (store : Store) (closure : Closure) : Prop where
  body : store.WellFormed closure.body
  frame : closure.frame < store.frames.size

/-- All that a store consists of is made of values and nodes of this store. -/
structure Good (store : Store) : Prop where
  cell : ∀ cell ∈ store.cells, store.HoldsCell cell
  frame : ∀ frame ∈ store.frames, store.HoldsFrame frame
  closure : ∀ closure ∈ store.closures, store.HoldsClosure closure

/-- Has the host numbers for all pairs? -/
def Countable (store : Store) : Prop :=
  store.cells.size ≤ mostCounted
deriving Decidable

/-- Nothing has gone away from one store to the other. -/
structure Grown (before after : Store) : Prop where
  cells_le : before.cells.size ≤ after.cells.size
  frames_le : before.frames.size ≤ after.frames.size
  closures_le : before.closures.size ≤ after.closures.size

variable {store before between after : Store} {frame : FrameId} {value head tail : Object}

theorem Grown.refl (store : Store) : Grown store store :=
  ⟨Nat.le_refl _, Nat.le_refl _, Nat.le_refl _⟩

theorem Grown.trans (first : Grown before between) (second : Grown between after) :
    Grown before after :=
  ⟨Nat.le_trans first.cells_le second.cells_le, Nat.le_trans first.frames_le second.frames_le,
    Nat.le_trans first.closures_le second.closures_le⟩

theorem Grown.countable (grown : Grown before after) (countable : after.Countable) :
    before.Countable :=
  Nat.le_trans grown.cells_le countable

theorem Holds.mono (held : before.Holds value) (grown : Grown before after) :
    after.Holds value := by
  refine ⟨held.1, ?_⟩
  cases value with
  | pair id => exact Nat.lt_of_lt_of_le held.2 grown.cells_le
  | closure id => exact Nat.lt_of_lt_of_le held.2 grown.closures_le
  | _ => exact held.2

theorem WellFormed.mono {node : Object} (wellFormed : before.WellFormed node)
    (grown : Grown before after) : after.WellFormed node := by
  induction wellFormed with
  | literal label held => exact .literal label (held.mono grown)
  | reference label name => exact .reference label name
  | form label each few ih => exact .form label ih few

theorem grown_define (name : Symbol) : Grown store (store.define frame name value) :=
  ⟨Nat.le_refl _, by simp [define], Nat.le_refl _⟩

theorem grown_child : Grown store (store.child frame).2 :=
  ⟨Nat.le_refl _, by simp [child], Nat.le_refl _⟩

theorem grown_addClosure (closure : Closure) : Grown store (store.addClosure closure).2 :=
  ⟨Nat.le_refl _, Nat.le_refl _, by simp [addClosure]⟩

theorem grown_cons : Grown store (store.cons head tail).2 :=
  ⟨by simp [cons], Nat.le_refl _, Nat.le_refl _⟩

theorem grown_setPart (id : CellId) (side : Side) : Grown store (store.setPart id side value) :=
  ⟨Nat.le_of_eq (store.size_setPart id side value).symm, Nat.le_refl _, Nat.le_refl _⟩

theorem grown_note (text : String) : Grown store (store.note text) :=
  ⟨Nat.le_refl _, Nat.le_refl _, Nat.le_refl _⟩

theorem grown_ofItems (items : List Object) : Grown store (store.ofItems items tail).2 := by
  refine ofItems_induction (motive := fun _ after => Grown store after) (.refl store) ?_
  exact fun _ _ _ _ grown => grown.trans grown_cons

theorem HoldsCell.mono {cell : Cell} (good : before.HoldsCell cell) (grown : Grown before after) :
    after.HoldsCell cell :=
  ⟨good.1.mono grown, good.2.mono grown⟩

theorem HoldsFrame.mono {frame : Frame} (good : before.HoldsFrame frame)
    (grown : Grown before after) : after.HoldsFrame frame :=
  ⟨fun entry member => (good.binding entry member).mono grown,
    fun outer member => Nat.lt_of_lt_of_le (good.ancestor outer member) grown.frames_le⟩

theorem HoldsClosure.mono {closure : Closure} (good : before.HoldsClosure closure)
    (grown : Grown before after) : after.HoldsClosure closure :=
  ⟨good.body.mono grown, Nat.lt_of_lt_of_le good.frame grown.frames_le⟩

theorem mem_modify {α : Type} {entries : Array α} {place : Nat} {change : α → α} {entry : α}
    (member : entry ∈ entries.modify place change) :
    entry ∈ entries ∨ ∃ inside : place < entries.size, entry = change entries[place] := by
  obtain ⟨index, inside, rfl⟩ := Array.mem_iff_getElem.mp member
  rw [Array.getElem_modify]
  split
  · rename_i same
    subst same
    exact .inr ⟨by simpa using inside, rfl⟩
  · exact .inl (Array.getElem_mem _)

namespace Good

/-- A store that has grown from a good one is good if all that is new in it is. -/
theorem grow (good : before.Good) (grown : Grown before after)
    (cell : ∀ cell ∈ after.cells, cell ∈ before.cells ∨ after.HoldsCell cell)
    (frame : ∀ frame ∈ after.frames, frame ∈ before.frames ∨ after.HoldsFrame frame)
    (closure : ∀ closure ∈ after.closures,
      closure ∈ before.closures ∨ after.HoldsClosure closure) : after.Good where
  cell entry member := (cell entry member).elim (fun old => (good.cell entry old).mono grown) id
  frame entry member := (frame entry member).elim (fun old => (good.frame entry old).mono grown) id
  closure entry member :=
    (closure entry member).elim (fun old => (good.closure entry old).mono grown) id

theorem cell_at (good : store.Good) {id : CellId} (old : id < store.cells.size) :
    store.HoldsCell (store.cell id) :=
  good.cell _ (by simp [Store.cell, Array.getD, old])

theorem frame_at (good : store.Good) (old : frame < store.frames.size) :
    store.HoldsFrame (store.frame frame) :=
  good.frame _ (by simp [Store.frame, Array.getD, old])

theorem closure_at (good : store.Good) {id : ClosureId} (old : id < store.closures.size) :
    store.HoldsClosure (store.closure id) :=
  good.closure _ (by simp [Store.closure, Array.getD, old])

theorem cons (good : store.Good) (first : store.Holds head) (last : store.Holds tail) :
    (store.cons head tail).2.Good := by
  refine good.grow grown_cons ?_ (fun _ => .inl) fun _ => .inl
  intro cell member
  rcases Array.mem_push.mp member with old | rfl
  · exact .inl old
  · exact .inr ⟨first.mono grown_cons, last.mono grown_cons⟩

theorem setPart (good : store.Good) (id : CellId) (side : Side) (held : store.Holds value) :
    (store.setPart id side value).Good := by
  refine good.grow (grown_setPart id side) ?_ (fun _ => .inl) fun _ => .inl
  intro cell member
  simp only [Store.setPart] at member
  rcases mem_modify member with old | ⟨inside, rfl⟩
  · exact .inl old
  · have grown : Grown store (store.setPart id side value) := grown_setPart id side
    have before := (good.cell _ (Array.getElem_mem inside)).mono grown
    have new := held.mono grown
    cases side with
    | head => exact .inr ⟨new, before.2⟩
    | tail => exact .inr ⟨before.1, new⟩

theorem note (good : store.Good) (text : String) : (store.note text).Good :=
  good.grow (grown_note text) (fun _ => .inl) (fun _ => .inl) fun _ => .inl

theorem ofItems {items : List Object} (good : store.Good)
    (known : ∀ item ∈ items, store.Holds item) (last : store.Holds tail) :
    (store.ofItems items tail).2.Good ∧
      (store.ofItems items tail).2.Holds (store.ofItems items tail).1 := by
  refine (ofItems_induction (motive := fun value after => Grown store after ∧
    after.Good ∧ after.Holds value) ⟨.refl store, good, last⟩ ?_).2
  rintro item member rest between ⟨grown, goodRest, chain⟩
  have pair : (between.cons item rest).1 < (between.cons item rest).2.cells.size := by
    simp [Store.cons]
  exact ⟨grown.trans grown_cons, goodRest.cons ((known item member).mono grown) chain, rfl, pair⟩

theorem define (good : store.Good) (name : Symbol) (held : store.Holds value) :
    (store.define frame name value).Good := by
  refine good.grow (grown_define name) (fun _ => .inl) ?_ fun _ => .inl
  intro entry member
  simp only [Store.define] at member
  rcases mem_modify member with old | ⟨inside, rfl⟩
  · exact .inl old
  · have grown : Grown store (store.define frame name value) := grown_define name
    have before := (good.frame _ (Array.getElem_mem inside)).mono grown
    refine .inr ⟨fun binding bound => ?_, before.ancestor⟩
    rcases Bindings.mem_set bound with rfl | known
    · exact held.mono grown
    · exact before.binding binding known

theorem child (good : store.Good) (inside : frame < store.frames.size) :
    (store.child frame).2.Good := by
  refine good.grow grown_child (fun _ => .inl) ?_ fun _ => .inl
  intro entry member
  rcases Array.mem_push.mp member with old | rfl
  · exact .inl old
  · refine .inr ⟨nofun, fun outer further => ?_⟩
    refine Nat.lt_of_lt_of_le ?_ grown_child.frames_le
    rcases List.mem_cons.mp further with rfl | further
    · exact inside
    · exact (good.frame_at inside).ancestor outer further

theorem addClosure (good : store.Good) {closure : Closure}
    (wellFormed : store.WellFormed closure.body) (inside : closure.frame < store.frames.size) :
    (store.addClosure closure).2.Good := by
  refine good.grow (grown_addClosure closure) (fun _ => .inl) (fun _ => .inl) ?_
  intro entry member
  rcases Array.mem_push.mp member with old | rfl
  · exact .inl old
  · exact .inr ⟨wellFormed.mono (grown_addClosure _), inside⟩

end Good

theorem Good.items (good : store.Good) {items : List Object} (held : store.Holds value)
    (proper : store.listItems? value = some items) : ∀ item ∈ items, store.Holds item := by
  rw [heads_of_listItems? proper]
  exact follow_heads (fun _ pair => good.cell_at pair.2) _ held

theorem Good.lookup (good : store.Good) {name : Symbol} (inside : frame < store.frames.size)
    (found : store.lookup? frame name = some value) : store.Holds value := by
  obtain ⟨id, member, bound⟩ := List.exists_of_findSome?_eq_some found
  have known : id < store.frames.size := by
    rcases List.mem_cons.mp member with rfl | further
    · exact inside
    · exact (good.frame_at inside).ancestor id further
  exact (good.frame_at known).binding (name, value) (Bindings.mem_of_get? bound)

theorem wellFormed_bodyNode {nodes : List Object}
    (each : ∀ node ∈ nodes, store.WellFormed node) (few : nodes.length + 1 ≤ mostCounted) :
    store.WellFormed (bodyNode nodes) := by
  match nodes with
  | [] => exact .literal none ⟨rfl, trivial⟩
  | [node] => exact each node List.mem_cons_self
  | first :: second :: rest =>
      exact .form none (List.forall_mem_cons.mpr ⟨.reference none beginKeyword, each⟩) few

theorem isTooLong_of_isValue (isValue : value.isValue) : value.isTooLong = false := by
  cases value with
  | integer value =>
      have fits : (Number.integer value).Fits := isValue
      have short : value.natAbs < digitBound :=
        Nat.lt_of_le_of_lt fits.onTheWay Number.mostOnTheWay_lt_digitBound
      simpa [Object.isTooLong] using short
  | _ => rfl

theorem Good.writable (good : store.Good) (held : store.Holds value) : store.writable value := by
  refine writable_of_closed (fun _ held => isTooLong_of_isValue held.1) ?_ held
  intro whole held part shown
  cases whole with
  | pair id =>
      obtain ⟨first, last⟩ := good.cell_at held.2
      rcases List.mem_cons.mp shown with rfl | shown
      · exact first
      · obtain rfl := List.mem_singleton.mp shown
        exact last
  | sequence | literal | reference | form => exact absurd held.1 Bool.false_ne_true
  | _ => contradiction

theorem Good.writable_node (good : store.Good) {node : Object} (wellFormed : store.WellFormed node) :
    store.writable node := by
  refine writable_iff_parts.mpr ⟨?_, ?_⟩
  · cases wellFormed <;> rfl
  induction wellFormed with
  | literal label held => exact List.forall_mem_singleton.mpr (good.writable held)
  | reference label name => exact List.forall_mem_singleton.mpr (good.writable ⟨rfl, trivial⟩)
  | form label each few ih =>
      refine fun part member => writable_iff_parts.mpr ⟨?_, ih part member⟩
      cases each part member <;> rfl

theorem Good.writable_operands (good : store.Good) {operands : List Object}
    (each : ∀ operand ∈ operands, store.WellFormed operand) :
    store.writable (operandList operands) :=
  writable_iff_parts.mpr ⟨rfl, fun operand member => good.writable_node (each operand member)⟩

theorem holds_of_isScalar (scalar : value.isScalar) : store.Holds value := by
  cases value with
  | boolean | float => exact ⟨rfl, trivial⟩
  | integer value => exact ⟨scalar, trivial⟩
  | _ => contradiction

end Store

end LispCore
