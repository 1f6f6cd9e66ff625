import LispCore.Proofs.Printing
import LispCore.Proofs.Quotation
import LispCore.Proofs.Source

namespace LispCore

namespace Object

mutual

/-- The shape of the data that a node was written as. -/
def picture : Object → Picture
  | .literal _ value => .atom value
  | .reference _ name => .atom name
  | .form _ _ elements => listPicture elements
  | object => .atom object

def listPicture : List Object → Picture
  | [] => .atom .nil
  | element :: elements => .pair (picture element) (listPicture elements)

end

end Object

namespace Picture

/-- Does something hold of all atoms of a picture? -/
def Ends (holds : Object → Prop) : Picture → Prop
  | .atom value => holds value
  | .mark => True
  | .pair head tail => head.Ends holds ∧ tail.Ends holds

theorem Ends.imp {holds holds' : Object → Prop} {picture : Picture}
    (imp : ∀ value, holds value → holds' value) (ends : picture.Ends holds) :
    picture.Ends holds' := by
  induction picture with
  | atom value => exact imp value ends
  | mark => trivial
  | pair head tail ihHead ihTail => exact ⟨ihHead ends.1, ihTail ends.2⟩

end Picture

namespace Store

/-- There are new pairs in the second store, and no other difference between the two. -/
structure AddsPairs (before after : Store) : Prop where
  frames : after.frames = before.frames
  closures : after.closures = before.closures
  log : after.log = before.log
  size_le : before.cells.size ≤ after.cells.size
  kept : ∀ id < before.cells.size, after.cell id = before.cell id

/-- An object is built in the shape of a picture from just the given pairs, each of which stands
in one place. What stands at the ends is not looked into. -/
inductive Built (store : Store) : Object → Picture → Finset CellId → Prop
  | atom (value : Object) : Built store value (.atom value) ∅
  | pair {id : CellId} {head tail : Picture} {first last : Finset CellId}
      (inside : id < store.cells.size) (heads : Built store (store.cell id).head head first)
      (tails : Built store (store.cell id).tail tail last) (apart : Disjoint first last)
      (new : id ∉ first ∪ last) :
      Built store (.pair id) (.pair head tail) (insert id (first ∪ last))

/-- Objects are built one beside the other, in the shapes of nodes. -/
inductive BuiltAll (store : Store) : List Object → List Object → Finset CellId → Prop
  | nil : BuiltAll store [] [] ∅
  | cons {item node : Object} {items nodes : List Object} {first rest : Finset CellId}
      (one : store.Built item node.picture first) (others : BuiltAll store items nodes rest)
      (apart : Disjoint first rest) : BuiltAll store (item :: items) (node :: nodes) (first ∪ rest)

variable {before between after store : Store} {value : Object} {picture : Picture}
  {cells : Finset CellId}

namespace AddsPairs

theorem refl (store : Store) : AddsPairs store store :=
  ⟨rfl, rfl, rfl, Nat.le_refl _, fun _ _ => rfl⟩

theorem trans (first : AddsPairs before between) (second : AddsPairs between after) :
    AddsPairs before after where
  frames := second.frames.trans first.frames
  closures := second.closures.trans first.closures
  log := second.log.trans first.log
  size_le := Nat.le_trans first.size_le second.size_le
  kept id old := (second.kept id (Nat.lt_of_lt_of_le old first.size_le)).trans (first.kept id old)

theorem cons (store : Store) (head tail : Object) : AddsPairs store (store.cons head tail).2 where
  frames := rfl
  closures := rfl
  log := rfl
  size_le := by simp [Store.cons]
  kept _ old := store.cell_cons_of_lt head tail old

theorem ofItems (store : Store) (items : List Object) (tail : Object) :
    AddsPairs store (store.ofItems items tail).2 :=
  ofItems_induction (motive := fun _ after => AddsPairs store after) (.refl store)
    fun _ _ _ _ added => added.trans (.cons _ _ _)

end AddsPairs

namespace Built

theorem lt_size (built : store.Built value picture cells) :
    ∀ id ∈ cells, id < store.cells.size := by
  induction built with
  | atom => simp
  | pair inside _ _ _ _ ihHead ihTail =>
      intro other member
      rcases Finset.mem_insert.mp member with rfl | member
      · exact inside
      · exact (Finset.mem_union.mp member).elim (ihHead other) (ihTail other)

/-- What is built stays so for as long as its own pairs stay as they are. -/
theorem kept (built : before.Built value picture cells)
    (more : before.cells.size ≤ after.cells.size)
    (kept : ∀ id ∈ cells, after.cell id = before.cell id) : after.Built value picture cells := by
  induction built with
  | atom value => exact .atom value
  | @pair id head tail first last inside _ _ apart new ihHead ihTail =>
      have same := kept id (Finset.mem_insert_self _ _)
      have heads := ihHead fun other member =>
        kept other (Finset.mem_insert_of_mem (Finset.mem_union_left _ member))
      have tails := ihTail fun other member =>
        kept other (Finset.mem_insert_of_mem (Finset.mem_union_right _ member))
      exact .pair (Nat.lt_of_lt_of_le inside more) (same ▸ heads) (same ▸ tails) apart new

theorem mono (built : before.Built value picture cells) (added : AddsPairs before after) :
    after.Built value picture cells :=
  built.kept added.size_le fun id member => added.kept id (built.lt_size id member)

theorem cons {head tail : Object} {first last : Picture} {cells' : Finset CellId}
    (heads : store.Built head first cells) (tails : store.Built tail last cells')
    (apart : Disjoint cells cells') :
    (store.cons head tail).2.Built (.pair (store.cons head tail).1) (.pair first last)
      (insert (store.cons head tail).1 (cells ∪ cells')) := by
  have added := AddsPairs.cons store head tail
  have here := store.cell_cons_self head tail
  have inside : (store.cons head tail).1 < (store.cons head tail).2.cells.size := by
    simp [Store.cons]
  have new : (store.cons head tail).1 ∉ cells ∪ cells' := fun old =>
    (Finset.mem_union.mp old).elim (fun old => Nat.lt_irrefl _ (heads.lt_size _ old))
      fun old => Nat.lt_irrefl _ (tails.lt_size _ old)
  refine .pair inside ?_ ?_ apart new
  · rw [here]
    exact heads.mono added
  · rw [here]
    exact tails.mono added

end Built

theorem BuiltAll.lt_size {items nodes : List Object} (built : store.BuiltAll items nodes cells) :
    ∀ id ∈ cells, id < store.cells.size := by
  induction built with
  | nil => simp
  | cons one _ _ ih =>
      exact fun id member => (Finset.mem_union.mp member).elim (one.lt_size id) (ih id)

/-- A list of what is built one beside the other has the pairs of its elements, and new ones. -/
theorem BuiltAll.ofItems {items nodes : List Object} (built : store.BuiltAll items nodes cells) :
    ∃ chain, (store.ofItems items .nil).2.Built (store.ofItems items .nil).1
        (Object.listPicture nodes) chain ∧
      ∀ id ∈ chain, id ∈ cells ∨ store.cells.size ≤ id := by
  induction built with
  | nil => exact ⟨∅, .atom .nil, by simp⟩
  | @cons item node items nodes first rest one others apart ih =>
      obtain ⟨chain, tail, among⟩ := ih
      -- The list behind the first element has pairs of the other elements, and later ones.
      have added := AddsPairs.ofItems store items .nil
      have separate : Disjoint first chain := Finset.disjoint_left.mpr fun id member again => by
        rcases among id again with old | new
        · exact Finset.disjoint_left.mp apart member old
        · exact absurd (one.lt_size id member) (Nat.not_lt.mpr new)
      refine ⟨_, (one.mono added).cons tail separate, fun id member => ?_⟩
      rcases Finset.mem_insert.mp member with rfl | member
      · exact .inr added.size_le
      · rcases Finset.mem_union.mp member with member | member
        · exact .inl (Finset.mem_union_left _ member)
        · exact (among id member).imp_left (Finset.mem_union_right _)

end Store

open Eval (parts_of_bind_ok)
open Store (AddsPairs)

namespace Object

mutual

theorem quoted_builds : ∀ {node value : Object} {before after : Store},
    node.quoted before = .ok value after →
    AddsPairs before after ∧ ∃ cells, after.Built value node.picture cells ∧
      ∀ id ∈ cells, before.cells.size ≤ id
  | .literal label held, value, before, after, quoted => by
      rw [Object.quoted] at quoted
      split at quoted
      · cases quoted
        exact ⟨.refl _, ∅, .atom _, by simp⟩
      · contradiction
  | .reference label name, value, before, after, quoted => by
      rw [Object.quoted] at quoted
      cases quoted
      exact ⟨.refl _, ∅, .atom _, by simp⟩
  | .form label shape elements, value, before, after, quoted => by
      rw [Object.quoted] at quoted
      obtain ⟨items, between, first, quoted⟩ := parts_of_bind_ok quoted
      obtain ⟨added, cells, built, new⟩ := quotedAll_builds first
      obtain ⟨chain, made, among⟩ := built.ofItems
      cases quoted
      refine ⟨added.trans (.ofItems between items .nil), chain, made, fun id member => ?_⟩
      rcases among id member with old | new'
      · exact new id old
      · exact Nat.le_trans added.size_le new'
  | .nil, _, _, _, quoted | .boolean _, _, _, _, quoted | .integer _, _, _, _, quoted
  | .float _, _, _, _, quoted | .symbol _, _, _, _, quoted | .string _, _, _, _, quoted
  | .pair _, _, _, _, quoted | .closure _, _, _, _, quoted | .primitive _, _, _, _, quoted
  | .alien _, _, _, _, quoted | .sequence _ _ _, _, _, _, quoted => by
      simp only [Object.quoted] at quoted
      contradiction

theorem quotedAll_builds : ∀ {nodes items : List Object} {before after : Store},
    quotedAll nodes before = .ok items after →
    AddsPairs before after ∧ ∃ cells, after.BuiltAll items nodes cells ∧
      ∀ id ∈ cells, before.cells.size ≤ id
  | [], items, before, after, quoted => by
      rw [quotedAll] at quoted
      cases quoted
      exact ⟨.refl _, ∅, .nil, by simp⟩
  | node :: nodes, items, before, after, quoted => by
      rw [quotedAll] at quoted
      obtain ⟨item, between, here, quoted⟩ := parts_of_bind_ok quoted
      obtain ⟨others, last, further, quoted⟩ := parts_of_bind_ok quoted
      cases quoted
      obtain ⟨added, first, one, new⟩ := quoted_builds here
      obtain ⟨added', rest, built, new'⟩ := quotedAll_builds further
      have apart : Disjoint first rest := Finset.disjoint_left.mpr fun id member again =>
        Nat.not_lt.mpr (new' id again) (one.lt_size id member)
      refine ⟨added.trans added', first ∪ rest, .cons (one.mono added') built apart, ?_⟩
      intro id member
      rcases Finset.mem_union.mp member with member | member
      · exact new id member
      · exact Nat.le_trans added.size_le (new' id member)

end

/-- Nodes that have nothing in them that the evaluator would refuse, in a form of any shape. -/
inductive Faultless : Object → Prop
  | literal {label : Option Label} {value : Object} (isValue : value.isValue) :
      Faultless (.literal label value)
  | reference {label : Option Label} (name : Symbol) : Faultless (.reference label (.symbol name))
  | form {label : Option Label} {shape : FormShape} {elements : List Object}
      (each : ∀ element ∈ elements, Faultless element) : Faultless (.form label shape elements)

mutual

theorem faultless_of_parts : ∀ {node : Object},
    (∀ part, Part part node → part.nodeFault? = none) → node.Faultless
  | .literal label value, sound => by
      have faultless := sound _ (.self _)
      by_cases isValue : value.isValue
      · exact .literal isValue
      · simp [nodeFault?, isValue] at faultless
  | .reference label name, sound => by
      have faultless := sound _ (.self _)
      cases name with
      | symbol name => exact .reference name
      | _ => contradiction
  | .form label shape elements, sound =>
      .form (faultlessAll_of_parts fun _ member part inside => sound part (.element member inside))
  | .nil, sound | .boolean _, sound | .integer _, sound | .float _, sound | .symbol _, sound
  | .string _, sound | .pair _, sound | .closure _, sound | .primitive _, sound | .alien _, sound
  | .sequence _ _ _, sound => by
      have faultless := sound _ (.self _)
      contradiction

theorem faultlessAll_of_parts : ∀ {nodes : List Object},
    (∀ node ∈ nodes, ∀ part, Part part node → part.nodeFault? = none) →
    ∀ node ∈ nodes, node.Faultless
  | [], _ => by simp
  | node :: nodes, sound => by
      obtain ⟨one, others⟩ := List.forall_mem_cons.mp sound
      exact List.forall_mem_cons.mpr ⟨faultless_of_parts one, faultlessAll_of_parts others⟩

end

variable {node value : Object} {before after : Store} {holds : Object → Prop}

/-- What quoting takes for data is faultless, if it refers to nothing by what is no name. -/
theorem faultless_of_quoted (quoted : node.quoted before = .ok value after)
    (named : ∀ part, Part part node → ¬ part.isMisnamed) : node.Faultless := by
  refine faultless_of_parts fun part inside => ?_
  have accepted : ¬ Refuses (node.quoted before) := by
    rintro ⟨_, _, _, refused⟩
    rw [quoted] at refused
    contradiction
  rw [quoted_refuses_iff] at accepted
  have quotable : ¬ part.isUnquotable := fun unquotable => accepted ⟨part, inside, unquotable⟩
  have faultless : ¬ part.nodeFault?.isSome := fun faulty =>
    (isSome_nodeFault?_iff.mp faulty).elim quotable (named part inside)
  simpa using faultless

namespace Faultless

theorem of_proper (proper : node.Proper) : node.Faultless := by
  induction proper with
  | literal isValue => exact .literal isValue
  | reference => exact .reference _
  | form _ _ ih => exact .form ih

theorem quoted_ok (faultless : node.Faultless) (before : Store) :
    ∃ value after, node.quoted before = .ok value after := by
  induction faultless generalizing before with
  | literal isValue =>
      simp only [Object.quoted, if_pos isValue]
      exact ⟨_, _, rfl⟩
  | reference name =>
      simp only [Object.quoted]
      exact ⟨_, _, rfl⟩
  | @form label shape elements each ih =>
      have all : ∃ items after, quotedAll elements before = .ok items after := by
        clear each
        induction elements generalizing before with
        | nil =>
            rw [quotedAll]
            exact ⟨_, _, rfl⟩
        | cons element elements ihElements =>
            obtain ⟨one, others⟩ := List.forall_mem_cons.mp ih
            obtain ⟨item, between, first⟩ := one before
            obtain ⟨items, after, rest⟩ := ihElements others between
            refine ⟨item :: items, after, ?_⟩
            rw [quotedAll, Eval.bind_ok first, Eval.bind_ok rest]
            rfl
      obtain ⟨items, between, first⟩ := all
      refine ⟨(between.ofItems items .nil).1, (between.ofItems items .nil).2, ?_⟩
      rw [Object.quoted, Eval.bind_ok first]
      rfl

theorem isValue_of_carried (faultless : node.Faultless) (carried : node.Carries value) :
    value.isValue := by
  induction carried with
  | literal =>
      cases faultless with
      | literal isValue => exact isValue
  | name =>
      cases faultless
      rfl
  | element member _ ih =>
      cases faultless with
      | form each => exact ih (each _ member)

/-- At the ends of its picture there is what a node carries, and nil. -/
theorem ends_picture (faultless : node.Faultless) (nil : holds .nil)
    (carried : ∀ value, node.Carries value → holds value) : node.picture.Ends holds := by
  induction faultless with
  | literal isValue => exact carried _ .literal
  | reference name => exact carried _ .name
  | @form label shape elements each ih =>
      have listed : ∀ nodes : List Object, (∀ node ∈ nodes, node.picture.Ends holds) →
          (listPicture nodes).Ends holds := by
        intro nodes all
        induction nodes with
        | nil => exact nil
        | cons node nodes ihNodes =>
            obtain ⟨one, others⟩ := List.forall_mem_cons.mp all
            exact ⟨one, ihNodes others⟩
      exact listed elements fun element member =>
        ih element member fun value inside => carried value (.element member inside)

end Faultless

end Object

end LispCore
