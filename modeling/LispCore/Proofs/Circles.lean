import LispCore.Proofs.Bisimulation
import LispCore.Proofs.Chains
import Mathlib.Data.List.Perm.Basic
import Mathlib.Logic.Relation

/-!
Circles of pairs, and how far it is to the end of a chain without one.

A chain that comes to an end passes no pair twice, so it is at its end after as many pairs as
there are in the store. As `Store.follow` may take that many steps, `Store.chain` finds the
end of every chain that has one (`Store.ended_at_size`), and every chain of a store without
circles has one (`Store.Acyclic.ended`). What is found to be a proper list is a list by its
pairs (`Store.Lists`), and the other way round (`Store.listItems?_eq_some_iff`).
-/

namespace LispCore

namespace Store

/-- The tail of the one pair is the other pair. -/
def Leads (store : Store) (id next : CellId) : Prop :=
  (store.cell id).tail = .pair next

/-- The other pair is the head or the tail of the one. -/
def PartOf (store : Store) (id part : CellId) : Prop :=
  (store.cell id).head = .pair part ∨ (store.cell id).tail = .pair part

/-- No pair is reached from itself through heads and tails. -/
def Acyclic (store : Store) : Prop :=
  ∀ id, ¬ Relation.TransGen store.PartOf id id

/-- The pairs passed by following tails, at most the given number of them. -/
def passed (store : Store) : Nat → Object → List CellId
  | steps + 1, .pair id => id :: store.passed steps (store.cell id).tail
  | _, _ => []

variable {store : Store} {object : Object} {steps : Nat} {id next : CellId}

theorem follow_of_not_pair (plain : object.isPair = false) (steps : Nat) :
    store.follow steps object = ([], object) := by
  cases object with
  | pair id => contradiction
  | _ => cases steps <;> rfl

theorem follow_of_ended (ended : (store.follow steps object).2.isPair = false) {more : Nat}
    (enough : steps ≤ more) : store.follow more object = store.follow steps object := by
  induction steps generalizing more object with
  | zero =>
      have plain : object.isPair = false := by simpa [follow] using ended
      rw [follow_of_not_pair plain, follow_of_not_pair plain]
  | succ steps ih =>
      obtain ⟨more, rfl⟩ : ∃ fewer, more = fewer + 1 := ⟨more - 1, by omega⟩
      cases object with
      | pair id =>
          have endsOn : (store.follow steps (store.cell id).tail).2.isPair = false := ended
          simp only [follow, ih endsOn (Nat.le_of_succ_le_succ enough)]
      | _ => rfl

theorem not_circular_of_ended (ended : (store.follow steps (.pair id)).2.isPair = false) :
    ¬ Relation.TransGen store.Leads id id := by
  induction steps generalizing id with
  | zero => exact absurd ended (by simp [follow, Object.isPair])
  | succ steps ih =>
      intro circle
      obtain ⟨next, first, back⟩ := Relation.TransGen.head'_iff.mp circle
      have further : (store.follow steps (.pair next)).2.isPair = false := by
        rw [← (first : (store.cell id).tail = .pair next)]
        exact ended
      exact ih further (Relation.TransGen.tail' back first)

theorem leads_of_mem_passed {other : CellId}
    (member : other ∈ store.passed steps (store.cell id).tail) :
    Relation.TransGen store.Leads id other := by
  induction steps generalizing id with
  | zero => simp [passed] at member
  | succ steps ih =>
      cases tail : (store.cell id).tail with
      | pair next =>
          rw [tail] at member
          rcases List.mem_cons.mp member with rfl | further
          · exact .single tail
          · exact .head tail (ih further)
      | _ => simp [tail, passed] at member

theorem nodup_passed
    (free : ∀ id ∈ store.passed steps object, ¬ Relation.TransGen store.Leads id id) :
    (store.passed steps object).Nodup := by
  induction steps generalizing object with
  | zero => simp [passed]
  | succ steps ih =>
      cases object with
      | pair id =>
          obtain ⟨first, rest⟩ := List.forall_mem_cons.mp free
          exact List.nodup_cons.mpr ⟨fun again => first (leads_of_mem_passed again), ih rest⟩
      | _ => simp [passed]

theorem length_passed (onward : (store.follow steps object).2.isPair) :
    (store.passed (steps + 1) object).length = steps + 1 := by
  induction steps generalizing object with
  | zero =>
      cases object with
      | pair id => simp [passed]
      | _ => simp [follow, Object.isPair] at onward
  | succ steps ih =>
      cases object with
      | pair id => exact congrArg Nat.succ (ih onward)
      | _ => simp [follow, Object.isPair] at onward

theorem ended_of_mem_passed (ended : (store.follow steps object).2.isPair = false) {count : Nat}
    (member : id ∈ store.passed count object) :
    ∃ fewer, (store.follow fewer (.pair id)).2.isPair = false := by
  induction count generalizing steps object with
  | zero => simp [passed] at member
  | succ count ih =>
      cases object with
      | pair first =>
          rcases List.mem_cons.mp member with rfl | further
          · exact ⟨steps, ended⟩
          · cases steps with
            | zero => simp [follow, Object.isPair] at ended
            | succ steps =>
                have endsOn : (store.follow steps (store.cell first).tail).2.isPair = false := ended
                exact ih endsOn further
      | _ => simp [passed] at member

theorem passed_lt (closed : store.Closed) (known : store.Has object) :
    ∀ id ∈ store.passed steps object, id < store.cells.size := by
  induction steps generalizing object with
  | zero => simp [passed]
  | succ steps ih =>
      cases object with
      | pair id => exact List.forall_mem_cons.mpr ⟨known, ih (closed id known).2⟩
      | _ => simp [passed]

/-- A chain that meets no circle is at its end after as many pairs as there are. -/
theorem ended_of_free (closed : store.Closed) (known : store.Has object)
    (free : ∀ id ∈ store.passed (store.cells.size + 1) object,
      ¬ Relation.TransGen store.Leads id id) :
    (store.chain object).2.isPair = false := by
  refine Bool.eq_false_iff.mpr fun onward => ?_
  have length := length_passed onward
  have among : store.passed (store.cells.size + 1) object ⊆ List.range store.cells.size :=
    fun id member => List.mem_range.mpr (passed_lt closed known id member)
  have most := (List.subperm_of_subset (nodup_passed free) among).length_le
  rw [length, List.length_range] at most
  omega

theorem ended_at_size (closed : store.Closed) (known : store.Has object)
    (ended : (store.follow steps object).2.isPair = false) :
    (store.chain object).2.isPair = false := by
  refine ended_of_free closed known fun id member => ?_
  obtain ⟨fewer, further⟩ := ended_of_mem_passed ended member
  exact not_circular_of_ended further

theorem Acyclic.ended (acyclic : store.Acyclic) (closed : store.Closed)
    (known : store.Has object) : (store.chain object).2.isPair = false :=
  ended_of_free closed known fun id _ circle =>
    acyclic id (Relation.TransGen.mono (fun _ _ => .inr) _ _ circle)

theorem lastTail_of_ended (ended : (store.chain object).2.isPair = false) :
    store.lastTail object = (store.chain object).2 := by
  unfold lastTail
  generalize store.chain object = arrived at ended ⊢
  obtain ⟨heads, last⟩ := arrived
  cases last with
  | pair id => contradiction
  | _ => rfl

theorem listItems?_of_onward (onward : (store.chain object).2.isPair) :
    store.listItems? object = none := by
  unfold listItems?
  generalize store.chain object = arrived at onward
  obtain ⟨heads, last⟩ := arrived
  cases last with
  | pair id => rfl
  | _ => contradiction

/-- A list, told from the pairs that it is made of, and what it holds. -/
inductive Lists (store : Store) : Object → List Object → Prop
  | nil : Lists store .nil []
  | pair {id : CellId} {head tail : Object} {items : List Object}
      (inside : id < store.cells.size) (holds : store.cell id = ⟨head, tail⟩)
      (rest : Lists store tail items) : Lists store (.pair id) (head :: items)

namespace Lists

variable {items : List Object}

theorem mono (lists : store.Lists object items) {after : Store}
    (more : store.cells.size ≤ after.cells.size)
    (kept : ∀ id < store.cells.size, after.cell id = store.cell id) :
    after.Lists object items := by
  induction lists with
  | nil => exact .nil
  | pair inside holds _ ih =>
      exact .pair (Nat.lt_of_lt_of_le inside more) ((kept _ inside).trans holds) ih

theorem follow (lists : store.Lists object items) :
    store.follow items.length object = (items, .nil) := by
  induction lists with
  | nil => rfl
  | pair inside holds _ ih => simp only [List.length_cons, Store.follow, holds, ih]

theorem of_follow (closed : store.Closed) (known : store.Has object)
    (ends : store.follow steps object = (items, .nil)) : store.Lists object items := by
  induction steps generalizing object items with
  | zero =>
      obtain ⟨rfl, rfl⟩ := Prod.mk.inj ends
      exact .nil
  | succ steps ih =>
      cases object with
      | pair id =>
          obtain ⟨rfl, last⟩ := Prod.mk.inj ends
          exact .pair known rfl (ih (closed id known).2 (Prod.ext rfl last))
      | nil =>
          obtain ⟨rfl, _⟩ := Prod.mk.inj ends
          exact .nil
      | _ => cases (Prod.mk.inj ends).2

theorem ofItems (store : Store) (items : List Object) :
    (store.ofItems items .nil).2.Lists (store.ofItems items .nil).1 items := by
  induction items with
  | nil => exact .nil
  | cons item items ih =>
      let rest := (store.ofItems items .nil).1
      let between := (store.ofItems items .nil).2
      have more : between.cells.size < (between.cons item rest).2.cells.size := by
        simp [cons]
      refine .pair more (between.cell_cons_self item rest) (ih.mono (Nat.le_of_lt more) ?_)
      exact fun id old => between.cell_cons_of_lt item rest old

end Lists

/-- The lists that are found proper are all that there are. -/
theorem listItems?_eq_some_iff (closed : store.Closed) (known : store.Has object)
    {items : List Object} : store.listItems? object = some items ↔ store.Lists object items := by
  constructor
  · intro proper
    unfold listItems? chain at proper
    split at proper
    · rename_i heads ends
      obtain rfl := Option.some.inj proper
      exact .of_follow closed known ends
    · contradiction
  · intro lists
    have soon : (store.follow items.length object).2.isPair = false := by
      rw [lists.follow]
      rfl
    have atSize : (store.follow store.cells.size object).2.isPair = false :=
      ended_at_size closed known soon
    have later : store.follow store.cells.size object = store.follow items.length object :=
      (follow_of_ended atSize (Nat.le_max_left _ items.length)).symm.trans
        (follow_of_ended soon (Nat.le_max_right _ _))
    unfold listItems? chain
    rw [later, lists.follow]

end Store

end LispCore
