import LispCore.Chain
import LispCore.Proofs.Runs

namespace LispCore

namespace Store

variable {store : Store}

/-- What holds of the tail, and is handed on by every new pair, holds of a new chain. -/
theorem ofItems_induction {items : List Object} {tail : Object} {motive : Object → Store → Prop}
    (last : motive tail store)
    (join : ∀ item ∈ items, ∀ rest between, motive rest between →
      motive (.pair (between.cons item rest).1) (between.cons item rest).2) :
    motive (store.ofItems items tail).1 (store.ofItems items tail).2 := by
  induction items with
  | nil => exact last
  | cons item items ih =>
      have chain := ih fun other member => join other (List.mem_cons_of_mem item member)
      exact join item List.mem_cons_self _ _ chain

theorem ofItems_frames (store : Store) (items : List Object) (tail : Object) :
    (store.ofItems items tail).2.frames = store.frames ∧
      (store.ofItems items tail).2.closures = store.closures := by
  refine ofItems_induction (motive := fun _ after => after.frames = store.frames ∧
    after.closures = store.closures) ⟨rfl, rfl⟩ ?_
  exact fun _ _ _ _ unchanged => unchanged

theorem ofItems_log (store : Store) (items : List Object) (tail : Object) :
    (store.ofItems items tail).2.log = store.log := by
  refine ofItems_induction (motive := fun _ after => after.log = store.log) rfl ?_
  exact fun _ _ _ _ unchanged => unchanged

theorem ofItems_cells (store : Store) (items : List Object) (tail : Object) :
    store.cells.size ≤ (store.ofItems items tail).2.cells.size ∧
      ∀ id < store.cells.size, (store.ofItems items tail).2.cell id = store.cell id := by
  refine ofItems_induction (motive := fun _ after => store.cells.size ≤ after.cells.size ∧
    ∀ id < store.cells.size, after.cell id = store.cell id) ⟨Nat.le_refl _, fun _ _ => rfl⟩ ?_
  rintro item _ rest between ⟨more, kept⟩
  refine ⟨?_, fun id old => ?_⟩
  · rw [cons, Array.size_push]
    exact Nat.le_succ_of_le more
  · rw [between.cell_cons_of_lt item rest (Nat.lt_of_lt_of_le old more)]
    exact kept id old

/-- What holds of an object, and of the head and the tail of every pair that it holds of,
holds of all heads along a chain. -/
theorem follow_heads {holds : Object → Prop}
    (parts : ∀ id, holds (.pair id) →
      holds (store.cell id).head ∧ holds (store.cell id).tail)
    (steps : Nat) {object : Object} (first : holds object) :
    ∀ head ∈ (store.follow steps object).1, holds head := by
  induction steps generalizing object with
  | zero => simp [follow]
  | succ steps ih =>
      cases object with
      | pair id =>
          obtain ⟨head, tail⟩ := parts id first
          exact List.forall_mem_cons.mpr ⟨head, ih tail⟩
      | _ => simp [follow]

theorem length_follow_le (steps : Nat) (object : Object) :
    (store.follow steps object).1.length ≤ steps := by
  induction steps generalizing object with
  | zero => simp [follow]
  | succ steps ih =>
      cases object with
      | pair id => exact Nat.succ_le_succ (ih _)
      | _ => simp [follow]

theorem heads_of_listItems? {object : Object} {items : List Object}
    (proper : store.listItems? object = some items) :
    items = (store.follow store.cells.size object).1 := by
  unfold listItems? chain at proper
  split at proper
  · rename_i heads ends
    rw [ends]
    exact (Option.some.inj proper).symm
  · contradiction

theorem length_le_of_listItems? {object : Object} {items : List Object}
    (proper : store.listItems? object = some items) : items.length ≤ store.cells.size := by
  rw [heads_of_listItems? proper]
  exact length_follow_le _ _

theorem isProperList_iff (store : Store) (value : Object) :
    store.isProperList value ↔ (store.chain value).2 = .nil := by
  unfold isProperList listItems?
  rcases store.chain value with ⟨heads, last⟩
  cases last <;> simp

end Store

end LispCore
