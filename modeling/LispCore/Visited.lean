import Std.Data.TreeSet.Lemmas

namespace LispCore

variable {α : Type} {order : α → α → Ordering}

/-- The number of places that are not among the visited ones. -/
def unvisited (places : List α) (visited : Std.TreeSet α order) : Nat :=
  places.countP fun place => !visited.contains place

theorem countP_lt_countP {p q : α → Bool} {items : List α} {item : α}
    (narrower : ∀ other, p other → q other) (member : item ∈ items)
    (excluded : ¬ p item) (included : q item) : items.countP p < items.countP q := by
  induction items with
  | nil => cases member
  | cons first rest ih =>
      have atMost : rest.countP p ≤ rest.countP q :=
        List.countP_mono_left fun other _ => narrower other
      simp only [List.countP_cons]
      rcases List.mem_cons.mp member with rfl | later
      · simp only [excluded, included, if_true]
        simpa using Nat.lt_succ_of_le atMost
      · refine Nat.add_lt_add_of_lt_of_le (ih later) ?_
        by_cases holds : p first
        · simp [holds, narrower first holds]
        · simp [holds]

theorem unvisited_insert_lt [Std.TransCmp order] {places : List α}
    {visited : Std.TreeSet α order} {place : α} (member : place ∈ places)
    (new : place ∉ visited) :
    unvisited places (visited.insert place) < unvisited places visited := by
  have absent : visited.contains place = false := by
    simpa [← Std.TreeSet.contains_iff_mem] using new
  refine countP_lt_countP ?_ member ?_ ?_
  · intro other outside
    simp only [Std.TreeSet.contains_insert, Bool.not_or, Bool.and_eq_true] at outside
    exact outside.2
  · rw [Std.TreeSet.contains_insert_self]
    simp
  · simp [absent]

end LispCore
