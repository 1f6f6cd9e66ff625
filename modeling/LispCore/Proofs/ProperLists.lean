import LispCore.Proofs.Calls.Spreading
import LispCore.Proofs.Readings
import Mathlib.Data.List.TFAE
import Mathlib.Tactic.IntervalCases
import Mathlib.Tactic.TFAE

namespace LispCore

open Eval (bind_ok)
open Object (applicationTo)

namespace Store

/-- Following tails as a loop that remembers the pairs it has met, without a look at the size of
the store: nothing if it does not end within the given number of turns. -/
def arriveWithin (store : Store) : Nat → Std.TreeSet CellId compare → Object → Option Object
  | 0, _, .pair _ => none
  | turns + 1, met, .pair id =>
      if id ∈ met then some (.pair id)
      else store.arriveWithin turns (met.insert id) (store.cell id).tail
  | _, _, object => some object

variable {store after : Store} {object last value tail : Object} {items : List Object}
  {turns more steps : Nat} {met met' : Std.TreeSet CellId compare}

theorem arriveWithin_of_not_pair (plain : object.isPair = false) :
    store.arriveWithin turns met object = some object := by
  cases object with
  | pair id => contradiction
  | _ => cases turns <;> rfl

theorem firstRepeated_of_not_pair (plain : object.isPair = false) :
    store.firstRepeated turns met object = object := by
  cases object with
  | pair id => contradiction
  | _ => cases turns <;> rfl

/-- The loop ends once there are more turns than pairs that it has not met. -/
theorem arriveWithin_eq (closed : store.Closed) (known : store.Has object)
    (enough : unvisited (List.range store.cells.size) met < turns) :
    store.arriveWithin turns met object = some (store.firstRepeated turns met object) := by
  induction turns generalizing met object with
  | zero => exact absurd enough (Nat.not_lt_zero _)
  | succ turns ih =>
      cases object with
      | pair id =>
          by_cases old : id ∈ met
          · simp only [arriveWithin, firstRepeated, if_pos old]
          · have fewer := unvisited_insert_lt (List.mem_range.mpr known) old
            simp only [arriveWithin, firstRepeated, if_neg old]
            exact ih (closed id known).2 (by omega)
      | _ => rfl

theorem arriveWithin_more (arrives : store.arriveWithin turns met object = some last)
    (enough : turns ≤ more) : store.arriveWithin more met object = some last := by
  induction turns generalizing met object more with
  | zero =>
      cases object with
      | pair id => contradiction
      | _ => exact (arriveWithin_of_not_pair rfl).trans arrives
  | succ turns ih =>
      cases object with
      | pair id =>
          obtain ⟨more, rfl⟩ : ∃ fewer, more = fewer + 1 := ⟨more - 1, by omega⟩
          by_cases old : id ∈ met
          · simpa only [arriveWithin, if_pos old] using arrives
          · simp only [arriveWithin, if_neg old] at arrives ⊢
            exact ih arrives (Nat.le_of_succ_le_succ enough)
      | _ => exact (arriveWithin_of_not_pair rfl).trans arrives

/-- What is no pair is the end of the chain. -/
theorem follow_of_arriveWithin (arrives : store.arriveWithin turns met object = some last)
    (plain : last.isPair = false) : (store.follow turns object).2 = last := by
  induction turns generalizing met object with
  | zero =>
      cases object with
      | pair id => contradiction
      | _ => exact Option.some.inj arrives
  | succ turns ih =>
      cases object with
      | pair id =>
          by_cases old : id ∈ met
          · simp only [arriveWithin, if_pos old, Option.some.injEq] at arrives
            subst arrives
            contradiction
          · simp only [arriveWithin, if_neg old] at arrives
            exact ih arrives
      | _ => exact Option.some.inj arrives

/-- A chain that comes to an end meets no pair twice before. -/
theorem firstRepeated_of_ended (ended : (store.follow steps object).2.isPair = false)
    (apart : ∀ id ∈ store.passed steps object, id ∉ met) (enough : steps ≤ more) :
    store.firstRepeated more met object = (store.follow steps object).2 := by
  induction steps generalizing object met more with
  | zero => exact firstRepeated_of_not_pair ended
  | succ steps ih =>
      cases object with
      | pair id =>
          obtain ⟨more, rfl⟩ : ∃ fewer, more = fewer + 1 := ⟨more - 1, by omega⟩
          obtain ⟨new, apart⟩ := List.forall_mem_cons.mp apart
          simp only [firstRepeated, if_neg new]
          refine ih ended (fun other member old => ?_) (Nat.le_of_succ_le_succ enough)
          rcases Std.TreeSet.mem_insert.mp old with same | old
          · obtain rfl := Std.LawfulEqCmp.eq_of_compare same
            exact not_circular_of_ended ended (leads_of_mem_passed member)
          · exact apart other member old
      | _ => exact firstRepeated_of_not_pair rfl

theorem lastTail_eq (store : Store) (object : Object) :
    store.lastTail object = store.firstRepeated (store.cells.size + 1) ∅ object := by
  cases onward : (store.chain object).2.isPair with
  | false =>
      rw [lastTail_of_ended onward]
      exact (firstRepeated_of_ended onward (by simp) (Nat.le_succ _)).symm
  | true =>
      unfold lastTail
      generalize store.chain object = arrived at onward
      obtain ⟨heads, last⟩ := arrived
      cases last with
      | pair id => rfl
      | _ => contradiction

/-- Following tails, the loop ends within one turn more than there are pairs. -/
theorem arriveWithin_lastTail (closed : store.Closed) (known : store.Has object)
    (enough : store.cells.size < turns) :
    store.arriveWithin turns ∅ object = some (store.lastTail object) := by
  have places : unvisited (List.range store.cells.size)
      (∅ : Std.TreeSet CellId compare) = store.cells.size := by simp [unvisited]
  rw [lastTail_eq]
  exact arriveWithin_more (arriveWithin_eq closed known (by omega)) enough

/-- Where tails lead tells lists from all else. -/
theorem lastTail_eq_nil_iff (closed : store.Closed) (known : store.Has object) :
    store.lastTail object = .nil ↔ (store.chain object).2 = .nil := by
  cases onward : (store.chain object).2.isPair with
  | false => rw [lastTail_of_ended onward]
  | true =>
      -- an end that the loop finds would be the end of the chain
      have arrives := arriveWithin_lastTail closed known (Nat.lt_succ_self _)
      constructor
      · intro nil
        rw [nil] at arrives
        have ended := follow_of_arriveWithin arrives rfl
        have stops : (store.follow (store.cells.size + 1) object).2.isPair = false := by rw [ended]; rfl
        rw [ended_at_size closed known stops] at onward
        contradiction
      · intro nil
        rw [nil] at onward
        contradiction

/-- The loop takes no notice of what it cannot meet: pairs other than those of a store that it
starts in. -/
theorem arriveWithin_kept (closed : store.Closed) (known : store.Has object)
    (kept : ∀ id < store.cells.size, after.cell id = store.cell id)
    (same : ∀ id < store.cells.size, id ∈ met' ↔ id ∈ met) :
    after.arriveWithin turns met' object = store.arriveWithin turns met object := by
  induction turns generalizing met met' object with
  | zero => cases object <;> rfl
  | succ turns ih =>
      cases object with
      | pair id =>
          by_cases old : id ∈ met
          · simp only [arriveWithin, if_pos old, if_pos ((same id known).mpr old)]
          · have new : id ∉ met' := fun again => old ((same id known).mp again)
            simp only [arriveWithin, if_neg old, if_neg new, kept id known]
            refine ih (closed id known).2 fun other inside => ?_
            simp only [Std.TreeSet.mem_insert, same other inside]
      | _ => rfl

/-- Following tails leads there, also after pairs that are none of the store. -/
def LeadsTo (store : Store) (object last : Object) : Prop :=
  ∀ met : Std.TreeSet CellId compare, (∀ id ∈ met, store.cells.size ≤ id) →
    ∃ turns, store.arriveWithin turns met object = some last

namespace LeadsTo

theorem lastTail (closed : store.Closed) (known : store.Has object) :
    store.LeadsTo object (store.lastTail object) := by
  intro met beyond
  refine ⟨store.cells.size + 1, ?_⟩
  rw [← arriveWithin_lastTail closed known (Nat.lt_succ_self _)]
  refine arriveWithin_kept closed known (fun _ _ => rfl) fun id inside => ?_
  have absent : id ∉ met := fun old => Nat.not_le_of_lt inside (beyond id old)
  simp [absent]

theorem eq_lastTail (leads : store.LeadsTo object last) (closed : store.Closed)
    (known : store.Has object) : store.lastTail object = last := by
  obtain ⟨turns, arrives⟩ := leads ∅ (by simp)
  have later := arriveWithin_more arrives (Nat.le_max_left turns (store.cells.size + 1))
  rw [arriveWithin_lastTail closed known (Nat.le_max_right ..)] at later
  exact Option.some.inj later

theorem cons {rest : Object} (leads : store.LeadsTo rest last) (closed : store.Closed)
    (known : store.Has rest) (item : Object) :
    (store.cons item rest).2.LeadsTo (.pair (store.cons item rest).1) last := by
  intro met beyond
  have size : (store.cons item rest).2.cells.size = store.cells.size + 1 := Array.size_push ..
  rw [size] at beyond
  have new : (store.cons item rest).1 ∉ met := fun old => Nat.not_succ_le_self _ (beyond _ old)
  obtain ⟨turns, arrives⟩ := leads (met.insert store.cells.size) fun id old => by
    rcases Std.TreeSet.mem_insert.mp old with same | old
    · exact Nat.le_of_eq (Std.LawfulEqCmp.eq_of_compare same)
    · exact Nat.le_of_succ_le (beyond id old)
  refine ⟨turns + 1, ?_⟩
  simp only [arriveWithin, if_neg new, store.cell_cons_self item rest]
  rw [← arrives]
  exact arriveWithin_kept closed known (fun _ => store.cell_cons_of_lt item rest) fun _ _ => .rfl

end LeadsTo

/-- What is known of a chain of new pairs: nothing dangles, and it leads to where its tail leads. -/
theorem ofItems_leadsTo (closed : store.Closed) (known : ∀ item ∈ items, store.Has item)
    (knownTail : store.Has tail) :
    (store.ofItems items tail).2.Closed ∧
      (store.ofItems items tail).2.Has (store.ofItems items tail).1 ∧
      (store.ofItems items tail).2.LeadsTo (store.ofItems items tail).1 (store.lastTail tail) := by
  suffices all : store.cells.size ≤ (store.ofItems items tail).2.cells.size ∧
      (store.ofItems items tail).2.Closed ∧
      (store.ofItems items tail).2.Has (store.ofItems items tail).1 ∧
      (store.ofItems items tail).2.LeadsTo (store.ofItems items tail).1 (store.lastTail tail) from
    all.2
  refine ofItems_induction (motive := fun rest between =>
      store.cells.size ≤ between.cells.size ∧ between.Closed ∧ between.Has rest ∧
        between.LeadsTo rest (store.lastTail tail))
    ⟨Nat.le_refl _, closed, knownTail, .lastTail closed knownTail⟩ ?_
  rintro item member rest between ⟨grown, closedBetween, knownRest, leads⟩
  have size : (between.cons item rest).2.cells.size = between.cells.size + 1 := Array.size_push ..
  refine ⟨by omega, closedBetween.cons ((known item member).mono grown) knownRest, ?_,
    leads.cons closedBetween knownRest item⟩
  exact Nat.lt_of_lt_of_eq (Nat.lt_succ_self _) size.symm

/-- The function is called on these items whenever it is applied to this object. -/
def HandsOver (store : Store) (value : Object) (items : List Object) : Prop :=
  ∀ {patience depth position function list callee frame before between},
    (Engine.ofDepth patience depth).operand function frame before = .ok callee between →
    (Engine.ofDepth patience depth).operand list frame between = .ok value store →
    (Engine.ofDepth patience (depth + 1)).answer position (applicationTo function list) frame
        before = (Engine.ofDepth patience depth).apply position callee items store

/-- No function is ever called when it is applied to this object. -/
def RefusesToApply (store : Store) (value : Object) : Prop :=
  ∀ {patience depth position function list callee frame before between},
    (Engine.ofDepth patience depth).operand function frame before = .ok callee between →
    (Engine.ofDepth patience depth).operand list frame between = .ok value store →
    (Engine.ofDepth patience (depth + 1)).answer position (applicationTo function list) frame
        before = .error (.fault (.wrongKind "proper list" value (some "apply"))) store

theorem handsOver_of_listItems? (proper : store.listItems? value = some items) :
    store.HandsOver value items := by
  intro _ _ _ _ _ _ _ _ _ first second
  rw [Engine.answer_applicationTo first second, proper]

theorem refusesToApply_of_listItems? (improper : store.listItems? value = none) :
    store.RefusesToApply value := by
  intro _ _ _ _ _ _ _ _ _ first second
  rw [Engine.answer_applicationTo first second, improper]

/-- What no function is called on is not handed over: there are functions that take any items. -/
theorem not_handsOver (isValue : value.isValue) (refuses : store.RefusesToApply value) :
    ¬ store.HandsOver value items := by
  intro hands
  have function : (Engine.ofDepth 0 1).Reads 0 store (.literal none (.primitive .lister))
      (.primitive .lister) := .literal rfl none
  have list : (Engine.ofDepth 0 1).Reads 0 store (.literal none value) value :=
    .literal isValue none
  have called : (Engine.ofDepth 0 2).answer .tail
      (applicationTo (.literal none (.primitive .lister)) (.literal none value)) 0 store =
        (Engine.ofDepth 0 1).apply .tail (.primitive .lister) items store :=
    hands function.operand list.operand
  rw [refuses function.operand list.operand] at called
  have listed : (Engine.ofDepth 0 1).apply .tail (.primitive .lister) items store = _ :=
    Eval.map_ok (Primitive.call_lister items store) Answer.value
  rw [listed] at called
  contradiction

end Store

namespace Primitive

/-- The primitive that tells lists, and the one that counts what they hold. -/
def listTest : Primitive :=
  .ofOperation (.ask .isList) 1 (some 1)

def counter : Primitive :=
  .ofOperation .length 1 (some 1)

theorem call_listTest (value : Object) (store : Store) :
    listTest.call [value] store = .ok (.boolean (store.listItems? value).isSome) store :=
  rfl

theorem call_counter (value : Object) (store : Store) :
    counter.call [value] store =
      match store.listItems? value with
      | some items => .ok (.integer items.length) store
      | none => .error (.fault (.wrongKind "proper list" value (some "length"))) store := by
  change (itemsOr (.wrongKind "proper list" value (some "length")) value >>= fun items =>
    (pure (.integer items.length) : Eval Object)) store = _
  rw [Eval.bind_apply, itemsOr_apply]
  cases store.listItems? value <;> rfl

end Primitive

/-- What is found out about a value as a list. -/
structure Store.ListsAgree (store : Store) (value : Object) : Prop where
  /-- The loop that follows tails ends, within one turn more than there are pairs. -/
  ends : ∀ turns, store.cells.size < turns →
    store.arriveWithin turns ∅ value = some (store.lastTail value)
  /-- All agree on whether it is a list: its tails lead to nil, it is tested and taken for one, it
  has a length, and functions can be applied to it. -/
  agree : List.TFAE [
    ∃ items, store.Lists value items,
    store.lastTail value = .nil,
    Primitive.listTest.call [value] store = .ok (.boolean true) store,
    ∃ items, store.listItems? value = some items,
    ∃ count after, Primitive.counter.call [value] store = .ok count after,
    ∃ items, store.HandsOver value items]
  /-- If it is, they agree on what it holds, and a new list of that is a list of the same. -/
  list : ∀ items, store.Lists value items →
    store.listItems? value = some items ∧
    Primitive.counter.call [value] store = .ok (.integer items.length) store ∧
    store.HandsOver value items ∧
    (store.ofItems items .nil).2.Lists (store.ofItems items .nil).1 items ∧
    (store.ofItems items .nil).2.Lists value items
  /-- If it is not, what needs a list fails, and tells of it. -/
  other : (∀ items, ¬ store.Lists value items) →
    Primitive.listTest.call [value] store = .ok (.boolean false) store ∧
    Primitive.counter.call [value] store =
      .error (.fault (.wrongKind "proper list" value (some "length"))) store ∧
    store.RefusesToApply value

theorem Store.listsAgree {store : Store} {value : Object} (closed : store.Closed)
    (isValue : value.isValue) (known : store.Has value) : store.ListsAgree value := by
  have lists_iff : ∀ items, store.listItems? value = some items ↔ store.Lists value items :=
    fun _ => listItems?_eq_some_iff closed known
  have counted := Primitive.call_counter value store
  have tested := Primitive.call_listTest value store
  have improper : (∀ items, ¬ store.Lists value items) → store.listItems? value = none := by
    intro other
    exact Option.eq_none_iff_forall_ne_some.mpr fun items proper =>
      other items ((lists_iff items).mp proper)
  refine ⟨fun turns => arriveWithin_lastTail closed known, ?_, ?_, ?_⟩
  · tfae_have 1 ↔ 4 := exists_congr fun items => (lists_iff items).symm
    tfae_have 2 ↔ 4 := by
      rw [lastTail_eq_nil_iff closed known, ← isProperList_iff, isProperList, Option.isSome_iff_exists]
    tfae_have 3 ↔ 4 := by
      rw [tested, ← Option.isSome_iff_exists]
      simp
    tfae_have 5 ↔ 4 := by
      rw [counted]
      cases store.listItems? value <;> simp
    tfae_have 4 → 6 := Exists.imp fun _ => handsOver_of_listItems?
    tfae_have 6 → 4 := by
      rintro ⟨items, hands⟩
      by_contra none
      have nothing : store.listItems? value = Option.none :=
        Option.eq_none_iff_forall_ne_some.mpr fun items proper => none ⟨items, proper⟩
      exact not_handsOver isValue (refusesToApply_of_listItems? nothing) hands
    tfae_finish
  · intro items lists
    have proper := (lists_iff items).mpr lists
    obtain ⟨more, kept⟩ := store.ofItems_cells items .nil
    refine ⟨proper, ?_, handsOver_of_listItems? proper, .ofItems store items, lists.mono more kept⟩
    rw [counted, proper]
  · intro other
    have nothing := improper other
    refine ⟨?_, ?_, refusesToApply_of_listItems? nothing⟩
    · rw [tested, nothing]
      rfl
    · rw [counted, nothing]

/-- In every store without dangling pairs, all checks for lists end and agree with one another, on
every value; and a new chain leads to where its tail leads, and holds what it was made of. -/
theorem list_checks_agree {store : Store} (closed : store.Closed) :
    (∀ value, value.isValue → store.Has value → store.ListsAgree value) ∧
    ∀ items, (∀ item ∈ items, store.Has item) →
      (∀ tail, store.Has tail →
        (store.ofItems items tail).2.lastTail (store.ofItems items tail).1 =
          store.lastTail tail) ∧
      (store.ofItems items .nil).2.listItems? (store.ofItems items .nil).1 = some items := by
  refine ⟨fun value => Store.listsAgree closed, fun items known => ⟨fun tail knownTail => ?_, ?_⟩⟩
  · obtain ⟨closedAfter, knownChain, leads⟩ := Store.ofItems_leadsTo closed known knownTail
    exact leads.eq_lastTail closedAfter knownChain
  · have knownNil : store.Has .nil := trivial
    obtain ⟨closedAfter, knownChain, _⟩ := Store.ofItems_leadsTo closed known knownNil
    exact (Store.listItems?_eq_some_iff closedAfter knownChain).mpr (.ofItems store items)

/-- A list of two numbers, and a chain that runs into a circle. -/
def Store.runningIn : Store :=
  { empty with cells := #[⟨.integer 1, .nil⟩, ⟨.integer 2, .pair 0⟩, ⟨.integer 3, .pair 3⟩,
      ⟨.integer 4, .pair 3⟩] }

theorem Store.runningIn_closed : runningIn.Closed := by
  intro id inside
  have four : id < 4 := inside
  interval_cases id <;> simp [runningIn, cell, Has]

/-- The list holds two numbers. The chain is no list, and one more pair before it leads to the same
circle. -/
theorem runningIn_checked :
    Store.runningIn.Closed ∧
      Primitive.counter.call [.pair 1] .runningIn = .ok (.integer 2) .runningIn ∧
      Primitive.counter.call [.pair 2] .runningIn =
        .error (.fault (.wrongKind "proper list" (.pair 2) (some "length"))) .runningIn ∧
      (Store.runningIn.ofItems [.integer 0] (.pair 2)).2.lastTail
        (Store.runningIn.ofItems [.integer 0] (.pair 2)).1 = .pair 3 := by
  obtain ⟨checks, built⟩ := list_checks_agree Store.runningIn_closed
  have list : Store.runningIn.Has (.pair 1) := (by decide : 1 < 4)
  have chain : Store.runningIn.Has (.pair 2) := (by decide : 2 < 4)
  have leads : Store.runningIn.lastTail (.pair 2) = .pair 3 := by cbv
  have holds : Store.runningIn.Lists (.pair 1) [.integer 2, .integer 1] :=
    .pair list rfl (.pair (by decide : 0 < 4) rfl .nil)
  have other : ∀ items, ¬ Store.runningIn.Lists (.pair 2) items := by
    intro items lists
    have nil : Store.runningIn.lastTail (.pair 2) = .nil :=
      ((checks (.pair 2) rfl chain).agree.out 0 1 rfl rfl).mp ⟨items, lists⟩
    rw [leads] at nil
    contradiction
  refine ⟨Store.runningIn_closed, ((checks _ rfl list).list _ holds).2.1,
    ((checks _ rfl chain).other other).2.1, ?_⟩
  exact ((built [.integer 0] (List.forall_mem_singleton.mpr trivial)).1 _ chain).trans leads

end LispCore
