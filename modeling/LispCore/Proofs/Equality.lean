import LispCore.Proofs.Bisimulation
import LispCore.Proofs.Operation

namespace LispCore

open Eval (bind_ok)

namespace Object

variable {a b c : Object}

theorem kind?_of_number {m : Number} (number : Number.ofObject? a = some m) : a.kind?.isSome := by
  cases a with
  | integer | float => rfl
  | _ => contradiction

namespace AtomsAgree

theorem kind?_left (agree : a.AtomsAgree b) : a.kind?.isSome := by
  cases agree with
  | number left => exact kind?_of_number left
  | _ => rfl

theorem not_pair {id : CellId} : ¬ (Object.pair id).AtomsAgree b
  | .number left _ _ _ => by contradiction

theorem symm (agree : a.AtomsAgree b) : b.AtomsAgree a := by
  cases agree with
  | number left right same proper => exact .number right left same.symm (same ▸ proper)
  | nil => exact .nil
  | boolean value => exact .boolean value
  | symbol name => exact .symbol name
  | string text => exact .string text
  | closure id => exact .closure id
  | primitive primitive => exact .primitive primitive

theorem trans (first : a.AtomsAgree b) (second : b.AtomsAgree c) : a.AtomsAgree c := by
  cases first with
  | number left right same proper =>
      cases second with
      | number left' right' same' proper' =>
          obtain rfl := Option.some.inj (right.symm.trans left')
          exact .number left right' (same.trans same') proper
      | _ => contradiction
  | _ => exact second

theorem of_identical_left (one : a.identical b) (agree : b.AtomsAgree c) : a.AtomsAgree c := by
  obtain rfl := eq_of_identical_value agree.kind?_left one
  exact agree

theorem of_identical_right (agree : a.AtomsAgree b) (one : b.identical c) : a.AtomsAgree c :=
  (of_identical_left (identical_symm one) agree.symm).symm

end AtomsAgree

/-- Of pairs and procedures the content is not looked at. -/
theorem equalAtoms_eq_false
    (held : a.isPair || a.isProcedure || b.isPair || b.isProcedure) : a.equalAtoms b = false := by
  cases a with
  | integer | float => cases b <;> first | rfl | contradiction
  | _ => cases b <;> first | rfl | contradiction

def IsNaN : Object → Prop
  | .float value => Exact.ofFloat value = .nan
  | _ => False

/-- A value is one object, or agrees with itself, unless it is a NaN. -/
theorem identical_or_agrees_self (value : a.isValue) (proper : ¬ a.IsNaN) :
    a.identical a ∨ a.AtomsAgree a := by
  cases a with
  | nil => exact .inl rfl
  | boolean truth => exact .inl (beq_self_eq_true truth)
  | pair id => exact .inl (beq_self_eq_true id)
  | closure id => exact .inl (beq_self_eq_true id)
  | primitive primitive => exact .inl (beq_self_eq_true primitive)
  | symbol name => exact .inr (.symbol name)
  | string text => exact .inr (.string text)
  | integer number => exact .inr (.number rfl rfl rfl (by simp [Number.exact]))
  | float number => exact .inr (.number rfl rfl rfl proper)
  | _ => contradiction

end Object

namespace Store

variable {store : Store} {a b c d : Object} {related : Object → Object → Prop}

namespace Matches

theorem symm (one : store.Matches related a b) :
    store.Matches (fun x y => related y x) b a := by
  cases one with
  | identical same => exact .identical (Object.identical_symm same)
  | atoms agree => exact .atoms agree.symm
  | pairs heads tails => exact .pairs heads tails

theorem of_identical (one : a.identical b) (other : store.Matches related b c) :
    store.Matches related a c := by
  cases other with
  | identical same => exact .identical (Object.identical_trans one same)
  | atoms agree => exact .atoms (agree.of_identical_left one)
  | pairs heads tails =>
      obtain rfl := Object.eq_of_identical_value rfl one
      exact .pairs heads tails

end Matches

namespace Bisimilar

theorem symm (similar : store.Bisimilar a b) : store.Bisimilar b a :=
  ⟨fun x y => store.Bisimilar y x, fun _ _ one => one.matches.symm, similar⟩

theorem trans (first : store.Bisimilar a b) (second : store.Bisimilar b c) :
    store.Bisimilar a c := by
  -- A NaN is not bisimilar to itself, so what one pair holds need not be related to itself:
  -- where one side is a single pair on both sides, the parts are related by the other side alone.
  refine ⟨fun x z => store.Bisimilar x z ∨ ∃ y, store.Bisimilar x y ∧ store.Bisimilar y z, ?_,
    .inr ⟨b, first, second⟩⟩
  rintro x z (direct | ⟨y, left, right⟩)
  · exact direct.matches.mono fun _ _ => .inl
  · cases left.matches with
    | identical same => exact (right.matches.of_identical same).mono fun _ _ => .inl
    | atoms agree =>
        cases right.matches with
        | identical same => exact .atoms (agree.of_identical_right same)
        | atoms agree' => exact .atoms (agree.trans agree')
        | pairs => exact absurd agree.symm Object.AtomsAgree.not_pair
    | pairs heads tails =>
        cases right.matches with
        | identical same =>
            obtain rfl := Object.eq_of_identical_value rfl (Object.identical_symm same)
            exact .pairs (.inl heads) (.inl tails)
        | atoms agree => exact absurd agree Object.AtomsAgree.not_pair
        | pairs heads' tails' => exact .pairs (.inr ⟨_, heads, heads'⟩) (.inr ⟨_, tails, tails'⟩)

theorem of_parts {first second : CellId}
    (heads : store.Bisimilar (store.cell first).head (store.cell second).head)
    (tails : store.Bisimilar (store.cell first).tail (store.cell second).tail) :
    store.Bisimilar (.pair first) (.pair second) := by
  refine ⟨fun x y => x = .pair first ∧ y = .pair second ∨ store.Bisimilar x y, ?_, .inl ⟨rfl, rfl⟩⟩
  rintro x y (⟨rfl, rfl⟩ | similar)
  · exact .pairs (.inr heads) (.inr tails)
  · exact similar.matches.mono fun _ _ => .inr

theorem transfer {one other : Store} (closed : store.Closed)
    (first : ∀ id < store.cells.size, one.cell id = store.cell id)
    (second : ∀ id < store.cells.size, other.cell id = store.cell id) (left : store.Has a)
    (right : store.Has b) (similar : one.Bisimilar a b) : other.Bisimilar a b := by
  refine ⟨fun x y => store.Has x ∧ store.Has y ∧ one.Bisimilar x y, ?_, left, right, similar⟩
  rintro x y ⟨left, right, similar⟩
  cases similar.matches with
  | identical same => exact .identical same
  | atoms agree => exact .atoms agree
  | @pairs i j heads tails =>
      rw [first i left, first j right] at heads tails
      obtain ⟨head, tail⟩ := closed i left
      obtain ⟨head', tail'⟩ := closed j right
      refine .pairs ?_ ?_ <;> rw [second i left, second j right]
      · exact ⟨head, head', heads⟩
      · exact ⟨tail, tail', tails⟩

end Bisimilar

theorem equal_iff (closed : store.Closed) (left : store.Has a) (right : store.Has b) :
    store.equal a b ↔ store.Bisimilar a b :=
  ⟨store.bisimilar_of_equal, fun similar =>
    equalAll_of_bisimilar closed (List.forall_mem_singleton.mpr ⟨left, right⟩)
      (List.forall_mem_singleton.mpr similar)⟩

theorem same_eq : store.same a b = (a.identical b || a.equalAtoms b) := by
  unfold same
  split
  · rename_i held
    rw [Object.equalAtoms_eq_false held, Bool.or_false]
  · rename_i free
    apply equal_of_notPairs
    rintro first second rfl rfl
    simp [Object.isPair] at free

theorem same_iff : store.same a b ↔ a.identical b ∨ a.AtomsAgree b := by
  rw [same_eq, Bool.or_eq_true]
  constructor
  · exact Or.imp_right Object.atomsAgree_of_equalAtoms
  · rintro (one | agree)
    · exact .inl one
    · exact agree.decided

theorem same_eq_equal (apart : ¬ (a.isPair ∧ b.isPair)) : store.same a b = store.equal a b := by
  rw [same_eq, equal_of_notPairs]
  rintro first second rfl rfl
  exact apart ⟨rfl, rfl⟩

theorem equal_of_same (same : store.same a b) : store.equal a b := by
  rcases same_iff.mp same with one | agree
  · exact equal_of_identical one
  · rw [← same_eq_equal]
    · exact same
    · rintro ⟨isPair, _⟩
      cases a with
      | pair id => exact Object.AtomsAgree.not_pair agree
      | _ => contradiction

/-- Is a comparison reflexive on all values but NaNs, symmetric and transitive? -/
structure Equates (store : Store) (compare : Object → Object → Bool) : Prop where
  refl : ∀ a, a.isValue → ¬ a.IsNaN → compare a a
  symm : ∀ a b, store.Has a → store.Has b → compare a b → compare b a
  trans : ∀ a b c, store.Has a → store.Has b → store.Has c →
    compare a b → compare b c → compare a c

theorem same_equates (store : Store) : store.Equates store.same where
  refl _ value proper := same_iff.mpr (Object.identical_or_agrees_self value proper)
  symm _ _ _ _ same := same_iff.mpr ((same_iff.mp same).imp Object.identical_symm .symm)
  trans _ _ _ _ _ _ first second := by
    rw [same_iff] at first second ⊢
    rcases first with one | agree
    · exact second.imp (Object.identical_trans one) (Object.AtomsAgree.of_identical_left one)
    · exact .inr (second.elim agree.of_identical_right agree.trans)

theorem equal_equates (closed : store.Closed) : store.Equates store.equal where
  refl a value proper := equal_of_same ((same_equates store).refl a value proper)
  symm _ _ left right equal :=
    (equal_iff closed right left).mpr ((equal_iff closed left right).mp equal).symm
  trans _ _ _ left middle right first second :=
    (equal_iff closed left right).mpr
      (((equal_iff closed left middle).mp first).trans ((equal_iff closed middle right).mp second))

theorem equal_pairs (closed : store.Closed) {first second : CellId}
    (left : store.Has (.pair first)) (right : store.Has (.pair second))
    (different : first ≠ second) :
    store.equal (.pair first) (.pair second) =
      (store.equal (store.cell first).head (store.cell second).head &&
        store.equal (store.cell first).tail (store.cell second).tail) := by
  obtain ⟨head, tail⟩ := closed first left
  obtain ⟨head', tail'⟩ := closed second right
  rw [Bool.eq_iff_iff, Bool.and_eq_true, equal_iff closed left right, equal_iff closed head head',
    equal_iff closed tail tail']
  constructor
  · intro similar
    exact similar.parts fun one => different (eq_of_beq one)
  · rintro ⟨heads, tails⟩
    exact .of_parts heads tails

/-- What is compared is compared alike as long as the pairs that there were are kept. -/
theorem equal_kept {after : Store} (closed : store.Closed) (closedAfter : after.Closed)
    (more : store.cells.size ≤ after.cells.size)
    (kept : ∀ id < store.cells.size, after.cell id = store.cell id) (left : store.Has a)
    (right : store.Has b) : after.equal a b = store.equal a b := by
  rw [Bool.eq_iff_iff, equal_iff closedAfter (left.mono more) (right.mono more),
    equal_iff closed left right]
  constructor
  · exact .transfer closed kept (fun _ _ => rfl) left right
  · exact .transfer closed (fun _ _ => rfl) kept left right

theorem equal_joined (closed : store.Closed) (knownA : store.Has a) (knownB : store.Has b)
    (knownC : store.Has c) (knownD : store.Has d) :
    ((store.cons a b).2.cons c d).2.equal (.pair store.cells.size) (.pair (store.cells.size + 1)) =
      (store.equal a c && store.equal b d) := by
  let between := (store.cons a b).2
  let after := (between.cons c d).2
  have size : between.cells.size = store.cells.size + 1 := Array.size_push ..
  have sizeAfter : after.cells.size = between.cells.size + 1 := Array.size_push ..
  have more : store.cells.size ≤ between.cells.size := by omega
  have moreAfter : store.cells.size ≤ after.cells.size := by omega
  have closedAfter : after.Closed :=
    (closed.cons knownA knownB).cons (knownC.mono more) (knownD.mono more)
  have kept : ∀ id < store.cells.size, after.cell id = store.cell id := fun id old =>
    (between.cell_cons_of_lt c d (Nat.lt_of_lt_of_le old more)).trans
      (store.cell_cons_of_lt a b old)
  have room : store.cells.size + 1 < after.cells.size := by omega
  have first : after.cell store.cells.size = ⟨a, b⟩ :=
    (between.cell_cons_of_lt c d (by omega)).trans (store.cell_cons_self a b)
  have second : after.cell (store.cells.size + 1) = ⟨c, d⟩ := size ▸ between.cell_cons_self c d
  rw [equal_pairs closedAfter (Nat.lt_of_succ_lt room) room (Nat.ne_of_lt (Nat.lt_succ_self _)),
    first, second,
    equal_kept closed closedAfter moreAfter kept knownA knownC,
    equal_kept closed closedAfter moreAfter kept knownB knownD]

end Store

namespace Primitive

/-- The primitives that compare two values, and the one that makes pairs. -/
def equality : Primitive :=
  .ofOperation .equal 2 (some 2)

def sameness : Primitive :=
  .ofOperation .same 2 (some 2)

def joiner : Primitive :=
  .ofOperation .cons 2 (some 2)

variable {store : Store} {a b : Object}

theorem call_equality : equality.call [a, b] store = .ok (.boolean (store.equal a b)) store :=
  rfl

theorem call_sameness : sameness.call [a, b] store = .ok (.boolean (store.same a b)) store :=
  rfl

theorem call_joiner :
    joiner.call [a, b] store = .ok (.pair (store.cons a b).1) (store.cons a b).2 :=
  rfl

end Primitive

/-- Makes two pairs and compares them. -/
def compareJoined (a b c d : Object) : Eval Object := do
  let first ← Primitive.joiner.call [a, b]
  let second ← Primitive.joiner.call [c, d]
  Primitive.equality.call [first, second]

/-- What is true of the comparisons in a store. -/
structure Store.ComparisonLaws (store : Store) : Prop where
  equal : store.Equates store.equal
  same : store.Equates store.same
  /-- What is the same is equal, and only where two pairs are compared are they not one. -/
  equal_of_same : ∀ a b, store.same a b → store.equal a b
  same_eq_equal : ∀ a b, ¬ (a.isPair ∧ b.isPair) → store.same a b = store.equal a b
  /-- New pairs are equal exactly if their heads and their tails are. -/
  joined : ∀ a b c d, store.Has a → store.Has b → store.Has c → store.Has d →
    ∃ after, compareJoined a b c d store =
      .ok (.boolean (store.equal a c && store.equal b d)) after
  /-- The primitives tell of these comparisons, and change nothing. -/
  told : ∀ a b, Primitive.equality.call [a, b] store = .ok (.boolean (store.equal a b)) store ∧
    Primitive.sameness.call [a, b] store = .ok (.boolean (store.same a b)) store

/-- In every store without dangling pairs, be it full of circles and NaNs, equality and sameness
are symmetric and transitive, and reflexive but for NaNs themselves. -/
theorem equality_laws {store : Store} (closed : store.Closed) : store.ComparisonLaws where
  equal := Store.equal_equates closed
  same := Store.same_equates store
  equal_of_same _ _ := Store.equal_of_same
  same_eq_equal _ _ := Store.same_eq_equal
  joined a b c d knownA knownB knownC knownD := by
    refine ⟨((store.cons a b).2.cons c d).2, ?_⟩
    rw [compareJoined, bind_ok Primitive.call_joiner, bind_ok Primitive.call_joiner,
      Primitive.call_equality]
    have second : ((store.cons a b).2.cons c d).1 = store.cells.size + 1 := Array.size_push ..
    rw [second, ← Store.equal_joined closed knownA knownB knownC knownD]
    rfl
  told _ _ := ⟨Primitive.call_equality, Primitive.call_sameness⟩

theorem Store.circles_equal : circles.equal (.pair 0) (.pair 1) := by
  have known : circles.HasAll [(.pair 0, .pair 1)] :=
    List.forall_mem_singleton.mpr ⟨(by decide : 0 < 3), (by decide : 1 < 3)⟩
  have ends : circles.compareWithin 19 ∅ [(.pair 0, .pair 1)] =
      some (circles.equal (.pair 0) (.pair 1)) := by
    apply compareWithin_eq_equalAll circles_closed known
    rw [unvisited_cellPairs]
    decide
  have found : circles.compareWithin 19 ∅ [(.pair 0, .pair 1)] = some true := by decide
  rw [found] at ends
  exact (Option.some.inj ends).symm

/-- Circles of different lengths that are equal are so the other way round and behind one more
pair. -/
theorem circles_compared :
    Store.circles.Closed ∧ Store.circles.equal (.pair 1) (.pair 0) ∧
      ∃ after, compareJoined (.integer 1) (.pair 0) (.integer 1) (.pair 1) .circles =
        .ok (.boolean true) after := by
  have laws := equality_laws Store.circles_closed
  have first : Store.circles.Has (.pair 0) := (by decide : 0 < 3)
  have second : Store.circles.Has (.pair 1) := (by decide : 1 < 3)
  have one : Store.circles.equal (.integer 1) (.integer 1) := laws.equal.refl _ rfl id
  refine ⟨Store.circles_closed, laws.equal.symm _ _ first second Store.circles_equal, ?_⟩
  obtain ⟨after, joined⟩ := laws.joined (.integer 1) (.pair 0) (.integer 1) (.pair 1)
    trivial first trivial second
  rw [one, Store.circles_equal] at joined
  exact ⟨after, joined⟩

end LispCore
