import LispCore.Equality

/-!
Equality of values is bisimilarity.

Two values are bisimilar if some relation holds of them and every two objects that it
relates match: they are one object, or atoms that agree, or pairs with related heads and
related tails. The comparison decides this on every store, circular structure included:
what it has assumed in the end is a bisimulation (`Store.assumed_of_equalAll`), and it
never runs into a mismatch of bisimilar values (`Store.equalAll_of_bisimilar`). Read as
a loop it ends within two turns for every two pairs of the store.
-/

namespace LispCore

namespace Exact

theorem compare?_eq_iff (x y : Exact) : x.compare? y = some .eq ↔ x = y ∧ x ≠ .nan := by
  cases x with
  | finite value =>
      cases y with
      | finite other =>
          by_cases same : value = other
          · simp [compare?, same]
          · by_cases less : value < other <;> simp [compare?, same, less]
      | _ => simp [compare?]
  | _ => cases y <;> simp [compare?]

end Exact

theorem Number.equal_holds_iff (m n : Number) :
    Comparison.equal.holds m n ↔ m.exact = n.exact ∧ m.exact ≠ .nan := by
  rw [← Exact.compare?_eq_iff]
  unfold Comparison.holds Number.compare?
  cases m.exact.compare? n.exact with
  | none => simp
  | some order => cases order <;> simp [Comparison.admits]

namespace Object

/-- Atoms that count as equal: numbers of one exact value, which a NaN does not have, and
otherwise only atoms of one kind with the same content or identity. -/
inductive AtomsAgree : Object → Object → Prop
  | nil : AtomsAgree .nil .nil
  | boolean (value : Bool) : AtomsAgree (.boolean value) (.boolean value)
  | number {a b : Object} {m n : Number} (left : Number.ofObject? a = some m)
      (right : Number.ofObject? b = some n) (same : m.exact = n.exact) (proper : m.exact ≠ .nan) :
      AtomsAgree a b
  | symbol (name : Symbol) : AtomsAgree (.symbol name) (.symbol name)
  | string (text : String) : AtomsAgree (.string text) (.string text)
  | closure (id : ClosureId) : AtomsAgree (.closure id) (.closure id)
  | primitive (primitive : Primitive) : AtomsAgree (.primitive primitive) (.primitive primitive)

theorem atomsAgree_of_equalAtoms {a b : Object} (equal : a.equalAtoms b) : AtomsAgree a b := by
  unfold equalAtoms at equal
  split at equal
  · obtain rfl := eq_of_beq equal
    exact .boolean _
  · obtain rfl := eq_of_beq equal
    exact .symbol _
  · obtain rfl := eq_of_beq equal
    exact .string _
  · split at equal
    · rename_i m n left right
      obtain ⟨same, proper⟩ := (Number.equal_holds_iff m n).mp equal
      exact .number left right same proper
    · contradiction

theorem equalAtoms_numbers {a b : Object} {m n : Number} (left : Number.ofObject? a = some m)
    (right : Number.ofObject? b = some n) : a.equalAtoms b = Comparison.equal.holds m n := by
  cases a with
  | integer | float =>
      unfold equalAtoms
      simp only [left, right]
  | _ => contradiction

theorem AtomsAgree.decided {a b : Object} (agree : AtomsAgree a b) :
    a.identical b ∨ a.equalAtoms b := by
  cases agree with
  | number left right same proper =>
      rw [equalAtoms_numbers left right]
      exact .inr ((Number.equal_holds_iff _ _).mpr ⟨same, proper⟩)
  | symbol name => exact .inr (beq_self_eq_true name)
  | string text => exact .inr (beq_self_eq_true text)
  | nil => exact .inl rfl
  | boolean value => exact .inl (beq_self_eq_true value)
  | closure id => exact .inl (beq_self_eq_true id)
  | primitive primitive => exact .inl (beq_self_eq_true primitive)

end Object

namespace Store

/-- Two objects match if they are one object, or atoms that agree, or pairs with related
heads and related tails. -/
inductive Matches (store : Store) (related : Object → Object → Prop) : Object → Object → Prop
  | identical {a b : Object} (same : a.identical b) : Matches store related a b
  | atoms {a b : Object} (agree : a.AtomsAgree b) : Matches store related a b
  | pairs {first second : CellId}
      (heads : related (store.cell first).head (store.cell second).head)
      (tails : related (store.cell first).tail (store.cell second).tail) :
      Matches store related (.pair first) (.pair second)

def Bisimulation (store : Store) (related : Object → Object → Prop) : Prop :=
  ∀ a b, related a b → store.Matches related a b

def Bisimilar (store : Store) (a b : Object) : Prop :=
  ∃ related, store.Bisimulation related ∧ related a b

/-- Is an object no pair, or a pair of the store? -/
def Has (store : Store) : Object → Prop
  | .pair id => id < store.cells.size
  | _ => True

/-- Pairs hold no pairs but those of the store. -/
def Closed (store : Store) : Prop :=
  ∀ id < store.cells.size, store.Has (store.cell id).head ∧ store.Has (store.cell id).tail

theorem Has.mono {store after : Store} {object : Object} (known : store.Has object)
    (more : store.cells.size ≤ after.cells.size) : after.Has object := by
  cases object with
  | pair id => exact Nat.lt_of_lt_of_le known more
  | _ => trivial

theorem Closed.cons {store : Store} (closed : store.Closed) {head tail : Object}
    (knownHead : store.Has head) (knownTail : store.Has tail) :
    (store.cons head tail).2.Closed := by
  have size : (store.cons head tail).2.cells.size = store.cells.size + 1 := Array.size_push ..
  have more := Nat.le_of_lt (Nat.lt_of_lt_of_eq (Nat.lt_succ_self _) size.symm)
  intro id inside
  rw [store.cell_cons head tail id]
  split
  · exact ⟨knownHead.mono more, knownTail.mono more⟩
  · rename_i old
    have before := Nat.lt_of_le_of_ne (Nat.le_of_lt_succ (Nat.lt_of_lt_of_eq inside size)) old
    exact ⟨(closed id before).1.mono more, (closed id before).2.mono more⟩

theorem Matches.mono {store : Store} {related wider : Object → Object → Prop}
    (widen : ∀ a b, related a b → wider a b) {a b : Object}
    (one : store.Matches related a b) : store.Matches wider a b := by
  cases one with
  | identical same => exact .identical same
  | atoms agree => exact .atoms agree
  | pairs heads tails => exact .pairs (widen _ _ heads) (widen _ _ tails)

theorem Bisimilar.matches {store : Store} {a b : Object} (similar : store.Bisimilar a b) :
    store.Matches store.Bisimilar a b := by
  obtain ⟨related, bisimulation, member⟩ := similar
  exact (bisimulation a b member).mono fun c d other => ⟨related, bisimulation, other⟩

/-- Objects that are one, or agreeing atoms, or pairs at related places. -/
inductive Within (related : CellId → CellId → Prop) : Object → Object → Prop
  | identical {a b : Object} (same : a.identical b) : Within related a b
  | atoms {a b : Object} (agree : a.AtomsAgree b) : Within related a b
  | pairs {first second : CellId} (member : related first second) :
      Within related (.pair first) (.pair second)

/-- What a comparison has assumed once it succeeds: the pending comparisons hold within
it, and so do those of the heads and tails of all places that were not assumed before. -/
theorem assumed_of_equalAll (store : Store) {assumed : Comparisons}
    {pending : List (Object × Object)} (equal : store.equalAll assumed pending) :
    ∃ related : CellId → CellId → Prop,
      (∀ first second, (first, second) ∈ assumed → related first second) ∧
      (∀ comparison ∈ pending, Within related comparison.1 comparison.2) ∧
      ∀ first second, related first second → (first, second) ∉ assumed →
        Within related (store.cell first).head (store.cell second).head ∧
        Within related (store.cell first).tail (store.cell second).tail := by
  fun_induction equalAll store assumed pending with
  | case1 assumed =>
      exact ⟨fun first second => (first, second) ∈ assumed, fun _ _ => id, nofun,
        fun _ _ old new => absurd old new⟩
  | case2 assumed a b pending same ih =>
      obtain ⟨related, wider, rest, closed⟩ := ih equal
      exact ⟨related, wider, List.forall_mem_cons.mpr ⟨.identical same, rest⟩, closed⟩
  | case3 assumed pending first second old different ih =>
      obtain ⟨related, wider, rest, closed⟩ := ih equal
      exact ⟨related, wider, List.forall_mem_cons.mpr ⟨.pairs (wider _ _ old), rest⟩, closed⟩
  | case4 assumed pending first second new inside different ih =>
      obtain ⟨related, wider, more, closed⟩ := ih equal
      obtain ⟨heads, more⟩ := List.forall_mem_cons.mp more
      obtain ⟨tails, rest⟩ := List.forall_mem_cons.mp more
      have present : related first second := wider _ _ Std.TreeSet.mem_insert_self
      refine ⟨related, ?_, List.forall_mem_cons.mpr ⟨.pairs present, rest⟩, ?_⟩
      · intro one other old
        exact wider one other (Std.TreeSet.mem_insert.mpr (.inr old))
      · intro one other member fresh
        by_cases same : (first, second) = (one, other)
        · obtain ⟨rfl, rfl⟩ := Prod.mk.inj same
          exact ⟨heads, tails⟩
        · refine closed one other member fun inserted => ?_
          rcases Std.TreeSet.mem_insert.mp inserted with equal | old
          · exact same (Std.LawfulEqCmp.eq_of_compare equal)
          · exact fresh old
  | case5 => contradiction
  | case6 assumed pending a b atoms different ih =>
      obtain ⟨agree, others⟩ := (Bool.and_eq_true _ _).mp equal
      obtain ⟨related, wider, rest, closed⟩ := ih others
      exact ⟨related, wider, List.forall_mem_cons.mpr
        ⟨.atoms (Object.atomsAgree_of_equalAtoms agree), rest⟩, closed⟩

theorem bisimilar_of_equal (store : Store) {a b : Object} (equal : store.equal a b) :
    store.Bisimilar a b := by
  obtain ⟨related, _, pending, closed⟩ := store.assumed_of_equalAll equal
  refine ⟨Within related, ?_, pending (a, b) List.mem_cons_self⟩
  intro c d within
  cases within with
  | identical same => exact .identical same
  | atoms agree => exact .atoms agree
  | pairs member =>
      obtain ⟨heads, tails⟩ := closed _ _ member Std.TreeSet.not_mem_emptyc
      exact .pairs heads tails

variable {store : Store}

theorem Bisimilar.parts {first second : CellId}
    (similar : store.Bisimilar (.pair first) (.pair second))
    (different : ¬ (Object.pair first).identical (.pair second)) :
    store.Bisimilar (store.cell first).head (store.cell second).head ∧
      store.Bisimilar (store.cell first).tail (store.cell second).tail := by
  cases similar.matches with
  | identical same => exact absurd same different
  | atoms agree =>
      cases agree with
      | number left _ _ _ => contradiction
  | pairs heads tails => exact ⟨heads, tails⟩

theorem Bisimilar.equalAtoms {a b : Object} (similar : store.Bisimilar a b)
    (different : ¬ a.identical b)
    (noPairs : ∀ first second, a = .pair first → b = .pair second → False) : a.equalAtoms b := by
  cases similar.matches with
  | identical same => exact absurd same different
  | atoms agree => exact agree.decided.resolve_left different
  | pairs heads tails => exact (noPairs _ _ rfl rfl).elim

def HasAll (store : Store) (pending : List (Object × Object)) : Prop :=
  ∀ comparison ∈ pending, store.Has comparison.1 ∧ store.Has comparison.2

theorem HasAll.parts (closed : store.Closed) {pending : List (Object × Object)}
    (rest : store.HasAll pending) {first second : CellId} (left : first < store.cells.size)
    (right : second < store.cells.size) :
    store.HasAll (((store.cell first).head, (store.cell second).head) ::
      ((store.cell first).tail, (store.cell second).tail) :: pending) :=
  List.forall_mem_cons.mpr ⟨⟨(closed first left).1, (closed second right).1⟩,
    List.forall_mem_cons.mpr ⟨⟨(closed first left).2, (closed second right).2⟩, rest⟩⟩

theorem equalAll_of_bisimilar (closed : store.Closed) {assumed : Comparisons}
    {pending : List (Object × Object)} (known : store.HasAll pending)
    (similar : ∀ comparison ∈ pending, store.Bisimilar comparison.1 comparison.2) :
    store.equalAll assumed pending := by
  fun_induction equalAll store assumed pending with
  | case1 => rfl
  | case2 assumed a b pending same ih =>
      exact ih (List.forall_mem_cons.mp known).2 (List.forall_mem_cons.mp similar).2
  | case3 assumed pending first second old different ih =>
      exact ih (List.forall_mem_cons.mp known).2 (List.forall_mem_cons.mp similar).2
  | case4 assumed pending first second new inside different ih =>
      obtain ⟨_, knownRest⟩ := List.forall_mem_cons.mp known
      obtain ⟨pairs, rest⟩ := List.forall_mem_cons.mp similar
      obtain ⟨heads, tails⟩ := pairs.parts different
      exact ih (HasAll.parts closed knownRest inside.1 inside.2)
        (List.forall_mem_cons.mpr ⟨heads, List.forall_mem_cons.mpr ⟨tails, rest⟩⟩)
  | case5 assumed pending first second new outside different =>
      exact absurd (List.forall_mem_cons.mp known).1 outside
  | case6 assumed pending a b noPairs different ih =>
      obtain ⟨_, knownRest⟩ := List.forall_mem_cons.mp known
      obtain ⟨atoms, rest⟩ := List.forall_mem_cons.mp similar
      exact (Bool.and_eq_true _ _).mpr
        ⟨atoms.equalAtoms different noPairs, ih knownRest rest⟩

/-- The comparison as a loop over the pending comparisons, without a look at the size of
the store: nothing if it does not end within the given number of turns. -/
def compareWithin (store : Store) :
    Nat → Comparisons → List (Object × Object) → Option Bool
  | _, _, [] => some true
  | 0, _, _ => none
  | turns + 1, assumed, (a, b) :: pending =>
      if a.identical b then store.compareWithin turns assumed pending
      else match a, b with
        | .pair first, .pair second =>
            if (first, second) ∈ assumed then store.compareWithin turns assumed pending
            else store.compareWithin turns (assumed.insert (first, second))
              (((store.cell first).head, (store.cell second).head) ::
                ((store.cell first).tail, (store.cell second).tail) :: pending)
        | a, b =>
            if a.equalAtoms b then store.compareWithin turns assumed pending else some false

theorem compareWithin_atoms {a b : Object} (different : ¬ a.identical b)
    (noPairs : ∀ first second, a = .pair first → b = .pair second → False) {turns : Nat}
    {assumed : Comparisons} {pending : List (Object × Object)} :
    store.compareWithin (turns + 1) assumed ((a, b) :: pending) =
      if a.equalAtoms b then store.compareWithin turns assumed pending else some false := by
  simp only [compareWithin, if_neg different]

/-- The loop ends after at most as many turns as there are pending comparisons and two for
every two places not compared yet. -/
theorem compareWithin_eq_equalAll (closed : store.Closed) {turns : Nat} {assumed : Comparisons}
    {pending : List (Object × Object)} (known : store.HasAll pending)
    (enough : pending.length + 2 * unvisited store.cellPairs assumed ≤ turns) :
    store.compareWithin turns assumed pending = some (store.equalAll assumed pending) := by
  fun_induction equalAll store assumed pending generalizing turns with
  | case1 => cases turns <;> rfl
  | case2 assumed a b pending same ih =>
      simp only [List.length_cons] at enough
      obtain ⟨turns, rfl⟩ : ∃ less, turns = less + 1 := ⟨turns - 1, by omega⟩
      simp only [compareWithin, if_pos same]
      exact ih (List.forall_mem_cons.mp known).2 (by omega)
  | case3 assumed pending first second old different ih =>
      simp only [List.length_cons] at enough
      obtain ⟨turns, rfl⟩ : ∃ less, turns = less + 1 := ⟨turns - 1, by omega⟩
      simp only [compareWithin, if_neg different, if_pos old]
      exact ih (List.forall_mem_cons.mp known).2 (by omega)
  | case4 assumed pending first second new inside different ih =>
      simp only [List.length_cons] at enough ih
      obtain ⟨turns, rfl⟩ : ∃ less, turns = less + 1 := ⟨turns - 1, by omega⟩
      have fewer := unvisited_insert_lt (mem_cellPairs.mpr inside) new
      simp only [compareWithin, if_neg different, if_neg new]
      exact ih (HasAll.parts closed (List.forall_mem_cons.mp known).2 inside.1 inside.2)
        (by omega)
  | case5 assumed pending first second new outside different =>
      exact absurd (List.forall_mem_cons.mp known).1 outside
  | case6 assumed pending a b noPairs different ih =>
      simp only [List.length_cons] at enough
      obtain ⟨turns, rfl⟩ : ∃ less, turns = less + 1 := ⟨turns - 1, by omega⟩
      rw [compareWithin_atoms different noPairs]
      by_cases agree : a.equalAtoms b
      · simp only [agree, if_true, Bool.true_and]
        exact ih (List.forall_mem_cons.mp known).2 (by omega)
      · simp [agree]

theorem unvisited_cellPairs (store : Store) :
    unvisited store.cellPairs (∅ : Comparisons) = store.cells.size * store.cells.size := by
  simp [unvisited, cellPairs, List.map_const']

/-- On a store without dangling pairs, comparing two objects as a loop ends within two
turns for every two pairs of the store and one more, and it finds them equal exactly if
they are bisimilar: if they unfold to the same tree, be it infinite. -/
theorem equal_iff_bisimilar (store : Store) (closed : store.Closed) {a b : Object}
    (left : store.Has a) (right : store.Has b) :
    (∀ turns, 2 * (store.cells.size * store.cells.size) + 1 ≤ turns →
      store.compareWithin turns ∅ [(a, b)] = some (store.equal a b)) ∧
    (store.equal a b ↔ store.Bisimilar a b) := by
  have known : store.HasAll [(a, b)] := List.forall_mem_singleton.mpr ⟨left, right⟩
  refine ⟨fun turns enough => ?_, store.bisimilar_of_equal, fun similar => ?_⟩
  · refine compareWithin_eq_equalAll closed known ?_
    rw [unvisited_cellPairs, List.length_singleton]
    omega
  · exact equalAll_of_bisimilar closed known (List.forall_mem_singleton.mpr similar)

/-- Two circular lists of ones, one of a single pair and one of two. -/
def circles : Store :=
  { empty with cells :=
      #[⟨.integer 1, .pair 0⟩, ⟨.integer 1, .pair 2⟩, ⟨.integer 1, .pair 1⟩] }

theorem circles_closed : circles.Closed := by
  intro id inside
  have three : id = 0 ∨ id = 1 ∨ id = 2 := by
    simp only [circles, List.size_toArray, List.length_cons, List.length_nil] at inside
    omega
  rcases three with rfl | rfl | rfl
  · exact ⟨trivial, (by decide : 0 < 3)⟩
  · exact ⟨trivial, (by decide : 2 < 3)⟩
  · exact ⟨trivial, (by decide : 1 < 3)⟩

theorem circles_bisimilar : circles.Bisimilar (.pair 0) (.pair 1) := by
  have first : circles.Has (.pair 0) := (by decide : 0 < 3)
  have second : circles.Has (.pair 1) := (by decide : 1 < 3)
  obtain ⟨ends, equal⟩ := circles.equal_iff_bisimilar circles_closed first second
  have found : circles.compareWithin 19 ∅ [(.pair 0, .pair 1)] = some true := by decide
  rw [ends 19 (by decide), Option.some.injEq] at found
  exact equal.mp found

end Store

end LispCore
