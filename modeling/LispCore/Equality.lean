import LispCore.Number
import LispCore.Store
import LispCore.Visited

/-!
Sameness and equality.

Two objects are *identical* if they are one object, *equal* if they have the same
content: numbers by exact value, symbols and strings by text, and pairs if they
unfold to the same, possibly infinite, tree. The comparison of trees assumes of
every two pairs once compared that they are equal, so that it also ends on
circular structure. `Object.sameContent` is the equality of the host, which looks
into its containers and does not tell booleans from numbers.
-/

namespace LispCore

namespace Object

/-- Are these one object? Atoms with content are left to the comparison of
contents. -/
def identical : Object → Object → Bool
  | .nil, .nil => true
  | .boolean a, .boolean b => a == b
  | .pair a, .pair b => a == b
  | .closure a, .closure b => a == b
  | .primitive a, .primitive b => a == b
  | .alien a, .alien b => a == b
  | .sequence (some a) _ _, .sequence (some b) _ _ => a == b
  | .literal (some a) _, .literal (some b) _ => a == b
  | .reference (some a) _, .reference (some b) _ => a == b
  | .form (some a) _ _, .form (some b) _ _ => a == b
  | _, _ => false

/-- Atoms with the same content. Booleans equal no numbers, symbols no strings. -/
def equalAtoms : Object → Object → Bool
  | .boolean a, .boolean b => a == b
  | .symbol a, .symbol b => a == b
  | .string a, .string b => a == b
  | a, b =>
      match Number.ofObject? a, Number.ofObject? b with
      | some a, some b => Comparison.equal.holds a b
      | _, _ => false

variable {a b c : Object}

theorem identical_symm (same : a.identical b) : b.identical a := by
  unfold identical at same
  split at same
  case h_1 => rfl
  case h_11 => contradiction
  all_goals exact beq_iff_eq.mpr (eq_of_beq same).symm

theorem identical_trans (left : a.identical b) (right : b.identical c) : a.identical c := by
  unfold identical at left
  split at left
  case h_1 => exact right
  case h_11 => contradiction
  all_goals
    obtain rfl := eq_of_beq left
    -- of a container it is only the label that tells whether it is one with another
    cases c with
    | sequence label | literal label | reference label | form label => cases label <;> exact right
    | _ => exact right

/-- What has the shape of a value is one with nothing but itself. -/
theorem eq_of_identical_value (shaped : b.kind?.isSome) (one : a.identical b) : a = b := by
  unfold identical at one
  split at one
  case h_1 => rfl
  case h_2 | h_3 | h_4 | h_5 => rw [eq_of_beq one]
  all_goals contradiction

end Object

abbrev Comparisons := Std.TreeSet (CellId × CellId) lexOrd.compare

namespace Store

def cellPairs (store : Store) : List (CellId × CellId) :=
  (List.range store.cells.size).flatMap fun first =>
    (List.range store.cells.size).map fun second => (first, second)

theorem mem_cellPairs {store : Store} {first second : CellId} :
    (first, second) ∈ store.cellPairs ↔
      first < store.cells.size ∧ second < store.cells.size := by
  simp [cellPairs]

/-- Are all pending comparisons equalities, given that the assumed ones are? -/
def equalAll (store : Store) (assumed : Comparisons) :
    List (Object × Object) → Bool
  | [] => true
  | (a, b) :: pending =>
      if a.identical b then store.equalAll assumed pending
      else match a, b with
        | .pair first, .pair second =>
            if (first, second) ∈ assumed then store.equalAll assumed pending
            else if first < store.cells.size ∧ second < store.cells.size then
              store.equalAll (assumed.insert (first, second))
                (((store.cell first).head, (store.cell second).head) ::
                  ((store.cell first).tail, (store.cell second).tail) :: pending)
            else false
        | a, b => a.equalAtoms b && store.equalAll assumed pending
termination_by pending => (unvisited store.cellPairs assumed, pending.length)
decreasing_by
  all_goals first
    | (apply Prod.Lex.left
       exact unvisited_insert_lt (mem_cellPairs.mpr ‹_›) ‹_›)
    | (apply Prod.Lex.right; simp)

def equal (store : Store) (a b : Object) : Bool :=
  store.equalAll ∅ [(a, b)]

/-- Are these the same: one pair or procedure, or equal atoms? -/
def same (store : Store) (a b : Object) : Bool :=
  if a.isPair || a.isProcedure || b.isPair || b.isProcedure then a.identical b
  else store.equal a b

variable {store : Store} {assumed : Comparisons} {pending : List (Object × Object)} {a b : Object}
  {first second : CellId}

theorem equalAll_identical (one : a.identical b) :
    store.equalAll assumed ((a, b) :: pending) = store.equalAll assumed pending := by
  rw [equalAll.eq_def]
  simp only [if_pos one]

theorem equalAll_pairs (different : ¬ (Object.pair first).identical (.pair second)) :
    store.equalAll assumed ((.pair first, .pair second) :: pending) =
      if (first, second) ∈ assumed then store.equalAll assumed pending
      else if first < store.cells.size ∧ second < store.cells.size then
        store.equalAll (assumed.insert (first, second))
          (((store.cell first).head, (store.cell second).head) ::
            ((store.cell first).tail, (store.cell second).tail) :: pending)
      else false := by
  rw [equalAll.eq_def]
  simp only [if_neg different]

theorem equalAll_atoms (different : ¬ a.identical b)
    (noPairs : ∀ first second, a = .pair first → b = .pair second → False) :
    store.equalAll assumed ((a, b) :: pending) =
      (a.equalAtoms b && store.equalAll assumed pending) := by
  rw [equalAll.eq_def]
  simp only [if_neg different]

theorem equal_of_identical (one : a.identical b) : store.equal a b := by
  rw [equal, equalAll_identical one, equalAll]

/-- Two pairs apart, objects are compared on the spot. -/
theorem equal_of_notPairs (noPairs : ∀ first second, a = .pair first → b = .pair second → False) :
    store.equal a b = (a.identical b || a.equalAtoms b) := by
  by_cases one : a.identical b
  · rw [equal_of_identical one, one, Bool.true_or]
  · rw [equal, equalAll_atoms one noPairs, equalAll, Bool.and_true, Bool.eq_false_iff.mpr one,
      Bool.false_or]

end Store

end LispCore
