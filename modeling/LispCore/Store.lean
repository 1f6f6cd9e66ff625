import LispCore.Bindings

/-!
The store: the pairs, frames and closures a program shares and changes.

Each kind of entry is numbered from zero in order of creation and never goes
away. A place that was never given out reads as an empty entry and cannot be
written, so every access is total.
-/

namespace LispCore

structure Cell where
  head : Object
  tail : Object
deriving Inhabited

/-- The halves of a pair. -/
inductive Side
  | head
  | tail

def Cell.withPart (cell : Cell) : Side → Object → Cell
  | .head, head => { cell with head := head }
  | .tail, tail => { cell with tail := tail }

/-- A scope: its own bindings and the frames around it, nearest first. -/
structure Frame where
  bindings : Bindings
  ancestors : List FrameId
deriving Inhabited

/-- A function of the language: parameters, body, and the frame it was made in. -/
structure Closure where
  formals : List Symbol
  body : Object
  frame : FrameId
deriving Inhabited

/-- All that evaluation can change. `record` holds the texts written by the
recording operation, and labels from `labels` on have not been given out. -/
structure Store where
  cells : Array Cell
  frames : Array Frame
  closures : Array Closure
  record : Array String
  labels : Label
deriving Inhabited

namespace Store

def empty : Store :=
  ⟨#[], #[], #[], #[], Object.emptyTupleLabel + 1⟩

def cell (store : Store) (id : CellId) : Cell :=
  store.cells.getD id ⟨.nil, .nil⟩

def frame (store : Store) (id : FrameId) : Frame :=
  store.frames.getD id ⟨[], []⟩

def closure (store : Store) (id : ClosureId) : Closure :=
  store.closures.getD id ⟨[], .nil, 0⟩

def cons (store : Store) (head tail : Object) : CellId × Store :=
  (store.cells.size, { store with cells := store.cells.push ⟨head, tail⟩ })

/-- The head or the tail of a pair. -/
def part (store : Store) (id : CellId) : Side → Object
  | .head => (store.cell id).head
  | .tail => (store.cell id).tail

def setPart (store : Store) (id : CellId) (side : Side) (value : Object) : Store :=
  { store with cells := store.cells.modify id fun cell => cell.withPart side value }

abbrev setHead (store : Store) (id : CellId) (head : Object) : Store :=
  store.setPart id .head head

abbrev setTail (store : Store) (id : CellId) (tail : Object) : Store :=
  store.setPart id .tail tail

def addClosure (store : Store) (closure : Closure) : ClosureId × Store :=
  (store.closures.size, { store with closures := store.closures.push closure })

def note (store : Store) (text : String) : Store :=
  { store with record := store.record.push text }

variable (store : Store) (head tail : Object) {id other : Nat}

theorem cell_cons_self : (store.cons head tail).2.cell (store.cons head tail).1 = ⟨head, tail⟩ := by
  simp [cons, cell]

theorem cell_cons_of_lt (old : id < store.cells.size) :
    (store.cons head tail).2.cell id = store.cell id := by
  simp [cons, cell, Array.getD, old, Nat.lt_succ_of_lt old, Array.getElem_push_lt]

theorem cell_of_ge {store : Store} (new : store.cells.size ≤ id) :
    store.cell id = ⟨.nil, .nil⟩ := by
  simp [cell, Array.getD, Nat.not_lt.mpr new]

theorem size_setPart (id : CellId) (side : Side) (value : Object) :
    (store.setPart id side value).cells.size = store.cells.size := by
  simp [setPart]

theorem cell_setPart_self (side : Side) (value : Object) (old : id < store.cells.size) :
    (store.setPart id side value).cell id = (store.cell id).withPart side value := by
  simp [setPart, cell, Array.getD, old, Array.getElem_modify]

theorem cell_setPart_ne (side : Side) (value : Object) (different : other ≠ id) :
    (store.setPart id side value).cell other = store.cell other := by
  simp [setPart, cell, Array.getD, Array.getElem_modify, Ne.symm different]

theorem frame_congr {store other : Store} (same : other.frames = store.frames) (id : FrameId) :
    other.frame id = store.frame id := by
  rw [frame, same, frame]

theorem closure_congr {store other : Store} (same : other.closures = store.closures)
    (id : ClosureId) : other.closure id = store.closure id := by
  rw [closure, same, closure]

theorem cell_cons (id : CellId) :
    (store.cons head tail).2.cell id =
      if id = store.cells.size then ⟨head, tail⟩ else store.cell id := by
  by_cases new : id = store.cells.size
  · rw [if_pos new, new]
    exact store.cell_cons_self head tail
  · rw [if_neg new]
    by_cases inside : id < store.cells.size
    · exact store.cell_cons_of_lt head tail inside
    · have beyond : ¬ id < store.cells.size + 1 := fun less =>
        (Nat.lt_succ_iff_lt_or_eq.mp less).elim inside new
      simp [cons, cell, Array.getD, inside, beyond]

theorem cell_setPart (id other : CellId) (side : Side) (value : Object) :
    (store.setPart id side value).cell other =
      if other = id ∧ other < store.cells.size then (store.cell other).withPart side value
      else store.cell other := by
  by_cases same : other = id
  · subst same
    by_cases inside : other < store.cells.size
    · rw [if_pos ⟨rfl, inside⟩, store.cell_setPart_self side value inside]
    · rw [if_neg fun both => inside both.2]
      simp [setPart, cell, Array.getD, inside]
  · rw [if_neg fun both => same both.1, store.cell_setPart_ne side value same]

/-- What holds of the halves of all pairs still does if one is set to what it holds of. -/
theorem halves_setPart {holds : Object → Prop} {value : Object}
    (heads : ∀ id, holds (store.cell id).head) (tails : ∀ id, holds (store.cell id).tail)
    (id : CellId) (side : Side) (new : holds value) (other : CellId) :
    holds ((store.setPart id side value).cell other).head ∧
      holds ((store.setPart id side value).cell other).tail := by
  rw [cell_setPart]
  split
  · cases side with
    | head => exact ⟨new, tails other⟩
    | tail => exact ⟨heads other, new⟩
  · exact ⟨heads other, tails other⟩

theorem closure_addClosure (closure : Closure) (id : ClosureId) :
    (store.addClosure closure).2.closure id =
      if id = store.closures.size then closure else store.closure id := by
  by_cases new : id = store.closures.size
  · rw [if_pos new, new]
    simp [addClosure, Store.closure]
  · rw [if_neg new]
    by_cases inside : id < store.closures.size
    · simp [addClosure, Store.closure, Array.getD, inside, Nat.lt_succ_of_lt inside,
        Array.getElem_push_lt]
    · have beyond : ¬ id < store.closures.size + 1 := fun less =>
        (Nat.lt_succ_iff_lt_or_eq.mp less).elim inside new
      simp [addClosure, Store.closure, Array.getD, inside, beyond]

end Store

end LispCore
