import LispCore.Environment
import LispCore.Eval
import LispCore.Proofs.Circles
import LispCore.Proofs.Presence

/-!
Stores that are one but for the numbers of their entries.

A renaming leaves the entries of old where they are and moves all later ones up, as if others
had been made in between. Stores that are twins under a renaming read the same but for the
numbers, and stay twins when the same is done in both (`Store.Twin`): identity is told by
numbers, and a renaming takes no two of them for one.
-/

namespace LispCore

/-- Numbers before the start stay, and all others move by some places. -/
structure Shift where
  start : Nat
  places : Nat

namespace Shift

variable {shift : Shift} {id other size size' : Nat}

def of (shift : Shift) (id : Nat) : Nat :=
  if id < shift.start then id else id + shift.places

theorem of_lt (old : id < shift.start) : shift.of id = id :=
  if_pos old

theorem of_ge (new : shift.start ≤ id) : shift.of id = id + shift.places :=
  if_neg (Nat.not_lt.mpr new)

@[simp]
theorem of_inj : shift.of id = shift.of other ↔ id = other := by
  unfold of
  split <;> split <;> omega

/-- The sizes of two stores, if the later entries of the one are moved in the other. -/
structure Fits (shift : Shift) (size size' : Nat) : Prop where
  start_le : shift.start ≤ size
  moved : size' = size + shift.places

theorem Fits.of_size (fits : shift.Fits size size') : shift.of size = size' := by
  rw [of_ge fits.start_le, fits.moved]

theorem Fits.of_lt_iff (fits : shift.Fits size size') : shift.of id < size' ↔ id < size := by
  have start_le := fits.start_le
  have moved := fits.moved
  unfold of
  split <;> omega

theorem Fits.succ (fits : shift.Fits size size') : shift.Fits (size + 1) (size' + 1) :=
  ⟨Nat.le_succ_of_le fits.start_le, by rw [fits.moved]; omega⟩

end Shift

structure Renaming where
  cells : Shift
  closures : Shift
  frames : Shift

namespace Renaming

variable {ρ : Renaming} {name : Symbol} {value : Object} {bindings : Bindings}

def object (ρ : Renaming) : Object → Object
  | .pair id => .pair (ρ.cells.of id)
  | .closure id => .closure (ρ.closures.of id)
  | object => object

/-- Faults tell of values that may be renamed; nodes and names stay as they are. -/
def fault (ρ : Renaming) : Fault → Fault
  | .notCallable value => .notCallable (ρ.object value)
  | .wrongKind expected value operation => .wrongKind expected (ρ.object value) operation
  | fault => fault

def interrupt (ρ : Renaming) : Interrupt → Interrupt
  | .fault fault => .fault (ρ.fault fault)
  | interrupt => interrupt

def cell (ρ : Renaming) (cell : Cell) : Cell :=
  ⟨ρ.object cell.head, ρ.object cell.tail⟩

def entry (ρ : Renaming) (entry : Symbol × Object) : Symbol × Object :=
  (entry.1, ρ.object entry.2)

def frame (ρ : Renaming) (frame : Frame) : Frame :=
  ⟨frame.bindings.map ρ.entry, frame.ancestors.map ρ.frames.of⟩

def closure (ρ : Renaming) (closure : Closure) : Closure :=
  { closure with frame := ρ.frames.of closure.frame }

/-- No data in a node are renamed. -/
def Fixes (ρ : Renaming) (node : Object) : Prop :=
  ∀ value, node.Carries value → ρ.object value = value

@[simp]
theorem object_pair (id : CellId) : ρ.object (.pair id) = .pair (ρ.cells.of id) :=
  rfl

@[simp]
theorem isTruthy_object (object : Object) : (ρ.object object).isTruthy = object.isTruthy := by
  cases object <;> rfl

@[simp]
theorem isProcedure_object (object : Object) :
    (ρ.object object).isProcedure = object.isProcedure := by
  cases object <;> rfl

@[simp]
theorem isPair_object (object : Object) : (ρ.object object).isPair = object.isPair := by
  cases object <;> rfl

@[simp]
theorem number?_object (object : Object) :
    Number.ofObject? (ρ.object object) = Number.ofObject? object := by
  cases object <;> rfl

@[simp]
theorem integer?_object (object : Object) : (ρ.object object).integer? = object.integer? := by
  cases object <;> rfl

@[simp]
theorem identical_object (a b : Object) :
    (ρ.object a).identical (ρ.object b) = a.identical b := by
  cases a <;> cases b <;> simp [object, Object.identical]

@[simp]
theorem equalAtoms_object (a b : Object) :
    (ρ.object a).equalAtoms (ρ.object b) = a.equalAtoms b := by
  cases a <;> cases b <;> rfl

theorem get?_entries :
    Bindings.get? name (bindings.map ρ.entry) = (bindings.get? name).map ρ.object := by
  induction bindings with
  | nil => rfl
  | cons first rest ih =>
      by_cases same : first.1 = name
      · simp [Bindings.get?, entry, same]
      · simpa [Bindings.get?, entry, same] using ih

theorem set_entries :
    (bindings.set name value).map ρ.entry =
      Bindings.set name (ρ.object value) (bindings.map ρ.entry) := by
  induction bindings with
  | nil => rfl
  | cons first rest ih =>
      by_cases same : first.1 = name
      · simp [Bindings.set, entry, same]
      · simpa [Bindings.set, entry, same] using ih

end Renaming

namespace Store

/-- The second store has all that the first has, under other numbers. Between the entries that
keep their numbers and those that do not it may have anything. -/
structure Twin (ρ : Renaming) (first second : Store) : Prop where
  cells : ρ.cells.Fits first.cells.size second.cells.size
  closures : ρ.closures.Fits first.closures.size second.closures.size
  frames : ρ.frames.Fits first.frames.size second.frames.size
  cell : ∀ id, second.cell (ρ.cells.of id) = ρ.cell (first.cell id)
  closure : ∀ id < first.closures.size,
    second.closure (ρ.closures.of id) = ρ.closure (first.closure id)
  frame : ∀ id, second.frame (ρ.frames.of id) = ρ.frame (first.frame id)
  body : ∀ id, ρ.Fixes (first.closure id).body

namespace Twin

variable {ρ : Renaming} {first second : Store} {value head tail object : Object}
  {frame : FrameId} {name : Symbol}

-- what is read

theorem scope (twin : Twin ρ first second) (frame : FrameId) :
    second.scope (ρ.frames.of frame) = (first.scope frame).map ρ.frames.of := by
  rw [Store.scope, twin.frame, Store.scope]
  rfl

theorem lookup? (twin : Twin ρ first second) (frame : FrameId) (name : Symbol) :
    second.lookup? (ρ.frames.of frame) name = (first.lookup? frame name).map ρ.object := by
  have bound : ∀ id, (second.frame (ρ.frames.of id)).bindings.get? name =
      ((first.frame id).bindings.get? name).map ρ.object := fun id => by
    rw [twin.frame]
    exact Renaming.get?_entries
  rw [Store.lookup?, twin.scope, Store.lookup?]
  induction first.scope frame with
  | nil => rfl
  | cons id rest ih =>
      simp only [List.map_cons, List.findSome?_cons, bound]
      cases (first.frame id).bindings.get? name with
      | none => exact ih
      | some value => rfl

theorem follow (twin : Twin ρ first second) (steps : Nat) (object : Object) :
    second.follow steps (ρ.object object) =
      ((first.follow steps object).1.map ρ.object, ρ.object (first.follow steps object).2) := by
  induction steps generalizing object with
  | zero => cases object <;> rfl
  | succ steps ih =>
      cases object with
      | pair id =>
          have rest := ih (first.cell id).tail
          simp only [Store.follow, Renaming.object, twin.cell, Renaming.cell] at rest ⊢
          rw [rest]
          rfl
      | _ => rfl

/-- The same lists are proper, though the one store has more pairs to pass. -/
theorem listItems? (twin : Twin ρ first second) (closed : first.Closed)
    (known : first.Has object) :
    second.listItems? (ρ.object object) =
      (first.listItems? object).map (List.map ρ.object) := by
  have more : first.cells.size ≤ second.cells.size := by
    have moved := twin.cells.moved
    omega
  have further := twin.follow second.cells.size object
  by_cases ended : (first.chain object).2.isPair = false
  · rw [follow_of_ended ended more] at further
    unfold Store.listItems? Store.chain
    rw [further]
    generalize first.follow first.cells.size object = arrived at ended
    obtain ⟨heads, last⟩ := arrived
    cases last <;> rfl
  · have onward : (second.chain (ρ.object object)).2.isPair = true := by
      rw [Store.chain, further, Renaming.isPair_object]
      exact eq_true_of_ne_false fun stop => ended (ended_at_size closed known stop)
    rw [listItems?_of_onward onward, listItems?_of_onward (eq_true_of_ne_false ended)]
    rfl

theorem equalAll (twin : Twin ρ first second) (pending : List (Object × Object))
    {assumed assumed' : Comparisons}
    (same : ∀ a b, (ρ.cells.of a, ρ.cells.of b) ∈ assumed' ↔ (a, b) ∈ assumed) :
    second.equalAll assumed' (pending.map fun comparison =>
      (ρ.object comparison.1, ρ.object comparison.2)) = first.equalAll assumed pending := by
  fun_induction Store.equalAll first assumed pending generalizing assumed' with
  | case1 assumed => simp [Store.equalAll]
  | case2 assumed a b pending one ih =>
      have still : (ρ.object a).identical (ρ.object b) := by rwa [Renaming.identical_object]
      exact (equalAll_identical still).trans (ih same)
  | case3 assumed pending a b old different ih =>
      have apart : ¬ (ρ.object (.pair a)).identical (ρ.object (.pair b)) := by
        rwa [Renaming.identical_object]
      refine (equalAll_pairs apart).trans ?_
      rw [if_pos ((same a b).mpr old)]
      exact ih same
  | case4 assumed pending a b new inside different ih =>
      have apart : ¬ (ρ.object (.pair a)).identical (ρ.object (.pair b)) := by
        rwa [Renaming.identical_object]
      have fresh : (ρ.cells.of a, ρ.cells.of b) ∉ assumed' := fun old => new ((same a b).mp old)
      have there := inside.imp twin.cells.of_lt_iff.mpr twin.cells.of_lt_iff.mpr
      have still : ∀ c d, (ρ.cells.of c, ρ.cells.of d) ∈
          assumed'.insert (ρ.cells.of a, ρ.cells.of b) ↔ (c, d) ∈ assumed.insert (a, b) := by
        intro c d
        simp only [Std.TreeSet.mem_insert, Std.LawfulEqCmp.compare_eq_iff_eq, Prod.mk.injEq,
          Shift.of_inj, same]
      refine (equalAll_pairs apart).trans ?_
      rw [if_neg fresh, if_pos there, twin.cell, twin.cell]
      exact ih still
  | case5 assumed pending a b new outside different =>
      have apart : ¬ (ρ.object (.pair a)).identical (ρ.object (.pair b)) := by
        rwa [Renaming.identical_object]
      have fresh : (ρ.cells.of a, ρ.cells.of b) ∉ assumed' := fun old => new ((same a b).mp old)
      have beyond : ¬ (ρ.cells.of a < second.cells.size ∧ ρ.cells.of b < second.cells.size) :=
        fun there => outside (there.imp twin.cells.of_lt_iff.mp twin.cells.of_lt_iff.mp)
      refine (equalAll_pairs apart).trans ?_
      rw [if_neg fresh, if_neg beyond]
  | case6 assumed pending a b noPairs different ih =>
      have apart : ¬ (ρ.object a).identical (ρ.object b) := by rwa [Renaming.identical_object]
      have still : ∀ c d, ρ.object a = .pair c → ρ.object b = .pair d → False := by
        intro c d left right
        cases a with
        | pair first =>
            cases b with
            | pair second => exact noPairs first second rfl rfl
            | _ => contradiction
        | _ => contradiction
      refine (equalAll_atoms apart still).trans ?_
      rw [Renaming.equalAtoms_object, ih same]

theorem equal (twin : Twin ρ first second) (a b : Object) :
    second.equal (ρ.object a) (ρ.object b) = first.equal a b := by
  have nothing : ∀ c d, (ρ.cells.of c, ρ.cells.of d) ∈ (∅ : Comparisons) ↔
      (c, d) ∈ (∅ : Comparisons) := by simp
  exact twin.equalAll [(a, b)] nothing

theorem same (twin : Twin ρ first second) (a b : Object) :
    second.same (ρ.object a) (ρ.object b) = first.same a b := by
  unfold Store.same
  rw [twin.equal]
  simp only [Renaming.isPair_object, Renaming.isProcedure_object, Renaming.identical_object]

-- what is changed

theorem define (twin : Twin ρ first second) (frame : FrameId) (name : Symbol) (value : Object) :
    Twin ρ (first.define frame name value)
      (second.define (ρ.frames.of frame) name (ρ.object value)) where
  cells := twin.cells
  closures := twin.closures
  frames := by simpa [Store.define] using twin.frames
  cell := twin.cell
  closure := twin.closure
  frame id := by
    rw [frame_define, frame_define, twin.frame]
    simp only [Shift.of_inj, twin.frames.of_lt_iff]
    split
    · simp [Renaming.frame, Renaming.set_entries]
    · rfl
  body := twin.body

theorem child (twin : Twin ρ first second) (frame : FrameId) :
    Twin ρ (first.child frame).2 (second.child (ρ.frames.of frame)).2 where
  cells := twin.cells
  closures := twin.closures
  frames := by simpa [Store.child] using twin.frames.succ
  cell := twin.cell
  closure := twin.closure
  frame id := by
    rw [frame_child, frame_child, twin.frame, twin.scope, ← twin.frames.of_size]
    simp only [Shift.of_inj]
    split <;> rfl
  body := twin.body

theorem addClosure (twin : Twin ρ first second) {closure : Closure}
    (fixed : ρ.Fixes closure.body) :
    Twin ρ (first.addClosure closure).2 (second.addClosure (ρ.closure closure)).2 where
  cells := twin.cells
  closures := by simpa [Store.addClosure] using twin.closures.succ
  frames := twin.frames
  cell := twin.cell
  closure id inside := by
    have less : id < first.closures.size + 1 := by simpa [Store.addClosure] using inside
    rw [closure_addClosure, closure_addClosure, ← twin.closures.of_size]
    simp only [Shift.of_inj]
    split
    · rfl
    · rename_i old
      exact twin.closure id (Nat.lt_of_le_of_ne (Nat.le_of_lt_succ less) old)
  frame := twin.frame
  body id := by
    rw [closure_addClosure]
    split
    · exact fixed
    · exact twin.body id

/-- Twins stay twins when their pairs change alike. -/
theorem of_cells (twin : Twin ρ first second) {first' second' : Store}
    (frames : first'.frames = first.frames) (frames' : second'.frames = second.frames)
    (closures : first'.closures = first.closures) (closures' : second'.closures = second.closures)
    (cells : ρ.cells.Fits first'.cells.size second'.cells.size)
    (cell : ∀ id, second'.cell (ρ.cells.of id) = ρ.cell (first'.cell id)) :
    Twin ρ first' second' where
  cells := cells
  closures := by
    rw [closures, closures']
    exact twin.closures
  frames := by
    rw [frames, frames']
    exact twin.frames
  cell := cell
  closure id inside := by
    rw [closure_congr closures, closure_congr closures']
    exact twin.closure id (closures ▸ inside)
  frame id := by
    rw [frame_congr frames, frame_congr frames']
    exact twin.frame id
  body id := by
    rw [closure_congr closures]
    exact twin.body id

theorem cons (twin : Twin ρ first second) (head tail : Object) :
    Twin ρ (first.cons head tail).2 (second.cons (ρ.object head) (ρ.object tail)).2 := by
  have cells : ρ.cells.Fits (first.cons head tail).2.cells.size
      (second.cons (ρ.object head) (ρ.object tail)).2.cells.size := by
    simpa [Store.cons] using twin.cells.succ
  refine twin.of_cells rfl rfl rfl rfl cells fun id => ?_
  rw [cell_cons, cell_cons, twin.cell, ← twin.cells.of_size]
  simp only [Shift.of_inj]
  split <;> rfl

theorem setPart (twin : Twin ρ first second) (id : CellId) (side : Side) (value : Object) :
    Twin ρ (first.setPart id side value)
      (second.setPart (ρ.cells.of id) side (ρ.object value)) := by
  have cells : ρ.cells.Fits (first.setPart id side value).cells.size
      (second.setPart (ρ.cells.of id) side (ρ.object value)).cells.size := by
    simpa only [size_setPart] using twin.cells
  refine twin.of_cells rfl rfl rfl rfl cells fun other => ?_
  rw [cell_setPart, cell_setPart, twin.cell]
  simp only [Shift.of_inj, twin.cells.of_lt_iff]
  split
  · cases side <;> rfl
  · rfl

theorem note (twin : Twin ρ first second) (text text' : String) :
    Twin ρ (first.note text) (second.note text') :=
  twin.of_cells rfl rfl rfl rfl twin.cells twin.cell

theorem ofItems (twin : Twin ρ first second) (items : List Object) (tail : Object) :
    Twin ρ (first.ofItems items tail).2
        (second.ofItems (items.map ρ.object) (ρ.object tail)).2 ∧
      (second.ofItems (items.map ρ.object) (ρ.object tail)).1 =
        ρ.object (first.ofItems items tail).1 := by
  induction items with
  | nil => exact ⟨twin, rfl⟩
  | cons item items ih =>
      obtain ⟨rest, chain⟩ := ih
      have joined := rest.cons item (first.ofItems items tail).1
      rw [← chain] at joined
      exact ⟨joined, congrArg Object.pair rest.cells.of_size.symm⟩

end Twin

end Store

end LispCore
