import LispCore.Proofs.Operation.Faults
import LispCore.Proofs.Quotation.Shape

namespace LispCore

open Store (AddsPairs)

namespace Operation.Effect

variable {store after : Store} {operation : Operation} {operands : List Object}
  {value : Object} {interrupt : Interrupt}

theorem unchanged (effect : Effect store operation operands (.error interrupt after)) :
    after = store := by
  cases effect <;> rfl

theorem adds (effect : Effect store operation operands (.ok value after))
    (sparesHeads : operation ≠ .setHead) (sparesTails : operation ≠ .setTail)
    (sparesRecord : operation ≠ .record) : AddsPairs store after := by
  cases effect with
  | joins => exact .cons store _ _
  | lists => exact .ofItems store _ _
  | setsHead => exact absurd rfl sparesHeads
  | setsTail => exact absurd rfl sparesTails
  | records => exact absurd rfl sparesRecord
  | _ => exact .refl store

end Operation.Effect

namespace Side

def other : Side → Side
  | .head => .tail
  | .tail => .head

/-- The primitive that reads this half of a pair. -/
def reader : Side → Primitive
  | .head => .ofOperation .head 1 (some 1)
  | .tail => .ofOperation .tail 1 (some 1)

/-- The primitive that sets this half of a pair. -/
def setter : Side → Primitive
  | .head => .ofOperation .setHead 2 (some 2)
  | .tail => .ofOperation .setTail 2 (some 2)

end Side

namespace Primitive

variable {primitive : Primitive} {operands : List Object} {store after : Store} {value : Object}
  {interrupt : Interrupt}

theorem call_unchanged (failed : primitive.call operands store = .error interrupt after) :
    after = store := by
  rw [call_apply] at failed
  split at failed
  · have effect := primitive.operation.run_effect operands store
    rw [failed] at effect
    exact effect.unchanged
  · cases failed
    rfl

theorem standard_setters : ∀ primitive ∈ standard,
    (primitive.operation = .setHead → primitive = Side.head.setter) ∧
      (primitive.operation = .setTail → primitive = Side.tail.setter) ∧
      primitive.operation ≠ .record := by
  decide

theorem call_adds (member : primitive ∈ standard) (other : ∀ side : Side, primitive ≠ side.setter)
    (ended : primitive.call operands store = .ok value after) : AddsPairs store after := by
  obtain ⟨heads, tails, sparesRecord⟩ := standard_setters primitive member
  rw [call_apply] at ended
  split at ended
  · have effect := primitive.operation.run_effect operands store
    rw [ended] at effect
    exact effect.adds (fun sets => other .head (heads sets)) (fun sets => other .tail (tails sets))
      sparesRecord
  · cases ended

end Primitive

namespace Store

/-- In this store, the half of the pair is read as the value. -/
def Reads (store : Store) (side : Side) (pair value : Object) : Prop :=
  side.reader.call [pair] store = .ok value store

/-- A half of a pair has been set to a value, and nothing else has changed. -/
structure Sets (side : Side) (pair value : Object) (before after : Store) : Prop where
  frames : after.frames = before.frames
  closures : after.closures = before.closures
  log : after.log = before.log
  size : after.cells.size = before.cells.size
  /-- Whatever leads to the pair, the value is read there. -/
  half : ∀ held, held.identical pair → after.Reads side held value
  otherHalf : ∀ held, held.identical pair → ∀ read,
    after.Reads side.other held read ↔ before.Reads side.other held read
  otherPairs : ∀ other, ¬ other.identical pair → ∀ either read,
    after.Reads either other read ↔ before.Reads either other read

variable {store after : Store} {side either : Side} {id other : CellId}
  {pair value : Object} {operands : List Object}

theorem part_setPart_self (inside : id < store.cells.size) :
    (store.setPart id side value).part id side = value := by
  cases side <;> simp only [part, store.cell_setPart_self _ value inside, Cell.withPart]

theorem part_setPart_other :
    (store.setPart id side value).part id side.other = store.part id side.other := by
  cases side <;> simp only [part, Side.other, cell_setPart] <;> split <;> rfl

theorem part_setPart_ne (different : other ≠ id) :
    (store.setPart id side value).part other either = store.part other either := by
  cases either <;> simp only [part, store.cell_setPart_ne side value different]

theorem call_reader (store : Store) (side : Side) (id : CellId) :
    side.reader.call [.pair id] store = .ok (store.part id side) store := by
  cases side <;> rfl

theorem call_setter (store : Store) (side : Side) (id : CellId) (value : Object) :
    side.setter.call [.pair id, value] store = .ok .nil (store.setPart id side value) := by
  cases side <;> rfl

theorem reads_pair_iff : store.Reads side (.pair id) value ↔ store.part id side = value := by
  simp [Reads, call_reader]

theorem not_reads_of_not_pair (plain : pair.isPair = false) : ¬ store.Reads side pair value := by
  intro reads
  cases pair with
  | pair id => contradiction
  | _ => cases side <;> cases reads

/-- The setters succeed on a pair and one more operand, and on nothing else. -/
theorem call_setter_ok_iff (store : Store) (side : Side) (operands : List Object) :
    (∃ value after, side.setter.call operands store = .ok value after) ↔
      ∃ id value, operands = [.pair id, value] := by
  constructor
  · intro succeeds
    obtain ⟨result, after, ended⟩ := succeeds
    have two : operands.length = 2 := by
      rw [Primitive.call_apply] at ended
      split at ended
      · rename_i admitted
        cases side <;> simp [Side.setter, Primitive.ofOperation, Primitive.admits] at admitted <;>
          omega
      · cases ended
    obtain ⟨pair, value, rfl⟩ := List.length_eq_two.mp two
    cases pair with
    | pair id => exact ⟨id, value, rfl⟩
    | _ => cases side <;> cases ended
  · intro fits
    obtain ⟨id, value, same⟩ := fits
    exact ⟨.nil, _, same ▸ call_setter store side id value⟩

theorem sets_of_call (inside : store.Has pair) {result : Object}
    (ended : side.setter.call [pair, value] store = .ok result after) :
    result = .nil ∧ Sets side pair value store after := by
  obtain ⟨id, _, same⟩ := (call_setter_ok_iff store side _).mp ⟨result, after, ended⟩
  cases same
  rw [call_setter] at ended
  cases ended
  have pair_of_identical : ∀ held, Object.identical held (.pair id) → held = .pair id :=
    fun held one => Object.eq_of_identical_value rfl one
  refine ⟨rfl, ?_⟩
  constructor
  case frames => rfl
  case closures => rfl
  case log => rfl
  case size => exact store.size_setPart id side value
  case half =>
    intro held one
    rw [pair_of_identical held one, reads_pair_iff]
    exact part_setPart_self inside
  case otherHalf =>
    intro held one read
    rw [pair_of_identical held one, reads_pair_iff, reads_pair_iff, part_setPart_other]
  case otherPairs =>
    intro other apart either read
    cases other with
    | pair place =>
        have different : place ≠ id := fun same => apart (by simp [Object.identical, same])
        rw [reads_pair_iff, reads_pair_iff, part_setPart_ne different]
    | _ => exact iff_of_false (not_reads_of_not_pair rfl) (not_reads_of_not_pair rfl)

end Store

/-- A call of a standard primitive that fails changes nothing at all, and one that succeeds adds
pairs at most. Only the setters change what was there: they succeed on a pair and a value, come to
nil, and change what is read as this half of this pair, whatever leads to it, and nothing else. -/
theorem calls_touch_what_they_name (store : Store) :
    (∀ primitive ∈ Primitive.standard, ∀ operands,
      (∀ interrupt after, primitive.call operands store = .error interrupt after →
        after = store ∧ ∃ fault, interrupt = .fault fault ∧ fault.isOfCalls) ∧
      ((∀ side : Side, primitive ≠ side.setter) →
        ∀ value after, primitive.call operands store = .ok value after →
          store.AddsPairs after)) ∧
    ∀ side : Side, side.setter ∈ Primitive.standard ∧
      (∀ operands, (∃ value after, side.setter.call operands store = .ok value after) ↔
        ∃ id value, operands = [.pair id, value]) ∧
      ∀ pair value result after, store.Has pair →
        side.setter.call [pair, value] store = .ok result after →
          result = .nil ∧ store.Sets side pair value after := by
  constructor
  · intro primitive member operands
    refine ⟨fun interrupt after failed => ?_, fun other value after ended => ?_⟩
    · exact ⟨Primitive.call_unchanged failed, Primitive.call_fails failed⟩
    · exact Primitive.call_adds member other ended
  · intro side
    refine ⟨by cases side <;> decide, Store.call_setter_ok_iff store side, ?_⟩
    intro pair value result after inside ended
    exact Store.sets_of_call inside ended

/-- Two pairs in a circle, of which the second holds the first in both halves. -/
def Store.knotted : Store :=
  { empty with cells := #[⟨.integer 1, .pair 1⟩, ⟨.pair 0, .pair 0⟩] }

/-- The circle has no length. When a head is set in it, the second pair still holds the first. -/
theorem knotted_touched :
    (∃ after, (Primitive.ofOperation .length 1 (some 1)).call [.pair 0] .knotted =
        .error (.fault (.wrongKind "proper list" (.pair 0) (some "length"))) after ∧
      after = .knotted) ∧
    (∃ after, (Primitive.ofOperation .list 0 none).call [.pair 0, .pair 1] .knotted =
        .ok (.pair 3) after ∧ Store.knotted.AddsPairs after) ∧
    ∃ after, Side.head.setter.call [.pair 0, .string "new"] .knotted = .ok .nil after ∧
      after.Reads .head (.pair 0) (.string "new") ∧ after.Reads .tail (.pair 0) (.pair 1) ∧
      after.Reads .head (.pair 1) (.pair 0) ∧ after.Reads .tail (.pair 1) (.pair 0) := by
  obtain ⟨calls, sets⟩ := calls_touch_what_they_name .knotted
  have inside : Store.knotted.Has (.pair 0) := (by decide : 0 < 2)
  refine ⟨⟨_, rfl, ?_⟩, ⟨_, rfl, ?_⟩, _, rfl, ?_⟩
  · exact ((calls (.ofOperation .length 1 (some 1)) (by decide) [.pair 0]).1 _ _ rfl).1
  · refine (calls (.ofOperation .list 0 none) (by decide) [.pair 0, .pair 1]).2 ?_ _ _ rfl
    intro side
    cases side <;> decide
  · obtain ⟨_, _, setting⟩ := sets .head
    obtain ⟨_, set⟩ := setting (.pair 0) (.string "new") .nil _ inside rfl
    have second : ∀ either, _ ↔ _ :=
      fun either => set.otherPairs (.pair 1) (by decide) either (.pair 0)
    exact ⟨set.half (.pair 0) rfl, (set.otherHalf (.pair 0) rfl _).mpr rfl,
      (second .head).mpr rfl, (second .tail).mpr rfl⟩

end LispCore
