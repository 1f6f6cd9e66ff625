import LispCore.Eval

/-!
Runs of computations: whether they finish, the store they leave behind, and when
one computation does at least what another does.

`Eval.Below` compares computations that differ in how soon they are cut short: the
one above does the same wherever the one below finishes. Sequencing respects it,
which is what `Eval.Below.bind` says.
-/

namespace LispCore

namespace Interrupt

/-- A fault is an answer of the program; the other interrupts are none. -/
def isFault : Interrupt → Bool
  | .fault _ => true
  | .depth | .patience => false

end Interrupt

namespace Store

/-- What a store keeps beside its entries: what has been recorded, and from where on no labels
have been given out. -/
structure Log where
  record : Array String
  labels : Label

def log (store : Store) : Log :=
  ⟨store.record, store.labels⟩

end Store

namespace Eval

variable {α β : Type}

/-- Does a run come to a value or to a fault, rather than being cut short? -/
def Finishes (run : Eval α) (before : Store) : Prop :=
  match run before with
  | .ok .. => True
  | .error interrupt _ => interrupt.isFault

def storeOf : EStateM.Result Interrupt Store α → Store
  | .ok _ after | .error _ after => after

def storeAfter (run : Eval α) (before : Store) : Store :=
  storeOf (run before)

theorem bind_apply (run : Eval α) (next : α → Eval β) (before : Store) :
    (run >>= next) before =
      match run before with
      | .ok value after => next value after
      | .error interrupt after => .error interrupt after := by
  change EStateM.bind run next before = _
  unfold EStateM.bind
  cases run before <;> rfl

theorem map_apply (change : α → β) (run : Eval α) (before : Store) :
    (change <$> run) before =
      match run before with
      | .ok value after => .ok (change value) after
      | .error interrupt after => .error interrupt after := by
  change EStateM.map change run before = _
  unfold EStateM.map
  cases run before <;> rfl

theorem bind_ok {run : Eval α} {before after : Store} {value : α}
    (ended : run before = .ok value after) (next : α → Eval β) :
    (run >>= next) before = next value after := by
  rw [bind_apply, ended]

/-- What comes to a value does so in both of its parts. -/
theorem parts_of_bind_ok {run : Eval α} {next : α → Eval β} {before after : Store} {value : β}
    (ended : (run >>= next) before = .ok value after) :
    ∃ first between, run before = .ok first between ∧ next first between = .ok value after := by
  rw [bind_apply] at ended
  cases outcome : run before with
  | ok first between => exact ⟨first, between, rfl, by rwa [outcome] at ended⟩
  | error interrupt between =>
      rw [outcome] at ended
      contradiction

theorem map_ok {run : Eval α} {before after : Store} {value : α}
    (ended : run before = .ok value after) (change : α → β) :
    (change <$> run) before = .ok (change value) after := by
  rw [map_apply, ended]

/-- Wherever the first computation finishes, the second does the same. -/
def Below (first second : Eval α) : Prop :=
  ∀ before, first.Finishes before → second before = first before

namespace Below

theorem refl (run : Eval α) : Below run run :=
  fun _ _ => rfl

theorem finishes {first second : Eval α} (below : Below first second) {before : Store}
    (first : first.Finishes before) : second.Finishes before := by
  simpa only [Finishes, below before first] using first

theorem ok {first second : Eval α} (below : Below first second) {before after : Store} {value : α}
    (ends : first before = .ok value after) : second before = .ok value after := by
  have finishes : first.Finishes before := by
    rw [Finishes, ends]
    trivial
  exact (below before finishes).trans ends

theorem trans {first second third : Eval α} (left : Below first second)
    (right : Below second third) : Below first third :=
  fun before finishes => (right before (left.finishes finishes)).trans (left before finishes)

theorem bind {first second : Eval α} {next other : α → Eval β} (runs : Below first second)
    (continues : ∀ value, Below (next value) (other value)) :
    Below (first >>= next) (second >>= other) := by
  intro before finishes
  have started : first.Finishes before := by
    simp only [Finishes, bind_apply] at finishes ⊢
    cases outcome : first before with
    | ok value after => trivial
    | error interrupt after => simpa only [outcome] using finishes
  rw [bind_apply, bind_apply, runs before started]
  cases outcome : first before with
  | ok value after =>
      have rest : (next value).Finishes after := by
        simpa only [Finishes, bind_apply, outcome] using finishes
      exact continues value after rest
  | error interrupt after => rfl

theorem map (change : α → β) {first second : Eval α} (below : Below first second) :
    Below (change <$> first) (change <$> second) := by
  simp only [map_eq_pure_bind]
  exact below.bind fun value => refl _

theorem of_cut {interrupt : Interrupt} (cut : interrupt.isFault = false) (run : Eval α) :
    Below (throw interrupt) run := by
  intro before finishes
  cases interrupt with
  | fault fault => contradiction
  | depth | patience => exact nomatch finishes

end Below

def Returns (run : Eval α) (property : α → Prop) : Prop :=
  ∀ before value after, run before = .ok value after → property value

namespace Returns

theorem bind {run : Eval α} {next : α → Eval β} {property : β → Prop}
    (continues : ∀ value, (next value).Returns property) : (run >>= next).Returns property := by
  intro before value after ends
  rw [bind_apply] at ends
  cases outcome : run before with
  | ok first middle => exact continues first _ _ _ (by simpa only [outcome] using ends)
  | error interrupt middle => simp [outcome] at ends

theorem map {run : Eval α} {change : α → β} {property : β → Prop}
    (changed : ∀ value, property (change value)) : (change <$> run).Returns property := by
  intro before value after ends
  rw [map_apply] at ends
  cases outcome : run before with
  | ok first middle =>
      simp only [outcome, EStateM.Result.ok.injEq] at ends
      exact ends.1 ▸ changed first
  | error interrupt middle => simp [outcome] at ends

theorem of_throw {interrupt : Interrupt} {property : α → Prop} :
    Returns (throw interrupt) property :=
  fun _ _ _ ends => nomatch ends

end Returns

/-- However the run ends, it has written nothing to the record, and has given out no label. -/
def Silent (run : Eval α) : Prop :=
  ∀ before, (run.storeAfter before).log = before.log

namespace Silent

theorem bind {run : Eval α} {next : α → Eval β} (first : Silent run)
    (rest : ∀ value, Silent (next value)) : Silent (run >>= next) := by
  intro before
  have started := first before
  unfold storeAfter at started ⊢
  rw [bind_apply]
  cases outcome : run before with
  | ok value between =>
      rw [outcome] at started
      exact (rest value between).trans started
  | error interrupt between =>
      rw [outcome] at started
      exact started

end Silent

end Eval

end LispCore
