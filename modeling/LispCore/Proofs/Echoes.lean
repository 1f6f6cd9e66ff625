import LispCore.Proofs.Direct.Outcomes
import LispCore.Proofs.Renaming.Record
import LispCore.Proofs.Transparency

/-!
Outcomes that are the same but for what is new.

Two evaluations from one store may number what they make differently, and the one may make
entries that the other does without. Their outcomes are *echoes* if nothing else tells them
apart: the same value or fault, stores that are twins, and equal records, under a renaming that
leaves alone all that there was (`Store.Echoes`). Outcomes of two nodes match if each of the one
has an echo among those of the other (`Matching`).
-/

namespace LispCore

open Eval (ComesTo Follows Rises)
open Store (Twin Grown)

/-- Each of the one kind has its like among the other, and the other way round. -/
def Matching {α β : Type} (alike : α → β → Prop) (first : α → Prop) (second : β → Prop) : Prop :=
  (∀ a, first a → ∃ b, second b ∧ alike a b) ∧ ∀ b, second b → ∃ a, first a ∧ alike a b

namespace Matching

variable {α β γ : Type} {alike : α → β → Prop} {first : α → Prop} {second : β → Prop}

theorem congr {first' : α → Prop} {second' : β → Prop} (matching : Matching alike first second)
    (same : ∀ a, first' a ↔ first a) (same' : ∀ b, second' b ↔ second b) :
    Matching alike first' second' := by
  obtain rfl : first' = first := funext fun a => propext (same a)
  obtain rfl : second' = second := funext fun b => propext (same' b)
  exact matching

/-- After one and the same beginning, runs match if what follows its values does. -/
theorem follows {alike : EStateM.Result Interrupt Store α → EStateM.Result Interrupt Store α → Prop}
    {begins : EStateM.Result Interrupt Store γ → Prop}
    {rest rest' : γ → Store → EStateM.Result Interrupt Store α → Prop}
    (value : ∀ value between, begins (.ok value between) →
      Matching alike (rest value between) (rest' value between))
    (fault : ∀ fault after, begins (.error (.fault fault) after) →
      alike (.error (.fault fault) after) (.error (.fault fault) after)) :
    Matching alike (Follows begins rest) (Follows begins rest') := by
  constructor
  · rintro result (⟨begun, goesOn⟩ | failed)
    · obtain ⟨other, goesOn, same⟩ := (value _ _ begun).1 _ goesOn
      exact ⟨other, .value begun goesOn, same⟩
    · exact ⟨_, .fault failed, fault _ _ failed⟩
  · rintro result (⟨begun, goesOn⟩ | failed)
    · obtain ⟨other, goesOn, same⟩ := (value _ _ begun).2 _ goesOn
      exact ⟨other, .value begun goesOn, same⟩
    · exact ⟨_, .fault failed, fault _ _ failed⟩

end Matching

namespace Renaming

variable {ρ : Renaming}

def answer (ρ : Renaming) : Answer → Answer
  | .value value => .value (ρ.object value)
  | .pending body frame => .pending body (ρ.frames.of frame)

theorem past_leaves {store before after : Store} (grown : Grown store before) :
    (past before after).Leaves store where
  cells _ old := Shift.of_lt (Nat.lt_of_lt_of_le old grown.cells_le)
  closures _ old := Shift.of_lt (Nat.lt_of_lt_of_le old grown.closures_le)
  frames _ old := Shift.of_lt (Nat.lt_of_lt_of_le old grown.frames_le)

/-- The renaming that renames nothing. -/
def none : Renaming :=
  ⟨⟨0, 0⟩, ⟨0, 0⟩, ⟨0, 0⟩⟩

theorem object_none (value : Object) : none.object value = value := by
  cases value <;> rfl

theorem twin_none (store : Store) : Twin none store store where
  cells := ⟨Nat.zero_le _, rfl⟩
  closures := ⟨Nat.zero_le _, rfl⟩
  frames := ⟨Nat.zero_le _, rfl⟩
  cell id := by
    change store.cell id = ⟨none.object _, none.object _⟩
    rw [object_none, object_none]
  closure _ _ := rfl
  frame place := by
    have entries : none.entry = id := funext fun entry => Prod.ext rfl (object_none entry.2)
    have ancestors : none.frames.of = id := rfl
    rw [frame, entries, ancestors, List.map_id, List.map_id]
    rfl
  body _ value _ := object_none value

theorem interrupt_none (interrupt : Interrupt) : none.interrupt interrupt = interrupt := by
  cases interrupt with
  | fault fault =>
      refine congrArg Interrupt.fault ?_
      cases fault with
      | notCallable value => exact congrArg Fault.notCallable (object_none value)
      | wrongKind expected value operation =>
          exact congrArg (Fault.wrongKind expected · operation) (object_none value)
      | _ => rfl
  | depth | patience => rfl

end Renaming

/-- Results that are the same but for the numbers of what is new since a store. What the one has
made beyond what the other has made, nothing else has to do with. -/
def Store.Echoes {α : Type} (store : Store) (rename : Renaming → α → α)
    (result result' : EStateM.Result Interrupt Store α) : Prop :=
  ∃ ρ : Renaming, ρ.Leaves store ∧ ρ.Ends (rename ρ) result result' ∧
    (Eval.storeOf result).record = (Eval.storeOf result').record

namespace Store.Echoes

variable {store : Store} {result result' : EStateM.Result Interrupt Store Object}

theorem refl (store : Store) (result : EStateM.Result Interrupt Store Object) :
    store.Echoes Renaming.object result result := by
  refine ⟨.none, ⟨fun _ _ => rfl, fun _ _ => rfl, fun _ _ => rfl⟩, ?_, rfl⟩
  cases result with
  | ok value after => exact .of_fixed (Renaming.twin_none after) (Renaming.object_none value)
  | error interrupt after =>
      have ends : Renaming.none.Ends Renaming.none.object (.error interrupt after)
          (.error (Renaming.none.interrupt interrupt) after) :=
        .interrupt (Renaming.twin_none after)
      rwa [Renaming.interrupt_none] at ends

end Store.Echoes

namespace Eval

variable {α β : Type}

def mapped (change : α → β) : EStateM.Result Interrupt Store α → EStateM.Result Interrupt Store β
  | .ok value after => .ok (change value) after
  | .error interrupt after => .error interrupt after

theorem comesTo_map {run : Nat → Eval α} {change : α → β} {before : Store}
    {outcome : EStateM.Result Interrupt Store β} :
    ComesTo (fun depth => change <$> run depth) before outcome ↔
      ∃ result, ComesTo run before result ∧ mapped change result = outcome := by
  have mapping : ∀ depth, (change <$> run depth) before = mapped change (run depth before) := by
    intro depth
    rw [map_apply]
    cases run depth before <;> rfl
  constructor
  · rintro ⟨final, depth, rfl⟩
    dsimp only at final ⊢
    rw [mapping] at final ⊢
    refine ⟨_, ⟨?_, depth, rfl⟩, rfl⟩
    cases outcome : run depth before <;> simp_all [mapped, Final]
  · rintro ⟨result, ⟨final, depth, rfl⟩, rfl⟩
    refine ⟨?_, depth, mapping depth⟩
    cases outcome : run depth before <;> simp_all [mapped, Final]

end Eval

theorem Way.comesTo_iff {way : Way} {node : Object} {frame : FrameId} {before : Store}
    {outcome : EStateM.Result Interrupt Store Answer} :
    way.ComesTo node frame before outcome ↔
      ∃ result, Direct.Evaluates node frame before result ∧
        Eval.mapped Answer.value result = outcome := by
  rw [← Eval.comesTo_map]
  constructor
  · intro comes
    obtain ⟨budget, finishes, rfl⟩ := comesTo_of_comesTo .direct comes
    exact ⟨finishes, budget.limit, rfl⟩
  · rintro ⟨final, depth, rfl⟩
    have comes : Way.direct.ComesTo node frame before
        ((.value <$> evaluateDirectly depth node frame : Eval Answer) before) :=
      ⟨⟨depth, 0⟩, final, rfl⟩
    exact comesTo_of_comesTo way comes

/-- Nodes match, whichever way they are evaluated, if they do in direct evaluation. -/
theorem Way.matching {first second : Object} {frame : FrameId} {before : Store}
    (matching : Matching (before.Echoes Renaming.object) (Direct.Evaluates first frame before)
      (Direct.Evaluates second frame before)) (way way' : Way) :
    Matching (before.Echoes Renaming.answer) (way.ComesTo first frame before)
      (way'.ComesTo second frame before) := by
  have answers : ∀ {result result' : EStateM.Result Interrupt Store Object},
      before.Echoes Renaming.object result result' → before.Echoes Renaming.answer
        (Eval.mapped Answer.value result) (Eval.mapped Answer.value result') := by
    rintro result result' ⟨ρ, leaves, ends, records⟩
    refine ⟨ρ, leaves, ?_⟩
    cases ends with
    | value twin => exact ⟨.value twin, records⟩
    | interrupt twin => exact ⟨.interrupt twin, records⟩
  constructor
  · intro outcome comes
    obtain ⟨result, direct, rfl⟩ := Way.comesTo_iff.mp comes
    obtain ⟨result', direct', echoes⟩ := matching.1 result direct
    exact ⟨_, Way.comesTo_iff.mpr ⟨result', direct', rfl⟩, answers echoes⟩
  · intro outcome comes
    obtain ⟨result, direct, rfl⟩ := Way.comesTo_iff.mp comes
    obtain ⟨result', direct', echoes⟩ := matching.2 result direct
    exact ⟨_, Way.comesTo_iff.mpr ⟨result', direct', rfl⟩, answers echoes⟩

namespace Renaming

open Discipline (settlement)

variable {ρ : Renaming} {store first second : Store}

/-- What the coupled runs come to in twin stores is the same but for the numbers. -/
theorem matching_of_coupled {run run' : Nat → Eval Object}
    (coupled : ∀ depth, (ρ.coupling (settlement store) Eq).Coupled first
      (ρ.coupling (settlement store) Eq).Value (run depth) (run' depth))
    (good : (settlement store).Good first) (twin : Twin ρ first second)
    (logs : first.log = second.log) (leaves : ρ.Leaves store) :
    Matching (store.Echoes Renaming.object) (ComesTo run first) (ComesTo run' second) := by
  have each : ∀ depth, store.Echoes Renaming.object (run depth first) (run' depth second) ∧
      (Eval.Final (run depth first) ↔ Eval.Final (run' depth second)) := by
    intro depth
    have ends := coupled depth first second ⟨rfl, good, twin, logs⟩
    generalize run depth first = result at ends
    generalize run' depth second = result' at ends
    cases ends with
    | excused excuse => exact False.elim excuse
    | value _ stores alike =>
        obtain ⟨rfl, _, twin, same⟩ := stores
        obtain ⟨_, rfl⟩ := alike
        exact ⟨⟨ρ, leaves, .value twin, congrArg Store.Log.record same⟩, .rfl⟩
    | @interrupt _ interrupt _ _ _ _ stores alike =>
        obtain ⟨rfl, _, twin, same⟩ := stores
        obtain rfl := alike
        refine ⟨⟨ρ, leaves, .interrupt twin, congrArg Store.Log.record same⟩, ?_⟩
        cases interrupt <;> exact .rfl
  constructor
  · rintro result ⟨final, depth, rfl⟩
    exact ⟨_, ⟨(each depth).2.mp final, depth, rfl⟩, (each depth).1⟩
  · rintro result ⟨final, depth, rfl⟩
    exact ⟨_, ⟨(each depth).2.mpr final, depth, rfl⟩, (each depth).1⟩

/-- What a node comes to in twin stores is the same but for the numbers. -/
theorem matching_of_twins {node : Object} {frame : FrameId} (good : (settlement store).Good first)
    (twin : Twin ρ first second) (logs : first.log = second.log)
    (known : (settlement store).Node first node) (fixed : ρ.Fixes node)
    (inside : frame < first.frames.size) (leaves : ρ.Leaves store) :
    Matching (store.Echoes Renaming.object) (Direct.Evaluates node frame first)
      (Direct.Evaluates node (ρ.frames.of frame) second) := by
  have lawful := (suits_settlement leaves).coupling_lawful
  refine matching_of_coupled (fun depth => ?_) good twin logs leaves
  have aligned := lawful.direct (fun _ => rfl) depth
  have coupled := lawful.operand aligned ⟨⟨known, fixed⟩, inside, rfl⟩
  rwa [Engine.operand_direct, Engine.operand_direct] at coupled

end Renaming

end LispCore
