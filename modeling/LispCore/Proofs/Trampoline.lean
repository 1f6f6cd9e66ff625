import LispCore.Proofs.Bridge
import LispCore.Proofs.Runs

/-!
Pending calls do not change what evaluation means.

Direct evaluation and evaluation with pending answers differ only in the budget they
take. Within depth `n`, direct evaluation is below settled evaluation with depth and
patience `n` (`direct_below_settled`); settled evaluation is below direct evaluation
within the depth that its turns cost (`Engine.ofDepth_costs`).
-/

namespace LispCore

open Eval (Below)

theorem Answer.value_map_bind (run : Eval Object) {finish : Answer → Eval Object}
    (settles : ∀ value, finish (.value value) = pure value) :
    (Answer.value <$> run) >>= finish = run := by
  rw [bind_map_left]
  simp only [settles, bind_pure]

/-- Any relation that sequencing respects makes a bridge to answers with their settling. -/
theorem Bridge.ofSettling {inner : ∀ {α : Type}, Eval α → Eval α → Prop}
    (refl : ∀ {α : Type} (run : Eval α), inner run run)
    (bind : ∀ {α β : Type} {first second : Eval α} {next other : α → Eval β},
      inner first second → (∀ value, inner (next value) (other value)) →
        inner (first >>= next) (second >>= other))
    {finish : Answer → Eval Object} (settles : ∀ value, finish (.value value) = pure value) :
    Bridge inner fun first second => inner first (second >>= finish) where
  refl := refl
  bind := bind
  answer := by
    intro first second related
    simpa only [Answer.value_map_bind second settles] using related
  continues := by
    intro α first second next other related continues
    rw [bind_assoc]
    exact bind related continues

/-- Settled evaluation does what direct evaluation does, if it has as much depth and
patience. Three budgets are told apart: the depth of the node, that of the bodies still
pending, and the number of these. -/
theorem direct_below_settled {depth patience near far turns : Nat} (patient : depth ≤ patience)
    (nearEnough : depth ≤ near) (farEnough : depth ≤ far) (longEnough : depth ≤ turns)
    (position : Position) (node : Object) (frame : FrameId) :
    Below (evaluateDirectly depth node frame)
      (answerWithin patience near position node frame >>=
        (Engine.ofDepth patience far).settleWithin turns) := by
  induction depth generalizing near far turns position node frame with
  | zero => exact Below.of_cut rfl _
  | succ depth ih =>
      obtain ⟨near, rfl⟩ : ∃ less, near = less + 1 := ⟨near - 1, by omega⟩
      obtain ⟨turns, rfl⟩ : ∃ less, turns = less + 1 := ⟨turns - 1, by omega⟩
      have bridge := Bridge.ofSettling Below.refl Below.bind
        ((Engine.ofDepth patience far).settleWithin_value (turns + 1))
      have settled : depth ≤ (Engine.ofDepth patience near).patience :=
        Nat.le_of_succ_le patient
      have nested : Bridged Below
          (fun first second => Below first
            (second >>= (Engine.ofDepth patience far).settleWithin (turns + 1)))
          (evaluateDirectly depth) (.ofDepth patience near) position := by
        refine ⟨?operand, ?answer, ?body⟩
        case operand =>
          exact ih (by omega) (by omega) (by omega) settled .operand
        case answer =>
          exact ih (by omega) (by omega) (by omega) (by omega) position
        case body =>
          intro body frame
          cases position with
          | tail => exact ih (by omega) (by omega) (by omega) (by omega) .tail body frame
          | operand =>
              simp only [Engine.answerBody]
              rw [Answer.value_map_bind _ (Engine.settleWithin_value _ _)]
              exact ih (by omega) (by omega) (by omega) settled .tail body frame
      exact bridge.step nested node frame

/-- Settling by `finish` is below direct evaluation of the pending body, within any depth
from `depth` on. -/
structure Covered (depth : Nat) (finish : Answer → Eval Object) : Prop where
  value : ∀ value, finish (.value value) = pure value
  pending : ∀ {bound : Nat}, depth ≤ bound → ∀ body frame,
    Below (finish (.pending body frame)) (evaluateDirectly bound body frame)

/-- An engine adds at most `cost` to the depth that direct evaluation takes for what is
settled after it. -/
def Engine.Costs (engine : Engine) (cost : Nat) : Prop :=
  ∀ {depth bound : Nat} {finish : Answer → Eval Object}, Covered depth finish →
    depth + cost ≤ bound → ∀ position node frame,
      Below (engine.answer position node frame >>= finish) (evaluateDirectly bound node frame)

theorem Engine.Costs.settle {engine : Engine} {cost : Nat} (costs : engine.Costs cost)
    (turns : Nat) : Covered (turns * cost) (engine.settleWithin turns) := by
  induction turns with
  | zero => exact ⟨engine.settleWithin_value 0, fun _ _ _ => Below.of_cut rfl _⟩
  | succ turns ih =>
      refine ⟨engine.settleWithin_value _, fun enough body frame => ?_⟩
      exact costs ih (by rw [Nat.succ_mul] at enough; exact enough) .tail body frame

/-- The depth that direct evaluation takes for what is evaluated within a patience and a
depth: each level settles chains of pending bodies of the level below. -/
def nesting (patience : Nat) : Nat → Nat
  | 0 => 0
  | depth + 1 => (patience + 1) * nesting patience depth + 1

theorem Engine.ofDepth_costs (patience depth : Nat) :
    (Engine.ofDepth patience depth).Costs (nesting patience depth) := by
  induction depth with
  | zero => exact fun _ _ _ _ _ => Below.of_cut rfl _
  | succ depth ih =>
      intro extra bound finish covered enough position node frame
      rw [nesting, Nat.succ_mul] at enough
      obtain ⟨bound, rfl⟩ : ∃ less, bound = less + 1 := ⟨bound - 1, by omega⟩
      have settled : Covered (patience * nesting patience depth)
          (Engine.ofDepth patience depth).settle := ih.settle patience
      have bridge : Bridge (fun first second => Below second first)
          fun first second => Below (second >>= finish) first :=
        @Bridge.ofSettling (fun first second => Below second first) Below.refl Below.bind _
          covered.value
      have nested : Bridged (fun first second => Below second first)
          (fun first second => Below (second >>= finish) first)
          (evaluateDirectly bound) (.ofDepth patience depth) position := by
        refine ⟨?operand, ?answer, ?body⟩
        case operand => exact ih settled (by omega) .operand
        case answer => exact ih covered (by omega) position
        case body =>
          intro body frame
          cases position with
          | tail => exact covered.pending (by omega) body frame
          | operand =>
              simp only [Engine.answerBody]
              rw [Answer.value_map_bind _ covered.value]
              exact ih settled (by omega) .tail body frame
      exact bridge.step nested node frame

namespace Answer

def IsValue (answer : Answer) : Prop :=
  ∃ value, answer = .value value

end Answer

theorem operand_returns_value (patience depth : Nat) (node : Object) (frame : FrameId) :
    (answerWithin patience depth .operand node frame).Returns Answer.IsValue := by
  induction depth generalizing node frame with
  | zero => exact Eval.Returns.of_throw
  | succ depth ih =>
      -- what the nodes on the way come to does not matter, so any evaluator will do
      have bridge : Bridge (fun _ _ => True) fun _ second => second.Returns Answer.IsValue :=
        ⟨fun _ => trivial, fun _ _ => trivial,
          fun _ => Eval.Returns.map fun value => ⟨value, rfl⟩,
          fun _ continues => Eval.Returns.bind continues⟩
      have nested : Bridged (fun _ _ => True) (fun _ second => second.Returns Answer.IsValue)
          (evaluateDirectly 0) (.ofDepth patience depth) .operand :=
        ⟨fun _ _ => trivial, ih, fun _ _ => Eval.Returns.map fun value => ⟨value, rfl⟩⟩
      exact bridge.step nested node frame

theorem Answer.value_map_settled {run : Eval Answer} (returns : run.Returns Answer.IsValue)
    {finish : Answer → Eval Object} (settles : ∀ value, finish (.value value) = pure value) :
    Answer.value <$> (run >>= finish) = run := by
  funext before
  rw [Eval.map_apply, Eval.bind_apply]
  cases outcome : run before with
  | ok answer after =>
      obtain ⟨value, rfl⟩ := returns before answer after outcome
      simp only [settles]
      rfl
  | error interrupt after => rfl

inductive Way
  /-- Calls in tail position stay pending and are settled in the end. -/
  | deferred
  /-- As an operand, with no call left pending. -/
  | inPlace
  /-- With no notion of tail position or of pending calls. -/
  | direct

namespace Way

def answer (budget : Budget) (node : Object) (frame : FrameId) : Way → Eval Answer
  | .deferred => .value <$> budget.engine.complete node frame
  | .inPlace => budget.engine.answer .operand node frame
  | .direct => .value <$> evaluateDirectly budget.limit node frame

/-- Some budget lets the evaluation finish, with this outcome. -/
def ComesTo (way : Way) (node : Object) (frame : FrameId) (before : Store)
    (outcome : EStateM.Result Interrupt Store Answer) : Prop :=
  ∃ budget, (way.answer budget node frame).Finishes before ∧
    way.answer budget node frame before = outcome

theorem inPlace_eq_settled (budget : Budget) (node : Object) (frame : FrameId) :
    answer budget node frame .inPlace = .value <$> budget.engine.operand node frame :=
  (Answer.value_map_settled (operand_returns_value _ _ node frame)
    (Engine.settleWithin_value _ _)).symm

theorem below_direct (way : Way) (budget : Budget) (node : Object) (frame : FrameId) :
    ∃ depth, Below (way.answer budget node frame)
      (.value <$> evaluateDirectly depth node frame) := by
  have costs : budget.engine.Costs _ := Engine.ofDepth_costs budget.patience budget.limit
  have settled := costs.settle budget.patience
  cases way with
  | deferred => exact ⟨_, (costs settled (Nat.le_refl _) .tail node frame).map _⟩
  | inPlace =>
      rw [inPlace_eq_settled]
      exact ⟨_, (costs settled (Nat.le_refl _) .operand node frame).map _⟩
  | direct => exact ⟨_, Below.refl _⟩

theorem direct_below_deferred {depth room : Nat} (enough : depth ≤ room) (node : Object)
    (frame : FrameId) :
    Below (.value <$> evaluateDirectly depth node frame)
      (answer ⟨room, room⟩ node frame .deferred) :=
  (direct_below_settled enough enough enough enough .tail node frame).map _

theorem direct_below (way : Way) (depth : Nat) (node : Object) (frame : FrameId) :
    Below (.value <$> evaluateDirectly depth node frame)
      (way.answer ⟨depth, depth⟩ node frame) := by
  have enough := Nat.le_refl depth
  cases way with
  | deferred => exact direct_below_deferred enough node frame
  | inPlace =>
      rw [inPlace_eq_settled]
      exact (direct_below_settled enough enough enough enough .operand node frame).map _
  | direct => exact Below.refl _

theorem comesTo_of_comesTo {way : Way} (other : Way) {node : Object} {frame : FrameId}
    {before : Store} {outcome : EStateM.Result Interrupt Store Answer}
    (comes : way.ComesTo node frame before outcome) :
    other.ComesTo node frame before outcome := by
  obtain ⟨budget, finishes, rfl⟩ := comes
  obtain ⟨depth, below⟩ := way.below_direct budget node frame
  have whole := below.trans (other.direct_below depth node frame)
  exact ⟨_, whole.finishes finishes, whole before finishes⟩

theorem deferred_of_comesTo {way : Way} {node : Object} {frame : FrameId} {before : Store}
    {outcome : EStateM.Result Interrupt Store Answer}
    (comes : way.ComesTo node frame before outcome) :
    ∃ least, ∀ room, least ≤ room → answer ⟨room, room⟩ node frame .deferred before = outcome := by
  obtain ⟨budget, finishes, rfl⟩ := comes
  obtain ⟨depth, below⟩ := way.below_direct budget node frame
  exact ⟨depth, fun room enough =>
    below.trans (direct_below_deferred enough node frame) before finishes⟩

/-- However a node is evaluated, it comes to the same: the three ways have the same
outcomes, with the store and the record left behind, and no two of them differ. -/
theorem outcomes_agree (way other : Way) (node : Object) (frame : FrameId) (before : Store) :
    (∀ outcome, way.ComesTo node frame before outcome ↔
      other.ComesTo node frame before outcome) ∧
    ∀ first second, way.ComesTo node frame before first →
      other.ComesTo node frame before second → first = second := by
  refine ⟨fun outcome => ⟨comesTo_of_comesTo other, comesTo_of_comesTo way⟩, ?_⟩
  intro first second left right
  obtain ⟨least, leftMost⟩ := deferred_of_comesTo left
  obtain ⟨least', rightMost⟩ := deferred_of_comesTo right
  rw [← leftMost (max least least') (Nat.le_max_left _ _),
    ← rightMost (max least least') (Nat.le_max_right _ _)]

end Way

end LispCore
