import LispCore.Proofs.Forms
import LispCore.Proofs.References
import LispCore.Proofs.Runs
import Mathlib.Logic.Basic

namespace LispCore

inductive Logic
  | conjunction
  | disjunction

namespace Logic

def form : Logic → SpecialForm
  | .conjunction => .conjunction
  | .disjunction => .disjunction

/-- A conjunction is decided by nil and false, a disjunction by anything else. -/
def Decides (logic : Logic) (value : Object) : Prop :=
  match logic with
  | .conjunction => value = .nil ∨ value = .boolean false
  | .disjunction => value ≠ .nil ∧ value ≠ .boolean false

/-- From store to store, all nodes are evaluated to values that decide nothing. -/
inductive Passes (logic : Logic) (engine : Engine) (frame : FrameId) :
    List Object → Store → Store → Prop
  | none {store : Store} : Passes logic engine frame [] store store
  | next {node value : Object} {nodes : List Object} {before between after : Store}
      (ends : engine.operand node frame before = .ok value between)
      (undecided : ¬ logic.Decides value) (goesOn : Passes logic engine frame nodes between after) :
      Passes logic engine frame (node :: nodes) before after

/-- A form ends with this node: nothing comes later, or the node decides or fails. -/
inductive Concludes (logic : Logic) (engine : Engine) (position : Position) (frame : FrameId)
    (node : Object) (before : Store) : List Object → EStateM.Result Interrupt Store Answer → Prop
  | last {result : EStateM.Result Interrupt Store Answer}
      (ends : engine.answer position node frame before = result) :
      Concludes logic engine position frame node before [] result
  | decided {value next : Object} {later : List Object} {after : Store}
      (ends : engine.operand node frame before = .ok value after)
      (decides : logic.Decides value) :
      Concludes logic engine position frame node before (next :: later) (.ok (.value value) after)
  | failed {next : Object} {later : List Object} {interrupt : Interrupt} {after : Store}
      (ends : engine.operand node frame before = .error interrupt after) :
      Concludes logic engine position frame node before (next :: later) (.error interrupt after)

theorem isTruthy_iff (value : Object) :
    value.isTruthy ↔ value ≠ .nil ∧ value ≠ .boolean false := by
  cases value with
  | boolean truth => cases truth <;> simp [Object.isTruthy]
  | _ => simp [Object.isTruthy]

theorem decides_conjunction (value : Object) :
    conjunction.Decides value ↔ ¬ value.isTruthy := by
  rw [isTruthy_iff, Decides, not_and_or, not_not, not_not]

theorem decides_disjunction (value : Object) : disjunction.Decides value ↔ value.isTruthy :=
  (isTruthy_iff value).symm

instance (logic : Logic) (value : Object) : Decidable (logic.Decides value) :=
  match logic with
  | .conjunction => decidable_of_iff _ (decides_conjunction value).symm
  | .disjunction => decidable_of_iff _ (decides_disjunction value).symm

variable {logic : Logic} {engine : Engine} {position : Position} {frame : FrameId}
  {node first shorter : Object} {operands passed later others : List Object}
  {before between : Store} {result : EStateM.Result Interrupt Store Answer}

theorem step_last (formed : logic.form.Over [first] node) :
    engine.step position node frame = engine.answer position first frame := by
  rw [Engine.step_over formed]
  cases logic <;> rfl

/-- With more than one operand, the first decides or it is as if it had not been there. -/
theorem step_next (formed : logic.form.Over (first :: operands) node) (more : operands ≠ [])
    (rest : logic.form.Over operands shorter) :
    engine.step position node frame = (do
      let value ← engine.operand first frame
      if logic.Decides value then pure (.value value)
      else engine.step position shorter frame) := by
  rw [Engine.step_over formed, Engine.step_over rest]
  obtain ⟨second, operands, rfl⟩ := List.exists_cons_of_ne_nil more
  cases logic with
  | conjunction =>
      simp only [decides_conjunction, ite_not]
      rfl
  | disjunction =>
      simp only [decides_disjunction]
      rfl

/-- Operands that decide nothing are passed by, as long as there are more. -/
theorem step_of_passes (passes : logic.Passes engine frame passed before between)
    (formed : logic.form.Over (passed ++ operands) node) (more : operands ≠ [])
    (rest : logic.form.Over operands shorter) :
    engine.step position node frame before = engine.step position shorter frame between := by
  induction passes generalizing node with
  | none => rw [Engine.step_over formed, Engine.step_over rest, List.nil_append]
  | @next _ _ nodes _ _ _ ends undecided _ ih =>
      obtain ⟨following, formedRest⟩ := logic.form.exists_over (nodes ++ operands)
      have left : nodes ++ operands ≠ [] := List.append_ne_nil_of_right_ne_nil nodes more
      rw [step_next formed left formedRest, Eval.bind_ok ends, if_neg undecided]
      exact ih formedRest

theorem step_of_concludes (formed : logic.form.Over (first :: later) node)
    (concludes : logic.Concludes engine position frame first before later result) :
    engine.step position node frame before = result := by
  cases concludes with
  | last ends => rw [step_last formed, ends]
  | @decided _ next nodes _ ends decides =>
      obtain ⟨following, rest⟩ := logic.form.exists_over (next :: nodes)
      rw [step_next formed (List.cons_ne_nil next nodes) rest, Eval.bind_ok ends, if_pos decides]
      rfl
  | @failed next nodes _ _ ends =>
      obtain ⟨following, rest⟩ := logic.form.exists_over (next :: nodes)
      rw [step_next formed (List.cons_ne_nil next nodes) rest, Eval.bind_apply, ends]

theorem step_of_split (formed : logic.form.Over (passed ++ first :: later) node)
    (passes : logic.Passes engine frame passed before between)
    (concludes : logic.Concludes engine position frame first between later result) :
    engine.step position node frame before = result := by
  obtain ⟨rest, formedRest⟩ := logic.form.exists_over (first :: later)
  rw [step_of_passes passes formed (List.cons_ne_nil first later) formedRest]
  exact step_of_concludes formedRest concludes

/-- Some operand concludes, after others that have been passed by. -/
theorem exists_concludes (logic : Logic) (engine : Engine) (position : Position) (frame : FrameId)
    (first : Object) (rest : List Object) (before : Store) :
    ∃ passed last later between result, first :: rest = passed ++ last :: later ∧
      logic.Passes engine frame passed before between ∧
      logic.Concludes engine position frame last between later result := by
  induction rest generalizing first before with
  | nil => exact ⟨[], first, [], before, _, rfl, .none, .last rfl⟩
  | cons second rest ih =>
      cases ends : engine.operand first frame before with
      | error interrupt after =>
          exact ⟨[], first, second :: rest, before, _, rfl, .none, .failed ends⟩
      | ok value after =>
          by_cases decides : logic.Decides value
          · exact ⟨[], first, second :: rest, before, _, rfl, .none, .decided ends decides⟩
          · obtain ⟨passed, last, later, between, result, split, passes, concludes⟩ :=
              ih second after
            refine ⟨first :: passed, last, later, between, result, ?_, ?_, concludes⟩
            · rw [split, List.cons_append]
            · exact .next ends decides passes

namespace Concludes

theorem anything_later {next other : Object}
    (concludes : logic.Concludes engine position frame first between (next :: later) result) :
    logic.Concludes engine position frame first between (other :: others) result := by
  cases concludes with
  | decided ends decides => exact .decided ends decides
  | failed ends => exact .failed ends

end Concludes

end Logic

/-- A conjunction or a disjunction of any operands evaluates them in order up to the first that
decides it or fails, or to the last, and ends as that one does. What comes later could be anything
else. With more than one operand, the form ends with the value of the first, or is the form over
the others. -/
theorem decided_by_prefix (logic : Logic) (engine : Engine) (position : Position)
    (frame : FrameId) (first : Object) (rest : List Object) (before : Store) (node : Object)
    (formed : logic.form.Over (first :: rest) node) :
    (∀ result, engine.step position node frame before = result ↔
      ∃ passed last later between, first :: rest = passed ++ last :: later ∧
        logic.Passes engine frame passed before between ∧
        logic.Concludes engine position frame last between later result) ∧
    (∀ passed last later between result, first :: rest = passed ++ last :: later → later ≠ [] →
      logic.Passes engine frame passed before between →
      logic.Concludes engine position frame last between later result →
        ∀ others, others ≠ [] → ∀ other, logic.form.Over (passed ++ last :: others) other →
          engine.step position other frame before = result) ∧
    (rest ≠ [] → ∀ shorter, logic.form.Over rest shorter →
      engine.step position node frame = do
        let value ← engine.operand first frame
        if logic.Decides value then pure (.value value)
        else engine.step position shorter frame) := by
  refine ⟨fun result => ⟨fun ends => ?_, fun split => ?_⟩, ?_, ?_⟩
  · obtain ⟨passed, last, later, between, found, split, passes, concludes⟩ :=
      logic.exists_concludes engine position frame first rest before
    have ends' : engine.step position node frame before = found :=
      Logic.step_of_split (split ▸ formed) passes concludes
    obtain rfl : found = result := ends'.symm.trans ends
    exact ⟨passed, last, later, between, split, passes, concludes⟩
  · obtain ⟨passed, last, later, between, split, passes, concludes⟩ := split
    exact Logic.step_of_split (split ▸ formed) passes concludes
  · intro passed last later between result _ more passes concludes others some other formed'
    obtain ⟨next, later, rfl⟩ := List.exists_cons_of_ne_nil more
    obtain ⟨instead, others, rfl⟩ := List.exists_cons_of_ne_nil some
    exact Logic.step_of_split formed' passes concludes.anything_later
  · intro more shorter formedRest
    exact Logic.step_next formed more formedRest

open Object (formOf refer)

def defineFive : Object :=
  formOf [refer "define", refer "x", .literal none (.integer 5)]

/-- The definition of `x` comes to nil and decides nothing, but `x` does. -/
def definesOr (unread : Object) : Object :=
  formOf [refer "or", defineFive, refer "x", unread]

theorem definesOr_decided :
    let before := Store.empty.rootFrame.2
    let after := before.define 0 ⟨"x"⟩ (.integer 5)
    let engine := Engine.ofDepth 1 2
    engine.step .tail (definesOr (refer "unbound")) 0 before = .ok (.value (.integer 5)) after ∧
      engine.step .tail (definesOr (refer "x")) 0 before = .ok (.value (.integer 5)) after ∧
      engine.step .tail (formOf [refer "or", refer "x", refer "unbound"]) 0 after =
        .ok (.value (.integer 5)) after := by
  intro before after engine
  obtain ⟨ends, unread, unfolds⟩ := decided_by_prefix .disjunction engine .tail 0 defineFive
    [refer "x", refer "unbound"] before (definesOr (refer "unbound")) (.form (by decide))
  have undecided : ¬ Logic.disjunction.Decides .nil := by decide
  have passes : Logic.disjunction.Passes engine 0 [defineFive] before after :=
    .next rfl undecided .none
  have decides : Logic.disjunction.Decides (.integer 5) := by decide
  have concludes : Logic.disjunction.Concludes engine .tail 0 (refer "x") after
      [refer "unbound"] (.ok (.value (.integer 5)) after) := .decided rfl decides
  have decided := (ends _).mpr ⟨_, _, _, _, rfl, passes, concludes⟩
  have replaced := unread _ _ _ _ _ rfl (by simp) passes concludes [refer "x"] (by simp)
    (definesOr (refer "x")) (.form (by decide))
  have unfolded := unfolds (by simp) (formOf [refer "or", refer "x", refer "unbound"])
    (.form (by decide))
  exact ⟨decided, replaced, (congrFun unfolded before).symm.trans decided⟩

end LispCore
