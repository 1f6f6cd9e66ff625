import LispCore.Proofs.Coupling.Likeness
import LispCore.Proofs.Operation.Frameless

namespace LispCore

open Eval (Below Finishes)

namespace Likeness

/-- Runs from one store, in one frame, by engines that may differ in where they are cut
short. -/
def lockstep (interrupts : Interrupt → Interrupt → Prop) (excused : Interrupt → Prop) :
    Likeness where
  Stores := Eq
  Task _ := Eq
  Outer _ := Eq
  Inner := Eq
  Interrupts := interrupts
  Excused := excused

variable {interrupts : Interrupt → Interrupt → Prop} {excused : Interrupt → Prop}

theorem lockstep_self {α : Type} (faults : ∀ fault, interrupts (.fault fault) (.fault fault))
    {run : Eval α} (finishes : ∀ store, run.Finishes store) :
    (lockstep interrupts excused).Alike run run := by
  have always : (lockstep interrupts excused).coupling.Later () () := trivial
  rintro before _ rfl
  have finished := finishes before
  unfold Finishes at finished
  cases outcome : run before with
  | ok value after => exact .value always rfl rfl
  | error interrupt after =>
      rw [outcome] at finished
      cases interrupt with
      | fault fault => exact .interrupt always rfl (faults fault)
      | depth | patience => exact nomatch finished

theorem lockstep_create {α : Type} (change : Store → α × Store) :
    (lockstep interrupts excused).Alike (Eval.create change) (Eval.create change) :=
  Coupling.creates trivial fun stores => stores ▸ ⟨rfl, rfl⟩

theorem lockstep_lawful (faults : ∀ fault, interrupts (.fault fault) (.fault fault))
    (patience : interrupts .patience .patience) : (lockstep interrupts excused).Lawful where
  lookup stores task := by
    obtain rfl := stores
    obtain rfl := task
    rfl
  items stores _ := by rw [stores]
  captured stores _ := by
    obtain rfl := stores
    exact ⟨rfl, rfl, rfl⟩
  applied task _ _ _ := task
  evaluated task _ _ _ := task
  defines task _ := task
  closes task _ := task
  opens task _ := task
  quotes node := lockstep_self faults (quoted_frameless node).finishes
  call primitive operands := lockstep_self faults (primitive.call_frameless operands).finishes
  define inner name value := by
    obtain rfl := inner
    exact (lockstep_create _).imp fun _ => trivial
  child outer := by
    obtain rfl := outer
    exact (lockstep_create _).imp fun same => ⟨same, fun _ _ => same⟩
  addClosure outer _ := by
    obtain rfl := outer
    exact lockstep_create _
  fault := faults
  patience := patience

theorem lockstep_ends {α : Type} {result result' : EStateM.Result Interrupt Store α}
    (ends : (lockstep interrupts excused).coupling.Ends () (fun _ => Eq) result result') :
    (∃ value after, result = .ok value after ∧ result' = .ok value after) ∨
    (∃ interrupt interrupt' after, result = .error interrupt after ∧
      result' = .error interrupt' after ∧ interrupts interrupt interrupt') ∨
    ∃ interrupt after, result = .error interrupt after ∧ excused interrupt := by
  cases ends with
  | @value _ value _ after _ _ stores same =>
      obtain rfl := stores
      obtain rfl := same
      exact .inl ⟨value, after, rfl, rfl⟩
  | @interrupt _ interrupt interrupt' after _ _ stores alike =>
      obtain rfl := stores
      exact .inr (.inl ⟨interrupt, interrupt', after, rfl, rfl, alike⟩)
  | @excused interrupt after _ excuse => exact .inr (.inr ⟨interrupt, after, rfl, excuse⟩)

/-- In step, but for interruptions of the first run. -/
abbrev upToCuts : Likeness :=
  lockstep Eq fun interrupt => interrupt.isFault = false

theorem upToCuts_lawful : upToCuts.Lawful :=
  lockstep_lawful (fun _ => rfl) rfl

theorem below_of_upToCuts {α : Type} {run run' : Eval α}
    (alike : upToCuts.Alike run run') : Below run run' := by
  intro before finishes
  unfold Finishes at finishes
  rcases lockstep_ends (alike before before rfl) with
    ⟨value, after, ends, ends'⟩ | ⟨interrupt, _, after, ends, ends', rfl⟩ | ⟨_, after, ends, cut⟩
  · rw [ends, ends']
  · rw [ends, ends']
  · rw [ends] at finishes
    exact absurd finishes (Bool.eq_false_iff.mp cut)

theorem upToCuts_aligned {patience patience' : Nat} (patient : patience ≤ patience')
    {depth depth' : Nat} (deep : depth ≤ depth') :
    upToCuts.coupling.Aligned (.ofDepth patience depth) (.ofDepth patience' depth') := by
  refine ⟨?_, .inr ⟨rfl, patient⟩⟩
  -- the first engine is out of depth before the second, and is excused from there on
  induction depth generalizing depth' with
  | zero => exact fun _ _ => Coupling.Lawful.excuse rfl _
  | succ depth ih =>
      obtain ⟨depth', rfl⟩ : ∃ less, depth' = less + 1 := ⟨depth' - 1, by omega⟩
      have fewer : depth ≤ depth' := Nat.le_of_succ_le_succ deep
      exact fun {_ _ _ _} _ task =>
        upToCuts_lawful.coupling.step ⟨ih fewer, .inr ⟨rfl, patient⟩⟩ task

end Likeness

namespace Engine

variable {patience patience' depth depth' : Nat}

theorem answer_below (patient : patience ≤ patience') (deep : depth ≤ depth')
    (position : Position) (node : Object) (frame : FrameId) :
    Below ((ofDepth patience depth).answer position node frame)
      ((ofDepth patience' depth').answer position node frame) := by
  have task : Likeness.upToCuts.coupling.Task () node frame frame := rfl
  have coupled := (Likeness.upToCuts_aligned patient deep).answer position task
  refine Likeness.below_of_upToCuts (coupled.imp fun alike => ?_)
  cases alike with
  | value same => exact congrArg Answer.value same
  | pending same => exact congrArg (Answer.pending _) same

theorem complete_below (patient : patience ≤ patience') (deep : depth ≤ depth') (node : Object)
    (frame : FrameId) :
    Below ((ofDepth patience depth).complete node frame)
      ((ofDepth patience' depth').complete node frame) :=
  Likeness.below_of_upToCuts
    (Likeness.upToCuts_lawful.coupling.complete (Likeness.upToCuts_aligned patient deep) rfl)

end Engine

/-- The end of the depth taken for the end of patience. -/
def Interrupt.impatient : Interrupt → Interrupt
  | .depth => .patience
  | interrupt => interrupt

/-- Evaluation within a depth, with a way to go on beyond it. -/
def answerOver (beyond : Position → Object → FrameId → Eval Answer) (patience : Nat) :
    Nat → Position → Object → FrameId → Eval Answer
  | 0 => beyond
  | depth + 1 => Engine.step ⟨patience, answerOver beyond patience depth⟩

theorem answerOver_throw (patience depth : Nat) :
    answerOver (fun _ _ _ => throw .depth) patience depth = answerWithin patience depth := by
  induction depth with
  | zero => rfl
  | succ depth ih =>
      funext position node frame
      rw [answerOver, ih, answerWithin]

namespace Budget

variable (budget : Budget)

def engineOver (beyond : Position → Object → FrameId → Eval Answer) : Engine :=
  ⟨budget.patience, answerOver beyond budget.patience budget.limit⟩

/-- The evaluation comes to the end of the depth somewhere: it makes a difference what
there is beyond. -/
def Exhausted (node : Object) (frame : FrameId) (before : Store) : Prop :=
  ∃ beyond, (budget.engineOver beyond).complete node frame before ≠
    budget.engine.complete node frame before

theorem engineOver_throw : budget.engineOver (fun _ _ _ => throw .depth) = budget.engine :=
  congrArg (Engine.mk budget.patience) (answerOver_throw _ _)

variable {budget} {node : Object} {frame : FrameId} {before : Store}
  {interrupts : Interrupt → Interrupt → Prop} {excused : Interrupt → Prop}

theorem engineOver_aligned (lawful : (Likeness.lockstep interrupts excused).Lawful)
    {beyond beyond' : Position → Object → FrameId → Eval Answer}
    (ends : ∀ position node frame, (Likeness.lockstep interrupts excused).coupling.Coupled ()
      (Coupling.Answer _) (beyond position node frame) (beyond' position node frame)) :
    (Likeness.lockstep interrupts excused).coupling.Aligned (budget.engineOver beyond)
      (budget.engineOver beyond') := by
  obtain ⟨limit, turns⟩ := budget
  refine ⟨?_, .inl rfl⟩
  change ∀ {_ node frame frame'} position, _ →
    (Likeness.lockstep interrupts excused).coupling.Coupled () (Coupling.Answer _)
      (answerOver beyond turns limit position node frame)
      (answerOver beyond' turns limit position node frame')
  induction limit with
  | zero =>
      intro _ node frame _ position task
      obtain rfl := task
      exact ends position node frame
  | succ limit ih => exact fun {_ _ _ _} _ task => lawful.coupling.step ⟨ih, .inl rfl⟩ task

theorem engineOver_complete (lawful : (Likeness.lockstep interrupts excused).Lawful)
    {beyond : Position → Object → FrameId → Eval Answer}
    (ends : ∀ position node frame, (Likeness.lockstep interrupts excused).coupling.Coupled ()
      (Coupling.Answer _) (throw .depth) (beyond position node frame)) :
    (Likeness.lockstep interrupts excused).coupling.Ends () (fun _ => Eq)
      (budget.engine.complete node frame before)
      ((budget.engineOver beyond).complete node frame before) := by
  have task : (Likeness.lockstep interrupts excused).coupling.Task () node frame frame := rfl
  rw [← budget.engineOver_throw]
  exact lawful.coupling.complete (engineOver_aligned lawful ends) task before before rfl

/-- What is beyond the depth matters to just the runs that are cut short there. -/
theorem exhausted_iff :
    budget.Exhausted node frame before ↔
      ∃ after, budget.engine.complete node frame before = .error .depth after := by
  constructor
  · rintro ⟨beyond, differs⟩
    have lawful : (Likeness.lockstep Eq (· = .depth)).Lawful :=
      Likeness.lockstep_lawful (fun _ => rfl) rfl
    rcases Likeness.lockstep_ends (engineOver_complete lawful fun _ _ _ =>
      Coupling.Lawful.excuse rfl (beyond _ _ _)) with
        ⟨value, after, ends, ends'⟩ | ⟨interrupt, _, after, ends, ends', rfl⟩ |
        ⟨_, after, ends, rfl⟩
    · exact absurd (ends'.trans ends.symm) differs
    · exact absurd (ends'.trans ends.symm) differs
    · exact ⟨after, ends⟩
  · rintro ⟨after, cut⟩
    -- the end of patience, if it is there instead, comes through in the same way
    let L := Likeness.lockstep (·.impatient = ·) fun _ => False
    have lawful : L.Lawful := Likeness.lockstep_lawful (fun _ => rfl) rfl
    have floor : L.Interrupts .depth .patience := rfl
    refine ⟨fun _ _ _ => throw .patience, fun same => ?_⟩
    rcases Likeness.lockstep_ends (engineOver_complete lawful fun _ _ _ =>
      lawful.coupling.interrupts floor) with
        ⟨_, _, ends, _⟩ | ⟨interrupt, _, _, ends, ends', rfl⟩ | ⟨_, _, _, impossible⟩
    · exact nomatch ends.symm.trans cut
    · obtain rfl : interrupt = .depth := by injection ends.symm.trans cut
      exact nomatch (ends.symm.trans same.symm).trans ends'
    · exact impossible

end Budget

/-- A value, or a fault other than that of nesting too deep. -/
def Conclusive {α : Type} : EStateM.Result Interrupt Store α → Prop
  | .ok .. => True
  | .error (.fault (.tooDeep _)) _ => False
  | .error interrupt _ => interrupt.isFault

theorem Budget.guard_of_conclusive {α : Type} {budget : Budget} {run : Eval α} {before : Store}
    (conclusive : Conclusive (budget.guard run before)) :
    run.Finishes before ∧ ∀ larger : Budget, larger.guard run before = run before := by
  unfold guard at conclusive ⊢
  unfold Finishes
  cases outcome : run before with
  | ok value after => exact ⟨trivial, fun _ => rfl⟩
  | error interrupt after =>
      rw [outcome] at conclusive
      cases interrupt with
      | fault fault => exact ⟨rfl, fun _ => rfl⟩
      | depth | patience => exact nomatch conclusive

/-- The limit on nesting is only a cut-off. What evaluation comes to, if not to that limit, it
comes to under any larger one, with the same store and record. Where the end of the depth is
met, be it in an operand, in a special form or while a call is settled, evaluation ends in the
fault that names the limit. -/
theorem limit_only_cuts_off (budget : Budget) (node : Object) (frame : FrameId) (before : Store) :
    (∀ larger : Budget, budget.limit ≤ larger.limit → budget.patience ≤ larger.patience →
      Conclusive (evaluate budget node frame before) →
        evaluate larger node frame before = evaluate budget node frame before) ∧
    (budget.Exhausted node frame before →
      ∃ after, evaluate budget node frame before =
        .error (.fault (.tooDeep budget.limit)) after) := by
  constructor
  · intro larger deep patient conclusive
    obtain ⟨finishes, plain⟩ := Budget.guard_of_conclusive conclusive
    have same : larger.engine.complete node frame before =
        budget.engine.complete node frame before :=
      Engine.complete_below patient deep node frame before finishes
    calc evaluate larger node frame before
        = larger.guard (budget.engine.complete node frame) before := Budget.guard_congr same
      _ = budget.engine.complete node frame before := plain larger
      _ = evaluate budget node frame before := (plain budget).symm
  · intro exhausted
    obtain ⟨after, cut⟩ := Budget.exhausted_iff.mp exhausted
    refine ⟨after, ?_⟩
    unfold evaluate Budget.guard
    rw [cut]

/-- The condition calls a function, three evaluations deep. -/
def nestedCall : Object :=
  .formOf [.refer "if",
    .formOf [.formOf [.refer "lambda", .formOf [.refer "x"], .refer "x"], .literal none .nil],
    .literal none (.integer 1), .literal none (.integer 2)]

theorem nestedCall_cut_off :
    evaluate ⟨4, 2⟩ nestedCall 0 Store.empty.rootFrame.2 =
      evaluate ⟨3, 1⟩ nestedCall 0 Store.empty.rootFrame.2 ∧
    (∃ after, evaluate ⟨3, 1⟩ nestedCall 0 Store.empty.rootFrame.2 = .ok (.integer 2) after) ∧
    ∃ after, evaluate ⟨2, 1⟩ nestedCall 0 Store.empty.rootFrame.2 =
      .error (.fault (.tooDeep 2)) after := by
  have enough := (limit_only_cuts_off ⟨3, 1⟩ nestedCall 0 Store.empty.rootFrame.2).1 ⟨4, 2⟩
  have short := (limit_only_cuts_off ⟨2, 1⟩ nestedCall 0 Store.empty.rootFrame.2).2
  exact ⟨enough (by decide) (by decide) trivial, ⟨_, rfl⟩,
    short (Budget.exhausted_iff.mpr ⟨_, rfl⟩)⟩

end LispCore
