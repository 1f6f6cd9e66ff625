import LispCore.Proofs.Confinement
import LispCore.Proofs.Coupling.Likeness

namespace LispCore

namespace Store

variable {origin store : Store} {frame : FrameId}

/-- Are the frame and all frames around it there? -/
def HasScope (store : Store) (frame : FrameId) : Prop :=
  ∀ outer ∈ store.scope frame, outer < store.frames.size

instance (store : Store) (frame : FrameId) : Decidable (store.HasScope frame) :=
  inferInstanceAs (Decidable (∀ outer ∈ store.scope frame, outer < store.frames.size))

theorem HasScope.lt (within : store.HasScope frame) : frame < store.frames.size :=
  within frame List.mem_cons_self

theorem Confined.lookup?_eq (confined : origin.Confined (fun _ => False) store)
    (within : origin.HasScope frame) (name : Symbol) :
    store.lookup? frame name = origin.lookup? frame name := by
  have unchanged : ∀ outer ∈ origin.scope frame, store.frame outer = origin.frame outer :=
    fun outer around => confined.frame outer (within outer around) not_false
  have scope : store.scope frame = origin.scope frame := by
    rw [Store.scope, unchanged frame List.mem_cons_self, Store.scope]
  rw [lookup?, lookup?, scope]
  generalize origin.scope frame = frames at unchanged
  induction frames with
  | nil => rfl
  | cons outer frames ih =>
      obtain ⟨nearest, others⟩ := List.forall_mem_cons.mp unchanged
      rw [List.findSome?_cons, List.findSome?_cons, nearest, ih others]

/-- Two frames in which a node that binds nothing finds all names alike. -/
structure AgreeOn (store : Store) (node : Object) (frame frame' : FrameId) : Prop where
  plain : node.bindsNothing
  within : store.HasScope frame
  within' : store.HasScope frame'
  lookups : ∀ name ∈ node.references, store.lookup? frame name = store.lookup? frame' name

theorem AgreeOn.part {node part : Object} {frame' : FrameId}
    (agree : store.AgreeOn node frame frame') (plain : part.bindsNothing)
    (refers : ∀ name ∈ part.references, name ∈ node.references) :
    store.AgreeOn part frame frame' :=
  ⟨plain, agree.within, agree.within', fun name known => agree.lookups name (refers name known)⟩

end Store

namespace Likeness

open Discipline (confinement confinement_lawful)

/-- Runs from one and the same store, in which only new frames are written. A task is
evaluated in the same new frame, or in two old ones between which it makes no difference. -/
def scoping (origin : Store) : Likeness where
  Stores before before' := before = before' ∧ origin.Confined (fun _ => False) before
  Task node frame frame' :=
    (frame = frame' ∧ origin.frames.size ≤ frame) ∨ origin.AgreeOn node frame frame'
  Outer _ := Eq
  Inner frame frame' := frame = frame' ∧ origin.frames.size ≤ frame
  Interrupts := Eq
  Excused _ := False

variable {origin : Store}

/-- A run that keeps to new frames is coupled to itself. -/
theorem coupled_of_keeps {α : Type} {run : Eval α} {wanted : Store → α → Prop}
    (kept : ∀ store, (confinement origin fun _ => False).Keeps store wanted run) :
    (scoping origin).coupling.Coupled () (fun _ value value' => value = value' ∧
      ∃ after, wanted after value) run run := by
  have always : (scoping origin).coupling.Later () () := trivial
  rintro before _ ⟨rfl, confined⟩
  have ended := kept before confined
  cases outcome : run before with
  | ok value after =>
      simp only [outcome] at ended
      exact .value always ⟨rfl, ended.1⟩ ⟨rfl, after, ended.2.2⟩
  | error interrupt after =>
      have confined : origin.Confined (fun _ => False) after := by
        cases interrupt with
        | fault fault =>
            simp only [outcome] at ended
            exact ended.1
        | depth | patience =>
            simp only [outcome] at ended
            exact ended.1
      exact .interrupt always ⟨rfl, confined⟩ rfl

theorem scoping_lawful (origin : Store) : (scoping origin).Lawful where
  lookup {_ _ _ name _ _} stores task := by
    obtain ⟨rfl, confined⟩ := stores
    rcases task with ⟨rfl, _⟩ | agree
    · rfl
    · rw [confined.lookup?_eq agree.within, confined.lookup?_eq agree.within']
      exact agree.lookups name (by simp [Object.references])
  items stores _ := by rw [stores.1]
  captured stores _ := by
    obtain ⟨rfl, _⟩ := stores
    exact ⟨rfl, rfl, rfl⟩
  applied task asked := by
    rintro node member
    rcases task with new | agree
    · exact .inl new
    · refine .inr (agree.part (Object.bindsNothing_applied agree.plain asked node member) ?_)
      intro name known
      rw [Object.references_applied asked]
      exact Object.mem_referencesAll.mpr ⟨node, member, known⟩
  evaluated task asked := by
    rintro node member
    rcases task with new | agree
    · exact .inl new
    · refine .inr (agree.part (Object.bindsNothing_evaluated agree.plain asked node member) ?_)
      exact fun name known => Object.mem_references_of_evaluated asked member known
  defines task asked := by
    rcases task with new | agree
    · exact new
    · exact absurd (Object.binds_of_bindsNothing agree.plain asked) (by decide)
  closes task asked := by
    rcases task with new | agree
    · exact new.1
    · exact absurd (Object.binds_of_bindsNothing agree.plain asked) (by decide)
  opens task asked := by
    rcases task with new | agree
    · exact new.1
    · exact absurd (Object.binds_of_bindsNothing agree.plain asked) (by decide)
  quotes node :=
    (coupled_of_keeps fun _ => (confinement_lawful _ _).quoted node trivial).imp fun same => same.1
  call _ _ :=
    (coupled_of_keeps fun _ => (confinement_lawful _ _).call trivial (fun _ _ => trivial)
      trivial).imp fun same => same.1
  define inner name value := by
    obtain ⟨rfl, new⟩ := inner
    refine (coupled_of_keeps fun _ => Discipline.Lawful.changes fun good => ?_).imp
      fun _ => trivial
    exact (confinement_lawful _ _).define name good (.inr new) trivial
  child outer := by
    obtain rfl := outer
    refine (coupled_of_keeps fun _ => Discipline.Lawful.creates fun good =>
      (confinement_lawful _ _).child good trivial).imp fun made => ?_
    obtain ⟨rfl, _, scope⟩ := made
    have new := scope.resolve_left not_false
    exact ⟨⟨rfl, new⟩, fun _ _ => .inl ⟨rfl, new⟩⟩
  addClosure {body frame _} outer formals := by
    obtain rfl := outer
    have kept : ∀ store, (confinement origin fun _ => False).Keeps store (fun _ _ => True)
        (Eval.create fun store => store.addClosure ⟨formals, body, frame⟩) := fun store good =>
      ⟨good.trans (.addClosure store _) fun _ _ => False.elim, trivial, trivial⟩
    exact (coupled_of_keeps kept).imp fun made => made.1
  fault _ := rfl
  patience := rfl

theorem scoping_ends {α : Type} {result result' : EStateM.Result Interrupt Store α}
    (ends : (scoping origin).coupling.Ends () (fun _ => Eq) result result') :
    result = result' := by
  cases ends with
  | value _ stores same =>
      obtain rfl := stores.1
      obtain rfl := same
      rfl
  | interrupt _ stores same =>
      obtain rfl := stores.1
      obtain rfl := same
      rfl
  | excused excuse => exact False.elim excuse

end Likeness

/-- A node that binds nothing comes to the same in any two frames in which the names that it
refers to have the same values or none: the same value, fault or interruption, and the same
store. Whatever else is bound there, no callee sees it. -/
theorem evaluation_lexical (budget : Budget) {store : Store} {node : Object}
    {frame frame' : FrameId} (plain : node.bindsNothing) (within : store.HasScope frame)
    (within' : store.HasScope frame')
    (agree : ∀ name ∈ node.references, store.lookup? frame name = store.lookup? frame' name) :
    evaluate budget node frame store = evaluate budget node frame' store := by
  have lawful := Likeness.scoping_lawful store
  have task : (Likeness.scoping store).Task node frame frame' :=
    .inr ⟨plain, within, within', agree⟩
  have ended : budget.engine.complete node frame store = budget.engine.complete node frame' store :=
    Likeness.scoping_ends (lawful.complete rfl budget task store store ⟨rfl, .refl store⟩)
  exact Budget.guard_congr ended

/-- In the outermost frame, `x` is one, and `f` defines `y` as `x` for itself and gives it
back. Two frames inside it bind `x` otherwise, and one of them `y` too. -/
def Store.shadowing : Store :=
  { empty with
    frames := #[⟨[(⟨"x"⟩, .integer 1), (⟨"f"⟩, .closure 0)], []⟩, ⟨[(⟨"x"⟩, .integer 2)], [0]⟩,
      ⟨[(⟨"x"⟩, .integer 3), (⟨"y"⟩, .nil)], [0]⟩]
    closures := #[⟨[], .formOf [.refer "begin",
      .formOf [.refer "define", .refer "y", .refer "x"], .refer "y"], 0⟩] }

theorem shadowed_call :
    evaluate ⟨3, 1⟩ (.formOf [.refer "f"]) 1 Store.shadowing =
      evaluate ⟨3, 1⟩ (.formOf [.refer "f"]) 2 Store.shadowing ∧
    ∃ after, evaluate ⟨3, 1⟩ (.formOf [.refer "f"]) 2 Store.shadowing = .ok (.integer 1) after := by
  constructor
  · refine evaluation_lexical ⟨3, 1⟩ rfl (by decide) (by decide) fun name refers => ?_
    obtain rfl := List.mem_singleton.mp refers
    rfl
  · exact ⟨_, rfl⟩

end LispCore
