import LispCore.Proofs.Coupling.Likeness
import LispCore.Proofs.Operation.Frameless

namespace LispCore

namespace Bindings

variable {name other : Symbol} {bindings : Bindings}

def without (name : Symbol) (bindings : Bindings) : Bindings :=
  bindings.filter fun entry => entry.1 ≠ name

theorem without_cons_self (value : Object) :
    without name ((name, value) :: bindings) = bindings.without name := by
  simp [without]

theorem without_cons_ne {bound : Symbol} (different : bound ≠ name) (value : Object) :
    without name ((bound, value) :: bindings) = (bound, value) :: bindings.without name := by
  simp [without, different]

theorem get?_without (different : other ≠ name) :
    (bindings.without name).get? other = bindings.get? other := by
  induction bindings with
  | nil => rfl
  | cons entry rest ih =>
      obtain ⟨bound, value⟩ := entry
      by_cases same : bound = name
      · subst same
        rw [without_cons_self, ih, get?, if_neg (Ne.symm different)]
      · rw [without_cons_ne same, get?, get?, ih]

theorem without_set_self (value : Object) :
    (bindings.set name value).without name = bindings.without name := by
  induction bindings with
  | nil => exact without_cons_self value
  | cons entry rest ih =>
      obtain ⟨bound, old⟩ := entry
      by_cases same : bound = name
      · subst same
        rw [set, if_pos rfl, without_cons_self, without_cons_self]
      · rw [set, if_neg same, without_cons_ne same, without_cons_ne same, ih]

theorem without_set_ne (different : other ≠ name) (value : Object) :
    (bindings.set other value).without name = (bindings.without name).set other value := by
  induction bindings with
  | nil => exact without_cons_ne different value
  | cons entry rest ih =>
      obtain ⟨bound, old⟩ := entry
      by_cases same : bound = name
      · subst same
        rw [set, if_neg (Ne.symm different), without_cons_self, without_cons_self, ih]
      · by_cases rebound : bound = other
        · rw [set, if_pos rebound, without_cons_ne same, without_cons_ne same, set, if_pos rebound]
        · rw [set, if_neg rebound, without_cons_ne same, without_cons_ne same, set,
            if_neg rebound, ih]

end Bindings

/-- The frames are the same but for bindings of one name. -/
structure Frame.AlikeBut (name : Symbol) (first second : Frame) : Prop where
  ancestors : first.ancestors = second.ancestors
  bindings : first.bindings.without name = second.bindings.without name

namespace Frame.AlikeBut

variable {name other : Symbol} {first second : Frame}

theorem refl (frame : Frame) : frame.AlikeBut name frame :=
  ⟨rfl, rfl⟩

theorem get?_eq (alike : first.AlikeBut name second) (different : other ≠ name) :
    first.bindings.get? other = second.bindings.get? other := by
  rw [← Bindings.get?_without different, alike.bindings, Bindings.get?_without different]

theorem set (alike : first.AlikeBut name second) (other : Symbol) (value : Object) :
    AlikeBut name { first with bindings := first.bindings.set other value }
      { second with bindings := second.bindings.set other value } := by
  refine ⟨alike.ancestors, ?_⟩
  by_cases same : other = name
  · subst same
    simp only [Bindings.without_set_self, alike.bindings]
  · simp only [Bindings.without_set_ne same, alike.bindings]

end Frame.AlikeBut

namespace Store

/-- The stores are the same but for bindings of one name. -/
structure AlikeBut (name : Symbol) (first second : Store) : Prop where
  cells : first.cells = second.cells
  closures : first.closures = second.closures
  record : first.record = second.record
  labels : first.labels = second.labels
  size : first.frames.size = second.frames.size
  frame : ∀ id, (first.frame id).AlikeBut name (second.frame id)

/-- No closure refers to the name. -/
def Unused (name : Symbol) (store : Store) : Prop :=
  ∀ closure ∈ store.closures, name ∉ closure.body.references

theorem Unused.closure {name : Symbol} {store : Store} (unused : store.Unused name)
    (id : ClosureId) : name ∉ (store.closure id).body.references := by
  by_cases inside : id < store.closures.size
  · refine unused _ ?_
    simp [Store.closure, Array.getD, inside]
  · simp [Store.closure, Array.getD, inside, Object.references]

theorem Unused.of_eq {name : Symbol} {before after : Store} (unused : before.Unused name)
    (closures : after.closures = before.closures) : after.Unused name := by
  rwa [Unused, closures]

theorem Unused.addClosure {name : Symbol} {store : Store} (unused : store.Unused name)
    {closure : Closure} (free : name ∉ closure.body.references) :
    (store.addClosure closure).2.Unused name := by
  intro other member
  rcases Array.mem_push.mp member with old | rfl
  · exact unused other old
  · exact free

namespace AlikeBut

variable {name : Symbol} {first second : Store}

theorem refl (store : Store) : store.AlikeBut name store :=
  ⟨rfl, rfl, rfl, rfl, rfl, fun _ => .refl _⟩

theorem scope_eq (alike : first.AlikeBut name second) (frame : FrameId) :
    first.scope frame = second.scope frame := by
  rw [scope, (alike.frame frame).ancestors, scope]

theorem lookup?_eq (alike : first.AlikeBut name second) {other : Symbol}
    (different : other ≠ name) (frame : FrameId) :
    first.lookup? frame other = second.lookup? frame other := by
  rw [lookup?, lookup?, alike.scope_eq]
  refine congrArg (fun bound => List.findSome? bound _) (funext fun id => ?_)
  exact (alike.frame id).get?_eq different

theorem define (alike : first.AlikeBut name second) (frame : FrameId) (other : Symbol)
    (value : Object) :
    (first.define frame other value).AlikeBut name (second.define frame other value) := by
  refine ⟨alike.cells, alike.closures, alike.record, alike.labels, ?_, fun id => ?_⟩
  · simp [Store.define, alike.size]
  · rw [frame_define, frame_define, alike.size]
    split
    · exact (alike.frame id).set other value
    · exact alike.frame id

theorem define_right (alike : first.AlikeBut name second) (frame : FrameId) (value : Object) :
    first.AlikeBut name (second.define frame name value) := by
  refine ⟨alike.cells, alike.closures, alike.record, alike.labels, ?_, fun id => ?_⟩
  · simp [Store.define, alike.size]
  · rw [frame_define]
    split
    · refine ⟨(alike.frame id).ancestors, ?_⟩
      rw [Bindings.without_set_self]
      exact (alike.frame id).bindings
    · exact alike.frame id

theorem child (alike : first.AlikeBut name second) (frame : FrameId) :
    (first.child frame).2.AlikeBut name (second.child frame).2 := by
  refine ⟨alike.cells, alike.closures, alike.record, alike.labels, ?_, fun id => ?_⟩
  · simp [Store.child, alike.size]
  · rw [frame_child, frame_child, alike.size, alike.scope_eq]
    split
    · exact .refl _
    · exact alike.frame id

theorem addClosure (alike : first.AlikeBut name second) (closure : Closure) :
    (first.addClosure closure).2.AlikeBut name (second.addClosure closure).2 :=
  ⟨alike.cells, congrArg (·.push closure) alike.closures, alike.record, alike.labels, alike.size,
    alike.frame⟩

theorem addClosure_id (alike : first.AlikeBut name second) (closure : Closure) :
    (first.addClosure closure).1 = (second.addClosure closure).1 := by
  simp only [Store.addClosure, alike.closures]

theorem eq_withFrames (alike : first.AlikeBut name second) :
    second = first.withFrames second.frames := by
  obtain ⟨cells, frames, closures, record, labels⟩ := second
  rw [withFrames, alike.cells, alike.closures, alike.record, alike.labels]

theorem withFrames (alike : first.AlikeBut name second) {after : Store}
    (unchanged : after.frames = first.frames) :
    after.AlikeBut name (after.withFrames second.frames) := by
  refine ⟨rfl, rfl, rfl, rfl, ?_, fun id => ?_⟩
  · rw [unchanged]
    exact alike.size
  · rw [Store.frame, unchanged]
    exact alike.frame id

end AlikeBut

end Store

/-- The same value or the same interruption, with stores alike but for the name. -/
inductive AlikeResults (name : Symbol) :
    EStateM.Result Interrupt Store Object → EStateM.Result Interrupt Store Object → Prop
  | value {value : Object} {after after' : Store} (alike : after.AlikeBut name after') :
      AlikeResults name (.ok value after) (.ok value after')
  | interrupt {interrupt : Interrupt} {after after' : Store} (alike : after.AlikeBut name after') :
      AlikeResults name (.error interrupt after) (.error interrupt after')

namespace Likeness

/-- Runs from stores alike but for a name that nothing refers to. -/
def unreferenced (name : Symbol) : Likeness where
  Stores before before' := before.AlikeBut name before' ∧ before.Unused name
  Task node frame frame' := frame = frame' ∧ name ∉ node.references
  Outer nodes frame frame' := frame = frame' ∧ name ∉ Object.referencesAll nodes
  Inner := Eq
  Interrupts := Eq
  Excused _ := False

variable {name : Symbol}

theorem coupled_of_frameless {α : Type} {run : Eval α} (frameless : run.Frameless) :
    (unreferenced name).Alike run run := by
  have always : (unreferenced name).coupling.Later () () := trivial
  rintro before before' ⟨alike, unused⟩
  have frames := frameless.frames before
  have closures := frameless.closures before
  rw [alike.eq_withFrames, frameless.blind]
  unfold Eval.storeAfter at frames closures
  cases outcome : run before with
  | ok value after =>
      rw [outcome] at frames closures
      exact .value always ⟨alike.withFrames frames, unused.of_eq closures⟩ rfl
  | error interrupt after =>
      rw [outcome] at frames closures
      exact .interrupt always ⟨alike.withFrames frames, unused.of_eq closures⟩ rfl

theorem unreferenced_lawful (name : Symbol) : (unreferenced name).Lawful where
  lookup {_ _ _ other _ _} stores task := by
    obtain ⟨rfl, refers⟩ := task
    have different : other ≠ name := fun same => refers (by simp [Object.references, same])
    exact stores.1.lookup?_eq different _
  items {before _} stores value := by
    rw [stores.1.eq_withFrames, before.listItems?_withFrames]
  captured {before before'} stores id := by
    have same : before.closure id = before'.closure id := by
      rw [Store.closure, stores.1.closures, Store.closure]
    refine ⟨by rw [same], by rw [same], by rw [same], ?_⟩
    simpa [Object.referencesAll] using stores.2.closure id
  applied task asked node member := by
    refine ⟨task.1, fun refers => task.2 ?_⟩
    rw [Object.references_applied asked]
    exact Object.mem_referencesAll.mpr ⟨node, member, refers⟩
  evaluated task asked node member :=
    ⟨task.1, fun refers => task.2 (Object.mem_references_of_evaluated asked member refers)⟩
  defines task _ := task.1
  closes task asked := by
    refine ⟨task.1, fun refers => task.2 (Object.mem_references_of_lambda asked ?_)⟩
    simpa [Object.referencesAll, Object.references_bodyNode] using refers
  opens task asked :=
    ⟨task.1, fun refers => task.2 (Object.mem_references_of_let asked refers)⟩
  quotes node := coupled_of_frameless (quoted_frameless node)
  call primitive operands := coupled_of_frameless (primitive.call_frameless operands)
  define {frame _} inner other value := by
    obtain rfl := inner
    exact Coupling.changes trivial fun stores => ⟨stores.1.define frame other value, stores.2⟩
  child {nodes frame _} outer := by
    obtain ⟨rfl, free⟩ := outer
    have tasks : ∀ node ∈ nodes, name ∉ node.references := fun node member refers =>
      free (Object.mem_referencesAll.mpr ⟨node, member, refers⟩)
    exact Coupling.creates trivial fun stores => ⟨⟨stores.1.child frame, stores.2⟩, stores.1.size,
      fun node member => ⟨stores.1.size, tasks node member⟩⟩
  addClosure {body frame _} outer formals := by
    obtain ⟨rfl, free⟩ := outer
    have bodyFree : name ∉ body.references := by simpa [Object.referencesAll] using free
    exact Coupling.creates trivial fun stores =>
      ⟨⟨stores.1.addClosure _, stores.2.addClosure bodyFree⟩, stores.1.addClosure_id _⟩
  fault _ := rfl
  patience := rfl

theorem unreferenced_ends {result result' : EStateM.Result Interrupt Store Object}
    (ends : (unreferenced name).coupling.Ends () (fun _ => Eq) result result') :
    AlikeResults name result result' := by
  cases ends with
  | value _ stores same =>
      obtain rfl := same
      exact .value stores.1
  | interrupt _ stores same =>
      obtain rfl := same
      exact .interrupt stores.1
  | excused excuse => exact False.elim excuse

end Likeness

theorem AlikeResults.guard {name : Symbol} {run run' : Eval Object} {before before' : Store}
    (budget : Budget) (alike : AlikeResults name (run before) (run' before')) :
    AlikeResults name (budget.guard run before) (budget.guard run' before') := by
  unfold Budget.guard
  generalize run before = result at alike ⊢
  generalize run' before' = result' at alike ⊢
  cases alike with
  | value alike => exact .value alike
  | @interrupt interrupt _ _ alike => cases interrupt <;> exact .interrupt alike

/-- Evaluation does not depend on the bindings of a name that neither the node nor any
function refers to. In particular, to bind such a name anywhere to anything, be it the keyword
of a special form that is in use, changes no more than what it is bound to. -/
theorem unreferenced_irrelevant (budget : Budget) {name : Symbol} {first second : Store}
    {node : Object} (frame : FrameId) (alike : first.AlikeBut name second)
    (unused : first.Unused name) (free : name ∉ node.references) :
    AlikeResults name (evaluate budget node frame first) (evaluate budget node frame second) ∧
      ∀ anywhere value, AlikeResults name (evaluate budget node frame first)
        (evaluate budget node frame (first.define anywhere name value)) := by
  have lawful := Likeness.unreferenced_lawful name
  have task : (Likeness.unreferenced name).Task node frame frame := ⟨rfl, free⟩
  have same : ∀ other, first.AlikeBut name other →
      AlikeResults name (evaluate budget node frame first) (evaluate budget node frame other) := by
    intro other alike
    have ends := lawful.complete rfl budget task first other ⟨alike, unused⟩
    exact (Likeness.unreferenced_ends ends).guard budget
  refine ⟨same second alike, fun anywhere value => same _ ?_⟩
  exact (Store.AlikeBut.refl first).define_right anywhere value

/-- Stores with one frame, which binds `begin` or binds nothing. -/
def Store.beginning : Store :=
  { empty with frames := #[⟨[(⟨"begin"⟩, .integer 5)], []⟩] }

def Store.bare : Store :=
  { empty with frames := #[⟨[], []⟩] }

theorem Store.beginning_alikeBut : beginning.AlikeBut ⟨"begin"⟩ bare := by
  refine ⟨rfl, rfl, rfl, rfl, rfl, fun id => ?_⟩
  match id with
  | 0 => exact ⟨rfl, rfl⟩
  | _ + 1 => exact .refl _

/-- A call of a function that has `begin` for its parameter, defines it anew, and has two
nodes in its body. -/
def beginTwice : Object :=
  .formOf [.formOf [.refer "lambda", .formOf [.refer "begin"],
    .formOf [.refer "define", .refer "begin", .literal none .nil], .literal none (.integer 7)],
    .literal none (.integer 1)]

theorem beginTwice_alike :
    AlikeResults ⟨"begin"⟩ (evaluate ⟨3, 1⟩ beginTwice 0 Store.beginning)
      (evaluate ⟨3, 1⟩ beginTwice 0 Store.bare) ∧
    ∃ after, evaluate ⟨3, 1⟩ beginTwice 0 Store.beginning = .ok (.integer 7) after := by
  constructor
  · have unused : Store.beginning.Unused ⟨"begin"⟩ := by simp [Store.Unused, Store.beginning,
      Store.empty]
    exact (unreferenced_irrelevant ⟨3, 1⟩ 0 Store.beginning_alikeBut unused (by decide)).1
  · exact ⟨_, rfl⟩

end LispCore
