import LispCore.Evaluator
import LispCore.Proofs.Runs

/-!
Disciplines: invariants of evaluation, and what it takes to keep them.

A discipline says which stores are good and how they may grow, which values, nodes and
frames may turn up, and which faults may arise. `Discipline.Lawful` lists what has to be
shown of the single changes of a store and of the primitives. That evaluation as a whole
keeps a lawful discipline is `Discipline.Lawful.evaluate` and `Discipline.Lawful.applyTo`:
the special forms, the trampoline and the nesting are gone through here, once for all.
-/

namespace LispCore

namespace Malformation

/-- Is this said of the shape of a special form, rather than of a single node? -/
def isOfForm : Malformation → Bool
  | .unrecognised | .literalNotValue | .referenceNotSymbol | .pairInSource | .notLiteral => false
  | _ => true

end Malformation

/-- What is to be kept by evaluation. -/
structure Discipline where
  Good : Store → Prop
  Grows : Store → Store → Prop
  Value : Store → Object → Prop
  Node : Store → Object → Prop
  /-- Frames that nodes may be evaluated in. -/
  Scope : Store → FrameId → Prop
  /-- Frames that new frames may be made inside of. -/
  Outer : Store → FrameId → Prop
  /-- How many operands a call may have. -/
  Count : Store → Nat → Prop
  /-- Faults that may be all that comes of it. -/
  Admits : Store → Fault → Prop

namespace Discipline

variable {α β : Type}

/-- From a good store, a run leaves a good store that the first may grow into; a value it
comes to is as wanted there, and a fault is admitted. -/
def Keeps (D : Discipline) (before : Store) (wanted : Store → α → Prop) (run : Eval α) : Prop :=
  D.Good before →
    match run before with
    | .ok value after => D.Good after ∧ D.Grows before after ∧ wanted after value
    | .error (.fault fault) after => D.Good after ∧ D.Grows before after ∧ D.Admits after fault
    | .error .depth after | .error .patience after => D.Good after ∧ D.Grows before after

theorem Keeps.ok {D : Discipline} {before after : Store} {wanted : Store → α → Prop}
    {run : Eval α} (keeps : D.Keeps before wanted run) (good : D.Good before) {value : α}
    (ends : run before = .ok value after) :
    D.Good after ∧ D.Grows before after ∧ wanted after value := by
  have kept := keeps good
  rw [ends] at kept
  exact kept

theorem Keeps.storeAfter {D : Discipline} {before : Store} {wanted : Store → α → Prop}
    {run : Eval α} (keeps : D.Keeps before wanted run) (good : D.Good before) :
    D.Good (run.storeAfter before) ∧ D.Grows before (run.storeAfter before) := by
  have kept := keeps good
  unfold Eval.storeAfter
  cases outcome : run before with
  | ok value after =>
      rw [outcome] at kept
      exact ⟨kept.1, kept.2.1⟩
  | error interrupt after =>
      rw [outcome] at kept
      cases interrupt with
      | fault fault => exact ⟨kept.1, kept.2.1⟩
      | depth | patience => exact kept

/-- A pending answer is admitted if its body and its frame are. -/
def Answer (D : Discipline) (store : Store) : LispCore.Answer → Prop
  | .value value => D.Value store value
  | .pending body frame => D.Node store body ∧ D.Scope store frame

/-- What a discipline has to keep to, one change of the store at a time. -/
structure Lawful (D : Discipline) : Prop where
  refl : ∀ store, D.Grows store store
  trans : ∀ {first second third}, D.Grows first second → D.Grows second third →
    D.Grows first third
  value_mono : ∀ {first second value}, D.Grows first second → D.Value first value →
    D.Value second value
  node_mono : ∀ {first second node}, D.Grows first second → D.Node first node →
    D.Node second node
  scope_mono : ∀ {first second frame}, D.Grows first second → D.Scope first frame →
    D.Scope second frame
  count_mono : ∀ {first second count}, D.Grows first second → D.Count first count →
    D.Count second count
  count_le : ∀ {store fewer count}, fewer ≤ count → D.Count store count → D.Count store fewer
  -- values
  nil : ∀ store, D.Value store .nil
  boolean : ∀ store value, D.Value store (.boolean value)
  lookup : ∀ {store frame name value}, D.Good store → D.Scope store frame →
    store.lookup? frame name = some value → D.Value store value
  item : ∀ {store value items}, D.Good store → D.Value store value →
    store.listItems? value = some items →
      (∀ item ∈ items, D.Value store item) ∧ D.Count store items.length
  -- nodes
  literal : ∀ {store label value}, D.Node store (.literal label value) → value.isValue →
    D.Value store value
  name : ∀ {store label name}, D.Node store (.reference label name) → D.Value store name
  element : ∀ {store label shape elements}, D.Node store (.form label shape elements) →
    (∀ element ∈ elements, D.Node store element) ∧ D.Count store elements.length
  body : ∀ {store nodes}, (∀ node ∈ nodes, D.Node store node) →
    D.Count store (nodes.length + 1) → D.Node store (bodyNode nodes)
  -- closures and frames
  outer : ∀ {store frame}, D.Scope store frame → D.Outer store frame
  captured : ∀ {store id}, D.Good store → D.Value store (.closure id) →
    D.Node store (store.closure id).body ∧ D.Outer store (store.closure id).frame
  -- changes of the store
  define : ∀ {store frame value} name, D.Good store → D.Scope store frame →
    D.Value store value →
      D.Good (store.define frame name value) ∧ D.Grows store (store.define frame name value)
  child : ∀ {store frame}, D.Good store → D.Outer store frame →
    D.Good (store.child frame).2 ∧ D.Grows store (store.child frame).2 ∧
      D.Scope (store.child frame).2 (store.child frame).1
  addClosure : ∀ {store frame body} formals, D.Good store → D.Scope store frame →
    D.Node store body →
      D.Good (store.addClosure ⟨formals, body, frame⟩).2 ∧
        D.Grows store (store.addClosure ⟨formals, body, frame⟩).2 ∧
        D.Value (store.addClosure ⟨formals, body, frame⟩).2
          (.closure (store.addClosure ⟨formals, body, frame⟩).1)
  cons : ∀ {store head tail}, D.Good store → D.Value store head → D.Value store tail →
    D.Good (store.cons head tail).2 ∧ D.Grows store (store.cons head tail).2 ∧
      D.Value (store.cons head tail).2 (.pair (store.cons head tail).1)
  call : ∀ {store primitive operands}, D.Value store (.primitive primitive) →
    (∀ operand ∈ operands, D.Value store operand) → D.Count store operands.length →
      D.Keeps store D.Value (primitive.call operands)
  -- faults
  notLiteral : ∀ {store label value}, D.Node store (.literal label value) → ¬ value.isValue →
    D.Admits store (.malformed (.literal label value) .literalNotValue)
  notReference : ∀ {store label name}, D.Node store (.reference label name) →
    ¬ name.isSymbol → D.Admits store (.malformed (.reference label name) .referenceNotSymbol)
  notNode : ∀ {store node}, D.Node store node →
    (¬ node.isNode ∨ ∃ label elements, node = .form label .text elements) →
      D.Admits store (.malformed node .unrecognised)
  misshapen : ∀ {store operands node reason}, reason.isOfForm → D.Good store →
    (∀ operand ∈ operands, D.Node store operand) → node = operandList operands ∨ node ∈ operands →
      D.Admits store (.malformed node reason)
  unbound : ∀ store name, D.Admits store (.unbound (.symbol name))
  notCallable : ∀ {store value}, D.Good store → D.Value store value →
    D.Admits store (.notCallable value)
  arity : ∀ store callee minimum maximum got, D.Admits store (.arity callee minimum maximum got)
  notList : ∀ {store value}, D.Good store → D.Value store value →
    D.Admits store (.wrongKind "proper list" value (some "apply"))
  tooDeep : ∀ store limit, D.Admits store (.tooDeep limit)

namespace Lawful

variable {D : Discipline} {before : Store}

theorem done (lawful : D.Lawful) {value : α} {wanted : Store → α → Prop}
    (holds : wanted before value) : D.Keeps before wanted (pure value) :=
  fun good => ⟨good, lawful.refl before, holds⟩

theorem fails (lawful : D.Lawful) {fault : Fault}
    (admitted : D.Good before → D.Admits before fault) {wanted : Store → α → Prop} :
    D.Keeps before wanted (raise fault) :=
  fun good => ⟨good, lawful.refl before, admitted good⟩

theorem cutShort (lawful : D.Lawful) {interrupt : Interrupt} (cut : interrupt.isFault = false)
    {wanted : Store → α → Prop} : D.Keeps before wanted (throw interrupt) := by
  intro good
  cases interrupt with
  | fault fault => contradiction
  | depth | patience => exact ⟨good, lawful.refl before⟩

theorem tries (lawful : D.Lawful) {outcome : Except Fault α} {wanted : Store → α → Prop}
    (value : ∀ value, outcome = .ok value → wanted before value)
    (fault : ∀ fault, outcome = .error fault → D.Good before → D.Admits before fault) :
    D.Keeps before wanted (Eval.ofExcept outcome) := by
  cases outcome with
  | ok result => exact lawful.done (value result rfl)
  | error reason => exact lawful.fails (fault reason rfl)

/-- A run goes on from whatever store the first part of it leaves. -/
theorem bind (lawful : D.Lawful) {run : Eval α} {next : α → Eval β}
    {middle : Store → α → Prop} {wanted : Store → β → Prop} (first : D.Keeps before middle run)
    (rest : ∀ {between value}, D.Good between → D.Grows before between → middle between value →
      D.Keeps between wanted (next value)) :
    D.Keeps before wanted (run >>= next) := by
  intro good
  have started := first good
  rw [Eval.bind_apply]
  cases outcome : run before with
  | error interrupt after =>
      cases interrupt <;> simpa only [outcome] using started
  | ok value between =>
      simp only [outcome] at started ⊢
      obtain ⟨goodBetween, grown, holds⟩ := started
      have ended := rest goodBetween grown holds goodBetween
      cases last : next value between with
      | ok result after =>
          simp only [last] at ended ⊢
          exact ⟨ended.1, lawful.trans grown ended.2.1, ended.2.2⟩
      | error interrupt after =>
          cases interrupt with
          | fault fault =>
              simp only [last] at ended ⊢
              exact ⟨ended.1, lawful.trans grown ended.2.1, ended.2.2⟩
          | depth | patience =>
              simp only [last] at ended ⊢
              exact ⟨ended.1, lawful.trans grown ended.2⟩

theorem map (lawful : D.Lawful) {run : Eval α} {change : α → β} {middle : Store → α → Prop}
    {wanted : Store → β → Prop} (first : D.Keeps before middle run)
    (changed : ∀ {after value}, middle after value → wanted after (change value)) :
    D.Keeps before wanted (change <$> run) := by
  rw [map_eq_pure_bind]
  exact lawful.bind first fun _ _ holds => lawful.done (changed holds)

theorem reads {next : Store → Eval α} {wanted : Store → α → Prop}
    (rest : D.Keeps before wanted (next before)) :
    D.Keeps before wanted (get >>= next) :=
  rest

theorem creates {change : Store → α × Store} {wanted : Store → α → Prop}
    (changed : D.Good before → D.Good (change before).2 ∧ D.Grows before (change before).2 ∧
      wanted (change before).2 (change before).1) :
    D.Keeps before wanted (Eval.create change) :=
  changed

theorem changes {change : Store → Store}
    (changed : D.Good before → D.Good (change before) ∧ D.Grows before (change before)) :
    D.Keeps before (fun _ _ => True) (modify change) :=
  fun good => ⟨(changed good).1, (changed good).2, trivial⟩

end Lawful

end Discipline

end LispCore
