import LispCore.Proofs.References
import LispCore.Proofs.Runs
import LispCore.Evaluator
import Mathlib.Data.List.Forall2

/-!
Couplings: two runs of evaluation side by side.

A coupling says which stores, values and frames of one run stand for which of another,
and which nodes are evaluated in both. What stands for what may become more in the course
of the runs, so it is told by *stages*. `Coupling.Lawful` lists what has to be shown of
the single changes of a store and of the primitives. That whole evaluations stay coupled
is `Coupling.Lawful.step` and what follows from it: the special forms, the trampoline and
the nesting are gone through there, once for all.

The two runs may differ in their stores and in their frames, and also in their engines:
the first may be cut short for reasons that excuse the second from doing the same.
-/

namespace LispCore

/-- Is this a fault that only tells of nodes and names, and of no value? -/
def Fault.isOfSource : Fault → Bool
  | .malformed .. | .arity .. | .unbound (.symbol _) => true
  | _ => false

structure Coupling where
  Stage : Type
  Later : Stage → Stage → Prop
  Stores : Stage → Store → Store → Prop
  Value : Stage → Object → Object → Prop
  /-- A node that is evaluated in both runs, and the frames that it is evaluated in. -/
  Task : Stage → Object → FrameId → FrameId → Prop
  /-- Nodes that are evaluated in new frames inside these. -/
  Outer : Stage → List Object → FrameId → FrameId → Prop
  /-- Frames that both runs write. -/
  Inner : Stage → FrameId → FrameId → Prop
  Interrupts : Stage → Interrupt → Interrupt → Prop
  /-- After these interrupts of the first run, nothing is asked of the second. -/
  Excused : Interrupt → Prop

namespace Coupling

variable {α β γ δ : Type}

/-- Results that belong together, at some later stage. -/
inductive Ends (K : Coupling) (stage : K.Stage) (wanted : K.Stage → α → β → Prop) :
    EStateM.Result Interrupt Store α → EStateM.Result Interrupt Store β → Prop
  | value {later value value' after after'} (grown : K.Later stage later)
      (stores : K.Stores later after after') (holds : wanted later value value') :
      Ends K stage wanted (.ok value after) (.ok value' after')
  | interrupt {later interrupt interrupt' after after'} (grown : K.Later stage later)
      (stores : K.Stores later after after') (alike : K.Interrupts later interrupt interrupt') :
      Ends K stage wanted (.error interrupt after) (.error interrupt' after')
  | excused {interrupt after result} (excuse : K.Excused interrupt) :
      Ends K stage wanted (.error interrupt after) result

theorem Ends.imp {K : Coupling} {stage : K.Stage} {wanted weaker : K.Stage → α → β → Prop}
    {result : EStateM.Result Interrupt Store α} {result' : EStateM.Result Interrupt Store β}
    (ends : K.Ends stage wanted result result')
    (weaken : ∀ {later value value'}, wanted later value value' → weaker later value value') :
    K.Ends stage weaker result result' := by
  cases ends with
  | value grown stores holds => exact .value grown stores (weaken holds)
  | interrupt grown stores alike => exact .interrupt grown stores alike
  | excused excuse => exact .excused excuse

/-- Started from stores that belong together, two runs have results that do. -/
def Coupled (K : Coupling) (stage : K.Stage) (wanted : K.Stage → α → β → Prop)
    (run : Eval α) (run' : Eval β) : Prop :=
  ∀ before before', K.Stores stage before before' →
    K.Ends stage wanted (run before) (run' before')

theorem Coupled.imp {K : Coupling} {stage : K.Stage} {wanted weaker : K.Stage → α → β → Prop}
    {run : Eval α} {run' : Eval β} (coupled : K.Coupled stage wanted run run')
    (weaken : ∀ {later value value'}, wanted later value value' → weaker later value value') :
    K.Coupled stage weaker run run' :=
  fun before before' stores => (coupled before before' stores).imp weaken

theorem creates {K : Coupling} {stage : K.Stage} {wanted : K.Stage → α → β → Prop}
    {change : Store → α × Store} {change' : Store → β × Store} (here : K.Later stage stage)
    (changed : ∀ {before before'}, K.Stores stage before before' →
      K.Stores stage (change before).2 (change' before').2 ∧
        wanted stage (change before).1 (change' before').1) :
    K.Coupled stage wanted (Eval.create change) (Eval.create change') :=
  fun _ _ stores => .value here (changed stores).1 (changed stores).2

theorem changes {K : Coupling} {stage : K.Stage} {change change' : Store → Store}
    (here : K.Later stage stage)
    (changed : ∀ {before before'}, K.Stores stage before before' →
      K.Stores stage (change before) (change' before')) :
    K.Coupled stage (fun _ _ _ => True) (modify change) (modify change') :=
  creates here fun stores => ⟨changed stores, trivial⟩

def Values (K : Coupling) (stage : K.Stage) : List Object → List Object → Prop :=
  List.Forall₂ (K.Value stage)

/-- A name and its value, which are going to be bound in both runs. -/
def Entry (K : Coupling) (stage : K.Stage) (entry entry' : Symbol × Object) : Prop :=
  entry.1 = entry'.1 ∧ K.Value stage entry.2 entry'.2

def Entries (K : Coupling) (stage : K.Stage) :
    List (Symbol × Object) → List (Symbol × Object) → Prop :=
  List.Forall₂ (K.Entry stage)

def Tasks (K : Coupling) (stage : K.Stage) (nodes : List Object) (frame frame' : FrameId) : Prop :=
  ∀ node ∈ nodes, K.Task stage node frame frame'

inductive Answer (K : Coupling) (stage : K.Stage) : LispCore.Answer → LispCore.Answer → Prop
  | value {value value'} (alike : K.Value stage value value') :
      Answer K stage (.value value) (.value value')
  | pending {body frame frame'} (task : K.Task stage body frame frame') :
      Answer K stage (.pending body frame) (.pending body frame')

/-- What a coupling has to keep to, one change of the stores at a time. -/
structure Lawful (K : Coupling) : Prop where
  refl : ∀ stage, K.Later stage stage
  trans : ∀ {first second third}, K.Later first second → K.Later second third →
    K.Later first third
  value_mono : ∀ {first second value value'}, K.Later first second →
    K.Value first value value' → K.Value second value value'
  task_mono : ∀ {first second node frame frame'}, K.Later first second →
    K.Task first node frame frame' → K.Task second node frame frame'
  outer_mono : ∀ {first second nodes frame frame'}, K.Later first second →
    K.Outer first nodes frame frame' → K.Outer second nodes frame frame'
  inner_mono : ∀ {first second frame frame'}, K.Later first second →
    K.Inner first frame frame' → K.Inner second frame frame'
  -- values
  nil : ∀ stage, K.Value stage .nil .nil
  boolean : ∀ stage value, K.Value stage (.boolean value) (.boolean value)
  truthy : ∀ {stage value value'}, K.Value stage value value' →
    value.isTruthy = value'.isTruthy
  procedure : ∀ {stage value value'}, K.Value stage value value' →
    value.isProcedure = value'.isProcedure
  closure : ∀ {stage id value'}, K.Value stage (.closure id) value' →
    ∃ id', value' = .closure id'
  primitive : ∀ {stage primitive value'}, K.Value stage (.primitive primitive) value' →
    value' = .primitive primitive
  lookup : ∀ {stage before before' label name frame frame'}, K.Stores stage before before' →
    K.Task stage (.reference label (.symbol name)) frame frame' →
      Option.Rel (K.Value stage) (before.lookup? frame name) (before'.lookup? frame' name)
  items : ∀ {stage before before' value value'}, K.Stores stage before before' →
    K.Value stage value value' →
      Option.Rel (K.Values stage) (before.listItems? value) (before'.listItems? value')
  captured : ∀ {stage before before' id id'}, K.Stores stage before before' →
    K.Value stage (.closure id) (.closure id') →
      (before.closure id).formals = (before'.closure id').formals ∧
      (before.closure id).body = (before'.closure id').body ∧
      K.Outer stage [(before.closure id).body]
        (before.closure id).frame (before'.closure id').frame
  -- nodes
  literal : ∀ {stage label value frame frame'},
    K.Task stage (.literal label value) frame frame' → value.isValue → K.Value stage value value
  applied : ∀ {stage label shape head operands frame frame'},
    K.Task stage (.form label shape (head :: operands)) frame frame' →
      SpecialForm.ofHead? head = none → K.Tasks stage (head :: operands) frame frame'
  evaluated : ∀ {stage label shape head operands frame frame' form},
    K.Task stage (.form label shape (head :: operands)) frame frame' →
      SpecialForm.ofHead? head = some form → K.Tasks stage (form.evaluated operands) frame frame'
  quotes : ∀ {stage label shape head node frame frame'},
    K.Task stage (.form label shape [head, node]) frame frame' →
      SpecialForm.ofHead? head = some .quote → K.Coupled stage K.Value node.quoted node.quoted
  defines : ∀ {stage label shape head operands frame frame'},
    K.Task stage (.form label shape (head :: operands)) frame frame' →
      SpecialForm.ofHead? head = some .define → K.Inner stage frame frame'
  closes : ∀ {stage label shape head formals body frame frame'},
    K.Task stage (.form label shape (head :: formals :: body)) frame frame' →
      SpecialForm.ofHead? head = some .lambda → K.Outer stage [bodyNode body] frame frame'
  opens : ∀ {stage label shape head first body frame frame'},
    K.Task stage (.form label shape (head :: first :: body)) frame frame' →
      SpecialForm.ofHead? head = some .binding → K.Outer stage body frame frame'
  -- changes of the stores
  define : ∀ {stage frame frame' value value'} name, K.Inner stage frame frame' →
    K.Value stage value value' →
      K.Coupled stage (fun _ _ _ => True) (modify fun store => store.define frame name value)
        (modify fun store => store.define frame' name value')
  child : ∀ {stage nodes frame frame'}, K.Outer stage nodes frame frame' →
    K.Coupled stage
      (fun later inner inner' => K.Inner later inner inner' ∧ K.Tasks later nodes inner inner')
      (Eval.create fun store => store.child frame) (Eval.create fun store => store.child frame')
  addClosure : ∀ {stage body frame frame'} formals, K.Outer stage [body] frame frame' →
    K.Coupled stage (fun later id id' => K.Value later (.closure id) (.closure id'))
      (Eval.create fun store => store.addClosure ⟨formals, body, frame⟩)
      (Eval.create fun store => store.addClosure ⟨formals, body, frame'⟩)
  call : ∀ {stage operands operands'} (primitive : Primitive), K.Values stage operands operands' →
    K.Coupled stage K.Value (primitive.call operands) (primitive.call operands')
  -- interrupts
  fault : ∀ stage {fault}, fault.isOfSource → K.Interrupts stage (.fault fault) (.fault fault)
  notCallable : ∀ {stage value value'}, K.Value stage value value' →
    K.Interrupts stage (.fault (.notCallable value)) (.fault (.notCallable value'))
  notList : ∀ {stage value value'}, K.Value stage value value' →
    K.Interrupts stage (.fault (.wrongKind "proper list" value (some "apply")))
      (.fault (.wrongKind "proper list" value' (some "apply")))
  patience : ∀ stage, K.Interrupts stage .patience .patience

theorem eq_of_forall₂_eq {first second : List α} (alike : List.Forall₂ Eq first second) :
    first = second := by
  rwa [List.forall₂_eq_eq_eq] at alike

theorem rel_of_eq {R : α → α → Prop} (refl : ∀ value, R value value) {first second : Option α}
    (same : first = second) : Option.Rel R first second := by
  subst same
  cases first with
  | none => exact .none
  | some value => exact .some (refl value)

namespace Lawful

variable {K : Coupling} {stage : K.Stage}

theorem done (lawful : K.Lawful) {wanted : K.Stage → α → β → Prop} {value : α} {value' : β}
    (holds : wanted stage value value') : K.Coupled stage wanted (pure value) (pure value') :=
  fun _ _ stores => .value (lawful.refl stage) stores holds

theorem interrupts (lawful : K.Lawful) {wanted : K.Stage → α → β → Prop}
    {interrupt interrupt' : Interrupt} (alike : K.Interrupts stage interrupt interrupt') :
    K.Coupled stage wanted (throw interrupt) (throw interrupt') :=
  fun _ _ stores => .interrupt (lawful.refl stage) stores alike

theorem fails (lawful : K.Lawful) {wanted : K.Stage → α → β → Prop} {fault : Fault}
    (ofSource : fault.isOfSource) : K.Coupled stage wanted (raise fault) (raise fault) :=
  lawful.interrupts (lawful.fault stage ofSource)

theorem refuses (lawful : K.Lawful) {wanted : K.Stage → α → β → Prop} (node : Object)
    (reason : Malformation) :
    K.Coupled stage wanted (malformed node reason) (malformed node reason) :=
  lawful.fails rfl

theorem excuse {wanted : K.Stage → α → β → Prop} {interrupt : Interrupt}
    (excused : K.Excused interrupt) (run' : Eval β) :
    K.Coupled stage wanted (throw interrupt) run' :=
  fun _ _ _ => .excused excused

theorem tries (lawful : K.Lawful) {outcome : Except Fault α}
    (ofSource : ∀ fault, outcome = .error fault → fault.isOfSource) :
    K.Coupled stage (fun _ => Eq) (Eval.ofExcept outcome) (Eval.ofExcept outcome) := by
  cases outcome with
  | ok value => exact lawful.done rfl
  | error fault => exact lawful.fails (ofSource fault rfl)

theorem earlier (lawful : K.Lawful) {later : K.Stage} {wanted : K.Stage → α → β → Prop}
    {result : EStateM.Result Interrupt Store α} {result' : EStateM.Result Interrupt Store β}
    (grown : K.Later stage later) (ends : K.Ends later wanted result result') :
    K.Ends stage wanted result result' := by
  cases ends with
  | value more stores holds => exact .value (lawful.trans grown more) stores holds
  | interrupt more stores alike => exact .interrupt (lawful.trans grown more) stores alike
  | excused excuse => exact .excused excuse

/-- Runs go on from whatever stores and stage the first parts of them leave. -/
theorem bind (lawful : K.Lawful) {run : Eval α} {run' : Eval β} {next : α → Eval γ}
    {next' : β → Eval δ} {middle : K.Stage → α → β → Prop} {wanted : K.Stage → γ → δ → Prop}
    (first : K.Coupled stage middle run run')
    (rest : ∀ {later value value'}, K.Later stage later → middle later value value' →
      K.Coupled later wanted (next value) (next' value')) :
    K.Coupled stage wanted (run >>= next) (run' >>= next') := by
  intro before before' stores
  have started := first before before' stores
  rw [Eval.bind_apply, Eval.bind_apply]
  generalize run before = outcome at started
  generalize run' before' = outcome' at started
  cases started with
  | interrupt grown stores alike => exact .interrupt grown stores alike
  | excused excuse => exact .excused excuse
  | value grown between holds => exact lawful.earlier grown (rest grown holds _ _ between)

theorem map (lawful : K.Lawful) {run : Eval α} {run' : Eval β} {change : α → γ}
    {change' : β → δ} {middle : K.Stage → α → β → Prop} {wanted : K.Stage → γ → δ → Prop}
    (first : K.Coupled stage middle run run')
    (changed : ∀ {later value value'}, middle later value value' →
      wanted later (change value) (change' value')) :
    K.Coupled stage wanted (change <$> run) (change' <$> run') := by
  rw [map_eq_pure_bind, map_eq_pure_bind]
  exact lawful.bind first fun _ holds => lawful.done (changed holds)

theorem reads {next : Store → Eval α} {next' : Store → Eval β}
    {wanted : K.Stage → α → β → Prop}
    (rest : ∀ {before before'}, K.Stores stage before before' →
      K.Coupled stage wanted (next before) (next' before')) :
    K.Coupled stage wanted (get >>= next) (get >>= next') :=
  fun _ _ stores => rest stores _ _ stores

end Lawful

end Coupling

end LispCore
