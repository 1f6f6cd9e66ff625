import LispCore.Proofs.Readings
import LispCore.Proofs.Telling

namespace LispCore

namespace Store

/-- A new frame binds each parameter to the operand in its place. Any other name is as in the
frame of the closure, and nothing that there was has changed. -/
structure Binds (store : Store) (closure : Closure) (operands : List Object) (inner : FrameId)
    (after : Store) : Prop where
  new : inner = store.frames.size
  formal : ∀ index, ∀ inside : index < closure.formals.length,
    after.lookup? inner closure.formals[index] = operands[index]?
  other : ∀ name, name ∉ closure.formals →
    after.lookup? inner name = store.lookup? closure.frame name
  old : store.Confined (fun _ => False) after

end Store

namespace Closure

/-- Calls in this store bind each parameter, or else are refused and leave it as it is. -/
structure BindsExactly (closure : Closure) (store : Store) : Prop where
  refuses : ∀ operands, operands.length ≠ closure.formals.length →
    closure.extend operands store = .error (.fault (.arity closure.text closure.formals.length
      (some (closure.formals.length : Int)) operands.length)) store
  binds : ∀ operands, operands.length = closure.formals.length →
    ∃ inner after, closure.extend operands store = .ok inner after ∧
      store.Binds closure operands inner after

variable {closure : Closure} {operands : List Object} {store : Store}

theorem extend_binds (within : store.HasScope closure.frame) (distinct : closure.formals.Nodup)
    (fits : operands.length = closure.formals.length) :
    ∃ inner after, closure.extend operands store = .ok inner after ∧
      store.Binds closure operands inner after := by
  refine ⟨store.frames.size, (store.enter closure operands).2, ?_, ?_⟩
  · simp only [extend, if_pos fits]
    rfl
  · constructor
    case new => rfl
    case formal =>
      intro index inside
      have given : index < operands.length := fits ▸ inside
      have paired : (closure.formals[index], operands[index]) ∈ closure.formals.zip operands := by
        have inZip : index < (closure.formals.zip operands).length := by
          rw [List.length_zip]
          omega
        have member := List.getElem_mem inZip
        rwa [List.getElem_zip] at member
      rw [List.getElem?_eq_getElem given]
      exact store.lookup?_enter distinct fits paired
    case other => exact fun name free => store.lookup?_enter_ne within free operands
    case old => exact .enter store closure operands

theorem bindsExactly (within : store.HasScope closure.frame) (distinct : closure.formals.Nodup) :
    closure.BindsExactly store where
  refuses operands differs := by
    simp only [extend, if_neg differs]
    rfl
  binds _ fits := extend_binds within distinct fits

end Closure

theorem Engine.step_lambda {engine : Engine} {position : Position} {frame : FrameId}
    {formals node : Object} {body : List Object} (before : Store)
    (formed : SpecialForm.lambda.Over (formals :: body) node) :
    engine.step position node frame before =
      match parseFormals formals with
      | .ok names => .ok (.value (.closure before.closures.size))
          (before.addClosure ⟨names, bodyNode body, frame⟩).2
      | .error fault => .error (.fault fault) before := by
  rw [step_over formed]
  change answerLambda frame (formals :: body) before = _
  rw [answerLambda]
  cases parseFormals formals <;> rfl

/-- What is told of the parameters of a function: their names, if they are a form of references to
distinct names, and else a refusal, which shows the first node at fault. -/
structure FormalsTold (formals : Object) (store : Store) : Prop where
  parsed : ∀ names, toldOutcome store (parseFormals formals) = .ok names ↔
    ∃ label shape nodes, formals = .form label shape nodes ∧ DistinctNames nodes names
  refused : ∀ fault, toldOutcome store (parseFormals formals) = .error fault ↔
    ∃ node reason, RefusedFormals formals node reason ∧
      fault = if store.writable node then .malformed node reason else .host .tooLong

theorem formalsTold (formals : Object) (store : Store) : FormalsTold formals store where
  parsed names := toldOutcome_ok_iff.trans parseFormals_ok_iff
  refused fault := by
    constructor
    · intro told
      cases outcome : parseFormals formals with
      | ok names =>
          rw [outcome] at told
          contradiction
      | error raised =>
          obtain ⟨node, reason, rfl, refused⟩ := parseFormals_error_iff.mp outcome
          rw [outcome] at told
          cases told
          exact ⟨node, reason, refused, Fault.told_of_shows rfl⟩
    · rintro ⟨node, reason, refused, rfl⟩
      rw [parseFormals_error refused]
      exact congrArg Except.error (Fault.told_of_shows rfl)

/-- The parameters of a function are parsed if they are a form of references to distinct names, and
else are refused with the first node at fault, if it can be written. The closure that is made of them
is called with as many operands, and each of these is found under the parameter in its place, while
any other name is as in the captured frame. Given more or fewer, the call is refused and makes no
frame. -/
theorem formals_bound_exactly (formals : Object) :
    (∀ store, FormalsTold formals store) ∧
    ∀ body node, SpecialForm.lambda.Over (formals :: body) node →
      ∀ (engine : Engine) (position : Position) (frame : FrameId) (before : Store),
        (∀ fault, toldOutcome before (parseFormals formals) = .error fault →
          (engine.step position node frame).told before = .error (.fault fault) before) ∧
        ∀ names, parseFormals formals = .ok names →
          ∃ id made, engine.step position node frame before = .ok (.value (.closure id)) made ∧
            (before.HasScope frame → ∀ writable later, made.Confined writable later →
              later.closure id = ⟨names, bodyNode body, frame⟩ ∧
                Closure.BindsExactly ⟨names, bodyNode body, frame⟩ later) := by
  refine ⟨formalsTold formals, ?_⟩
  intro body node formed engine position frame before
  refine ⟨fun fault failed => ?_, fun names parsed => ?_⟩
  · cases outcome : parseFormals formals with
    | ok names =>
        rw [outcome] at failed
        contradiction
    | error raised =>
        rw [outcome] at failed
        cases failed
        have stepped : engine.step position node frame before = .error (.fault raised) before := by
          rw [Engine.step_lambda before formed, outcome]
        exact Eval.told_of_fault stepped
  · let closure : Closure := ⟨names, bodyNode body, frame⟩
    refine ⟨before.closures.size, (before.addClosure closure).2, ?_, ?_⟩
    · rw [Engine.step_lambda before formed, parsed]
    · intro within writable later confined
      obtain ⟨_, _, _, _, good⟩ := parseFormals_ok_iff.mp parsed
      have inside : before.closures.size < (before.addClosure closure).2.closures.size := by
        simp [Store.addClosure]
      have kept : later.closure before.closures.size = closure :=
        (confined.closure _ inside).trans (by simp [Store.closure_addClosure])
      have scope : later.HasScope frame :=
        confined.hasScope ((Store.Confined.addClosure before closure).hasScope within)
      exact ⟨kept, Closure.bindsExactly scope good.distinct⟩

/-- A parameter that is a literal is refused, unless what it holds is too long to be shown. -/
theorem unwritableFormal_fails :
    let formal := Object.literal none (.integer digitBound)
    RefusedFormals (.form none .tuple [formal]) formal .formalNotSymbol ∧
      toldOutcome .empty (parseFormals (.form none .tuple [formal])) =
        .error (.host .tooLong) := by
  intro formal
  have unnamed : ∀ name, ¬ formal.RefersTo name := fun name named => by
    have none : formal.referenceName? = some name := Object.refersTo_iff.mp named
    contradiction
  have refused : RefusedFormals (.form none .tuple ([] ++ [formal])) formal .formalNotSymbol :=
    .notSymbol ⟨.nil, List.nodup_nil⟩ unnamed
  have tooLong : Store.empty.writable formal = false :=
    Store.not_writable_of_part List.mem_cons_self (Store.writable_digitBound .empty)
  refine ⟨refused, ((formalsTold _ .empty).refused _).mpr ⟨formal, _, refused, ?_⟩⟩
  rw [tooLong]
  rfl

open Object (formOf refer)

/-- A function of `x` and `y` that refers to a name outside of it. -/
def outwardFunction : Object :=
  formOf [refer "lambda", formOf [refer "x", refer "y"], refer "z"]

theorem outwardFunction_bound :
    let before := Store.empty.rootFrame.2
    let closure : Closure := ⟨[⟨"x"⟩, ⟨"y"⟩], refer "z", 0⟩
    let later := (before.addClosure closure).2.define 0 ⟨"z"⟩ (.integer 3)
    (Engine.ofDepth 1 1).step .tail outwardFunction 0 before =
        .ok (.value (.closure 0)) (before.addClosure closure).2 ∧
      later.closure 0 = closure ∧
      closure.extend [.nil] later =
        .error (.fault (.arity "#<closure (x y)>" 2 (some 2) 1)) later ∧
      ∃ inner after, closure.extend [.integer 1, .integer 2] later = .ok inner after ∧
        after.lookup? inner ⟨"y"⟩ = some (.integer 2) ∧
        after.lookup? inner ⟨"z"⟩ = some (.integer 3) := by
  intro before closure later
  obtain ⟨told, made⟩ := formals_bound_exactly (formOf [refer "x", refer "y"])
  have names : parseFormals (formOf [refer "x", refer "y"]) = .ok closure.formals :=
    toldOutcome_ok_iff.mp (((told before).parsed _).mpr
      ⟨none, .tuple, _, rfl, .cons ⟨none, rfl⟩ (.cons ⟨none, rfl⟩ .nil), by decide⟩)
  obtain ⟨id, store, ends, bound⟩ := (made [refer "z"] outwardFunction (.form (by decide))
    (.ofDepth 1 1) .tail 0 before).2 _ names
  cases ends
  obtain ⟨kept, exactly⟩ := bound (by decide) _ later (.define _ 0 _ _)
  obtain ⟨inner, after, entered, binds⟩ := exactly.binds [.integer 1, .integer 2] rfl
  refine ⟨rfl, kept, exactly.refuses [.nil] (by decide), inner, after, entered, ?_, ?_⟩
  · exact binds.formal 1 (by decide)
  · rw [binds.other ⟨"z"⟩ (by decide)]
    rfl

end LispCore
