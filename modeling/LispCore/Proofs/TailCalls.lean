import LispCore.Interpreter
import LispCore.Proofs.Budgets
import LispCore.Proofs.Operation.Arithmetic
import LispCore.Proofs.Readings

namespace LispCore

open Eval (Below bind_ok)

/-- The evaluation stays pending for a number of calls, one after the other, and then has a
value. -/
inductive TailCalls (engine : Engine) (value : Object) (after : Store) :
    Nat → Object → FrameId → Store → Prop
  | last {node frame before}
      (ends : engine.answer .tail node frame before = .ok (.value value) after) :
      TailCalls engine value after 0 node frame before
  | next {calls node frame before body inner between}
      (pends : engine.answer .tail node frame before = .ok (.pending body inner) between)
      (rest : TailCalls engine value after calls body inner between) :
      TailCalls engine value after (calls + 1) node frame before

namespace TailCalls

variable {engine engine' : Engine} {value : Object} {after before : Store} {calls : Nat}
  {node : Object} {frame : FrameId}

theorem mono (below : ∀ node frame, Below (engine.answer .tail node frame)
    (engine'.answer .tail node frame))
    (run : TailCalls engine value after calls node frame before) :
    TailCalls engine' value after calls node frame before := by
  induction run with
  | last ends => exact .last ((below _ _).ok ends)
  | next pends _ ih => exact .next ((below _ _).ok pends) ih

/-- The turns do not nest: they are all taken by the engine at hand. -/
theorem settles {turns : Nat} (run : TailCalls engine value after calls node frame before)
    (enough : calls ≤ turns) :
    (engine.answer .tail node frame >>= engine.settleWithin turns) before = .ok value after := by
  induction run generalizing turns with
  | last ends =>
      rw [bind_ok ends, engine.settleWithin_value]
      rfl
  | next pends _ ih =>
      obtain ⟨turns, rfl⟩ : ∃ fewer, turns = fewer + 1 := ⟨turns - 1, by omega⟩
      rw [bind_ok pends]
      exact ih (Nat.le_of_succ_le_succ enough)

theorem evaluates {patience depth enough : Nat}
    (run : TailCalls (.ofDepth patience depth) value after calls node frame before)
    (patient : patience ≤ enough) (turns : calls ≤ enough) :
    evaluate ⟨depth, enough⟩ node frame before = .ok value after := by
  have longer : TailCalls (.ofDepth enough depth) value after calls node frame before :=
    run.mono (Engine.answer_below patient (Nat.le_refl depth) .tail)
  have completes : (Engine.ofDepth enough depth).complete node frame before = .ok value after :=
    longer.settles turns
  exact Budget.guard_ok completes

end TailCalls

/-- Names in the frame are bound to the standard primitives that answer to them. -/
def Store.SeesStandard (store : Store) (frame : FrameId) (names : List String) : Prop :=
  ∀ name ∈ names, store.lookup? frame ⟨name⟩ = (Primitive.named? name).map .primitive

namespace Counting

/-- `(if (= n 0) acc (count (- n 1) (+ acc 1)))` -/
def body : Object :=
  .formOf [.refer "if", .formOf [.refer "=", .refer "n", .literal none (.integer 0)],
    .refer "acc",
    .formOf [.refer "count", .formOf [.refer "-", .refer "n", .literal none (.integer 1)],
      .formOf [.refer "+", .refer "acc", .literal none (.integer 1)]]]

/-- `(define count (lambda (n acc) ...))` -/
def definition : Object :=
  .formOf [.refer "define", .refer "count",
    .formOf [.refer "lambda", .formOf [.refer "n", .refer "acc"], body]]

/-- `(count n acc)` -/
def call (n acc : Int) : Object :=
  .formOf [.refer "count", .literal none (.integer n), .literal none (.integer acc)]

def parameters : List Symbol :=
  [⟨"n"⟩, ⟨"acc"⟩]

def counter (home : FrameId) : Closure :=
  ⟨parameters, body, home⟩

/-- In its home frame, `count` is the closure made of the definition there. -/
structure Defined (store : Store) (home : FrameId) (id : ClosureId) : Prop where
  within : store.HasScope home
  made : store.closure id = counter home
  primitives : store.SeesStandard home ["=", "-", "+"]
  count : store.lookup? home ⟨"count"⟩ = some (.closure id)

/-- A turn of counting is to be evaluated in the inner frame. -/
structure Turn (store : Store) (home : FrameId) (id : ClosureId) (inner : FrameId) (n acc : Int) :
    Prop extends Defined store home id where
  n : store.lookup? inner ⟨"n"⟩ = some (.integer n)
  acc : store.lookup? inner ⟨"acc"⟩ = some (.integer acc)
  outside : ∀ name, name ∉ parameters →
    store.lookup? inner name = store.lookup? home name

variable {store : Store} {home inner frame : FrameId} {id : ClosureId} {n acc : Int}
  {patience depth : Nat}

theorem Defined.enter (defined : Defined store home id) (n acc : Int) :
    Turn (store.enter (counter home) [.integer n, .integer acc]).2 home id
      (store.enter (counter home) [.integer n, .integer acc]).1 n acc := by
  have confined := Store.Confined.enter store (counter home) [.integer n, .integer acc]
  have around : ∀ name, _ := confined.lookup?_eq defined.within
  have single : parameters.Nodup := by decide
  refine ⟨⟨confined.hasScope defined.within, defined.made, ?_, ?_⟩, ?_, ?_, ?_⟩
  · intro name member
    rw [around]
    exact defined.primitives name member
  · rw [around]
    exact defined.count
  · exact store.lookup?_enter single rfl (by simp [counter, parameters])
  · exact store.lookup?_enter single rfl (by simp [counter, parameters])
  · intro name free
    rw [around]
    exact store.lookup?_enter_ne defined.within free _

/-- A call of `count` stays pending, as a turn. -/
theorem Defined.calls (defined : Defined store home id) {patience depth : Nat}
    {first second : Object} (found : store.lookup? frame ⟨"count"⟩ = some (.closure id))
    (reads : (Engine.ofDepth patience (depth + 1)).Reads frame store first (.integer n))
    (reads' : (Engine.ofDepth patience (depth + 1)).Reads frame store second (.integer acc)) :
    ∃ inner after, (Engine.ofDepth patience (depth + 2)).answer .tail
        (.formOf [.refer "count", first, second]) frame store = .ok (.pending body inner) after ∧
      Turn after home id inner n acc := by
  refine ⟨_, _, ?_, defined.enter n acc⟩
  have values : List.Forall₂ ((Engine.ofDepth patience (depth + 1)).Reads frame store)
      [first, second] [.integer n, .integer acc] := .cons reads (.cons reads' .nil)
  refine (Engine.Reads.application rfl (.reference found) values).trans ?_
  exact Engine.apply_closure_tail defined.made rfl

theorem Turn.sees (turn : Turn store home id inner n acc) :
    store.SeesStandard inner ["=", "-", "+"] := by
  intro name member
  have free : ∀ name ∈ ["=", "-", "+"], (⟨name⟩ : Symbol) ∉ parameters := by decide
  rw [turn.outside _ (free name member)]
  exact turn.primitives name member

theorem Turn.reads (turn : Turn store home id inner n acc) {name parameter : String}
    {primitive : Primitive} {a b : Int} {value : Object}
    (known : name ∈ ["=", "-", "+"]) (named : Primitive.named? name = some primitive)
    (admitted : primitive.admits 2) (found : store.lookup? inner ⟨parameter⟩ = some (.integer a))
    (proper : (Object.integer b).isValue)
    (computed : primitive.operation.arithmetic? [.integer a, .integer b] = some (.ok value)) :
    (Engine.ofDepth patience (depth + 2)).Reads inner store
      (.formOf [.refer name, .refer parameter, .literal none (.integer b)]) value := by
  have plain : ∀ name ∈ ["=", "-", "+"], SpecialForm.ofHead? (.refer name) = none := by decide
  have head : store.lookup? inner ⟨name⟩ = some (.primitive primitive) := by
    rw [turn.sees name known, named, Option.map_some]
  exact .primitive (plain name known) (.reference head)
    (.cons (.reference found) (.cons (.literal proper none) .nil))
    (Primitive.call_computed admitted computed)

theorem Turn.ends (turn : Turn store home id inner 0 acc) (position : Position) :
    (Engine.ofDepth patience (depth + 3)).answer position body inner store =
      .ok (.value (.integer acc)) store := by
  have zero : (Engine.ofDepth patience (depth + 2)).Reads inner store
      (.formOf [.refer "=", .refer "n", .literal none (.integer 0)]) (.boolean true) :=
    turn.reads (by decide) rfl rfl turn.n rfl Operation.equal_integers
  refine (Engine.Reads.conditional zero).trans ?_
  exact Engine.Reads.reference turn.acc position

/-- Every other turn stays pending as the next. -/
theorem Turn.goesOn (turn : Turn store home id inner n acc) (patience depth : Nat) (more : n ≠ 0)
    (fits : inIntegerRange (n - 1)) (fits' : inIntegerRange (acc + 1)) :
    ∃ next after, (Engine.ofDepth patience (depth + 4)).answer .tail body inner store =
        .ok (.pending body next) after ∧ Turn after home id next (n - 1) (acc + 1) := by
  have zero : (Engine.ofDepth patience (depth + 3)).Reads inner store
      (.formOf [.refer "=", .refer "n", .literal none (.integer 0)]) (.boolean (decide (n = 0))) :=
    turn.reads (by decide) rfl rfl turn.n rfl Operation.equal_integers
  rw [decide_eq_false more] at zero
  have less : (Engine.ofDepth patience (depth + 2)).Reads inner store
      (.formOf [.refer "-", .refer "n", .literal none (.integer 1)]) (.integer (n - 1)) :=
    turn.reads (by decide) rfl rfl turn.n rfl (Operation.subtract_integers fits)
  have sum : (Engine.ofDepth patience (depth + 2)).Reads inner store
      (.formOf [.refer "+", .refer "acc", .literal none (.integer 1)]) (.integer (acc + 1)) :=
    turn.reads (by decide) rfl rfl turn.acc rfl (Operation.add_integers fits')
  have count : store.lookup? inner ⟨"count"⟩ = some (.closure id) :=
    (turn.outside _ (by decide)).trans turn.count
  obtain ⟨next, after, pends, turn⟩ := turn.calls count less sum
  exact ⟨next, after, (Engine.Reads.conditional zero).trans pends, turn⟩

/-- From its turn on, counting comes to `acc + n`, and no turn takes more depth than four. -/
theorem Turn.run {n : Nat} (turn : Turn store home id inner n acc) (patience : Nat)
    (fits : inIntegerRange n) (start : inIntegerRange acc) (last : inIntegerRange (acc + n)) :
    ∃ after, TailCalls (.ofDepth patience 4) (.integer (acc + n)) after n body inner store := by
  rw [inIntegerRange_iff] at fits start last
  -- a turn for `n` and `acc` leads to one for `n - 1` and `acc + 1`, of the same sum, so the
  -- numbers on the way lie between those at the ends
  induction n generalizing store inner acc with
  | zero =>
      rw [Int.natCast_zero, Int.add_zero]
      exact ⟨store, .last (turn.ends .tail)⟩
  | succ n ih =>
      have less : ((n + 1 : Nat) : Int) - 1 = n := by omega
      have more : acc + 1 + n = acc + (n + 1 : Nat) := by omega
      obtain ⟨next, between, pends, turn⟩ := turn.goesOn patience 0 (by omega)
        (inIntegerRange_iff.mpr (by omega)) (inIntegerRange_iff.mpr (by omega))
      rw [less] at turn
      obtain ⟨after, run⟩ := ih turn (by omega) (by omega) (by omega)
      exact ⟨after, .next pends (more ▸ run)⟩

def afterDefinition (before : Store) (home : FrameId) : Store :=
  (before.addClosure (counter home)).2.define home ⟨"count"⟩ (.closure before.closures.size)

theorem evaluate_definition (home : FrameId) (before : Store) :
    evaluate ⟨4, patience⟩ definition home before = .ok .nil (afterDefinition before home) := by
  have made : (Engine.ofDepth patience 3).operand
      (.formOf [.refer "lambda", .formOf [.refer "n", .refer "acc"], body]) home before =
        .ok (.closure before.closures.size) (before.addClosure (counter home)).2 :=
    Engine.operand_ok rfl
  have ends : (Engine.ofDepth patience 4).answer .tail definition home before =
      .ok (.value .nil) (afterDefinition before home) :=
    bind_ok made _
  exact TailCalls.evaluates (.last ends) (Nat.le_refl patience) (Nat.zero_le patience)

theorem defined_afterDefinition {before : Store} (within : before.HasScope home)
    (primitives : before.SeesStandard home ["=", "-", "+"]) :
    Defined (afterDefinition before home) home before.closures.size := by
  let between := (before.addClosure (counter home)).2
  have grown : before.HasScope home → between.HasScope home :=
    (Store.Confined.addClosure before _).hasScope
  have written := Store.Confined.define between home ⟨"count"⟩ (.closure before.closures.size)
  refine ⟨written.hasScope (grown within), ?_, ?_, ?_⟩
  · simp [afterDefinition, Store.define, Store.addClosure, Store.closure]
  · intro name member
    have different : ∀ name ∈ ["=", "-", "+"], (⟨name⟩ : Symbol) ≠ ⟨"count"⟩ := by decide
    exact (between.lookup?_define_ne (different name member) _).trans (primitives name member)
  · exact between.lookup?_define_self within.lt _

theorem Defined.counts (defined : Defined store home id) {n : Nat}
    (fits : (Object.integer n).isValue) (start : (Object.integer acc).isValue)
    (last : (Object.integer (acc + n)).isValue) (enough : n < patience) :
    ∃ after, evaluate ⟨4, patience⟩ (call n acc) home store = .ok (.integer (acc + n)) after := by
  have reads : ∀ value, Object.isValue value →
      (Engine.ofDepth patience 3).Reads home store (.literal none value) value :=
    fun value proper => .literal proper none
  obtain ⟨inner, between, pends, turn⟩ :=
    defined.calls defined.count (reads _ fits) (reads _ start)
  obtain ⟨after, run⟩ := turn.run patience fits start last
  exact ⟨after, (run.next pends).evaluates (Nat.le_refl patience) enough⟩

end Counting

/-- A chain of tail calls, each settled within one and the same depth, is settled within that
very depth, however long it is. So for counting by tail calls there is one limit for all
numbers, that is for all integers that are values. -/
theorem tail_calls_do_not_nest :
    (∀ patience depth calls node frame before value after,
      TailCalls (.ofDepth patience depth) value after calls node frame before →
        ∀ enough, patience ≤ enough → calls ≤ enough →
          evaluate ⟨depth, enough⟩ node frame before = .ok value after) ∧
    ∃ limit, ∀ (before : Store) (home : FrameId), before.HasScope home →
      before.SeesStandard home ["=", "-", "+"] →
        ∃ defined, (∀ patience, evaluate ⟨limit, patience⟩ Counting.definition home before =
          .ok .nil defined) ∧
        ∀ n acc : Int, 0 ≤ n → (Object.integer n).isValue → (Object.integer acc).isValue →
          (Object.integer (acc + n)).isValue → ∀ patience : Nat, n < patience →
            ∃ after, evaluate ⟨limit, patience⟩ (Counting.call n acc) home defined =
              .ok (.integer (acc + n)) after := by
  constructor
  · intro patience depth calls node frame before value after run enough patient turns
    exact run.evaluates patient turns
  · refine ⟨4, fun before home within primitives => ?_⟩
    refine ⟨_, fun _ => Counting.evaluate_definition home before, ?_⟩
    intro n acc nonnegative fits start last patience enough
    obtain ⟨n, rfl⟩ := Int.eq_ofNat_of_zero_le nonnegative
    have defined := Counting.defined_afterDefinition within primitives
    exact defined.counts fits start last (Int.ofNat_lt.mp enough)

/-- `((lambda () 7))` -/
def calledOnce : Object :=
  .formOf [.formOf [.refer "lambda", .formOf [], .literal none (.integer 7)]]

/-- The store of a new interpreter, with the standard primitives in its root frame. -/
def Store.initial : Store :=
  Eval.storeAfter (Interpreter.start Primitive.standardTable) .empty

set_option maxRecDepth 4000 in
theorem Store.initial_hasScope : initial.HasScope 0 := by
  decide

set_option maxRecDepth 4000 in
theorem Store.initial_seesStandard : initial.SeesStandard 0 ["=", "-", "+"] := by
  intro name member
  simp only [List.mem_cons, List.not_mem_nil, or_false] at member
  rcases member with rfl | rfl | rfl <;> rfl

theorem calledOnce_and_counted :
    (∃ after, evaluate ⟨2, 1⟩ calledOnce 0 Store.initial = .ok (.integer 7) after) ∧
    ∃ limit defined after,
      evaluate ⟨limit, 4⟩ Counting.definition 0 Store.initial = .ok .nil defined ∧
      evaluate ⟨limit, 4⟩ (Counting.call 3 4) 0 defined = .ok (.integer 7) after := by
  obtain ⟨settles, limit, counts⟩ := tail_calls_do_not_nest
  obtain ⟨defined, defines, counted⟩ :=
    counts Store.initial 0 Store.initial_hasScope Store.initial_seesStandard
  obtain ⟨after, three⟩ := counted 3 4 (by decide) rfl rfl rfl 4 (by decide)
  have once : TailCalls (.ofDepth 1 2) (.integer 7) _ 1 calledOnce 0 Store.initial :=
    .next rfl (.last rfl)
  exact ⟨⟨_, settles 1 2 1 calledOnce 0 _ _ _ once 1 (Nat.le_refl 1) (Nat.le_refl 1)⟩,
    limit, defined, after, defines 4, three⟩

end LispCore
