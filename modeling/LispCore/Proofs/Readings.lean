import LispCore.Proofs.Operation.Arithmetic
import LispCore.Proofs.Scoping
import LispCore.Proofs.Unreferenced

namespace LispCore

open Eval (bind_ok map_ok)

namespace Store

variable (store : Store) {frame other : FrameId} {name : Symbol}

theorem lookup?_define_self (inside : frame < store.frames.size) (value : Object) :
    (store.define frame name value).lookup? frame name = some value := by
  rw [lookup?, scope, List.findSome?_cons, store.frame_define_self inside, Bindings.get?_set_self]

theorem lookup?_define_ne {bound : Symbol} (different : name ≠ bound) (value : Object) :
    (store.define frame bound value).lookup? other name = store.lookup? other name :=
  (((AlikeBut.refl store).define_right frame value).lookup?_eq different other).symm

theorem lookup?_defineAll_ne {entries : List (Symbol × Object)}
    (free : name ∉ entries.map Prod.fst) :
    (store.defineAll frame entries).lookup? other name = store.lookup? other name := by
  induction entries generalizing store with
  | nil => rfl
  | cons entry entries ih =>
      rw [List.map_cons, List.mem_cons, not_or] at free
      exact (ih _ free.2).trans (store.lookup?_define_ne free.1 entry.2)

theorem lookup?_child (within : store.HasScope frame) :
    (store.child frame).2.lookup? (store.child frame).1 name = store.lookup? frame name := by
  have around := (Confined.child store frame).lookup?_eq within name
  have unchanged : (store.child frame).2.scope frame = store.scope frame := by
    rw [scope, store.frame_child_of_lt within.lt, scope]
  rw [← around, lookup?, scope, List.findSome?_cons, store.frame_child_self, lookup?, unchanged]
  rfl

namespace Confined

variable {origin after : Store} {writable : FrameId → Prop}

theorem hasScope (confined : origin.Confined writable after) (within : origin.HasScope frame) :
    after.HasScope frame := by
  intro outer around
  rw [scope, confined.ancestors frame within.lt] at around
  exact Nat.lt_of_lt_of_le (within outer around) confined.frames_le

theorem defineAll (store : Store) (frame : FrameId) (entries : List (Symbol × Object)) :
    Confined (· = frame) store (store.defineAll frame entries) := by
  induction entries generalizing store with
  | nil => exact .refl store
  | cons entry entries ih =>
      exact (Confined.define store frame entry.1 entry.2).trans (ih _) fun _ _ same => same

theorem enter (store : Store) (closure : Closure) (operands : List Object) :
    Confined (fun _ => False) store (store.enter closure operands).2 :=
  (Confined.child store closure.frame).trans (defineAll _ store.frames.size _)
    fun _ old same => absurd same (Nat.ne_of_lt old)

end Confined

theorem lookup?_defineAll {entries : List (Symbol × Object)} {value : Object}
    (inside : frame < store.frames.size) (single : (entries.map Prod.fst).Nodup)
    (member : (name, value) ∈ entries) :
    (store.defineAll frame entries).lookup? frame name = some value := by
  induction entries generalizing store with
  | nil => contradiction
  | cons entry entries ih =>
      obtain ⟨fresh, single⟩ := List.nodup_cons.mp single
      rcases List.mem_cons.mp member with rfl | later
      · exact (lookup?_defineAll_ne _ fresh).trans (store.lookup?_define_self inside value)
      · exact ih (store.define frame entry.1 entry.2) (by simpa [Store.define]) single later

theorem lookup?_enter {closure : Closure} {operands : List Object} {value : Object}
    (single : closure.formals.Nodup) (fits : operands.length = closure.formals.length)
    (member : (name, value) ∈ closure.formals.zip operands) :
    (store.enter closure operands).2.lookup? (store.enter closure operands).1 name =
      some value := by
  refine lookup?_defineAll _ (by simp) ?_ member
  rwa [List.map_fst_zip (Nat.le_of_eq fits.symm)]

theorem lookup?_enter_ne {closure : Closure} (within : store.HasScope closure.frame)
    (free : name ∉ closure.formals) (operands : List Object) :
    (store.enter closure operands).2.lookup? (store.enter closure operands).1 name =
      store.lookup? closure.frame name := by
  refine (lookup?_defineAll_ne _ fun bound => free ?_).trans (store.lookup?_child within)
  obtain ⟨⟨parameter, value⟩, member, rfl⟩ := List.mem_map.mp bound
  exact (List.of_mem_zip member).1

end Store

theorem Engine.operand_ok {engine : Engine} {node value : Object} {frame : FrameId}
    {before after : Store}
    (ends : engine.answer .operand node frame before = .ok (.value value) after) :
    engine.operand node frame before = .ok value after := by
  refine (bind_ok ends _).trans ?_
  rw [Engine.settle, engine.settleWithin_value]
  rfl

/-- The node has the value, and its evaluation changes nothing. -/
def Engine.Reads (engine : Engine) (frame : FrameId) (store : Store) (node value : Object) :
    Prop :=
  ∀ position, engine.answer position node frame store = .ok (.value value) store

namespace Engine.Reads

variable {engine : Engine} {patience depth : Nat} {frame : FrameId} {store : Store}
  {node value : Object} {nodes values : List Object} {position : Position}

theorem operand (reads : engine.Reads frame store node value) :
    engine.operand node frame store = .ok value store :=
  operand_ok (reads .operand)

theorem operands (reads : List.Forall₂ (engine.Reads frame store) nodes values) :
    engine.operands frame nodes store = .ok values store := by
  induction reads with
  | nil => rfl
  | cons first _ ih => exact (bind_ok first.operand _).trans (bind_ok ih _)

theorem literal (proper : value.isValue) (label : Option Label) :
    (ofDepth patience (depth + 1)).Reads frame store (.literal label value) value := by
  intro position
  change Engine.step (ofDepth patience depth) position (.literal label value) frame store = _
  rw [Engine.step, if_pos proper]
  rfl

theorem reference {text : String} (found : store.lookup? frame ⟨text⟩ = some value) :
    (ofDepth patience (depth + 1)).Reads frame store (.refer text) value := by
  intro position
  have looked : Environment.lookup frame (.symbol ⟨text⟩) store = .ok value store := by
    refine (bind_ok (rfl : (get : Eval Store) store = .ok store store) _).trans ?_
    simp only [found]
    rfl
  exact map_ok looked Answer.value

theorem application {head callee : Object} (ordinary : SpecialForm.ofHead? head = none)
    (first : (ofDepth patience depth).Reads frame store head callee)
    (rest : List.Forall₂ ((ofDepth patience depth).Reads frame store) nodes values) :
    (ofDepth patience (depth + 1)).answer position (.formOf (head :: nodes)) frame store =
      (ofDepth patience depth).apply position callee values store := by
  change Engine.step (ofDepth patience depth) position (.formOf (head :: nodes)) frame store = _
  rw [Object.formOf, Engine.step_form, if_neg nofun, Engine.answerForm]
  simp only [ordinary]
  exact (bind_ok first.operand _).trans (bind_ok (operands rest) _)

theorem primitive {head : Object} {primitive : Primitive}
    (ordinary : SpecialForm.ofHead? head = none)
    (first : (ofDepth patience depth).Reads frame store head (.primitive primitive))
    (rest : List.Forall₂ ((ofDepth patience depth).Reads frame store) nodes values)
    (called : primitive.call values store = .ok value store) :
    (ofDepth patience (depth + 1)).Reads frame store (.formOf (head :: nodes)) value :=
  fun _ => (application ordinary first rest).trans (map_ok called _)

theorem conditional {condition consequent alternative : Object}
    (first : (ofDepth patience depth).Reads frame store condition value) :
    (ofDepth patience (depth + 1)).answer position
        (.formOf [.refer "if", condition, consequent, alternative]) frame store =
      (ofDepth patience depth).answer position
        (if value.isTruthy then consequent else alternative) frame store := by
  change (ofDepth patience depth).answerConditional position frame
    [condition, consequent, alternative] store = _
  exact bind_ok first.operand _

end Engine.Reads

theorem Engine.apply_closure_tail {engine : Engine} {id : ClosureId} {store : Store}
    {values : List Object} {closure : Closure} (made : store.closure id = closure)
    (fits : values.length = closure.formals.length) :
    engine.apply .tail (.closure id) values store =
      .ok (.pending closure.body (store.enter closure values).1)
        (store.enter closure values).2 := by
  subst made
  refine (bind_ok (rfl : (get : Eval Store) store = .ok store store) _).trans ?_
  simp only [Closure.extend, if_pos fits]
  rfl

namespace Operation

variable {a b : Int}

theorem add_integers (fits : inIntegerRange (a + b)) :
    add.arithmetic? [.integer a, .integer b] = some (.ok (.integer (a + b))) := by
  have checked : Number.checked .add (.integer (0 + a + b)) = .ok (.integer (a + b)) := by
    rw [Int.zero_add, Number.checked, if_pos fits]
  change some (Except.map Number.toObject (Number.checked .add (.integer (0 + a + b)))) = _
  rw [checked]
  rfl

theorem subtract_integers (fits : inIntegerRange (a - b)) :
    subtract.arithmetic? [.integer a, .integer b] = some (.ok (.integer (a - b))) := by
  have checked : Number.checked .subtract (.integer (a - b)) = .ok (.integer (a - b)) := by
    rw [Number.checked, if_pos fits]
  change some (Except.map Number.toObject (Number.difference (.integer a) [.integer b])) = _
  have difference : Number.difference (.integer a) [.integer b] = .ok (.integer (a - b)) :=
    (bind_pure _).trans checked
  rw [difference]
  rfl

theorem equal_integers :
    (compare .equal).arithmetic? [.integer a, .integer b] =
      some (.ok (.boolean (decide (a = b)))) := by
  have holds : Comparison.equal.holds (.integer a) (.integer b) = decide (a = b) := by
    rw [Comparison.holds, Number.compare?_integers, Option.any_some, Comparison.admits]
    by_cases same : a = b <;> simp [same]
  change some (Except.ok (Object.boolean (Comparison.equal.chain [.integer a, .integer b]))) = _
  rw [Comparison.chain, holds, Comparison.chain, Bool.and_true]
  all_goals exact nofun

end Operation

end LispCore
