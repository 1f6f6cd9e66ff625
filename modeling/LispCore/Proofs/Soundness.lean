import LispCore.Proofs.Discipline.Evaluation
import LispCore.Proofs.GoodStore
import LispCore.Proofs.Operation.Precedence
import LispCore.Proofs.Trampoline

namespace LispCore

/-- The results that evaluation may have: a value of the store, a fault that is told as
one of the language, or none for want of patience; and the store is good in any case. -/
inductive SoundResult : EStateM.Result Interrupt Store Object → Prop
  | value {value : Object} {after : Store} (good : after.Good) (held : after.Holds value) :
      SoundResult (.ok value after)
  | fault {fault : Fault} {after : Store} (good : after.Good)
      (ofLanguage : (fault.told after).isOfLanguage) : SoundResult (.error (.fault fault) after)
  | unfinished {after : Store} (good : after.Good) : SoundResult (.error .patience after)

/-- A fault of the language is told as one if what it shows is in a good store. -/
theorem Fault.isOfLanguage_told {fault : Fault} {store : Store} (ofLanguage : fault.isOfLanguage)
    (writable : ∀ object ∈ fault.shows, store.writable object) :
    (fault.told store).isOfLanguage := by
  rwa [told_of_writable writable]

namespace Operation.Effect

open Store

variable {store : Store} {operation : Operation} {operands : List Object}
  {result : EStateM.Result Interrupt Store Object}

theorem grown (effect : Effect store operation operands result) :
    Grown store (Eval.storeOf result) := by
  cases effect with
  | joins => exact grown_cons
  | lists => exact grown_ofItems operands
  | setsHead => exact grown_setPart _ .head
  | setsTail => exact grown_setPart _ .tail
  | records => exact grown_note _
  | _ => exact .refl store

theorem sound (effect : Effect store operation operands result) (good : store.Good)
    (countable : store.Countable) (suits : operation.Suits operands.length)
    (known : ∀ operand ∈ operands, store.Holds operand)
    (few : operands.length ≤ mostCounted) : SoundResult result := by
  have values : ∀ operand ∈ operands, operand.isValue :=
    fun operand member => (known operand member).1
  cases effect with
  | computes computed =>
      exact .value good (holds_of_isScalar (arithmetic_sound computed suits values fun _ => few))
  | fails computed =>
      obtain ⟨wanted, accepts, demanded⟩ := exists_demand computed
      obtain ⟨ofLanguage, told | ⟨operand, member, _, _, tooLong⟩⟩ :=
        arithmetic_told demanded computed suits values (fun _ => few) store
      · exact .fault good (by rwa [told])
      · rw [good.writable (known operand member)] at tooLong
        contradiction
  | decides value => exact .value good ⟨rfl, trivial⟩
  | joins =>
      have tail := known _ (List.mem_cons_of_mem _ List.mem_cons_self)
      refine .value (good.cons (known _ List.mem_cons_self) tail) ⟨rfl, ?_⟩
      simp [Refers, Store.cons]
  | head => exact .value good (good.cell_at (known _ List.mem_cons_self).2).1
  | tail => exact .value good (good.cell_at (known _ List.mem_cons_self).2).2
  | lists =>
      have nil : store.Holds .nil := ⟨rfl, trivial⟩
      obtain ⟨goodAfter, held⟩ := good.ofItems known nil
      exact .value goodAfter held
  | counts proper =>
      refine .value good ⟨inIntegerRange_iff.mpr ?_, trivial⟩
      have fewer : _ ≤ mostCounted := Nat.le_trans (length_le_of_listItems? proper) countable
      have most : mostCounted = 9223372036854775807 := rfl
      omega
  | setsHead =>
      have value := known _ (List.mem_cons_of_mem _ List.mem_cons_self)
      exact .value (good.setPart _ .head value) ⟨rfl, trivial⟩
  | setsTail =>
      have value := known _ (List.mem_cons_of_mem _ List.mem_cons_self)
      exact .value (good.setPart _ .tail value) ⟨rfl, trivial⟩
  | records =>
      exact .value (good.note _) ((known _ List.mem_cons_self).mono (grown_note _))
  | refuses expected member =>
      exact .fault good (Fault.isOfLanguage_told rfl
        (List.forall_mem_singleton.mpr (good.writable (known _ member))))
  | misses short => exact absurd suits.1 (Nat.not_le.mpr short)

end Operation.Effect

namespace Primitive

open Store

variable {store : Store} {operands : List Object}

theorem call_grown (primitive : Primitive) (operands : List Object) (store : Store) :
    Grown store ((primitive.call operands).storeAfter store) := by
  rw [Eval.storeAfter, call_apply]
  split
  · exact (primitive.operation.run_effect operands store).grown
  · exact .refl store

theorem call_sound {primitive : Primitive} (standard : primitive ∈ standard) (good : store.Good)
    (countable : store.Countable) (known : ∀ operand ∈ operands, store.Holds operand)
    (few : operands.length ≤ mostCounted) : SoundResult (primitive.call operands store) := by
  rw [call_apply]
  by_cases admitted : primitive.admits operands.length
  · rw [if_pos admitted]
    exact (primitive.operation.run_effect operands store).sound good countable
      (suits_of_admits standard admitted) known few
  · rw [if_neg admitted]
    exact .fault good rfl

end Primitive

namespace Discipline

open Store

variable {store : Store} {run : Eval Object}

/-- Good stores, as long as their pairs can be counted. -/
def soundness : Discipline where
  Good store := store.Countable → store.Good
  Grows := Store.Grown
  Value store value := store.Countable → store.Holds value
  Node store node := store.Countable → store.WellFormed node
  Scope store frame := store.Countable → frame < store.frames.size
  Outer store frame := store.Countable → frame < store.frames.size
  Count store count := store.Countable → count ≤ mostCounted
  Admits store fault := store.Countable → (fault.told store).isOfLanguage

theorem soundness_keeps (grown : Grown store (run.storeAfter store))
    (sound : (run.storeAfter store).Countable → SoundResult (run store)) :
    soundness.Keeps store soundness.Value run := by
  intro _
  unfold Eval.storeAfter at grown sound
  cases outcome : run store with
  | ok value after =>
      simp only [outcome, Eval.storeOf] at grown sound
      refine ⟨fun countable => ?_, grown, fun countable => ?_⟩
      · cases sound countable with
        | value good held => exact good
      · cases sound countable with
        | value good held => exact held
  | error interrupt after =>
      simp only [outcome, Eval.storeOf] at grown sound
      cases interrupt with
      | fault fault =>
          refine ⟨fun countable => ?_, grown, fun countable => ?_⟩
          · cases sound countable with
            | fault good ofLanguage => exact good
          · cases sound countable with
            | fault good ofLanguage => exact ofLanguage
      | depth =>
          refine ⟨fun countable => ?_, grown⟩
          cases sound countable
      | patience =>
          refine ⟨fun countable => ?_, grown⟩
          cases sound countable with
          | unfinished good => exact good

theorem sound_of_keeps (kept : soundness.Keeps store soundness.Value run) (good : store.Good)
    (countable : (run.storeAfter store).Countable)
    (guarded : ∀ after, run store ≠ .error .depth after) : SoundResult (run store) := by
  have ended := kept fun _ => good
  unfold Eval.storeAfter at countable
  cases outcome : run store with
  | ok value after =>
      simp only [outcome, Eval.storeOf] at ended countable
      exact .value (ended.1 countable) (ended.2.2 countable)
  | error interrupt after =>
      simp only [outcome, Eval.storeOf] at ended countable
      cases interrupt with
      | fault fault => exact .fault (ended.1 countable) (ended.2.2 countable)
      | depth => exact absurd outcome (guarded after)
      | patience => exact .unfinished (ended.1 countable)

theorem soundness_lawful : soundness.Lawful where
  refl := .refl
  trans := .trans
  value_mono grown held countable := (held (grown.countable countable)).mono grown
  node_mono grown wellFormed countable := (wellFormed (grown.countable countable)).mono grown
  scope_mono grown inside countable :=
    Nat.lt_of_lt_of_le (inside (grown.countable countable)) grown.frames_le
  count_mono grown few countable := few (grown.countable countable)
  count_le fewer few countable := Nat.le_trans fewer (few countable)
  nil _ _ := ⟨rfl, trivial⟩
  boolean _ _ _ := ⟨rfl, trivial⟩
  lookup good inside found countable := (good countable).lookup (inside countable) found
  item good held proper :=
    ⟨fun item member countable => (good countable).items (held countable) proper item member,
      fun countable => Nat.le_trans (length_le_of_listItems? proper) countable⟩
  literal wellFormed _ countable := by
    cases wellFormed countable with
    | literal label held => exact held
  name wellFormed countable := by
    cases wellFormed countable with
    | reference label name => exact ⟨rfl, trivial⟩
  element wellFormed := by
    constructor
    · intro element member countable
      cases wellFormed countable with
      | form label each few => exact each element member
    · intro countable
      cases wellFormed countable with
      | form label each few => exact few
  body each few countable :=
    wellFormed_bodyNode (fun node member => each node member countable) (few countable)
  outer inside := inside
  captured good held := by
    constructor
    · exact fun countable => ((good countable).closure_at (held countable).2).body
    · exact fun countable => ((good countable).closure_at (held countable).2).frame
  define name good _ held :=
    ⟨fun countable => (good countable).define name (held countable), grown_define name⟩
  child good inside :=
    ⟨fun countable => (good countable).child (inside countable), grown_child,
      fun _ => by simp [Store.child]⟩
  addClosure formals good inside wellFormed :=
    ⟨fun countable => (good countable).addClosure (wellFormed countable) (inside countable),
      grown_addClosure _, fun _ => ⟨rfl, by simp [Store.addClosure, Refers]⟩⟩
  cons good first last := by
    refine ⟨fun countable => ?_, grown_cons, fun _ => ⟨rfl, by simp [Store.cons, Refers]⟩⟩
    have before := grown_cons.countable countable
    exact (good before).cons (first before) (last before)
  call {store primitive operands} callee known few := by
    have grown := primitive.call_grown operands store
    intro good
    refine soundness_keeps grown (fun countable => ?_) good
    have before := grown.countable countable
    exact Primitive.call_sound (callee before).2 (good before) before
      (fun operand member => known operand member before) (few before)
  notLiteral wellFormed improper countable := by
    cases wellFormed countable with
    | literal label held => exact absurd held.1 improper
  notReference wellFormed improper countable := by
    cases wellFormed countable with
    | reference label name => exact absurd rfl improper
  notNode wellFormed unrecognised countable := by
    rcases unrecognised with noNode | ⟨label, elements, rfl⟩
    · cases wellFormed countable <;> exact absurd rfl noNode
    · cases wellFormed countable
  misshapen {store operands node reason} ofForm good wellFormed refused countable := by
    have each : ∀ operand ∈ operands, store.WellFormed operand :=
      fun operand member => wellFormed operand member countable
    have writable : store.writable node := by
      rcases refused with rfl | member
      · exact (good countable).writable_operands each
      · exact (good countable).writable_node (each node member)
    exact Fault.isOfLanguage_told rfl (List.forall_mem_singleton.mpr writable)
  unbound store name _ :=
    Fault.isOfLanguage_told rfl (List.forall_mem_singleton.mpr (writable_of_bare rfl rfl))
  notCallable good held countable := Fault.isOfLanguage_told rfl
    (List.forall_mem_singleton.mpr ((good countable).writable (held countable)))
  arity _ _ _ _ _ _ := rfl
  notList good held countable := Fault.isOfLanguage_told rfl
    (List.forall_mem_singleton.mpr ((good countable).writable (held countable)))
  tooDeep _ _ _ := rfl

end Discipline

theorem Budget.guard_ne_depth (budget : Budget) (run : Eval Object) (before after : Store) :
    budget.guard run before ≠ .error .depth after := by
  unfold guard
  split
  · simp
  · rename_i others
    exact others after

/-- Within any budget, a well-formed node in a frame of a good store has a sound result, if
the pairs there are in the end can be counted. As an operand it leaves no call pending. -/
theorem evaluation_sound (budget : Budget) {before : Store} {node : Object} {frame : FrameId}
    (good : before.Good) (wellFormed : before.WellFormed node)
    (inside : frame < before.frames.size)
    (countable : ((evaluate budget node frame).storeAfter before).Countable) :
    SoundResult (evaluate budget node frame before) ∧
      (budget.engine.answer .operand node frame).Returns Answer.IsValue := by
  have lawful := Discipline.soundness_lawful
  have kept : Discipline.soundness.Keeps before _ (evaluate budget node frame) :=
    lawful.evaluate budget (fun _ => wellFormed) fun _ => inside
  exact ⟨Discipline.sound_of_keeps kept good countable (budget.guard_ne_depth _ before),
    operand_returns_value _ _ node frame⟩

/-- A store with one frame, which binds addition. -/
def Store.adding : Store :=
  { empty with frames := #[⟨[(⟨"+"⟩, .primitive (.ofOperation .add 0 none))], []⟩] }

theorem Store.adding_good : adding.Good where
  cell := by simp [adding, empty]
  closure := by simp [adding, empty]
  frame frame member := by
    obtain rfl := List.mem_singleton.mp (Array.mem_def.mp member)
    refine ⟨fun entry bound => ?_, nofun⟩
    obtain rfl := List.mem_singleton.mp bound
    exact ⟨rfl, List.mem_cons_self⟩

def beyondRange : Object :=
  .form none .tuple [.reference none (.symbol ⟨"+"⟩), .literal none (.integer greatestInteger),
    .literal none (.integer 1)]

theorem Store.wellFormed_beyondRange : adding.WellFormed beyondRange := by
  refine .form none (fun element member => ?_) (by decide)
  simp only [List.mem_cons, List.not_mem_nil, or_false] at member
  rcases member with rfl | rfl | rfl
  · exact .reference none _
  · exact .literal none ⟨by decide, trivial⟩
  · exact .literal none ⟨by decide, trivial⟩

theorem beyondRange_sound :
    SoundResult (evaluate ⟨2, 1⟩ beyondRange 0 Store.adding) ∧
      (Engine.answer (Budget.engine ⟨2, 1⟩) .operand beyondRange 0).Returns Answer.IsValue :=
  evaluation_sound ⟨2, 1⟩ Store.adding_good Store.wellFormed_beyondRange (by decide)
    (by decide +kernel)

end LispCore
