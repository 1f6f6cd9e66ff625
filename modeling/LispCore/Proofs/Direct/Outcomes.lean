import LispCore.Proofs.Coupling.Evaluation
import LispCore.Proofs.Discipline.Evaluation
import LispCore.Proofs.Trampoline

namespace LispCore

open Eval (Below)

namespace Eval

variable {α β γ : Type} {run run' : Nat → Eval α} {next next' : Nat → α → Eval β}
  {before after : Store}

/-- Wherever a run finishes, it does the same with more depth. -/
def Rises (run : Nat → Eval α) : Prop :=
  ∀ depth, Below (run depth) (run (depth + 1))

/-- Is it the value or the fault that a run has finished with? -/
def Final : EStateM.Result Interrupt Store α → Prop
  | .ok .. => True
  | .error interrupt _ => interrupt.isFault

/-- Some depth lets the run finish, with this result. -/
def ComesTo (run : Nat → Eval α) (before : Store) (result : EStateM.Result Interrupt Store α) :
    Prop :=
  Final result ∧ ∃ depth, run depth before = result

theorem Rises.below (rises : Rises run) {depth more : Nat} (enough : depth ≤ more) :
    Below (run depth) (run more) := by
  induction enough with
  | refl => exact .refl _
  | step _ ih => exact ih.trans (rises _)

theorem Rises.constant (run : Eval α) : Rises fun _ => run :=
  fun _ => .refl run

theorem Rises.bind (first : Rises run) (rest : ∀ value, Rises fun depth => next depth value) :
    Rises fun depth => run depth >>= next depth :=
  fun depth => (first depth).bind fun value => rest value depth

theorem ComesTo.with_more {result : EStateM.Result Interrupt Store α} (rises : Rises run)
    (comes : ComesTo run before result) :
    ∃ least, ∀ depth, least ≤ depth → run depth before = result := by
  obtain ⟨final, least, rfl⟩ := comes
  exact ⟨least, fun depth enough => rises.below enough before final⟩

/-- One depth more or less makes no difference. -/
theorem comesTo_succ (rises : Rises run) {result : EStateM.Result Interrupt Store α} :
    ComesTo (fun depth => run (depth + 1)) before result ↔ ComesTo run before result := by
  refine ⟨fun ⟨final, depth, ends⟩ => ⟨final, depth + 1, ends⟩, fun comes => ?_⟩
  obtain ⟨least, ends⟩ := comes.with_more rises
  exact ⟨comes.1, least, ends (least + 1) (Nat.le_succ least)⟩

/-- How runs one after the other end: as the second does after a value of the first, or with a
fault of the first. -/
inductive Follows (first : EStateM.Result Interrupt Store α → Prop)
    (rest : α → Store → EStateM.Result Interrupt Store β → Prop) :
    EStateM.Result Interrupt Store β → Prop
  | value {value : α} {between : Store} {result : EStateM.Result Interrupt Store β}
      (comes : first (.ok value between)) (goesOn : rest value between result) :
      Follows first rest result
  | fault {fault : Fault} {after : Store} (comes : first (.error (.fault fault) after)) :
      Follows first rest (.error (.fault fault) after)

theorem Follows.congr {first : EStateM.Result Interrupt Store α → Prop}
    {rest rest' : α → Store → EStateM.Result Interrupt Store β → Prop}
    {result : EStateM.Result Interrupt Store β}
    (same : ∀ value between, first (.ok value between) →
      (rest value between result ↔ rest' value between result)) :
    Follows first rest result ↔ Follows first rest' result := by
  constructor
  · rintro (⟨comes, goesOn⟩ | comes)
    · exact .value comes ((same _ _ comes).mp goesOn)
    · exact .fault comes
  · rintro (⟨comes, goesOn⟩ | comes)
    · exact .value comes ((same _ _ comes).mpr goesOn)
    · exact .fault comes

/-- After a beginning that can come to one value only, all depends on the rest. -/
theorem follows_of_value {first : EStateM.Result Interrupt Store α → Prop}
    {rest : α → Store → EStateM.Result Interrupt Store β → Prop}
    {result : EStateM.Result Interrupt Store β} {value : α} {between : Store}
    (only : ∀ result, first result ↔ result = .ok value between) :
    Follows first rest result ↔ rest value between result := by
  constructor
  · rintro (⟨comes, goesOn⟩ | comes)
    · cases (only _).mp comes
      exact goesOn
    · cases (only _).mp comes
  · exact .value ((only _).mpr rfl)

/-- A beginning that has a beginning of its own. -/
theorem follows_follows {begins : EStateM.Result Interrupt Store β → Prop}
    {first : EStateM.Result Interrupt Store α → Prop}
    {next : α → Store → EStateM.Result Interrupt Store β → Prop}
    {rest : β → Store → EStateM.Result Interrupt Store γ → Prop}
    {result : EStateM.Result Interrupt Store γ}
    (parts : ∀ result, begins result ↔ Follows first next result) :
    Follows begins rest result ↔
      Follows first (fun value between => Follows (next value between) rest) result := by
  obtain rfl : begins = Follows first next := funext fun result => propext (parts result)
  constructor
  · rintro (⟨⟨comes, more⟩, goesOn⟩ | (⟨comes, more⟩ | comes))
    · exact .value comes (.value more goesOn)
    · exact .value comes (.fault more)
    · exact .fault comes
  · rintro (⟨comes, (⟨more, goesOn⟩ | more)⟩ | comes)
    · exact .value (.value comes more) goesOn
    · exact .fault (.value comes more)
    · exact .fault (.fault comes)

theorem comesTo_congr (same : ∀ depth, run depth before = run' depth before)
    {result : EStateM.Result Interrupt Store α} :
    ComesTo run before result ↔ ComesTo run' before result := by
  unfold ComesTo
  simp only [same]

/-- A run that needs one depth more than another to do the same comes to the same. -/
theorem comesTo_of_steps (rises : Rises run)
    (stepped : ∀ depth, run (depth + 1) before = run' depth before)
    {result : EStateM.Result Interrupt Store α} :
    ComesTo run before result ↔ ComesTo run' before result :=
  (comesTo_succ rises).symm.trans (comesTo_congr stepped)

/-- A run that comes to one and the same value with any depth at all comes to nothing else. -/
theorem comesTo_value (rises : Rises run) {value : α} {after : Store}
    (stepped : ∀ depth, run (depth + 1) before = .ok value after)
    {result : EStateM.Result Interrupt Store α} :
    ComesTo run before result ↔ result = .ok value after := by
  rw [← comesTo_succ rises]
  constructor
  · rintro ⟨_, depth, rfl⟩
    exact stepped depth
  · rintro rfl
    exact ⟨trivial, 0, stepped 0⟩

theorem comesTo_bind (first : Rises run) (rest : ∀ value, Rises fun depth => next depth value)
    {result : EStateM.Result Interrupt Store β} :
    ComesTo (fun depth => run depth >>= next depth) before result ↔
      Follows (ComesTo run before)
        (fun value between => ComesTo (fun depth => next depth value) between) result := by
  constructor
  · rintro ⟨final, depth, ends⟩
    simp only [bind_apply] at ends
    cases outcome : run depth before with
    | ok value between =>
        rw [outcome] at ends
        exact .value ⟨trivial, depth, outcome⟩ ⟨final, depth, ends⟩
    | error interrupt between =>
        rw [outcome] at ends
        subst ends
        cases interrupt with
        | fault fault => exact .fault ⟨final, depth, outcome⟩
        | depth | patience => contradiction
  · rintro (⟨comes, goesOn⟩ | comes)
    · obtain ⟨least, ended⟩ := comes.with_more first
      obtain ⟨least', went⟩ := goesOn.with_more (rest _)
      refine ⟨goesOn.1, max least least', ?_⟩
      exact (bind_ok (ended _ (Nat.le_max_left ..)) _).trans (went _ (Nat.le_max_right ..))
    · obtain ⟨final, depth, ended⟩ := comes
      refine ⟨final, depth, ?_⟩
      simp only [bind_apply, ended]

end Eval

namespace Engine

/-- An engine whose answers are all values, found by direct evaluation. -/
def direct (depth : Nat) : Engine :=
  ⟨0, fun _ node frame => .value <$> evaluateDirectly depth node frame⟩

theorem operand_direct (depth : Nat) (node : Object) (frame : FrameId) :
    (direct depth).operand node frame = evaluateDirectly depth node frame :=
  Answer.value_map_bind _ ((direct depth).settleWithin_value _)

theorem complete_direct (depth : Nat) (node : Object) (frame : FrameId) :
    (direct depth).complete node frame = evaluateDirectly depth node frame :=
  operand_direct depth node frame

end Engine

namespace Bridge

theorem exact : Bridge (fun first second => first = second)
    fun first second => Answer.value <$> first = second where
  refl _ := rfl
  bind same continues := by rw [same, funext continues]
  answer same := by rw [same]
  continues same continues := by rw [same, map_bind, funext continues]

theorem below : Bridge Below fun first second => Below (Answer.value <$> first) second where
  refl := .refl
  bind := .bind
  answer below := below.map _
  continues below continues := by
    rw [map_bind]
    exact below.bind continues

end Bridge

theorem Bridged.direct (depth : Nat) :
    Bridged (fun first second => first = second)
      (fun first second => Answer.value <$> first = second)
      (evaluateDirectly depth) (.direct depth) .operand where
  operand node frame := (Engine.operand_direct depth node frame).symm
  answer _ _ := rfl
  body node frame := by
    rw [Engine.answerBody, Engine.complete_direct]

namespace Engine

theorem step_direct (depth : Nat) (node : Object) (frame : FrameId) :
    (direct depth).step .operand node frame =
      .value <$> evaluateDirectly (depth + 1) node frame :=
  (Bridge.exact.step (.direct depth) node frame).symm

theorem operands_direct (depth : Nat) (frame : FrameId) (nodes : List Object) :
    (direct depth).operands frame nodes = Direct.operands (evaluateDirectly depth) frame nodes :=
  (Bridge.exact.operands (.direct depth) frame nodes).symm

theorem apply_direct (depth : Nat) (callee : Object) (operands : List Object) :
    (direct depth).apply .operand callee operands =
      .value <$> Direct.call (evaluateDirectly depth) callee operands :=
  (Bridge.exact.call (.direct depth) callee operands).symm

end Engine

theorem below_of_values {first second : Eval Object}
    (below : Below (Answer.value <$> first) (Answer.value <$> second)) : Below first second := by
  have settles := (Engine.direct 0).settleWithin_value 0
  have settled := below.bind fun answer => .refl ((Engine.direct 0).settleWithin 0 answer)
  rwa [Answer.value_map_bind _ settles, Answer.value_map_bind _ settles] at settled

namespace Direct

open Eval (ComesTo Follows Rises comesTo_bind comesTo_of_steps comesTo_succ)

variable {frame : FrameId}

theorem bridged_deeper {depth : Nat}
    (deeper : ∀ node frame,
      Below (evaluateDirectly depth node frame) (evaluateDirectly (depth + 1) node frame)) :
    Bridged Below (fun first second => Below (Answer.value <$> first) second)
      (evaluateDirectly depth) (.direct (depth + 1)) .operand where
  operand node frame := by
    rw [Engine.operand_direct]
    exact deeper node frame
  answer node frame := (deeper node frame).map _
  body node frame := by
    rw [Engine.answerBody, Engine.complete_direct]
    exact (deeper node frame).map _

theorem evaluate_rises (node : Object) (frame : FrameId) :
    Rises fun depth => evaluateDirectly depth node frame := by
  intro depth
  induction depth generalizing node frame with
  | zero => exact .of_cut rfl _
  | succ depth ih =>
      have stepped := Bridge.below.step (bridged_deeper ih) node frame
      rw [Engine.step_direct] at stepped
      exact below_of_values stepped

theorem operands_rises (frame : FrameId) (nodes : List Object) :
    Rises fun depth => operands (evaluateDirectly depth) frame nodes := by
  intro depth
  have nested := bridged_deeper fun node frame => evaluate_rises node frame depth
  have deeper := Bridge.below.operands nested frame nodes
  rwa [Engine.operands_direct] at deeper

theorem call_rises (callee : Object) (operands : List Object) :
    Rises fun depth => call (evaluateDirectly depth) callee operands := by
  intro depth
  have nested := bridged_deeper fun node frame => evaluate_rises node frame depth
  have deeper := Bridge.below.call nested callee operands
  rw [Engine.apply_direct] at deeper
  exact below_of_values deeper

theorem sequence_rises (value : Object) (nodes : List Object) :
    Rises fun depth => sequence (evaluateDirectly depth) frame value nodes := by
  induction nodes generalizing value with
  | nil => exact .constant _
  | cons node nodes ih => exact (evaluate_rises node frame).bind ih

/-- What a node comes to, whatever depth it takes. -/
abbrev Evaluates (node : Object) (frame : FrameId) :
    Store → EStateM.Result Interrupt Store Object → Prop :=
  ComesTo fun depth => evaluateDirectly depth node frame

abbrev EvaluatesAll (nodes : List Object) (frame : FrameId) :
    Store → EStateM.Result Interrupt Store (List Object) → Prop :=
  ComesTo fun depth => operands (evaluateDirectly depth) frame nodes

abbrev Calls (callee : Object) (values : List Object) :
    Store → EStateM.Result Interrupt Store Object → Prop :=
  ComesTo fun depth => call (evaluateDirectly depth) callee values

variable {before : Store} {result : EStateM.Result Interrupt Store Object}

/-- The body of a function comes to what its nodes come to one after the other. -/
theorem comesTo_bodyNode {nodes : List Object} :
    Evaluates (bodyNode nodes) frame before result ↔
      ComesTo (fun depth => sequence (evaluateDirectly depth) frame .nil nodes) before result := by
  rcases nodes with _ | ⟨node, _ | ⟨next, rest⟩⟩
  · exact (comesTo_succ (evaluate_rises _ frame)).symm
  · simp only [sequence, bind_pure, bodyNode]
  · exact (comesTo_succ (evaluate_rises _ frame)).symm

/-- An application comes to what the call comes to, after the function and the operands. -/
theorem comesTo_application {head : Object} (asked : SpecialForm.ofHead? head = none)
    {nodes : List Object} :
    Evaluates (.formOf (head :: nodes)) frame before result ↔
      Follows (Evaluates head frame before)
        (fun callee between => Follows (EvaluatesAll nodes frame between) (Calls callee))
        result := by
  have stepped : ∀ depth, evaluateDirectly (depth + 1) (.formOf (head :: nodes)) frame = (do
      let callee ← evaluateDirectly depth head frame
      let values ← operands (evaluateDirectly depth) frame nodes
      call (evaluateDirectly depth) callee values) := by
    intro depth
    change form (evaluateDirectly depth) frame (head :: nodes) = _
    simp only [form, asked]
  refine (comesTo_of_steps (evaluate_rises _ frame) fun depth => by rw [stepped]).trans ?_
  refine (comesTo_bind (evaluate_rises head frame) fun callee =>
    (operands_rises frame nodes).bind fun values => call_rises callee values).trans ?_
  refine Follows.congr fun callee between _ => ?_
  exact comesTo_bind (operands_rises frame nodes) fun values => call_rises callee values

end Direct

theorem Coupling.Lawful.direct {K : Coupling} (lawful : K.Lawful)
    (floor : ∀ stage, K.Interrupts stage .depth .depth) (depth : Nat) :
    K.Aligned (.direct depth) (.direct depth) := by
  refine ⟨?_, .inl rfl⟩
  induction depth with
  | zero => exact fun _ _ => lawful.map (lawful.interrupts (floor _)) Coupling.Answer.value
  | succ depth ih =>
      intro stage node frame frame' position task
      have stepped : K.Coupled stage K.Answer ((Engine.direct depth).step .operand node frame)
          ((Engine.direct depth).step .operand node frame') := lawful.step ⟨ih, .inl rfl⟩ task
      rwa [Engine.step_direct, Engine.step_direct] at stepped

theorem Coupling.Lawful.call_direct {K : Coupling} (lawful : K.Lawful)
    (floor : ∀ stage, K.Interrupts stage .depth .depth) {stage : K.Stage} {callee callee' : Object}
    {operands operands' : List Object} (value : K.Value stage callee callee')
    (known : K.Values stage operands operands') (depth : Nat) :
    K.Coupled stage K.Value (Direct.call (evaluateDirectly depth) callee operands)
      (Direct.call (evaluateDirectly depth) callee' operands') := by
  have aligned := lawful.direct floor depth
  have applied : K.Coupled stage K.Answer ((Engine.direct depth).apply .operand callee operands)
      ((Engine.direct depth).apply .operand callee' operands') := lawful.apply aligned value known
  have settled := lawful.bind applied fun _ answer =>
    lawful.settleWithin aligned aligned.patience answer
  have settles := (Engine.direct depth).settleWithin_value 0
  rw [Engine.apply_direct, Engine.apply_direct] at settled
  change K.Coupled stage K.Value (_ >>= (Engine.direct depth).settleWithin 0)
    (_ >>= (Engine.direct depth).settleWithin 0) at settled
  rwa [Answer.value_map_bind _ settles, Answer.value_map_bind _ settles] at settled

theorem Discipline.Lawful.direct {D : Discipline} (lawful : D.Lawful) (depth : Nat) :
    D.Safe (.direct depth) := by
  induction depth with
  | zero => exact fun _ _ _ => lawful.map (lawful.cutShort rfl) id
  | succ depth ih =>
      intro store node frame position known scope
      have stepped : D.Keeps store D.Answer ((Engine.direct depth).step .operand node frame) :=
        lawful.step ih known scope
      rwa [Engine.step_direct] at stepped

namespace Discipline

variable {D : Discipline} {before between : Store} {frame : FrameId}

/-- The value that a run comes to is as wanted, if the run keeps to it at all depths. -/
theorem Keeps.comesTo {α : Type} {run : Nat → Eval α} {wanted : Store → α → Prop} {value : α}
    (keeps : ∀ depth, D.Keeps before wanted (run depth)) (good : D.Good before)
    (comes : Eval.ComesTo run before (.ok value between)) :
    D.Good between ∧ D.Grows before between ∧ wanted between value := by
  obtain ⟨_, depth, ends⟩ := comes
  exact (keeps depth).ok good ends

namespace Lawful

theorem evaluates (lawful : D.Lawful) {node value : Object} (good : D.Good before)
    (known : D.Node before node) (scope : D.Scope before frame)
    (comes : Direct.Evaluates node frame before (.ok value between)) :
    D.Good between ∧ D.Grows before between ∧ D.Value between value := by
  refine Keeps.comesTo (fun depth => ?_) good comes
  rw [← Engine.operand_direct]
  exact lawful.operand (lawful.direct depth) known scope

theorem evaluatesAll (lawful : D.Lawful) {nodes values : List Object} (good : D.Good before)
    (known : D.Nodes before nodes) (scope : D.Scope before frame)
    (comes : Direct.EvaluatesAll nodes frame before (.ok values between)) :
    D.Good between ∧ D.Grows before between ∧
      D.Values between values ∧ values.length = nodes.length := by
  have keeps : ∀ depth, D.Keeps before
      (fun after values => D.Values after values ∧ values.length = nodes.length)
      (Direct.operands (evaluateDirectly depth) frame nodes) := by
    intro depth
    rw [← Engine.operands_direct]
    exact lawful.operands (lawful.direct depth) known scope
  exact Keeps.comesTo keeps good comes

end Lawful

end Discipline

end LispCore
