import LispCore.Proofs.Chains
import LispCore.Proofs.Forms
import LispCore.Proofs.References
import LispCore.Proofs.Telling

namespace LispCore

namespace Object

/-- A node itself, and whatever stands in forms inside it, at any depth. -/
inductive Part : Object → Object → Prop
  | self (node : Object) : Part node node
  | element {part element : Object} {label : Option Label} {shape : FormShape}
      {elements : List Object} (member : element ∈ elements) (inside : Part part element) :
      Part part (.form label shape elements)

/-- What the evaluator has against a single node, its elements apart. -/
def nodeFault? : Object → Option Malformation
  | .literal _ value => if value.isValue then none else some .literalNotValue
  | .reference _ name => if name.isSymbol then none else some .referenceNotSymbol
  | .form .. => none
  | _ => some .unrecognised

def isMisnamed : Object → Bool
  | .reference _ name => !name.isSymbol
  | _ => false

/-- Would the evaluator refuse the node for more than a name? -/
def isUnquotable (node : Object) : Bool :=
  node.nodeFault?.isSome && !node.isMisnamed

mutual

/-- The parts of a node that are no forms, from left to right. -/
def parts : Object → List Object
  | .form _ _ elements => partsAll elements
  | node => [node]

def partsAll : List Object → List Object
  | [] => []
  | node :: nodes => parts node ++ partsAll nodes

end

def firstUnquotable? (node : Object) : Option Object :=
  node.parts.find? isUnquotable

def quoteOf (node : Object) : Object :=
  formOf [refer "quote", node]

theorem part_form_iff {part : Object} {label : Option Label} {shape : FormShape}
    {elements : List Object} :
    Part part (.form label shape elements) ↔
      part = .form label shape elements ∨ ∃ element ∈ elements, Part part element := by
  constructor
  · intro inside
    cases inside with
    | self => exact .inl rfl
    | element member inside => exact .inr ⟨_, member, inside⟩
  · rintro (rfl | ⟨element, member, inside⟩)
    · exact .self _
    · exact .element member inside

mutual

theorem mem_parts_iff {part : Object} : ∀ {node : Object},
    part ∈ node.parts ↔ Part part node ∧ part.formElements? = none
  | .form label shape elements => by
      rw [parts, mem_partsAll_iff, part_form_iff]
      constructor
      · rintro ⟨element, member, inside, plain⟩
        exact ⟨.inr ⟨element, member, inside⟩, plain⟩
      · rintro ⟨rfl | ⟨element, member, inside⟩, plain⟩
        · contradiction
        · exact ⟨element, member, inside, plain⟩
  | .nil | .boolean _ | .integer _ | .float _ | .symbol _ | .string _ | .pair _ | .closure _
  | .primitive _ | .alien _ | .sequence _ _ _ | .literal _ _ | .reference _ _ => by
      simp only [parts, List.mem_singleton]
      constructor
      · rintro rfl
        exact ⟨.self _, rfl⟩
      · rintro ⟨⟨⟩, -⟩
        rfl

theorem mem_partsAll_iff {part : Object} : ∀ {nodes : List Object},
    part ∈ partsAll nodes ↔ ∃ node ∈ nodes, Part part node ∧ part.formElements? = none
  | [] => by simp [partsAll]
  | node :: nodes => by
      rw [partsAll, List.mem_append, mem_parts_iff, mem_partsAll_iff]
      simp

end

theorem isSome_nodeFault?_iff {node : Object} :
    node.nodeFault?.isSome ↔ node.isUnquotable ∨ node.isMisnamed := by
  cases node with
  | reference label name =>
      by_cases proper : name.isSymbol <;> simp [nodeFault?, isUnquotable, isMisnamed, proper]
  | _ => simp [isUnquotable, isMisnamed]

end Object

/-- Is the result the refusal of a node? -/
def Refuses (result : EStateM.Result Interrupt Store Object) : Prop :=
  ∃ node reason after, result = .error (.fault (.malformed node reason)) after

/-- Nothing but values has come into new pairs between two stores. -/
structure Store.AddsValues (before after : Store) : Prop where
  size_le : before.cells.size ≤ after.cells.size
  cell : ∀ id, before.cells.size ≤ id → id < after.cells.size →
    (after.cell id).head.isValue ∧ (after.cell id).tail.isValue

namespace Store.AddsValues

variable {before between after : Store}

theorem refl (store : Store) : AddsValues store store :=
  ⟨Nat.le_refl _, fun _ new old => absurd old (Nat.not_lt.mpr new)⟩

theorem cons (added : AddsValues before between) {head tail : Object} (first : head.isValue)
    (last : tail.isValue) : AddsValues before (between.cons head tail).2 := by
  have size : (between.cons head tail).2.cells.size = between.cells.size + 1 := by
    simp [Store.cons]
  have size_le := added.size_le
  refine ⟨by omega, fun id new inside => ?_⟩
  by_cases old : id < between.cells.size
  · rw [between.cell_cons_of_lt head tail old]
    exact added.cell id new old
  · obtain rfl : id = (between.cons head tail).1 := by
      simp only [Store.cons] at size inside ⊢
      omega
    rw [between.cell_cons_self]
    exact ⟨first, last⟩

theorem ofItems {items : List Object} (added : AddsValues before between)
    (values : ∀ item ∈ items, item.isValue) :
    AddsValues before (between.ofItems items .nil).2 ∧
      (between.ofItems items .nil).1.isValue := by
  refine ofItems_induction (motive := fun value after => AddsValues before after ∧ value.isValue)
    ⟨added, rfl⟩ ?_
  rintro item member rest after ⟨more, chain⟩
  exact ⟨more.cons (values item member) chain, rfl⟩

end Store.AddsValues

/-- Is the result a value, with nothing but values in the pairs that are new? -/
def Yields (before : Store) (result : EStateM.Result Interrupt Store Object) : Prop :=
  ∃ value after, result = .ok value after ∧ value.isValue ∧ before.AddsValues after

/-- How quoting ends, told from the parts it goes through: it refuses the first that it
cannot take, or it comes to something, which consists of values if no part is misnamed. -/
inductive QuoteEnds {α : Type} (parts : List Object) (IsValue : α → Prop) (before : Store) :
    EStateM.Result Interrupt Store α → Prop
  | datum {datum : α} {after : Store} (none : parts.find? Object.isUnquotable = none)
      (named : (∀ part ∈ parts, ¬ part.isMisnamed) → ∀ origin : Store,
        origin.AddsValues before → origin.AddsValues after ∧ IsValue datum) :
      QuoteEnds parts IsValue before (.ok datum after)
  | refused {part : Object} {reason : Malformation} {after : Store}
      (first : parts.find? Object.isUnquotable = some part) :
      QuoteEnds parts IsValue before (.error (.fault (.malformed part reason)) after)

namespace Object

theorem quoted_plain_ends {node : Object} (alone : node.parts = [node])
    (unquotable : node.isUnquotable) (refused : node.quoted = malformed node .unrecognised)
    (before : Store) :
    QuoteEnds node.parts (fun value => value.isValue = true) before (node.quoted before) := by
  rw [refused, alone]
  exact .refused (by simp [unquotable])

mutual

theorem quoted_ends : ∀ (node : Object) (before : Store),
    QuoteEnds node.parts (fun value => value.isValue = true) before (node.quoted before)
  | .literal label value, before => by
      by_cases proper : value.isValue
      · simp only [quoted, if_pos proper, parts]
        exact .datum (by simp [isUnquotable, nodeFault?, proper])
          fun _ origin added => ⟨added, proper⟩
      · simp only [quoted, if_neg proper, parts]
        exact .refused (by simp [isUnquotable, nodeFault?, isMisnamed, proper])
  | .reference label name, before => by
      simp only [quoted, parts]
      refine .datum ?_ fun named origin added => ⟨added, ?_⟩
      · by_cases proper : name.isSymbol <;> simp [isUnquotable, nodeFault?, isMisnamed, proper]
      · have proper : name.isSymbol := by simpa [isMisnamed] using named
        cases name with
        | symbol name => rfl
        | _ => contradiction
  | .form label shape elements, before => by
      have ends := quotedAll_ends elements before
      simp only [quoted, Eval.bind_apply, parts]
      generalize quotedAll elements before = result at ends ⊢
      cases ends with
      | refused first => exact .refused first
      | @datum items after none named =>
          refine .datum none fun allNamed origin added => ?_
          have more := named allNamed origin added
          exact more.1.ofItems more.2
  | .nil, before | .boolean _, before | .integer _, before | .float _, before
  | .symbol _, before | .string _, before | .pair _, before | .closure _, before
  | .primitive _, before | .alien _, before | .sequence _ _ _, before =>
      quoted_plain_ends (by simp only [parts]) rfl (by simp only [quoted]) before

theorem quotedAll_ends : ∀ (nodes : List Object) (before : Store),
    QuoteEnds (partsAll nodes) (fun items => ∀ item ∈ items, item.isValue = true) before
      (quotedAll nodes before)
  | [], before => by
      simp only [quotedAll, partsAll]
      exact .datum rfl fun _ origin added => ⟨added, by simp⟩
  | node :: nodes, before => by
      have first := quoted_ends node before
      simp only [quotedAll, partsAll, Eval.bind_apply]
      generalize node.quoted before = result at first ⊢
      cases first with
      | refused found => exact .refused (by rw [List.find?_append, found]; rfl)
      | @datum item between none named =>
          have rest := quotedAll_ends nodes between
          simp only
          generalize quotedAll nodes between = result at rest ⊢
          cases rest with
          | refused found => exact .refused (by rw [List.find?_append, none, found]; rfl)
          | @datum items after noneRest namedRest =>
              refine .datum (by rw [List.find?_append, none, noneRest]; rfl)
                fun allNamed origin added => ?_
              have one := named (fun part member => allNamed part (by simp [member])) origin added
              have all := namedRest (fun part member => allNamed part (by simp [member])) origin one.1
              exact ⟨all.1, List.forall_mem_cons.mpr ⟨one.2, all.2⟩⟩

end

theorem formElements?_of_isUnquotable {part : Object} (unquotable : part.isUnquotable) :
    part.formElements? = none := by
  cases part <;> first | rfl | simp [isUnquotable, nodeFault?] at unquotable

theorem firstUnquotable?_eq_none_iff {node : Object} :
    node.firstUnquotable? = none ↔ ∀ part, Part part node → ¬ part.isUnquotable := by
  rw [firstUnquotable?, List.find?_eq_none]
  constructor
  · intro none part inside unquotable
    have plain := formElements?_of_isUnquotable unquotable
    exact none part (mem_parts_iff.mpr ⟨inside, plain⟩) unquotable
  · exact fun proper part member => proper part (mem_parts_iff.mp member).1

theorem part_of_firstUnquotable? {node part : Object}
    (first : node.firstUnquotable? = some part) : Part part node ∧ part.isUnquotable :=
  ⟨(mem_parts_iff.mp (List.mem_of_find?_eq_some first)).1, List.find?_some first⟩

end Object

/-- A node that leaves nothing pending is evaluated by its one step. -/
theorem evaluate_of_step (limit patience : Nat) {node : Object} {frame : FrameId}
    {run : Eval Object}
    (steps : ∀ engine : Engine, engine.step .tail node frame = .value <$> run) :
    evaluate ⟨limit + 1, patience⟩ node frame = Budget.guard ⟨limit + 1, patience⟩ run := by
  have answered : (Budget.engine ⟨limit + 1, patience⟩).answer .tail node frame =
      .value <$> run := steps _
  have completed : (Budget.engine ⟨limit + 1, patience⟩).complete node frame = run := by
    simp only [Engine.complete, answered, bind_map_left, Engine.settle,
      Engine.settleWithin_value, bind_pure]
  rw [evaluate, completed]

theorem evaluate_quoteOf (limit patience : Nat) (node : Object) (frame : FrameId)
    (before : Store) :
    evaluate ⟨limit + 1, patience⟩ (.quoteOf node) frame before = node.quoted before := by
  have ends := node.quoted_ends before
  rw [evaluate_of_step limit patience fun _ => rfl, Budget.guard]
  generalize node.quoted before = result at ends ⊢
  cases ends <;> rfl

theorem evaluate_of_nodeFault? (limit patience : Nat) {node : Object} {reason : Malformation}
    (faulty : node.nodeFault? = some reason) (frame : FrameId) (before : Store) :
    evaluate ⟨limit + 1, patience⟩ node frame before =
      .error (.fault (.malformed node reason)) before := by
  cases node with
  | literal label value =>
      obtain ⟨improper, rfl⟩ : ¬ value.isValue ∧ Malformation.literalNotValue = reason := by
        simpa [Object.nodeFault?] using faulty
      have steps : ∀ engine : Engine, engine.step .tail (.literal label value) frame =
          .value <$> malformed (.literal label value) .literalNotValue := fun engine => by
        simp only [Engine.step, if_neg improper]
        rfl
      rw [evaluate_of_step limit patience steps]
      rfl
  | reference label name =>
      cases name <;> cases faulty <;> rfl
  | form => contradiction
  | _ =>
      cases faulty
      rfl

theorem evaluate_of_sound (limit patience : Nat) {node : Object} (frame : FrameId)
    (before : Store) (plain : node.formElements? = none) (sound : node.nodeFault? = none) :
    (∃ value, evaluate ⟨limit + 1, patience⟩ node frame before = .ok value before) ∨
      ∃ name, evaluate ⟨limit + 1, patience⟩ node frame before =
        .error (.fault (.unbound (.symbol name))) before := by
  cases node with
  | literal label value =>
      have proper : value.isValue := by simpa [Object.nodeFault?] using sound
      have steps : ∀ engine : Engine, engine.step .tail (.literal label value) frame =
          .value <$> pure value := fun engine => by
        simp only [Engine.step, if_pos proper, map_pure]
      rw [evaluate_of_step limit patience steps]
      exact .inl ⟨value, rfl⟩
  | reference label name =>
      cases name with
      | symbol name =>
          rw [evaluate_of_step limit patience fun _ => rfl, Budget.guard, Environment.lookup_apply]
          cases before.lookup? frame name with
          | some value => exact .inl ⟨value, rfl⟩
          | none => exact .inr ⟨name, rfl⟩
      | _ => contradiction
  | form => contradiction
  | _ => contradiction

theorem refuses_told_iff {run : Eval Object} {node : Object} {reason : Malformation}
    {before after : Store} (ended : run before = .error (.fault (.malformed node reason)) after) :
    Refuses (run.told before) ↔ after.writable node := by
  rw [Eval.told_of_fault ended, Fault.told_of_shows rfl]
  by_cases writable : after.writable node
  · rw [if_pos writable]
    exact iff_of_true ⟨node, reason, after, rfl⟩ writable
  · rw [if_neg writable]
    exact iff_of_false (by simp [Refuses]) writable

/-- The evaluator refuses a node that is no form for its own fault only, if it can be written. -/
theorem evaluate_refuses_iff (limit patience : Nat) {node : Object} (frame : FrameId)
    (before : Store) (plain : node.formElements? = none) :
    Refuses ((evaluate ⟨limit + 1, patience⟩ node frame).told before) ↔
      node.nodeFault?.isSome ∧ before.writable node := by
  cases faulty : node.nodeFault? with
  | some reason =>
      rw [refuses_told_iff (evaluate_of_nodeFault? limit patience faulty frame before)]
      simp
  | none =>
      refine iff_of_false ?_ (by simp)
      rcases evaluate_of_sound limit patience frame before plain faulty with
        ⟨value, ended⟩ | ⟨name, ended⟩
      · simp [Eval.told_of_ok ended, Refuses]
      · have writable : before.writable (.symbol name) := by
          rw [Store.writable_of_bare rfl rfl]
          rfl
        rw [Eval.told_of_fault ended, Fault.told_of_shows rfl, if_pos writable]
        simp [Refuses]

theorem quoted_refuses_iff (node : Object) (before : Store) :
    Refuses (node.quoted before) ↔ ∃ part, Object.Part part node ∧ part.isUnquotable := by
  have ends := node.quoted_ends before
  generalize node.quoted before = result at ends ⊢
  cases ends with
  | datum none named =>
      have proper := Object.firstUnquotable?_eq_none_iff.mp none
      simp only [Refuses, reduceCtorEq, exists_false, false_iff, not_exists, not_and]
      exact proper
  | refused first =>
      exact iff_of_true ⟨_, _, _, rfl⟩ ⟨_, Object.part_of_firstUnquotable? first⟩

theorem quoted_yields {node : Object}
    (sound : ∀ part, Object.Part part node → part.nodeFault? = none) (before : Store) :
    Yields before (node.quoted before) := by
  have faultless : ∀ part, Object.Part part node → ¬ (part.isUnquotable ∨ part.isMisnamed) := by
    intro part inside
    rw [← Object.isSome_nodeFault?_iff, sound part inside]
    simp
  have ends := node.quoted_ends before
  generalize node.quoted before = result at ends ⊢
  cases ends with
  | @datum value after none values =>
      have named : ∀ part ∈ node.parts, ¬ part.isMisnamed := fun part member misnamed =>
        faultless part (Object.mem_parts_iff.mp member).1 (.inr misnamed)
      have added := values named before (.refl before)
      exact ⟨value, after, rfl, added.2, added.1⟩
  | refused first =>
      obtain ⟨inside, unquotable⟩ := Object.part_of_firstUnquotable? first
      exact absurd (.inl unquotable) (faultless _ inside)

/-- How the host sees the quoting of a node end: the first part that cannot be taken is refused,
if it can be written, and there is a datum if there is no such part. -/
structure QuoteChecks (budget : Budget) (node : Object) (frame : FrameId) (before : Store) :
    Prop where
  finds : node.firstUnquotable?.isSome ↔ ∃ part, Object.Part part node ∧ part.isUnquotable
  accepts : node.firstUnquotable? = none →
    ∃ datum after, (evaluate budget (.quoteOf node) frame).told before = .ok datum after
  refuses : ∀ part, node.firstUnquotable? = some part → ∃ reason after,
    (evaluate budget (.quoteOf node) frame).told before =
      .error (.fault (if after.writable part then .malformed part reason else .host .tooLong)) after

theorem quoteChecks (limit patience : Nat) (node : Object) (frame : FrameId) (before : Store) :
    QuoteChecks ⟨limit + 1, patience⟩ node frame before := by
  have ends := node.quoted_ends before
  have quotes := evaluate_quoteOf limit patience node frame before
  constructor
  case finds =>
    rw [← not_iff_not, Bool.not_eq_true, Option.isSome_eq_false_iff, Option.isNone_iff_eq_none,
      Object.firstUnquotable?_eq_none_iff]
    simp
  case accepts =>
    intro none
    generalize node.quoted before = result at ends quotes
    cases ends with
    | datum => exact ⟨_, _, Eval.told_of_ok quotes⟩
    | refused first => cases none.symm.trans first
  case refuses =>
    intro part first
    generalize node.quoted before = result at ends quotes
    cases ends with
    | datum none => cases none.symm.trans first
    | @refused other reason after found =>
        cases first.symm.trans found
        refine ⟨reason, after, ?_⟩
        rw [Eval.told_of_fault quotes, Fault.told_of_shows rfl]

/-- Does quoting refuse the node exactly if the evaluator would refuse some part of it, and
yield a value otherwise? -/
def QuoteValidates (budget : Budget) (node : Object) (frame : FrameId) (before : Store) : Prop :=
  (Refuses ((evaluate budget (.quoteOf node) frame).told before) ↔
    ∃ part, Object.Part part node ∧ part.nodeFault?.isSome) ∧
  ((∀ part, Object.Part part node → part.nodeFault? = none) →
    Yields before ((evaluate budget (.quoteOf node) frame).told before))

theorem quoteValidates_of_accepted {limit patience : Nat} {node : Object} {frame : FrameId}
    {before : Store} (none : node.firstUnquotable? = none) :
    QuoteValidates ⟨limit + 1, patience⟩ node frame before ↔
      ∀ part, Object.Part part node → ¬ part.isMisnamed := by
  have proper := Object.firstUnquotable?_eq_none_iff.mp none
  obtain ⟨datum, after, told⟩ := (quoteChecks limit patience node frame before).accepts none
  have accepted : ¬ Refuses ((evaluate ⟨limit + 1, patience⟩ (.quoteOf node) frame).told before) := by
    simp [told, Refuses]
  constructor
  · rintro ⟨agrees, -⟩ part inside misnamed
    have faulty : part.nodeFault?.isSome := Object.isSome_nodeFault?_iff.mpr (.inr misnamed)
    exact accepted (agrees.mpr ⟨part, inside, faulty⟩)
  · intro named
    refine ⟨iff_of_false accepted ?_, fun sound => ?_⟩
    · rintro ⟨part, inside, faulty⟩
      exact (Object.isSome_nodeFault?_iff.mp faulty).elim (proper part inside) (named part inside)
    · obtain ⟨value, after, quoted, yields⟩ := quoted_yields sound before
      have quotes := (evaluate_quoteOf limit patience node frame before).trans quoted
      exact ⟨value, after, Eval.told_of_ok quotes, yields⟩

theorem quoteValidates_of_refused {limit patience : Nat} {node part : Object} {frame : FrameId}
    {before : Store} (first : node.firstUnquotable? = some part) :
    QuoteValidates ⟨limit + 1, patience⟩ node frame before ↔
      ((evaluate ⟨limit + 1, patience⟩ (.quoteOf node) frame).storeAfter before).writable part := by
  obtain ⟨inside, unquotable⟩ := Object.part_of_firstUnquotable? first
  have faulty : part.nodeFault?.isSome := Object.isSome_nodeFault?_iff.mpr (.inl unquotable)
  have ends := node.quoted_ends before
  have quotes := evaluate_quoteOf limit patience node frame before
  generalize node.quoted before = result at ends quotes
  cases ends with
  | datum none => cases none.symm.trans first
  | @refused other reason after found =>
      cases first.symm.trans found
      rw [QuoteValidates, refuses_told_iff quotes, Eval.storeAfter, quotes]
      refine ⟨fun validates => validates.1.mpr ⟨part, inside, faulty⟩, fun writable => ?_⟩
      refine ⟨iff_of_true writable ⟨part, inside, faulty⟩, fun sound => ?_⟩
      rw [sound part inside] at faulty
      contradiction

/-- Quoting refuses a node exactly if some part of it is no node or a literal of what is no
value, and the first such part can be written. It thereby validates the node as the evaluator
does its single nodes, unless a reference to what is no symbol is all that is wrong, or what is
to be refused is too long to be shown. -/
theorem quote_checks_all_but_names (limit patience : Nat) (node : Object) (frame : FrameId)
    (before : Store) :
    (∀ part, part.formElements? = none →
      (Refuses ((evaluate ⟨limit + 1, patience⟩ part frame).told before) ↔
        part.nodeFault?.isSome ∧ before.writable part)) ∧
    QuoteChecks ⟨limit + 1, patience⟩ node frame before ∧
    (QuoteValidates ⟨limit + 1, patience⟩ node frame before ↔
      match node.firstUnquotable? with
      | none => ∀ part, Object.Part part node → ¬ part.isMisnamed
      | some part =>
          ((evaluate ⟨limit + 1, patience⟩ (.quoteOf node) frame).storeAfter before).writable
            part) := by
  refine ⟨fun part plain => evaluate_refuses_iff limit patience frame before plain,
    quoteChecks limit patience node frame before, ?_⟩
  cases first : node.firstUnquotable? with
  | none => exact quoteValidates_of_accepted first
  | some part => exact quoteValidates_of_refused first

/-- A reference to nothing passes for data, and yields what is no value, where the evaluator
refuses it. -/
theorem misnamed_reference_quoted :
    (evaluate ⟨1, 0⟩ (.quoteOf (.reference none (.alien .absent))) 0).told .empty =
      .ok (.alien .absent) .empty ∧
    Object.isValue (.alien .absent) = false ∧
    (evaluate ⟨1, 0⟩ (.reference none (.alien .absent)) 0).told .empty =
      .error (.fault (.malformed (.reference none (.alien .absent)) .referenceNotSymbol)) .empty := by
  refine ⟨rfl, rfl, ?_⟩
  have nothing : Store.empty.writable (.alien .absent) := Store.writable_of_bare rfl rfl
  have writable : Store.empty.writable (.reference none (.alien .absent)) :=
    Store.writable_iff_parts.mpr ⟨rfl, by simpa [Store.shownParts, Object.contents] using nothing⟩
  rw [Eval.told_of_fault (evaluate_of_nodeFault? 0 0 rfl 0 .empty),
    Fault.told_of_writable (by simpa [Fault.shows] using writable)]

end LispCore
