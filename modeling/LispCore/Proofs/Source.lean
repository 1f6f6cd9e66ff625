import LispCore.Interpreter
import LispCore.Proofs.Operation.Faults
import LispCore.Proofs.Operation.Frameless
import LispCore.Proofs.Presence
import LispCore.Proofs.References

namespace LispCore

namespace Object

mutual

/-- What nested data are made of in the end, from left to right. -/
def leaves : Object → List Object
  | .sequence _ _ items => leavesAll items
  | object => [object]

def leavesAll : List Object → List Object
  | [] => []
  | item :: items => leaves item ++ leavesAll items

end

/-- Are there no nodes in nested data? -/
def IsRaw (datum : Object) : Prop :=
  ∀ leaf ∈ datum.leaves, leaf.isNode = false

/-- Values may stand in source, symbols among them, but for pairs. -/
def mayStand : Object → Bool
  | .pair _ => false
  | object => object.isValue

/-- How conversion refuses what may not stand in source, before it is told. -/
def refusal (leaf : Object) : Fault :=
  .malformed leaf (if leaf.isPair then .pairInSource else .notLiteral)

/-- The first piece of nested data that may not stand in source. -/
def firstRefused? (leaves : List Object) : Option Object :=
  leaves.find? fun leaf => !leaf.mayStand

theorem firstRefused?_append (first rest : List Object) :
    firstRefused? (first ++ rest) = (firstRefused? first).or (firstRefused? rest) :=
  List.find?_append

/-- Nodes that the evaluator has nothing against, at any depth. -/
inductive Proper : Object → Prop
  | literal {label : Option Label} {value : Object} (isValue : value.isValue) :
      Proper (.literal label value)
  | reference {label : Option Label} {name : Symbol} : Proper (.reference label (.symbol name))
  | form {label : Option Label} {shape : FormShape} {elements : List Object}
      (sequence : shape ≠ .text) (each : ∀ element ∈ elements, Proper element) :
      Proper (.form label shape elements)

theorem Proper.bodyNode {nodes : List Object} (each : ∀ node ∈ nodes, node.Proper) :
    (bodyNode nodes).Proper := by
  match nodes with
  | [] => exact .literal rfl
  | [node] => exact each node List.mem_cons_self
  | first :: second :: rest =>
      exact .form (by decide) (List.forall_mem_cons.mpr ⟨.reference, each⟩)

/-- A node that came of data: proper, and with nothing in it but what was in them. -/
structure MadeOf (leaves : List Object) (node : Object) : Prop where
  proper : node.Proper
  carried : ∀ value, node.Carries value → value ∈ leaves

/-- How conversion ends, told from the leaves of the data. -/
inductive Converts {α : Type} (store : Store) (leaves : List Object) (wanted : α → Prop) :
    Except Fault α → Prop
  | made {result : α} (none : firstRefused? leaves = none) (holds : wanted result) :
      Converts store leaves wanted (.ok result)
  | refused {leaf : Object} (first : firstRefused? leaves = some leaf) :
      Converts store leaves wanted (.error (leaf.refusal.told store))

variable {store : Store}

theorem MadeOf.widen {fewer more : List Object} {node : Object} (made : MadeOf fewer node)
    (among : ∀ leaf ∈ fewer, leaf ∈ more) : MadeOf more node :=
  ⟨made.proper, fun value carried => among value (made.carried value carried)⟩

theorem MadeOf.form {leaves elements : List Object} (made : ∀ node ∈ elements, MadeOf leaves node) :
    MadeOf leaves (.form none .tuple elements) := by
  refine ⟨.form (by decide) fun node member => (made node member).proper, ?_⟩
  rintro value (_ | _ | ⟨member, carried⟩)
  exact (made _ member).carried value carried

theorem Converts.map {α β : Type} {leaves : List Object} {wanted : α → Prop} {other : β → Prop}
    {outcome : Except Fault α} {change : α → β} (converts : Converts store leaves wanted outcome)
    (changed : ∀ result, wanted result → other (change result)) :
    Converts store leaves other (outcome.map change) := by
  cases converts with
  | made none holds => exact .made none (changed _ holds)
  | refused first => exact .refused first

/-- Data other than sequences, symbols and pairs are converted if they are values. -/
theorem converts_single {object : Object} (plain : object.isPair = false)
    (alone : object.leaves = [object]) :
    Converts store object.leaves (MadeOf object.leaves)
      (if object.isValue then .ok (.literal none object)
        else .error ((Fault.malformed object .notLiteral).told store)) := by
  have stands : object.mayStand = object.isValue := by
    cases object with
    | pair id => contradiction
    | _ => rfl
  rw [alone]
  by_cases isValue : object.isValue
  · rw [if_pos isValue]
    refine .made (by simp [firstRefused?, stands, isValue]) ⟨.literal isValue, ?_⟩
    rintro value ⟨⟩
    exact List.mem_singleton_self object
  · rw [if_neg isValue]
    have refused : Converts store [object] (MadeOf [object])
        (.error (object.refusal.told store)) := .refused (by simp [firstRefused?, stands, isValue])
    rwa [refusal, plain] at refused

mutual

theorem toNode_converts (store : Store) : ∀ datum : Object, datum.IsRaw →
    Converts store datum.leaves (MadeOf datum.leaves) (datum.toNode store)
  | .symbol name, _ => by
      refine .made rfl ⟨.reference, ?_⟩
      rintro value ⟨⟩
      simp [leaves]
  | .sequence label kind items, raw => by
      simp only [leaves, toNode]
      exact (toNodes_converts store items raw).map fun _ => MadeOf.form
  | .pair id, _ => .refused rfl
  | .nil, _ | .boolean _, _ | .integer _, _ | .float _, _ | .string _, _ | .closure _, _
  | .primitive _, _ | .alien _, _ => by
      simp only [toNode]
      exact converts_single rfl rfl
  | .literal _ _, raw | .reference _ _, raw | .form _ _ _, raw => by
      exact nomatch raw _ (List.mem_singleton_self _)

theorem toNodes_converts (store : Store) : ∀ items : List Object,
    (∀ leaf ∈ leavesAll items, leaf.isNode = false) →
    Converts store (leavesAll items)
      (fun nodes => ∀ node ∈ nodes, MadeOf (leavesAll items) node) (toNodes store items)
  | [], _ => .made rfl (by simp)
  | item :: items, raw => by
      simp only [leavesAll, toNodes]
      have rawItem : item.IsRaw := fun leaf member => raw leaf (by simp [leavesAll, member])
      have rawItems : ∀ leaf ∈ leavesAll items, leaf.isNode = false :=
        fun leaf member => raw leaf (by simp [leavesAll, member])
      have first := toNode_converts store item rawItem
      have rest := toNodes_converts store items rawItems
      generalize toNode store item = outcome at first
      generalize toNodes store items = outcome' at rest
      cases first with
      | refused found => exact .refused (by rw [firstRefused?_append, found]; rfl)
      | made none node =>
          cases rest with
          | refused found => exact .refused (by rw [firstRefused?_append, none, found]; rfl)
          | made none' nodes =>
              refine .made (by rw [firstRefused?_append, none, none']; rfl) ?_
              refine List.forall_mem_cons.mpr ⟨node.widen (by simp +contextual), ?_⟩
              exact fun other member => (nodes other member).widen (by simp +contextual)

end

end Object

open Store (Develops)

/-- Is what the fault refuses, if it refuses nodes, the operands of a special form? -/
def Fault.SparesNodes (fault : Fault) : Prop :=
  ∀ node reason, fault = .malformed node reason → reason.isOfForm

theorem Fault.sparesNodes_of_isOfCalls {fault : Fault} (ofCalls : fault.isOfCalls) :
    fault.SparesNodes := by
  rintro node reason rfl
  contradiction

/-- Are the bodies of all functions proper? -/
def Store.BodiesProper (store : Store) : Prop :=
  ∀ id < store.closures.size, (store.closure id).body.Proper

namespace Store.BodiesProper

variable {store after : Store}

theorem of_eq (proper : store.BodiesProper) (closures : after.closures = store.closures) :
    after.BodiesProper := by
  intro id inside
  rw [closure_congr closures]
  exact proper id (closures ▸ inside)

theorem addClosure (proper : store.BodiesProper) {closure : Closure} (body : closure.body.Proper) :
    (store.addClosure closure).2.BodiesProper := by
  intro id inside
  rw [closure_addClosure]
  split
  · exact body
  · rename_i old
    have less : id < store.closures.size + 1 := by simpa [Store.addClosure] using inside
    exact proper id (Nat.lt_of_le_of_ne (Nat.le_of_lt_succ less) old)

end Store.BodiesProper

namespace Discipline

/-- Whole stores of proper functions, and proper nodes to be evaluated in them. Some faults may
be excused; all others spare nodes. -/
def propriety (excused : Fault → Prop) : Discipline where
  Good store := store.Whole Operation.Any ∧ store.BodiesProper
  Grows := Develops Operation.Any
  Value store := store.Knows Operation.Any
  Node store node := store.KnowsNode Operation.Any node ∧ node.Proper
  Scope store frame := frame < store.frames.size
  Outer store frame := frame < store.frames.size
  Count _ _ := True
  Admits _ fault := excused fault ∨ fault.SparesNodes

variable {excused : Fault → Prop} {store : Store} {root : FrameId}

theorem propriety_call (primitive : Primitive) {operands : List Object}
    (known : ∀ operand ∈ operands, store.Knows Operation.Any operand) :
    (propriety excused).Keeps store (propriety excused).Value (primitive.call operands) := by
  rintro ⟨whole, proper⟩
  have possible : Operation.Any primitive.operation := trivial
  have kept := presence_call possible known whole
  have closures := (primitive.call_frameless operands).closures store
  unfold Eval.storeAfter at closures
  cases outcome : primitive.call operands store with
  | ok value after =>
      rw [outcome] at kept closures
      exact ⟨⟨kept.1, proper.of_eq closures⟩, kept.2⟩
  | error interrupt after =>
      obtain ⟨fault, rfl, ofCalls⟩ := Primitive.call_fails outcome
      rw [outcome] at kept closures
      exact ⟨⟨kept.1, proper.of_eq closures⟩, kept.2.1,
        .inr (Fault.sparesNodes_of_isOfCalls ofCalls)⟩

theorem propriety_lawful (excused : Fault → Prop) : (propriety excused).Lawful where
  refl _ := .refl
  trans first second := first.trans second
  value_mono grown known := known.mono grown.grown
  node_mono grown known := ⟨known.1.mono grown.grown, known.2⟩
  scope_mono grown inside := Nat.lt_of_lt_of_le inside grown.grown.frames_le
  count_mono _ _ := trivial
  count_le _ _ := trivial
  nil _ := trivial
  boolean _ _ := trivial
  lookup good _ found := good.1.lookup found
  item good known proper := ⟨good.1.items known proper, trivial⟩
  literal known _ := Store.knowsNode_literal.mp known.1
  name known := Store.knowsNode_reference.mp known.1
  element known := by
    refine ⟨fun element member => ⟨Store.knowsNode_form.mp known.1 element member, ?_⟩, trivial⟩
    cases known.2 with
    | form _ each => exact each element member
  body known _ :=
    ⟨.body fun node member => (known node member).1,
      .bodyNode fun node member => (known node member).2⟩
  outer inside := inside
  captured good known := ⟨⟨good.1.body _, good.2 _ known⟩, good.1.captured _ known⟩
  define name good _ known :=
    ⟨⟨good.1.define name known, good.2.of_eq rfl⟩, .single (.define _ name _)⟩
  child good inside :=
    ⟨⟨good.1.child inside, good.2.of_eq rfl⟩, .single (.child _), Store.child_lt⟩
  addClosure _ good inside known :=
    ⟨⟨good.1.addClosure known.1 inside, good.2.addClosure known.2⟩, .single (.addClosure _),
      Store.knows_addClosure Operation.Any⟩
  cons good first last :=
    ⟨⟨good.1.cons first last, good.2.of_eq rfl⟩, .single (.cons first last),
      Store.knows_cons Operation.Any⟩
  call _ known _ := propriety_call _ known
  notLiteral known improper := by
    cases known.2 with
    | literal isValue => exact absurd isValue improper
  notReference known improper := by
    cases known.2 with
    | reference => exact absurd rfl improper
  notNode known unrecognised := by
    have proper := known.2
    rcases unrecognised with noNode | ⟨label, elements, rfl⟩
    · cases proper <;> exact absurd rfl noNode
    · cases proper with
      | form sequence _ => exact absurd rfl sequence
  misshapen ofForm _ _ _ := .inr fun _ _ same => by
    cases same
    exact ofForm
  unbound _ _ := .inr fun _ _ => nofun
  notCallable _ _ := .inr fun _ _ => nofun
  arity _ _ _ _ _ := .inr fun _ _ => nofun
  notList _ _ := .inr fun _ _ => nofun
  tooDeep _ _ := .inr fun _ _ => nofun

end Discipline

/-- Nested data without nodes, all of which are in a store. -/
structure Store.Offers (store : Store) (datum : Object) : Prop where
  raw : datum.IsRaw
  known : ∀ leaf ∈ datum.leaves, store.Knows Operation.Any leaf

theorem Store.Offers.mono {store later : Store} {datum : Object} (offers : store.Offers datum)
    (develops : Develops Operation.Any store later) : later.Offers datum :=
  ⟨offers.raw, fun leaf member => (offers.known leaf member).mono develops.grown⟩

namespace Interpreter

variable {excused : Fault → Prop} {store : Store} {root : FrameId}

open Discipline (propriety)

theorem evaluateSource_keeps (budget : Budget) {source : Object} (offers : store.Offers source)
    (inside : root < store.frames.size)
    (excuse : ∀ fault, source.toNode store = .error fault → excused fault) :
    (propriety excused).Keeps store (propriety excused).Value
      (evaluateSource budget root source) := by
  have lawful := Discipline.propriety_lawful excused
  have converts := Object.toNode_converts store source offers.raw
  have converted : (propriety excused).Keeps store (propriety excused).Node
      (Eval.ofExcept (source.toNode store)) := by
    refine lawful.tries (fun node same => ?_) fun fault same _ => .inl (excuse fault same)
    rw [same] at converts
    cases converts with
    | made _ node =>
        exact ⟨fun value carried => offers.known value (node.carried value carried), node.proper⟩
  have evaluated : (propriety excused).Keeps store (propriety excused).Value
      (Eval.ofExcept (source.toNode store) >>= fun node => evaluate budget node root) :=
    lawful.bind converted fun _ grown node =>
      lawful.evaluate budget node (lawful.scope_mono grown inside)
  exact evaluated

theorem evaluateFrom_keeps (budget : Budget) {value : Object} {sources : List Object}
    (known : store.Knows Operation.Any value) (offers : ∀ source ∈ sources, store.Offers source)
    (inside : root < store.frames.size)
    (excuse : ∀ source ∈ sources, ∀ store fault, source.toNode store = .error fault →
      excused fault) :
    (propriety excused).Keeps store (propriety excused).Value
      (evaluateFrom budget root value sources) := by
  have lawful := Discipline.propriety_lawful excused
  induction sources generalizing store value with
  | nil => exact lawful.done known
  | cons source sources ih =>
      obtain ⟨first, rest⟩ := List.forall_mem_cons.mp offers
      obtain ⟨excuseFirst, excuseRest⟩ := List.forall_mem_cons.mp excuse
      refine lawful.bind (evaluateSource_keeps budget first inside (excuseFirst store))
        fun _ grown value => ?_
      exact ih value (fun source member => (rest source member).mono grown)
        (lawful.scope_mono grown inside) excuseRest

end Interpreter

/-- What is asked of an interpreter: to evaluate a piece of source, or several in a row. -/
inductive Request
  | one (budget : Budget) (source : Object)
  | all (budget : Budget) (sources : List Object)

namespace Request

variable {store : Store} {root : FrameId}

def sources : Request → List Object
  | .one _ source => [source]
  | .all _ sources => sources

def run (root : FrameId) : Request → Eval Object
  | .one budget source => Interpreter.evaluateSource budget root source
  | .all budget sources => Interpreter.evaluateAll budget root sources

/-- The store after requests one after the other, whether they succeed or fail. -/
def afterAll (root : FrameId) (store : Store) : List Request → Store
  | [] => store
  | request :: rest => afterAll root ((request.run root).storeAfter store) rest

/-- Is the source of every request nothing but data that are there when its turn comes? -/
def Feasible (root : FrameId) (store : Store) : List Request → Prop
  | [] => True
  | request :: rest =>
      (∀ source ∈ request.sources, store.Offers source) ∧
        Feasible root ((request.run root).storeAfter store) rest

/-- A fault that conversion has with one of the sources. -/
def RefusedSource (request : Request) (fault : Fault) : Prop :=
  ∃ source ∈ request.sources, ∃ store, source.toNode store = .error fault

theorem run_keeps {request : Request} (offers : ∀ source ∈ request.sources, store.Offers source)
    (inside : root < store.frames.size) :
    (Discipline.propriety request.RefusedSource).Keeps store
      (Discipline.propriety request.RefusedSource).Value (request.run root) := by
  cases request with
  | one budget source =>
      have offered := offers source (List.mem_singleton_self source)
      exact Interpreter.evaluateSource_keeps budget offered inside
        fun fault refused => ⟨source, List.mem_singleton_self source, store, refused⟩
  | all budget sources =>
      exact Interpreter.evaluateFrom_keeps budget trivial offers inside
        fun source member store fault refused => ⟨source, member, store, refused⟩

/-- Any request of a feasible session finds a whole store of proper functions. -/
theorem afterAll_good {earlier : List Request} {request : Request} {later : List Request}
    (whole : store.Whole Operation.Any) (proper : store.BodiesProper)
    (inside : root < store.frames.size)
    (feasible : Feasible root store (earlier ++ request :: later)) :
    (afterAll root store earlier).Whole Operation.Any ∧
      (afterAll root store earlier).BodiesProper ∧
      root < (afterAll root store earlier).frames.size ∧
      ∀ source ∈ request.sources, (afterAll root store earlier).Offers source := by
  induction earlier generalizing store with
  | nil => exact ⟨whole, proper, inside, feasible.1⟩
  | cons first rest ih =>
      obtain ⟨good, develops⟩ := (run_keeps feasible.1 inside).storeAfter ⟨whole, proper⟩
      have still := Nat.lt_of_lt_of_le inside develops.grown.frames_le
      exact ih good.1 good.2 still feasible.2

end Request

/-- What conversion makes of raw data, and what is told of what it refuses. -/
structure Object.ConvertsByLeaves (store : Store) (datum : Object) : Prop where
  succeeds_iff : (∃ node, datum.toNode store = .ok node) ↔ ∀ leaf ∈ datum.leaves, leaf.mayStand
  refuses : ∀ leaf, firstRefused? datum.leaves = some leaf →
    datum.toNode store = .error (if store.writable leaf then
      .malformed leaf (if leaf.isPair then .pairInSource else .notLiteral) else .host .tooLong)
  proper : ∀ node, datum.toNode store = .ok node → node.Proper

theorem Object.convertsByLeaves {datum : Object} (raw : datum.IsRaw) (store : Store) :
    datum.ConvertsByLeaves store := by
  have converts := toNode_converts store datum raw
  generalize same : datum.toNode store = outcome at converts
  cases converts with
  | made none node =>
      refine ⟨⟨fun _ => ?_, fun _ => ⟨_, same⟩⟩, fun leaf first => ?_, fun other converted => ?_⟩
      · simpa [firstRefused?] using none
      · rw [none] at first
        contradiction
      · cases same.symm.trans converted
        exact node.proper
  | @refused leaf first =>
      refine ⟨⟨?_, fun all => ?_⟩, fun other found => ?_, fun node converted => ?_⟩
      · rintro ⟨node, converted⟩
        cases same.symm.trans converted
      · have member := List.mem_of_find?_eq_some first
        have refused := List.find?_some first
        rw [all leaf member] at refused
        contradiction
      · cases first.symm.trans found
        exact same.trans (congrArg Except.error (Fault.told_of_shows rfl))
      · cases same.symm.trans converted

theorem Request.RefusedSource.reason {request : Request} {node : Object} {reason : Malformation}
    (refused : request.RefusedSource (.malformed node reason))
    (raw : ∀ source ∈ request.sources, source.IsRaw) :
    reason = .pairInSource ∨ reason = .notLiteral := by
  obtain ⟨source, member, store, failed⟩ := refused
  have converts := Object.convertsByLeaves (raw source member) store
  cases first : Object.firstRefused? source.leaves with
  | none =>
      have stands : ∀ leaf ∈ source.leaves, leaf.mayStand := by
        simpa [Object.firstRefused?] using first
      obtain ⟨made, converted⟩ := converts.succeeds_iff.mpr stands
      cases failed.symm.trans converted
  | some leaf =>
      have told := failed.symm.trans (converts.refuses leaf first)
      by_cases writable : store.writable leaf
      · rw [if_pos writable] at told
        obtain ⟨-, rfl⟩ : node = leaf ∧ reason = _ := by simpa using told
        by_cases isPair : leaf.isPair
        · exact .inl (if_pos isPair)
        · exact .inr (if_neg isPair)
      · rw [if_neg writable] at told
        cases told

/-- Raw data are converted exactly if all their leaves may stand in source, and the first leaf
that may not is refused, if it can be written. And in an interpreter whose functions are proper,
as they are if they came of data, no request for the evaluation of data that gets past conversion
ever ends in the refusal of a node, unless as operands of a special form. -/
theorem conversion_vouches (store : Store) :
    (∀ datum : Object, datum.IsRaw → datum.ConvertsByLeaves store) ∧
    ∀ (root : FrameId) (earlier : List Request) (request : Request) (later : List Request),
      store.Whole Operation.Any → store.BodiesProper → root < store.frames.size →
      Request.Feasible root store (earlier ++ request :: later) →
      ∀ node reason after,
        request.run root (Request.afterAll root store earlier) =
          .error (.fault (.malformed node reason)) after →
        reason.isOfForm ∨
          request.RefusedSource (.malformed node reason) ∧
            (reason = .pairInSource ∨ reason = .notLiteral) := by
  refine ⟨fun datum raw => Object.convertsByLeaves raw store, ?_⟩
  intro root earlier request later whole proper inside feasible node reason after failed
  obtain ⟨good, bodies, still, offers⟩ := Request.afterAll_good whole proper inside feasible
  have kept := Request.run_keeps offers still ⟨good, bodies⟩
  rw [failed] at kept
  rcases kept.2.2 with refused | spares
  · exact .inr ⟨refused, refused.reason fun source member => (offers source member).raw⟩
  · exact .inl (spares node reason rfl)

/-- An integer that is too long to be written is no value, but its refusal shows it and fails. -/
theorem Object.toNode_of_isTooLong {value : Int} (tooLong : (integer value).isTooLong)
    (store : Store) :
    firstRefused? (leaves (.integer value)) = some (.integer value) ∧
      toNode store (.integer value) = .error (.host .tooLong) := by
  have foreign : (integer value).isValue = false := by
    rw [← Bool.not_eq_true]
    intro isValue
    rw [Store.isTooLong_of_isValue isValue] at tooLong
    contradiction
  have first : firstRefused? (leaves (.integer value)) = some (.integer value) := by
    simp [leaves, firstRefused?, mayStand, foreign]
  have raw : IsRaw (.integer value) := by simp [IsRaw, leaves, isNode]
  have unwritable : store.writable (.integer value) = false := by
    rw [Store.writable_of_bare rfl rfl, tooLong]
    rfl
  refine ⟨first, ?_⟩
  rw [(convertsByLeaves raw store).refuses _ first, unwritable]
  rfl

theorem toNode_digitBound :
    Object.firstRefused? (Object.leaves (.integer digitBound)) = some (.integer digitBound) ∧
      Object.toNode .empty (.integer digitBound) = .error (.host .tooLong) :=
  Object.toNode_of_isTooLong Object.isTooLong_digitBound .empty

/-- Lists of source data, made anew. -/
def Object.listed : List Object → Object :=
  .sequence none .list

/-- Defines `pick` as a function whose body is an `if` of one operand. -/
def definesPick : Request :=
  .one ⟨5, 1⟩ (.listed [.symbol ⟨"define"⟩, .symbol ⟨"pick"⟩,
    .listed [.symbol ⟨"lambda"⟩, .listed [.symbol ⟨"x"⟩],
      .listed [.symbol ⟨"if"⟩, .symbol ⟨"x"⟩]]])

def callsPick : Request :=
  .all ⟨5, 1⟩ [.integer 3, .listed [.symbol ⟨"pick"⟩, .integer 1]]

theorem Store.rootFrame_whole : empty.rootFrame.2.Whole Operation.Any where
  head _ := trivial
  tail _ := trivial
  binding id := by
    match id with
    | 0 | _ + 1 => simp [rootFrame, empty, Store.frame]
  ancestor id := by
    match id with
    | 0 | _ + 1 => simp [rootFrame, empty, Store.frame]
  body id := by
    rintro value ⟨⟩
  captured id inside := by simp [rootFrame, empty] at inside

theorem callsPick_feasible :
    Request.Feasible 0 Store.empty.rootFrame.2 [definesPick, callsPick] := by
  refine ⟨?_, ?_, trivial⟩
  · refine List.forall_mem_singleton.mpr ⟨?_, ?_⟩
    · simp [Object.IsRaw, Object.leaves, Object.leavesAll, Object.listed, Object.isNode]
    · simp [Object.leaves, Object.leavesAll, Object.listed, Store.Knows]
  · refine List.forall_mem_cons.mpr ⟨⟨?_, ?_⟩, List.forall_mem_singleton.mpr ⟨?_, ?_⟩⟩
    · simp [Object.IsRaw, Object.leaves, Object.isNode]
    · simp [Object.leaves, Store.Knows]
    · simp [Object.IsRaw, Object.leaves, Object.leavesAll, Object.listed, Object.isNode]
    · simp [Object.leaves, Object.leavesAll, Object.listed, Store.Knows]

/-- The operands of `if` that `pick` is refused for. -/
def pickOperands : Object :=
  operandList [.reference none (.symbol ⟨"x"⟩)]

theorem callsPick_refused :
    (∃ after, callsPick.run 0 (Request.afterAll 0 Store.empty.rootFrame.2 [definesPick]) =
      .error (.fault (.malformed pickOperands .conditionalOperands)) after) ∧
    (Malformation.conditionalOperands.isOfForm ∨
      callsPick.RefusedSource (.malformed pickOperands .conditionalOperands) ∧
        (Malformation.conditionalOperands = .pairInSource ∨
          Malformation.conditionalOperands = .notLiteral)) := by
  refine ⟨⟨_, rfl⟩, ?_⟩
  have bodies : Store.empty.rootFrame.2.BodiesProper :=
    fun id inside => absurd inside (Nat.not_lt_zero id)
  exact (conversion_vouches Store.empty.rootFrame.2).2 0 [definesPick] callsPick []
    Store.rootFrame_whole bodies (by decide) callsPick_feasible pickOperands
    .conditionalOperands _ rfl

end LispCore
