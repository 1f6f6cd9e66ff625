import LispCore.Proofs.Echoes

namespace LispCore

open Direct (Evaluates EvaluatesAll Calls)
open Discipline (settlement settlement_good settlement_lawful settlement_node)
open Eval (ComesTo Follows Rises bind_ok comesTo_bind comesTo_congr comesTo_of_steps)
open Object (formOf refer)
open Store (Twin)

namespace Object

/-- A function applied to the list that a node comes to. -/
def applicationTo (function list : Object) : Object :=
  formOf [refer "apply", function, list]

/-- The list of what nodes come to. -/
def listOf (nodes : List Object) : Object :=
  formOf (refer "list" :: nodes)

end Object

open Object (applicationTo listOf)

/-- The primitive that makes a list of its operands. -/
def Primitive.lister : Primitive :=
  .ofOperation .list 0 none

theorem Primitive.call_lister (operands : List Object) (store : Store) :
    Primitive.lister.call operands store =
      .ok (store.ofItems operands .nil).1 (store.ofItems operands .nil).2 := by
  have admitted : Primitive.lister.admits operands.length := by
    simp [lister, ofOperation, admits]
  rw [call_apply, if_pos admitted]
  rfl

namespace Direct

variable {frame : FrameId} {function list : Object} {nodes : List Object}
  {before : Store} {result : EStateM.Result Interrupt Store Object}

theorem comesTo_refer {text : String} {value : Object}
    (found : before.lookup? frame ⟨text⟩ = some value) :
    Evaluates (refer text) frame before result ↔ result = .ok value before := by
  refine Eval.comesTo_value (evaluate_rises _ frame) fun depth => ?_
  change Environment.lookup frame (.symbol ⟨text⟩) before = _
  rw [Environment.lookup_apply, found]

/-- What a list written for operands comes to is made of what the operands come to. -/
theorem comesTo_listOf (found : before.lookup? frame ⟨"list"⟩ = some (.primitive .lister)) :
    Evaluates (listOf nodes) frame before result ↔
      Follows (EvaluatesAll nodes frame before)
        (fun values between result =>
          result = .ok (between.ofItems values .nil).1 (between.ofItems values .nil).2)
        result := by
  have asked : SpecialForm.ofHead? (refer "list") = none := rfl
  unfold listOf
  rw [comesTo_application asked, Eval.follows_of_value fun _ => comesTo_refer found]
  refine Follows.congr fun values between _ => ?_
  refine Eval.comesTo_value (call_rises _ values) fun depth => ?_
  exact Primitive.call_lister values between

/-- A function applied to a list: first the function is evaluated, then the list. -/
theorem comesTo_applicationTo :
    Evaluates (applicationTo function list) frame before result ↔
      Follows (Evaluates function frame before)
        (fun callee between => Follows (Evaluates list frame between) fun value =>
          ComesTo fun depth =>
            itemsOr (.wrongKind "proper list" value (some "apply")) value >>=
              call (evaluateDirectly depth) callee)
        result := by
  have calls : ∀ callee value, Rises fun depth =>
      itemsOr (.wrongKind "proper list" value (some "apply")) value >>=
        call (evaluateDirectly depth) callee := fun callee value =>
    (Rises.constant _).bind fun items => call_rises callee items
  refine (comesTo_of_steps (evaluate_rises _ frame) fun depth => rfl).trans ?_
  refine (comesTo_bind (evaluate_rises function frame)
    fun callee => (evaluate_rises list frame).bind (calls callee)).trans ?_
  refine Follows.congr fun callee between _ => ?_
  exact comesTo_bind (evaluate_rises list frame) (calls callee)

/-- Where the written list is found to hold what it was made of, the call is one on the
operands, with the pairs of the list made before it. -/
theorem comesTo_spread
    (found : ∀ callee between, Evaluates function frame before (.ok callee between) →
      between.lookup? frame ⟨"list"⟩ = some (.primitive .lister))
    (proper : ∀ callee between values after,
      Evaluates function frame before (.ok callee between) →
        EvaluatesAll nodes frame between (.ok values after) →
          (after.ofItems values .nil).2.listItems? (after.ofItems values .nil).1 = some values) :
    Evaluates (applicationTo function (listOf nodes)) frame before result ↔
      Follows (Evaluates function frame before)
        (fun callee between => Follows (EvaluatesAll nodes frame between) fun values after =>
          Calls callee values (after.ofItems values .nil).2)
        result := by
  rw [comesTo_applicationTo]
  refine Follows.congr fun callee between first => ?_
  rw [Eval.follows_follows fun _ => comesTo_listOf (found callee between first)]
  refine Follows.congr fun values after second => ?_
  rw [Eval.follows_of_value fun _ => .rfl]
  refine comesTo_congr fun depth => bind_ok ?_ _
  rw [itemsOr_apply, proper callee between values after first second]

end Direct

variable {function list callee : Object} {nodes values : List Object} {frame : FrameId}
  {store between after : Store}

/-- What is there when a function is called: the function, and the operands after it. -/
theorem settled_at_call (complete : store.Complete) (inside : frame < store.frames.size)
    (head : store.KnowsAll function) (known : ∀ node ∈ nodes, store.KnowsAll node)
    (first : Evaluates function frame store (.ok callee between))
    (second : EvaluatesAll nodes frame between (.ok values after)) :
    (settlement store).Good after ∧ (settlement store).Value after callee ∧
      (settlement store).Values after values := by
  have lawful := settlement_lawful store
  have nodes : (settlement store).Nodes store nodes := fun node member =>
    settlement_node (known node member)
  obtain ⟨begun, grown, value⟩ :=
    lawful.evaluates (settlement_good complete) (settlement_node head) inside first
  obtain ⟨ended, more, operands, _⟩ := lawful.evaluatesAll begun
    (lawful.nodes_mono grown nodes) (lawful.scope_mono grown inside) second
  exact ⟨ended, lawful.value_mono more value, operands⟩

/-- A call in a settled store comes to the same after a list of its operands has been made. -/
theorem matching_of_listed (good : (settlement store).Good after)
    (known : (settlement store).Value after callee)
    (operands : (settlement store).Values after values) :
    Matching (store.Echoes Renaming.object) (Calls callee values after)
      (Calls callee values (after.ofItems values .nil).2) := by
  let ρ := Renaming.past after (after.ofItems values .nil).2
  obtain ⟨more, kept⟩ := after.ofItems_cells values .nil
  obtain ⟨frames, closures⟩ := after.ofItems_frames values .nil
  have twin : Twin ρ after (after.ofItems values .nil).2 :=
    Renaming.past_twin_of_kept good.1 more kept (.of_eq frames closures)
  have logs := (after.ofItems_log values .nil).symm
  have leaves : ρ.Leaves store := Renaming.past_leaves good.2.2
  refine Renaming.matching_of_coupled (fun depth => ?_) good twin logs leaves
  have still : ∀ {value}, (settlement store).Value after value →
      (ρ.coupling (settlement store) Eq).Value after value value := fun known =>
    ⟨known, (Renaming.past_object known.1).symm⟩
  have lawful := (Renaming.suits_settlement leaves).coupling_lawful
  refine lawful.call_direct (fun _ => rfl) (still known) (List.forall₂_same.mpr ?_) depth
  exact fun value member => still (operands value member)

/-- Operands may be written in a list that is made for them, where its name means the primitive
that makes lists. -/
theorem matching_spread (asked : SpecialForm.ofHead? function = none) (complete : store.Complete)
    (inside : frame < store.frames.size) (head : store.KnowsAll function)
    (known : ∀ node ∈ nodes, store.KnowsAll node)
    (found : ∀ callee between, Evaluates function frame store (.ok callee between) →
      between.lookup? frame ⟨"list"⟩ = some (.primitive .lister)) :
    Matching (store.Echoes Renaming.object) (Evaluates (formOf (function :: nodes)) frame store)
      (Evaluates (applicationTo function (listOf nodes)) frame store) := by
  have calls : Matching (store.Echoes Renaming.object)
      (Follows (Evaluates function frame store) fun callee between =>
        Follows (EvaluatesAll nodes frame between) (Calls callee))
      (Follows (Evaluates function frame store) fun callee between =>
        Follows (EvaluatesAll nodes frame between) fun values after =>
          Calls callee values (after.ofItems values .nil).2) := by
    refine Matching.follows (fun callee between first => ?_) fun _ _ _ => .refl store _
    refine Matching.follows (fun values after second => ?_) fun _ _ _ => .refl store _
    obtain ⟨good, value, operands⟩ := settled_at_call complete inside head known first second
    exact matching_of_listed good value operands
  refine calls.congr (fun _ => Direct.comesTo_application asked) fun _ => ?_
  refine Direct.comesTo_spread found fun callee between values after first second => ?_
  obtain ⟨good, _, operands⟩ := settled_at_call complete inside head known first second
  have last : after.Knows Operation.Any .nil := trivial
  obtain ⟨listed, _, value⟩ :=
    good.1.ofItems (fun value member => (operands value member).1) last
  exact (Store.listItems?_eq_some_iff listed.closed value.has).mpr (.ofItems after values)

/-- To apply a function to a list is to call it on the items, and nothing is called where there
is no list. -/
theorem Engine.answer_applicationTo {patience depth : Nat} {position : Position} {value : Object}
    (first : (ofDepth patience depth).operand function frame store = .ok callee between)
    (second : (ofDepth patience depth).operand list frame between = .ok value after) :
    (ofDepth patience (depth + 1)).answer position (applicationTo function list) frame store =
      match after.listItems? value with
      | some items => (ofDepth patience depth).apply position callee items after
      | none => .error (.fault (.wrongKind "proper list" value (some "apply"))) after := by
  change (ofDepth patience depth).answerApply position frame [function, list] store = _
  rw [answerApply, bind_ok first, bind_ok second, Eval.bind_apply, itemsOr_apply]
  cases after.listItems? value <;> rfl

/-- What is true of a function that is applied to lists, in a frame of a store. -/
structure AppliesAsCalled (function : Object) (frame : FrameId) (store : Store) : Prop where
  /-- Operands may be written in a list. They come to what they come to in a call, if the name
  of the list means the primitive for it when it is looked up, after the function. -/
  writtenOut : SpecialForm.ofHead? function = none →
    ∀ nodes, (∀ node ∈ nodes, store.KnowsAll node) →
      (∀ callee between, Way.direct.ComesTo function frame store (.ok (.value callee) between) →
        between.lookup? frame ⟨"list"⟩ = some (.primitive .lister)) →
      ∀ way way' : Way, Matching (store.Echoes Renaming.answer)
        (way.ComesTo (formOf (function :: nodes)) frame store)
        (way'.ComesTo (applicationTo function (listOf nodes)) frame store)
  /-- Whatever list there is, the function is called on what it holds. -/
  ofLists : ∀ {patience depth position list callee value items between after},
    store.KnowsAll list →
      (Engine.ofDepth patience depth).operand function frame store = .ok callee between →
      (Engine.ofDepth patience depth).operand list frame between = .ok value after →
      after.Lists value items →
      (Engine.ofDepth patience (depth + 1)).answer position (applicationTo function list) frame
          store = (Engine.ofDepth patience depth).apply position callee items after
  /-- Where there is no list, it is not called. -/
  ofOthers : ∀ {patience depth position list callee value between after},
    store.KnowsAll list →
      (Engine.ofDepth patience depth).operand function frame store = .ok callee between →
      (Engine.ofDepth patience depth).operand list frame between = .ok value after →
      (∀ items, ¬ after.Lists value items) →
      (Engine.ofDepth patience (depth + 1)).answer position (applicationTo function list) frame
          store = .error (.fault (.wrongKind "proper list" value (some "apply"))) after

/-- What a list comes to, after a function, is all there in the store that it is read from. -/
theorem list_known {patience depth : Nat} {value : Object} (complete : store.Complete)
    (inside : frame < store.frames.size) (head : store.KnowsAll function)
    (known : store.KnowsAll list)
    (first : (Engine.ofDepth patience depth).operand function frame store = .ok callee between)
    (second : (Engine.ofDepth patience depth).operand list frame between = .ok value after) :
    after.Closed ∧ after.Has value := by
  have lawful := settlement_lawful store
  have safe : (settlement store).Safe (.ofDepth patience depth) := lawful.ofDepth patience depth
  obtain ⟨good, grown, _⟩ :=
    (lawful.operand safe (settlement_node head) inside).ok (settlement_good complete) first
  have still := lawful.node_mono grown (settlement_node known)
  have within := lawful.scope_mono grown inside
  obtain ⟨goodAfter, _, there⟩ := (lawful.operand safe still within).ok good second
  exact ⟨goodAfter.1.closed, there.1.has⟩

/-- In every frame of every store, a function applied to a list is called on what the list
holds: on operands written out in it, as they would be in a call, and on the items of any other
list. Applied to anything else it fails, without being called. -/
theorem applied_as_called (complete : store.Complete) (head : store.KnowsAll function)
    (inside : frame < store.frames.size) : AppliesAsCalled function frame store := by
  refine ⟨fun asked nodes known found => ?_, ?_, ?_⟩
  · have lookups : ∀ callee between, Evaluates function frame store (.ok callee between) →
        between.lookup? frame ⟨"list"⟩ = some (.primitive .lister) :=
      fun callee between comes => found callee between (Way.comesTo_iff.mpr ⟨_, comes, rfl⟩)
    exact Way.matching (matching_spread asked complete inside head known lookups)
  · intro patience depth position list callee value items between after known first second lists
    obtain ⟨closed, there⟩ := list_known complete inside head known first second
    rw [Engine.answer_applicationTo first second,
      (Store.listItems?_eq_some_iff closed there).mpr lists]
  · intro patience depth position list callee value between after known first second other
    obtain ⟨closed, there⟩ := list_known complete inside head known first second
    have improper : after.listItems? value = none :=
      Option.eq_none_iff_forall_ne_some.mpr fun items proper =>
        other items ((Store.listItems?_eq_some_iff closed there).mp proper)
    rw [Engine.answer_applicationTo first second, improper]

/-- A store with a frame that binds the primitives that make lists and pairs. -/
def Store.listing : Store :=
  { empty with
    frames := #[⟨[(⟨"list"⟩, .primitive .lister),
      (⟨"cons"⟩, .primitive (.ofOperation .cons 2 (some 2)))], []⟩] }

theorem Store.listing_complete : listing.Complete where
  head _ := .of_isSimple rfl trivial
  tail _ := .of_isSimple rfl trivial
  binding id entry member := by
    match id with
    | 0 =>
        rcases List.mem_cons.mp member with rfl | member
        · exact .of_isSimple rfl trivial
        · obtain rfl := List.mem_singleton.mp member
          exact .of_isSimple rfl trivial
    | _ + 1 => contradiction
  ancestor id := by
    match id with
    | 0 | _ + 1 => simp [listing, Store.frame]
  body _ := .of_isSimple rfl trivial
  captured id inside := by simp [listing, empty] at inside

/-- Two numbers that are joined to a pair. -/
def joinedNumbers : List Object :=
  [.literal none (.integer 1), .literal none (.integer 2)]

/-- By a call the pair is the first one. Where the numbers are written in a list, it comes after
the two pairs of the list. A number is no list. -/
theorem joined_as_called :
    Matching (Store.listing.Echoes Renaming.answer)
        (Way.inPlace.ComesTo (formOf (refer "cons" :: joinedNumbers)) 0 .listing)
        (Way.deferred.ComesTo (applicationTo (refer "cons") (listOf joinedNumbers)) 0 .listing) ∧
      (∃ after after',
        evaluate ⟨3, 1⟩ (formOf (refer "cons" :: joinedNumbers)) 0 .listing =
          .ok (.pair 0) after ∧
        evaluate ⟨3, 1⟩ (applicationTo (refer "cons") (listOf joinedNumbers)) 0 .listing =
          .ok (.pair 2) after') ∧
      (Engine.ofDepth 1 3).answer .tail (applicationTo (refer "cons") (listOf joinedNumbers)) 0
          .listing =
        (Engine.ofDepth 1 2).apply .tail (.primitive (.ofOperation .cons 2 (some 2)))
          [.integer 1, .integer 2] (Store.listing.ofItems [.integer 1, .integer 2] .nil).2 ∧
      (Engine.ofDepth 1 2).answer .tail
          (applicationTo (refer "cons") (.literal none (.integer 1))) 0 .listing =
        .error (.fault (.wrongKind "proper list" (.integer 1) (some "apply"))) .listing := by
  have known : ∀ node ∈ joinedNumbers, Store.listing.KnowsAll node := by
    have number : ∀ value, Store.listing.KnowsAll (.integer value) := fun value =>
      .of_isSimple rfl trivial
    simp [joinedNumbers, number]
  have applies := applied_as_called Store.listing_complete
    (.reference ⟨"cons"⟩ : Store.listing.KnowsAll (refer "cons")) (by decide : 0 < 1)
  have written : Store.listing.KnowsAll (listOf joinedNumbers) := by
    simpa [listOf, formOf, refer] using known
  refine ⟨applies.writtenOut rfl joinedNumbers known (fun callee between comes => ?_) .inPlace
    .deferred, ⟨_, _, rfl, rfl⟩,
    applies.ofLists written rfl rfl (.ofItems .listing [.integer 1, .integer 2]),
    applies.ofOthers ?_ rfl rfl fun items lists => ?_⟩
  · obtain ⟨_, comes, same⟩ := Way.comesTo_iff.mp comes
    obtain rfl := (Direct.comesTo_refer rfl).mp comes
    cases same
    rfl
  · exact Store.KnowsAll.literal_iff.mpr (.of_isSimple rfl trivial)
  · cases lists

end LispCore
