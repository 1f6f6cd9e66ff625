import LispCore.Proofs.Echoes

namespace LispCore

open Direct (Evaluates EvaluatesAll Calls)
open Eval (ComesTo Follows Rises comesTo_bind comesTo_congr comesTo_of_steps)
open Store (Twin)

namespace Object

/-- The reference to a name. -/
def named (name : Symbol) : Object :=
  .reference none (.symbol name)

/-- Names bound to nodes, for a body to be evaluated with. -/
def bindingOf (bindings : List (Symbol × Object)) (body : List Object) : Object :=
  formOf (refer "let" :: formOf (bindings.map fun binding =>
    formOf [named binding.1, binding.2]) :: body)

/-- A function of some names, made where it is called. -/
def functionOf (names : List Symbol) (body : List Object) : Object :=
  formOf (refer "lambda" :: formOf (names.map named) :: body)

/-- The call of the function of all names on the nodes that they would be bound to. -/
def immediateCallOf (bindings : List (Symbol × Object)) (body : List Object) : Object :=
  formOf (functionOf (bindings.map Prod.fst) body :: bindings.map Prod.snd)

end Object

open Object (formOf refer named bindingOf functionOf immediateCallOf)

theorem parseFormals_named {names : List Symbol} (distinct : names.Nodup) :
    parseFormals (.formOf (names.map named)) = .ok names := by
  have refer : List.Forall₂ Object.RefersTo (names.map named) names := by
    rw [List.forall₂_map_left_iff]
    exact List.forall₂_same.mpr fun name _ => ⟨none, rfl⟩
  exact parseFormals_ok none .tuple ⟨refer, distinct⟩

namespace Direct

variable {frame : FrameId} {bindings : List (Symbol × Object)} {body : List Object}
  {before between : Store} {result : EStateM.Result Interrupt Store Object}

/-- Bindings of distinct names evaluate their nodes as a call does its operands. -/
theorem entries_eq (eval : Object → FrameId → Eval Object) {done : List (Symbol × Object)}
    (distinct : (done.map Prod.fst ++ bindings.map Prod.fst).Nodup) :
    entries eval frame done (bindings.map fun binding =>
        .formOf [named binding.1, binding.2]) =
      (done ++ (bindings.map Prod.fst).zip ·) <$>
        operands eval frame (bindings.map Prod.snd) := by
  induction bindings generalizing done with
  | nil => simp [entries, operands]
  | cons binding bindings ih =>
      obtain ⟨name, node⟩ := binding
      have new : name ∉ done.map Prod.fst := fun old =>
        (List.nodup_append.mp distinct).2.2 name old name List.mem_cons_self rfl
      have rest : ∀ value : Object, ((done ++ [(name, value)]).map Prod.fst ++
          bindings.map Prod.fst).Nodup := by
        simpa using distinct
      refine (if_neg new).trans ?_
      simp only [ih (rest _), List.map_cons, operands, map_bind, bind_pure_comp,
        List.zip_cons_cons, List.append_assoc, List.singleton_append, Functor.map_map]

/-- A body evaluated in a new frame inside of another, with names bound to values. -/
def within (eval : Object → FrameId → Eval Object) (frame : FrameId) (names : List Symbol)
    (body values : List Object) : Eval Object := do
  let inner ← Eval.create fun store => store.child frame
  modify fun store => store.defineAll inner (names.zip values)
  sequence eval inner .nil body

theorem within_rises (names : List Symbol) (values : List Object) :
    Rises fun depth => within (evaluateDirectly depth) frame names body values :=
  (Rises.constant _).bind fun _ => (Rises.constant _).bind fun _ => sequence_rises .nil body

/-- A binding comes to what its body comes to, in a frame of its own, after the nodes. -/
theorem comesTo_binding (distinct : (bindings.map Prod.fst).Nodup) :
    Evaluates (bindingOf bindings body) frame before result ↔
      Follows (EvaluatesAll (bindings.map Prod.snd) frame before)
        (fun values => ComesTo fun depth =>
          within (evaluateDirectly depth) frame (bindings.map Prod.fst) body values)
        result := by
  have stepped : ∀ depth, evaluateDirectly (depth + 1) (bindingOf bindings body) frame =
      operands (evaluateDirectly depth) frame (bindings.map Prod.snd) >>=
        within (evaluateDirectly depth) frame (bindings.map Prod.fst) body := by
    intro depth
    change binding (evaluateDirectly depth) frame (.formOf _ :: body) = _
    change entries (evaluateDirectly depth) frame [] _ >>= _ = _
    rw [entries_eq _ (by simpa using distinct), bind_map_left]
    rfl
  refine (comesTo_of_steps (evaluate_rises _ frame) fun depth => by rw [stepped]).trans ?_
  exact comesTo_bind (operands_rises frame _) (within_rises _)

theorem comesTo_function {names : List Symbol} (distinct : names.Nodup) :
    Evaluates (functionOf names body) frame before result ↔
      result = .ok (.closure before.closures.size)
        (before.addClosure ⟨names, bodyNode body, frame⟩).2 := by
  have stepped : ∀ depth, evaluateDirectly (depth + 1) (functionOf names body) frame before =
      .ok (.closure before.closures.size)
        (before.addClosure ⟨names, bodyNode body, frame⟩).2 := by
    intro depth
    change (Eval.ofExcept (parseFormals (.formOf (names.map named))) >>= _) before = _
    rw [parseFormals_named distinct]
    rfl
  exact Eval.comesTo_value (evaluate_rises _ frame) stepped

/-- A call of a closure on as many operands as it has names comes to what its body comes to. -/
theorem comesTo_call {id : ClosureId} {names : List Symbol} {values : List Object}
    (captured : between.closure id = ⟨names, bodyNode body, frame⟩)
    (fits : values.length = names.length) :
    Calls (.closure id) values between result ↔
      ComesTo (fun depth => within (evaluateDirectly depth) frame names body values) between
        result := by
  let enter : Eval FrameId :=
    Eval.create fun store => store.enter ⟨names, bodyNode body, frame⟩ values
  have entered : ∀ depth, call (evaluateDirectly depth) (.closure id) values between =
      (enter >>= evaluateDirectly depth (bodyNode body)) between := by
    intro depth
    change ((between.closure id).extend values >>=
      evaluateDirectly depth (between.closure id).body) between = _
    rw [captured, Closure.extend, if_pos fits]
  have bodies : ∀ inner, Rises fun depth => evaluateDirectly depth (bodyNode body) inner :=
    fun inner => evaluate_rises _ inner
  have sequences : ∀ inner, Rises fun depth =>
      sequence (evaluateDirectly depth) inner .nil body := fun inner => sequence_rises .nil body
  refine (comesTo_congr entered).trans ((comesTo_bind (.constant enter) bodies).trans ?_)
  refine (Follows.congr fun inner after _ => comesTo_bodyNode).trans ?_
  exact (comesTo_bind (.constant enter) sequences).symm

/-- What the nodes of operands come to is as many values, and leaves all closures as they are. -/
theorem operands_keep {nodes values : List Object}
    (comes : EvaluatesAll nodes frame before (.ok values between)) :
    values.length = nodes.length ∧
      ∀ id < before.closures.size, between.closure id = before.closure id := by
  let D := Discipline.confinement before fun _ => True
  have lawful : D.Lawful := Discipline.confinement_lawful before fun _ => True
  have known : D.Nodes before nodes := fun _ _ => trivial
  have scope : D.Scope before frame := .inl trivial
  obtain ⟨confined, _, _, length⟩ := lawful.evaluatesAll (.refl before) known scope comes
  exact ⟨length, confined.closure⟩

/-- An immediate call comes to what the binding comes to where there is one closure more. -/
theorem comesTo_immediateCall (distinct : (bindings.map Prod.fst).Nodup) :
    Evaluates (immediateCallOf bindings body) frame before result ↔
      Evaluates (bindingOf bindings body) frame
        (before.addClosure ⟨bindings.map Prod.fst, bodyNode body, frame⟩).2 result := by
  have asked : SpecialForm.ofHead? (functionOf (bindings.map Prod.fst) body) = none := rfl
  unfold immediateCallOf
  rw [comesTo_application asked, Eval.follows_of_value fun _ => comesTo_function distinct,
    comesTo_binding distinct]
  refine Follows.congr fun values between comes => ?_
  obtain ⟨length, closures⟩ := operands_keep comes
  have new : before.closures.size <
      (before.addClosure ⟨bindings.map Prod.fst, bodyNode body, frame⟩).2.closures.size := by
    simp [Store.addClosure]
  refine comesTo_call ?_ ?_
  · rw [closures _ new, Store.closure_addClosure, if_pos rfl]
  · rw [length, List.length_map, List.length_map]

end Direct

variable {store : Store} {frame : FrameId} {bindings : List (Symbol × Object)}
  {body : List Object}

theorem knowsAll_bindingOf (known : ∀ node ∈ bindings.map Prod.snd ++ body, store.KnowsAll node) :
    store.KnowsAll (bindingOf bindings body) := by
  obtain ⟨bound, inBody⟩ := List.forall_mem_append.mp known
  simp only [bindingOf, formOf, refer, named, Store.KnowsAll.form_iff, List.forall_mem_cons]
  refine ⟨.reference _, ?_, inBody⟩
  intro part member
  obtain ⟨binding, among, rfl⟩ := List.mem_map.mp member
  have node := bound binding.2 (List.mem_map_of_mem among)
  simpa using node

/-- In every store, frame and position, names bound to nodes for a body, and the function of
these names and this body called on the nodes, come to the same: the same value or fault, and
the same texts recorded, but for the numbers of what is new and for the closure that the call
makes. -/
theorem binding_is_call (way way' : Way) (distinct : (bindings.map Prod.fst).Nodup)
    (complete : store.Complete)
    (known : ∀ node ∈ bindings.map Prod.snd ++ body, store.KnowsAll node)
    (inside : frame < store.frames.size) :
    Matching (store.Echoes Renaming.answer) (way.ComesTo (bindingOf bindings body) frame store)
      (way'.ComesTo (immediateCallOf bindings body) frame store) := by
  let closure : Closure := ⟨bindings.map Prod.fst, bodyNode body, frame⟩
  have node := Discipline.settlement_node (knowsAll_bindingOf known)
  have twin : Twin (.past store (store.addClosure closure).2) store (store.addClosure closure).2 :=
    Renaming.past_twin complete.whole (.single (.addClosure closure)) (.addClosure store closure)
  have fixed : (Renaming.past store (store.addClosure closure).2).Fixes
      (bindingOf bindings body) :=
    fun value carried => Renaming.past_object (node.1 value carried)
  have matching := Renaming.matching_of_twins (Discipline.settlement_good complete) twin rfl node
    fixed inside (Renaming.past_leaves (.refl store))
  rw [show (Renaming.past store _).frames.of frame = frame from Shift.of_lt inside] at matching
  refine Way.matching (matching.congr (fun _ => .rfl) fun result => ?_) way way'
  exact Direct.comesTo_immediateCall distinct

theorem Store.paired_complete : paired.Complete where
  head id := match id with | 0 | _ + 1 => .of_isSimple rfl trivial
  tail id := match id with | 0 | _ + 1 => .of_isSimple rfl trivial
  binding id entry member := by
    match id with
    | 0 =>
        rcases List.mem_cons.mp member with rfl | member
        · exact .of_isSimple rfl trivial
        · obtain rfl := List.mem_singleton.mp member
          exact .of_isSimple rfl (by decide : 0 < 1)
    | _ + 1 => contradiction
  ancestor := paired_whole.ancestor
  body id := .of_isSimple rfl trivial
  captured := paired_whole.captured

/-- Names bound to a pair and to a number. -/
def boundPair : List (Symbol × Object) :=
  [(⟨"x"⟩, refer "p"), (⟨"y"⟩, .literal none (.integer 2))]

/-- A body whose last node makes a function. -/
def boundBody : List Object :=
  [refer "y", functionOf [] [refer "x"]]

/-- In the call, the function that is called comes before the one that its body makes. -/
theorem pairBound_matches :
    Matching (Store.paired.Echoes Renaming.answer)
        (Way.deferred.ComesTo (bindingOf boundPair boundBody) 0 .paired)
        (Way.inPlace.ComesTo (immediateCallOf boundPair boundBody) 0 .paired) ∧
      ∃ after after',
        evaluate ⟨4, 1⟩ (bindingOf boundPair boundBody) 0 .paired = .ok (.closure 0) after ∧
        evaluate ⟨4, 1⟩ (immediateCallOf boundPair boundBody) 0 .paired =
          .ok (.closure 1) after' := by
  have known : ∀ node ∈ boundPair.map Prod.snd ++ boundBody, Store.paired.KnowsAll node := by
    have number : Store.paired.KnowsAll (.integer 2) := .of_isSimple rfl trivial
    simp [boundPair, boundBody, functionOf, formOf, refer, number]
  exact ⟨binding_is_call .deferred .inPlace (by decide) Store.paired_complete known (by decide),
    _, _, rfl, rfl⟩

end LispCore
