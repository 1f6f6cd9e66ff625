import LispCore.Proofs.Growth
import LispCore.Proofs.Quotation.Shape

namespace LispCore

open Store (AddsPairs Grown)

/-- Sets the head or the tail of what should be a pair, as the primitive does. -/
def Side.assign : Side → Object → Object → Eval Object
  | .head, target, value => (Primitive.ofOperation .setHead 2 (some 2)).call [target, value]
  | .tail, target, value => (Primitive.ofOperation .setTail 2 (some 2)).call [target, value]

namespace Store

/-- What becomes of a store as heads and tails are set, any number of times in any order, in
anything but the pairs that are spared. -/
inductive Assigns (spared : CellId → Prop) (store : Store) : Store → Prop
  | none : Assigns spared store store
  | next {between : Store} {target : Object} (earlier : Assigns spared store between) (side : Side)
      (value : Object) (other : ∀ id, target = .pair id → ¬ spared id) :
      Assigns spared store ((side.assign target value).storeAfter between)

/-- What becomes of a store as nodes are evaluated in any frames, functions are called on any
operands, and heads and tails are set. -/
inductive Becomes (store : Store) : Store → Prop
  | same : Becomes store store
  | assigned {between : Store} (earlier : Becomes store between) (side : Side)
      (target value : Object) : Becomes store ((side.assign target value).storeAfter between)
  | evaluated {between : Store} (earlier : Becomes store between) (budget : Budget) (node : Object)
      (frame : FrameId) : Becomes store ((evaluate budget node frame).storeAfter between)
  | applied {between : Store} (earlier : Becomes store between) (budget : Budget)
      (callee : Object) (operands : List Object) :
      Becomes store ((applyTo budget callee operands).storeAfter between)

/-- Does a route lead from an object to a pair? -/
def Finds (store : Store) (object : Object) (route : Route) (id : CellId) : Prop :=
  ∃ passed, store.along? object route = some (passed, .pair id)

/-- A value made of new pairs of its own, in the shape of a picture and with its atoms. -/
structure Anew (before : Store) (picture : Picture) (value : Object) (after : Store) : Prop where
  adds : AddsPairs before after
  drawn : after.Draws ∅ value picture
  new : ∀ id, after.Reaches value id → before.cells.size ≤ id ∧ id < after.cells.size
  /-- Nothing that was there leads to any of the pairs. -/
  apart : before.Closed → ∀ object, before.Has object → ∀ id, after.Reaches object id →
    ¬ after.Reaches value id
  /-- Each of the pairs stands in one place. -/
  once : ∀ id, after.Reaches value id → ∃! route, after.Finds value route id
  /-- What is set in other pairs changes none of these. -/
  kept : ∀ later, after.Assigns (after.Reaches value) later →
    (∀ id, after.Reaches value id → later.cell id = after.cell id) ∧ later.Draws ∅ value picture

variable {store later : Store} {value target : Object} {picture : Picture} {cells : Finset CellId}
  {id other : CellId} {spared : CellId → Prop}

theorem assign_grown (side : Side) (target value : Object) (store : Store) :
    Grown store ((side.assign target value).storeAfter store) := by
  cases side <;> exact Primitive.call_grown _ _ store

/-- Only the pair that something is set in changes. -/
theorem cell_assign (side : Side) (value : Object) (store : Store)
    (different : target ≠ .pair id) :
    ((side.assign target value).storeAfter store).cell id = store.cell id := by
  cases target with
  | pair place =>
      have apart : id ≠ place := fun same => different (same ▸ rfl)
      cases side <;> exact store.cell_setPart_ne _ value apart
  | _ => cases side <;> rfl

theorem Assigns.grown (assigns : store.Assigns spared later) : Grown store later := by
  induction assigns with
  | none => exact .refl store
  | next _ side value _ ih => exact ih.trans (assign_grown side _ value _)

theorem Assigns.cell_eq (assigns : store.Assigns spared later) (isSpared : spared id) :
    later.cell id = store.cell id := by
  induction assigns with
  | none => rfl
  | next _ side value other ih =>
      exact (cell_assign side value _ fun same => other id same isSpared).trans ih

theorem Becomes.grown (becomes : store.Becomes later) : Grown store later := by
  induction becomes with
  | same => exact .refl store
  | assigned _ side target value ih => exact ih.trans (assign_grown side target value _)
  | evaluated _ budget node frame ih => exact ih.trans (evaluate_grown budget node frame _)
  | applied _ budget callee operands ih => exact ih.trans (applyTo_grown budget callee operands _)

theorem reaches_pair_iff :
    store.Reaches (.pair id) other ↔ other = id ∨ store.Reaches (store.cell id).head other ∨
      store.Reaches (store.cell id).tail other := by
  constructor
  · rintro ⟨_, ⟨⟩, way⟩
    rcases Relation.ReflTransGen.cases_head way with rfl | ⟨next, part, onward⟩
    · exact .inl rfl
    · rcases part with head | tail
      · exact .inr (.inl ⟨next, head, onward⟩)
      · exact .inr (.inr ⟨next, tail, onward⟩)
  · have ofPart : ∀ side, store.Reaches (store.part id side) other →
        store.Reaches (.pair id) other :=
      fun _ reaches => ⟨id, rfl, reaches.of_part.to_reflTransGen⟩
    rintro (rfl | head | tail)
    · exact ⟨_, rfl, .refl⟩
    · exact ofPart .head head
    · exact ofPart .tail tail

theorem not_reaches_of_not_pair (plain : value.isPair = false) : ¬ store.Reaches value id := by
  rintro ⟨first, rfl, _⟩
  contradiction

theorem finds_nil_iff : store.Finds value [] id ↔ value = .pair id := by
  simp [Finds, along?]

theorem finds_cons_iff {side : Side} {route : Route} :
    store.Finds (.pair id) (side :: route) other ↔
      store.Finds (store.part id side) route other := by
  simp [Finds, along?]

theorem not_finds_of_not_pair (plain : value.isPair = false) (route : Route) :
    ¬ store.Finds value route id := by
  cases route with
  | nil =>
      rw [finds_nil_iff]
      rintro rfl
      contradiction
  | cons side route => simp [Finds, along?_cons_of_not_pair plain]

namespace Built

variable {route route' : Route}

theorem reaches_iff (built : store.Built value picture cells)
    (ends : picture.Ends fun value => value.isPair = false) :
    store.Reaches value id ↔ id ∈ cells := by
  induction built with
  | atom value => simp [not_reaches_of_not_pair ends]
  | pair _ _ _ _ _ ihHead ihTail =>
      rw [reaches_pair_iff, ihHead ends.1, ihTail ends.2, Finset.mem_insert, Finset.mem_union]

theorem mem_of_finds (built : store.Built value picture cells)
    (ends : picture.Ends fun value => value.isPair = false) (finds : store.Finds value route id) :
    id ∈ cells := by
  induction built generalizing route with
  | atom value => exact absurd finds (not_finds_of_not_pair ends route)
  | pair _ _ _ _ _ ihHead ihTail =>
      cases route with
      | nil =>
          cases finds_nil_iff.mp finds
          exact Finset.mem_insert_self _ _
      | cons side route =>
          have further := finds_cons_iff.mp finds
          refine Finset.mem_insert_of_mem (Finset.mem_union.mpr ?_)
          cases side with
          | head => exact .inl (ihHead ends.1 further)
          | tail => exact .inr (ihTail ends.2 further)

theorem exists_route (built : store.Built value picture cells) (member : id ∈ cells) :
    ∃ route, store.Finds value route id := by
  induction built with
  | atom => simp at member
  | pair _ _ _ _ _ ihHead ihTail =>
      rcases Finset.mem_insert.mp member with rfl | member
      · exact ⟨[], finds_nil_iff.mpr rfl⟩
      · rcases Finset.mem_union.mp member with member | member
        · obtain ⟨route, finds⟩ := ihHead member
          exact ⟨.head :: route, finds_cons_iff.mpr finds⟩
        · obtain ⟨route, finds⟩ := ihTail member
          exact ⟨.tail :: route, finds_cons_iff.mpr finds⟩

/-- Through what is built, no two routes lead to one pair. -/
theorem route_unique (built : store.Built value picture cells)
    (ends : picture.Ends fun value => value.isPair = false) (finds : store.Finds value route id)
    (finds' : store.Finds value route' id) : route = route' := by
  induction built generalizing route route' with
  | atom value => exact absurd finds (not_finds_of_not_pair ends route)
  | @pair place head tail first last inside heads tails apart new ihHead ihTail =>
      have among : ∀ {side route}, store.Finds (.pair place) (side :: route) id →
          id ∈ first ∪ last := fun {side route} finds => by
        have further := finds_cons_iff.mp finds
        cases side with
        | head => exact Finset.mem_union_left _ (heads.mem_of_finds ends.1 further)
        | tail => exact Finset.mem_union_right _ (tails.mem_of_finds ends.2 further)
      cases route with
      | nil =>
          cases finds_nil_iff.mp finds
          cases route' with
          | nil => rfl
          | cons side route' => exact absurd (among finds') new
      | cons side route =>
          cases route' with
          | nil =>
              cases finds_nil_iff.mp finds'
              exact absurd (among finds) new
          | cons side' route' =>
              have further := finds_cons_iff.mp finds
              have further' := finds_cons_iff.mp finds'
              -- Routes that part here lead into two halves that have no pair in common.
              cases side with
              | head =>
                  cases side' with
                  | head => rw [ihHead ends.1 further further']
                  | tail =>
                      exact absurd (tails.mem_of_finds ends.2 further')
                        (Finset.disjoint_left.mp apart (heads.mem_of_finds ends.1 further))
              | tail =>
                  cases side' with
                  | head =>
                      exact absurd (tails.mem_of_finds ends.2 further)
                        (Finset.disjoint_left.mp apart (heads.mem_of_finds ends.1 further'))
                  | tail => rw [ihTail ends.2 further further']

theorem draws (built : store.Built value picture cells)
    (ends : picture.Ends fun value => value.isValue ∧ value.isPair = false)
    {opened : Finset CellId} (apart : Disjoint cells opened) :
    store.Draws opened value picture := by
  induction built generalizing opened with
  | atom value => exact .atom ends.1 ends.2
  | @pair id head tail first last inside _ _ separate new ihHead ihTail =>
      rw [Finset.disjoint_insert_left, Finset.disjoint_union_left] at apart
      obtain ⟨unopened, left, right⟩ := apart
      rw [Finset.mem_union, not_or] at new
      exact .pair unopened inside
        (ihHead ends.1 (Finset.disjoint_insert_right.mpr ⟨new.1, left⟩))
        (ihTail ends.2 (Finset.disjoint_insert_right.mpr ⟨new.2, right⟩))

end Built

/-- What there was leads to nothing but what there was, after pairs have been added. -/
theorem AddsPairs.lt_of_reaches {before after : Store} (added : AddsPairs before after)
    (closed : before.Closed) (known : before.Has value) (reaches : after.Reaches value id) :
    id < before.cells.size := by
  obtain ⟨first, rfl, way⟩ := reaches
  induction way with
  | refl => exact known
  | @tail middle last _ part ih =>
      have parts := closed middle ih
      rw [PartOf, added.kept middle ih] at part
      have there : before.Has (.pair last) := by
        rcases part with head | tail
        · exact head ▸ parts.1
        · exact tail ▸ parts.2
      exact there

theorem Built.anew {before after : Store} (built : after.Built value picture cells)
    (added : AddsPairs before after) (new : ∀ id ∈ cells, before.cells.size ≤ id)
    (ends : picture.Ends fun value => value.isValue ∧ value.isPair = false) :
    before.Anew picture value after := by
  have plain : picture.Ends fun value => value.isPair = false := ends.imp fun _ => And.right
  have isNew : ∀ id, after.Reaches value id → before.cells.size ≤ id ∧ id < after.cells.size :=
    fun id reaches =>
      have member := (built.reaches_iff plain).mp reaches
      ⟨new id member, built.lt_size id member⟩
  refine ⟨added, built.draws ends (Finset.disjoint_empty_right _), isNew, ?_,
    fun id reaches => ?_, fun later assigns => ?_⟩
  · intro closed object known id reaches reaches'
    exact Nat.not_lt.mpr (isNew id reaches').1 (added.lt_of_reaches closed known reaches)
  · obtain ⟨route, finds⟩ := built.exists_route ((built.reaches_iff plain).mp reaches)
    exact ⟨route, finds, fun other finds' => built.route_unique plain finds' finds⟩
  · have still := built.kept assigns.grown.cells_le fun id member =>
      assigns.cell_eq ((built.reaches_iff plain).mpr member)
    exact ⟨fun id => assigns.cell_eq, still.draws ends (Finset.disjoint_empty_right _)⟩

end Store

/-- Is the node a form that quotes another one? -/
inductive Object.Quotes (node : Object) : Object → Prop
  | form {label label' : Option Label} {shape : FormShape} (sequence : shape ≠ .text) :
      Quotes node (.form label shape [.reference label' (.symbol ⟨"quote"⟩), node])

/-- Wherever a node stands, it comes to a value at once: if it is evaluated by itself, and if it
is met with in the evaluation of another node. -/
structure Object.Gives (node : Object) (frame : FrameId) (before : Store) (value : Object)
    (after : Store) : Prop where
  alone : ∀ limit patience, evaluate ⟨limit + 1, patience⟩ node frame before = .ok value after
  within : ∀ (engine : Engine) position,
    engine.step position node frame before = .ok (.value value) after

theorem Object.Quotes.gives {node form value : Object} {before after : Store}
    (quotes : node.Quotes form) (quoted : node.quoted before = .ok value after) (frame : FrameId) :
    form.Gives frame before value after := by
  have steps : ∀ (engine : Engine) position,
      engine.step position form frame = .value <$> node.quoted := by
    obtain ⟨sequence⟩ := quotes
    intro engine position
    rw [Engine.step_form, if_neg sequence]
    rfl
  refine ⟨fun limit patience => ?_, fun engine position => ?_⟩
  · rw [evaluate_of_step limit patience fun engine => steps engine .tail, Budget.guard, quoted]
  · rw [steps]
    exact Eval.map_ok quoted Answer.value

/-- The data that a form quotes are new at every evaluation, in every store and every frame,
unless the form holds literals of pairs. They stand in pairs that were not there before, each of
them in one place, and what is set in other pairs changes none of these. Whatever is evaluated,
called and set after that, wherever the form is evaluated again it comes to data of the same shape
and with the same atoms, in pairs that are new again, so none of them is in the earlier data. -/
theorem quotation_fresh {node form : Object} (quotes : node.Quotes form) (proper : node.Proper)
    (pairless : ∀ value, node.Carries value → value.isPair = false) (frame : FrameId)
    (before : Store) :
    ∃ value after, form.Gives frame before value after ∧
      before.Anew node.picture value after ∧
      ∀ later, after.Becomes later → ∀ frame', ∃ value' last,
        form.Gives frame' later value' last ∧
        later.Anew node.picture value' last ∧
        ∀ id, after.Reaches value id → ¬ last.Reaches value' id := by
  have faultless := Object.Faultless.of_proper proper
  have ends : node.picture.Ends fun value => value.isValue ∧ value.isPair = false :=
    faultless.ends_picture ⟨rfl, rfl⟩ fun value carried =>
      ⟨faultless.isValue_of_carried carried, pairless value carried⟩
  have anew : ∀ (frame : FrameId) (before : Store), ∃ value after,
      form.Gives frame before value after ∧ before.Anew node.picture value after := by
    intro frame before
    obtain ⟨value, after, quoted⟩ := faultless.quoted_ok before
    obtain ⟨added, cells, built, new⟩ := Object.quoted_builds quoted
    exact ⟨value, after, quotes.gives quoted frame, built.anew added new ends⟩
  obtain ⟨value, after, gives, first⟩ := anew frame before
  refine ⟨value, after, gives, first, fun later becomes frame' => ?_⟩
  obtain ⟨value', last, gives', second⟩ := anew frame' later
  refine ⟨value', last, gives', second, fun id reaches reaches' => ?_⟩
  have old := Nat.lt_of_lt_of_le (first.new id reaches).2 becomes.grown.cells_le
  exact Nat.not_lt.mpr (second.new id reaches').1 old

/-- A list of a name and an empty list. -/
def quotedName : Object :=
  .formOf [.refer "a", .formOf []]

/-- The tail of the list is cut off after the first evaluation. The second one has the whole list
again. -/
theorem quotedName_fresh :
    ∃ value after value' last, (Object.quoteOf quotedName).Gives 0 .empty value after ∧
      (Object.quoteOf quotedName).Gives 0 ((Side.tail.assign value .nil).storeAfter after) value'
        last ∧
      last.Draws ∅ value' (.pair (.atom (.symbol ⟨"a"⟩)) (.pair (.atom .nil) (.atom .nil))) := by
  have proper : quotedName.Proper := by
    have empty : (Object.formOf []).Proper := .form (by decide) (by simp)
    refine .form (by decide) (List.forall_mem_cons.mpr ⟨.reference, ?_⟩)
    exact List.forall_mem_singleton.mpr empty
  have pairless : ∀ value, quotedName.Carries value → value.isPair = false := by
    rintro value (_ | _ | ⟨member, carried⟩)
    simp only [List.mem_cons, List.not_mem_nil, or_false] at member
    rcases member with rfl | rfl
    · cases carried
      rfl
    · cases carried with
      | element member => contradiction
  have quotes : quotedName.Quotes (.quoteOf quotedName) := .form (by decide)
  obtain ⟨value, after, gives, _, again⟩ := quotation_fresh quotes proper pairless 0 .empty
  obtain ⟨value', last, gives', anew, _⟩ := again _ (.assigned .same .tail value .nil) 0
  exact ⟨value, after, value', last, gives, gives', anew.drawn⟩

end LispCore
