import LispCore.Proofs.Quotation.Shape

namespace LispCore

open Store (AddsPairs)

namespace Object

/-- The values, other than lists, that a host writes into nested data. -/
def isPlainAtom : Object → Bool
  | .symbol _ | .boolean _ | .float _ | .string _ => true
  | .integer value => inIntegerRange value
  | _ => false

/-- Nested lists of plain atoms. -/
inductive IsNested : Object → Prop
  | atom {value : Object} (isAtom : value.isPlainAtom) : IsNested value
  | list {label : Option Label} {items : List Object} (each : ∀ item ∈ items, IsNested item) :
      IsNested (.sequence label .list items)

mutual

/-- Nested data without the labels that tell which container is which. -/
def unlabelled : Object → Object
  | .sequence _ kind items => .sequence none kind (unlabelledAll items)
  | object => object

def unlabelledAll : List Object → List Object
  | [] => []
  | item :: items => unlabelled item :: unlabelledAll items

end

/-- The source of a form that quotes the data. -/
def quoteSource (label : Option Label) (datum : Object) : Object :=
  .sequence label .list [.symbol ⟨"quote"⟩, datum]

end Object

namespace Store

/-- What a host makes of a value that has at most the given number of lists inside each other:
lists of what it makes of the elements. A list that is not proper it does not take. -/
def asData (store : Store) : Nat → Object → Option Object
  | 0, _ => none
  | levels + 1, value =>
      if value.isNil || value.isPair then do
        let items ← store.listItems? value
        let data ← items.mapM (store.asData levels)
        some (.sequence none .list data)
      else some value

variable {store : Store} {value : Object} {nodes : List Object} {cells : Finset CellId}

theorem Built.lists (built : store.Built value (Object.listPicture nodes) cells) :
    ∃ items, store.Lists value items ∧
      List.Forall₂ (fun item node => ∃ cells, store.Built item node.picture cells) items nodes := by
  induction nodes generalizing value cells with
  | nil =>
      cases built
      exact ⟨[], .nil, .nil⟩
  | cons node nodes ih =>
      cases built with
      | @pair id _ _ first last inside heads tails =>
          obtain ⟨items, rest, each⟩ := ih tails
          exact ⟨(store.cell id).head :: items, .pair inside rfl rest, .cons ⟨first, heads⟩ each⟩

theorem Built.length_le_card (built : store.Built value (Object.listPicture nodes) cells) :
    nodes.length ≤ cells.card := by
  induction nodes generalizing value cells with
  | nil => exact Nat.zero_le _
  | cons node nodes ih =>
      cases built with
      | @pair id _ _ first last inside heads tails apart new =>
          rw [Finset.card_insert_of_notMem new, Finset.card_union_of_disjoint apart]
          have rest := ih tails
          rw [List.length_cons]
          omega

/-- Such a list is found to be proper, as it is made of no more pairs than there are. -/
theorem Built.listItems? (built : store.Built value (Object.listPicture nodes) cells) :
    ∃ items, store.listItems? value = some items ∧
      List.Forall₂ (fun item node => ∃ cells, store.Built item node.picture cells) items nodes := by
  obtain ⟨items, lists, each⟩ := built.lists
  have few : items.length ≤ store.cells.size := by
    have among : cells ⊆ Finset.range store.cells.size := fun id member =>
      Finset.mem_range.mpr (built.lt_size id member)
    have pairs := Finset.card_le_card among
    rw [Finset.card_range] at pairs
    rw [each.length_eq]
    exact Nat.le_trans built.length_le_card pairs
  have ended : (store.follow items.length value).2.isPair = false := by
    rw [lists.follow]
    rfl
  refine ⟨items, ?_, each⟩
  unfold Store.listItems? Store.chain
  rw [follow_of_ended ended few, lists.follow]

end Store

namespace Object

variable {datum : Object} {store : Store}

theorem toNodes_ok_iff {items nodes : List Object} :
    toNodes store items = .ok nodes ↔
      List.Forall₂ (fun item node => item.toNode store = .ok node) items nodes := by
  induction items generalizing nodes with
  | nil => simp [toNodes, eq_comm]
  | cons item items ih =>
      rw [List.forall₂_cons_left_iff, toNodes]
      cases made : item.toNode store with
      | error fault => simp [bind, Except.bind]
      | ok node =>
          cases rest : toNodes store items with
          | error fault =>
              have none : ∀ others, ¬ List.Forall₂ (fun item node => item.toNode store = .ok node)
                  items others := fun others => by simp [← ih, rest]
              simp [bind, Except.bind, none]
          | ok others =>
              simp only [rest, Except.ok.injEq] at ih
              simp only [bind, Except.bind, Except.ok.injEq, ← ih]
              simp [eq_comm]

theorem toNode_atom (store : Store) (isAtom : datum.isPlainAtom) :
    ∃ node, datum.toNode store = .ok node ∧ node.Faultless ∧ node.picture = .atom datum := by
  cases datum with
  | symbol name => exact ⟨_, rfl, .reference name, rfl⟩
  | integer value =>
      have isValue : (Object.integer value).isValue := isAtom
      exact ⟨_, by rw [toNode, if_pos isValue] <;> simp, .literal isValue, rfl⟩
  | boolean | float | string => exact ⟨_, rfl, .literal rfl, rfl⟩
  | _ => contradiction

theorem toNode_list_ok_iff {label : Option Label} {items : List Object} {node : Object} :
    (sequence label .list items).toNode store = .ok node ↔
      ∃ nodes, List.Forall₂ (fun item node => item.toNode store = .ok node) items nodes ∧
        node = .form none .tuple nodes := by
  simp only [← toNodes_ok_iff, toNode]
  cases toNodes store items <;> simp [Except.map, eq_comm]

theorem IsNested.toNode (store : Store) (nested : datum.IsNested) :
    ∃ node, datum.toNode store = .ok node ∧ node.Faultless := by
  induction nested with
  | atom isAtom =>
      obtain ⟨node, made, faultless, _⟩ := toNode_atom store isAtom
      exact ⟨node, made, faultless⟩
  | @list label items each ih =>
      have all : ∃ nodes, List.Forall₂ (fun item node => item.toNode store = .ok node) items nodes ∧
          ∀ node ∈ nodes, node.Faultless := by
        clear each
        induction items with
        | nil => exact ⟨[], .nil, by simp⟩
        | cons item items ihItems =>
            obtain ⟨⟨node, made, one⟩, others⟩ := List.forall_mem_cons.mp ih
            obtain ⟨nodes, madeAll, rest⟩ := ihItems others
            exact ⟨node :: nodes, .cons made madeAll, List.forall_mem_cons.mpr ⟨one, rest⟩⟩
      obtain ⟨nodes, made, faultless⟩ := all
      exact ⟨_, toNode_list_ok_iff.mpr ⟨nodes, made, rfl⟩, .form faultless⟩

end Object

namespace Store

variable {store : Store} {datum node value : Object} {cells : Finset CellId}

theorem asData_list {nodes items data : List Object} {levels : Nat}
    (built : store.Built value (Object.listPicture nodes) cells)
    (proper : store.listItems? value = some items)
    (each : items.mapM (store.asData levels) = some data) :
    store.asData (levels + 1) value = some (.sequence none .list data) := by
  have isList : value.isNil || value.isPair := by
    cases nodes with
    | nil => cases built; rfl
    | cons => cases built; rfl
  rw [asData, if_pos isList, proper]
  simp [each]

/-- What is built in the shape of nested data is taken back as just these data. -/
theorem Built.asData (built : store.Built value node.picture cells) (nested : datum.IsNested)
    {other : Store} (made : datum.toNode other = .ok node) {levels : Nat} (enough : sizeOf datum ≤ levels) :
    store.asData levels value = some datum.unlabelled := by
  induction nested generalizing value node cells levels with
  | @atom datum isAtom =>
      obtain ⟨other, made', _, shape⟩ := Object.toNode_atom other isAtom
      obtain rfl := Except.ok.inj (made.symm.trans made')
      rw [shape] at built
      cases built
      obtain ⟨levels, rfl⟩ := Nat.exists_eq_add_of_le' (Nat.le_trans datum.sizeOf_pos enough)
      cases datum with
      | symbol | boolean | float | string | integer => rfl
      | _ => contradiction
  | @list label items each ih =>
      obtain ⟨levels, rfl⟩ := Nat.exists_eq_add_of_le' (Nat.le_trans (Object.sizeOf_pos _) enough)
      obtain ⟨nodes, madeAll, rfl⟩ := Object.toNode_list_ok_iff.mp made
      obtain ⟨values, proper, builtAll⟩ := built.listItems?
      have smaller : ∀ item ∈ items, sizeOf item ≤ levels := fun item member => by
        have less := List.sizeOf_lt_of_mem member
        have whole : sizeOf items < sizeOf (Object.sequence label .list items) := by
          simp +arith
        omega
      rw [Object.unlabelled]
      refine asData_list built proper ?_
      clear proper built made each enough
      -- Along the list now, with the way back for every item from the outer induction.
      induction madeAll generalizing values with
      | nil =>
          cases builtAll
          rfl
      | @cons item node items nodes first _ ihItems =>
          cases builtAll with
          | @cons value _ values _ here others =>
              obtain ⟨one, rest⟩ := List.forall_mem_cons.mp ih
              obtain ⟨small, smallRest⟩ := List.forall_mem_cons.mp smaller
              obtain ⟨cells, here⟩ := here
              rw [List.mapM_cons, one here first small, Object.unlabelledAll]
              rw [ihItems rest values others smallRest]
              rfl

end Store

/-- In every frame of every store, to evaluate a list of the name `quote` and nested data comes
to something. It leaves all frames, functions and records as they are, and all pairs that there
were; and what it comes to is taken back, at all levels, as the data that were written. -/
theorem quote_roundtrips {datum : Object} (nested : datum.IsNested) (label : Option Label)
    (limit patience : Nat) (frame : FrameId) (before : Store) :
    ∃ value after,
      Interpreter.evaluateSource ⟨limit + 1, patience⟩ frame (.quoteSource label datum) before =
        .ok value after ∧
      AddsPairs before after ∧
      ∃ enough, ∀ levels, enough ≤ levels → after.asData levels value = some datum.unlabelled := by
  obtain ⟨node, made, faultless⟩ := nested.toNode before
  obtain ⟨value, after, quoted⟩ := faultless.quoted_ok before
  obtain ⟨added, cells, built, _⟩ := Object.quoted_builds quoted
  have source : (Object.quoteSource label datum).toNode before = .ok (.quoteOf node) :=
    Object.toNode_list_ok_iff.mpr ⟨_, .cons rfl (.cons made .nil), rfl⟩
  refine ⟨value, after, ?_, added, sizeOf datum, fun _ => built.asData nested made⟩
  change (Eval.ofExcept ((Object.quoteSource label datum).toNode before) >>= fun node =>
    evaluate ⟨limit + 1, patience⟩ node frame) before = _
  rw [source, ← quoted, ← evaluate_quoteOf limit patience node frame]
  rfl

/-- A list of a keyword, an empty list, and a list of a number and a string. -/
def nestedKeyword : Object :=
  .sequence none .list [.symbol ⟨"if"⟩, .sequence none .list [],
    .sequence none .list [.integer 1, .string "s"]]

theorem nestedKeyword_roundtrips :
    nestedKeyword.IsNested ∧ ∃ value after,
      Interpreter.evaluateSource ⟨1, 0⟩ 0 (.quoteSource none nestedKeyword) .empty =
        .ok value after ∧
      ∃ levels, after.asData levels value = some nestedKeyword := by
  have nested : nestedKeyword.IsNested := by
    have numbered : (Object.sequence none .list [.integer 1, .string "s"]).IsNested :=
      .list (List.forall_mem_cons.mpr ⟨.atom rfl, List.forall_mem_singleton.mpr (.atom rfl)⟩)
    refine .list (List.forall_mem_cons.mpr ⟨.atom rfl, ?_⟩)
    exact List.forall_mem_cons.mpr ⟨.list (by simp), List.forall_mem_singleton.mpr numbered⟩
  obtain ⟨value, after, evaluated, _, enough, back⟩ := quote_roundtrips nested none 0 0 0 .empty
  exact ⟨nested, value, after, evaluated, enough, back enough (Nat.le_refl _)⟩

end LispCore
