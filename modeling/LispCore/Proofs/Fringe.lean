import LispCore.Proofs.Printing
import LispCore.Proofs.Telling
import LispCore.Walk

namespace LispCore

namespace Visitor

variable {σ : Type} {store : Store} {object : Object} {id : CellId} {kind : Kind}

theorem visitWithin_of_not_pair (visitor : Visitor σ) (plain : object.isPair = false) (steps : Nat) :
    visitor.visitWithin store steps object = visitor.visitAtom store object := by
  cases object with
  | pair id => contradiction
  | _ => cases steps <;> rfl

theorem visitWithin_last (visitor : Visitor σ) (ends : (store.cell id).tail = .nil) (steps : Nat) :
    visitor.visitWithin store (steps + 2) (.pair id) =
      visitor.visitWithin store steps (store.cell id).head := by
  rw [visitWithin, visitPairWithin, ends]
  exact bind_pure _

/-- The loop goes on with a pair as a walk from there would, and visits any other end. -/
theorem visitWithin_more (visitor : Visitor σ) (goesOn : (store.cell id).tail ≠ .nil) (steps : Nat) :
    visitor.visitWithin store (steps + 2) (.pair id) = (do
      visitor.visitWithin store steps (store.cell id).head
      visitor.visitWithin store (steps + 1) (store.cell id).tail) := by
  rw [visitWithin, visitPairWithin]
  cases tail : (store.cell id).tail with
  | nil => contradiction
  | pair next => rfl
  | _ => cases steps <;> rfl

/-- What stops a visitor at an atom without a kind: the message shows the atom. -/
def unvisited (store : Store) (leaf : Object) : Fault :=
  if store.writable leaf then .notValue leaf else .host .tooLong

theorem visitAtom_of_no_kind (visitor : Visitor σ) (foreign : object.kind? = none) :
    visitor.visitAtom store object = throw (unvisited store object) := by
  have told : (Fault.notValue object).told store = unvisited store object := Fault.told_of_shows rfl
  rw [← told]
  cases object with
  | alien | sequence | literal | reference | form => rfl
  | _ => contradiction

theorem forM_visitAtom_stopped (visitor : Visitor σ) {leaf : Object} (foreign : leaf.kind? = none)
    (before after : List Object) :
    forM (before ++ leaf :: after) (visitor.visitAtom store) = (do
      forM before (visitor.visitAtom store)
      throw (unvisited store leaf)) := by
  rw [List.forM_append, List.forM_cons, visitor.visitAtom_of_no_kind foreign]
  rfl

theorem recorder_visitAtom (plain : object.isPair = false) (known : object.kind? = some kind) :
    recorder.visitAtom store object = note kind object := by
  cases object with
  | pair | alien | sequence | literal | reference | form => contradiction
  | _ =>
      cases known
      rfl

theorem run_recorder {leaves : List Object} {kinds : List Kind}
    (plain : ∀ leaf ∈ leaves, leaf.isPair = false) (known : leaves.map Object.kind? = kinds.map some)
    (met : Array (Kind × Object)) :
    (forM leaves (recorder.visitAtom store)).run.run met =
      some (.ok (), met ++ (kinds.zip leaves).toArray) := by
  induction leaves generalizing kinds met with
  | nil =>
      obtain rfl := List.map_eq_nil_iff.mp known.symm
      simp
  | cons leaf leaves ih =>
      obtain ⟨kind, kinds, rfl, first, rest⟩ := List.map_eq_cons_iff.mp known.symm
      obtain ⟨plainFirst, plainRest⟩ := List.forall_mem_cons.mp plain
      rw [List.forM_cons, recorder_visitAtom plainFirst first.symm]
      change (forM leaves (recorder.visitAtom store)).run.run (met.push (kind, leaf)) = _
      rw [ih plainRest rest.symm]
      simp

theorem run_recorder_stopped {before after : List Object} {leaf : Object} {kinds : List Kind}
    (plain : ∀ atom ∈ before, atom.isPair = false) (known : before.map Object.kind? = kinds.map some)
    (foreign : leaf.kind? = none) (met : Array (Kind × Object)) :
    (forM (before ++ leaf :: after) (recorder.visitAtom store)).run.run met =
      some (.error (unvisited store leaf), met ++ (kinds.zip before).toArray) := by
  rw [recorder.forM_visitAtom_stopped foreign, ExceptT.run_bind, StateT.run_bind,
    run_recorder plain known]
  rfl

end Visitor

namespace Store

/-- The atoms of an object in reading order: those of the head of a pair, and then those of its tail,
unless the tail is the nil at the end of a list. -/
inductive Fringe (store : Store) : Object → List Object → Prop
  | atom {object : Object} (plain : object.isPair = false) : Fringe store object [object]
  | last {id : CellId} {heads : List Object} (first : Fringe store (store.cell id).head heads)
      (ends : (store.cell id).tail = .nil) : Fringe store (.pair id) heads
  | more {id : CellId} {heads tails : List Object}
      (first : Fringe store (store.cell id).head heads) (goesOn : (store.cell id).tail ≠ .nil)
      (rest : Fringe store (store.cell id).tail tails) : Fringe store (.pair id) (heads ++ tails)

variable {store : Store} {value : Object} {leaves : List Object} {opened : Finset CellId}
  {id : CellId} {steps : Nat}

/-- Fewer pairs are left to be opened if one is that does not turn up inside of the open ones. -/
theorem unopened_lt_of_apart (inside : id < store.cells.size)
    (apart : ∀ other ∈ opened, ¬ store.Reaches (.pair id) other) :
    (Finset.range store.cells.size \ insert id opened).card <
      (Finset.range store.cells.size \ opened).card :=
  unopened_lt inside fun old => apart id old ⟨id, rfl, .refl⟩

theorem MeetsCircle.isPair (circular : store.MeetsCircle value) : value.isPair := by
  obtain ⟨_, ⟨_, rfl, _⟩, _⟩ := circular
  rfl

namespace Fringe

theorem unique (fringe : store.Fringe value leaves) {other : List Object}
    (again : store.Fringe value other) : other = leaves := by
  induction fringe generalizing other with
  | atom plain =>
      cases again with
      | atom => rfl
      | _ => contradiction
  | last _ ends ih =>
      cases again with
      | atom => contradiction
      | last first => exact ih first
      | more _ goesOn => exact absurd ends goesOn
  | more _ goesOn _ ihHead ihTail =>
      cases again with
      | atom => contradiction
      | last _ ends => exact absurd ends goesOn
      | more first _ rest => rw [ihHead first, ihTail rest]

theorem isPair_eq_false (fringe : store.Fringe value leaves) :
    ∀ leaf ∈ leaves, leaf.isPair = false := by
  induction fringe with
  | atom plain => simpa using plain
  | last _ _ ih => exact ih
  | more _ _ _ ihHead ihTail =>
      exact fun leaf member => (List.mem_append.mp member).elim (ihHead leaf) (ihTail leaf)

theorem not_meetsCircle (fringe : store.Fringe value leaves) : ¬ store.MeetsCircle value := by
  intro circular
  induction fringe with
  | atom plain => exact absurd circular.isPair (by simp [plain])
  | last _ ends ih =>
      rcases circular.in_part with head | tail
      · exact ih head
      · exact absurd tail.isPair (by simp [ends, Object.isPair])
  | more _ _ _ ihHead ihTail => exact circular.in_part.elim ihHead ihTail

theorem pair {heads tails : List Object} (first : store.Fringe (store.cell id).head heads)
    (rest : store.Fringe (store.cell id).tail tails) : ∃ leaves, store.Fringe (.pair id) leaves := by
  by_cases ends : (store.cell id).tail = .nil
  · exact ⟨_, .last first ends⟩
  · exact ⟨_, .more first ends rest⟩

/-- Any visitor is called for the atoms of the fringe in turn, if there are steps for all pairs but
those around the value. -/
theorem visitWithin_eq (fringe : store.Fringe value leaves)
    (apart : ∀ id ∈ opened, ¬ store.Reaches value id)
    (enough : 2 * (Finset.range store.cells.size \ opened).card + 2 ≤ steps) {σ : Type}
    (visitor : Visitor σ) :
    visitor.visitWithin store steps value = forM leaves (visitor.visitAtom store) := by
  induction fringe generalizing opened steps with
  | atom plain =>
      rw [visitor.visitWithin_of_not_pair plain]
      exact (bind_pure _).symm
  | @last id heads first ends ih =>
      have free := (Fringe.last first ends).not_meetsCircle
      obtain ⟨steps, rfl⟩ := Nat.exists_eq_add_of_le' (Nat.le_of_add_left_le enough)
      rw [visitor.visitWithin_last ends]
      by_cases inside : id < store.cells.size
      · have fewer := unopened_lt_of_apart inside apart
        exact ih (apart_part .head free apart) (by omega)
      · -- what is read there is a list of nil
        rw [cell_of_ge (Nat.not_lt.mp inside)] at first ⊢
        rw [visitor.visitWithin_of_not_pair rfl, (Fringe.atom rfl).unique first]
        exact (bind_pure _).symm
  | @more id heads tails first goesOn rest ihHead ihTail =>
      have free := (Fringe.more first goesOn rest).not_meetsCircle
      have inside : id < store.cells.size := by
        by_contra beyond
        exact goesOn (by rw [cell_of_ge (Nat.not_lt.mp beyond)])
      have fewer := unopened_lt_of_apart inside apart
      obtain ⟨steps, rfl⟩ := Nat.exists_eq_add_of_le' (Nat.le_of_add_left_le enough)
      rw [visitor.visitWithin_more goesOn, ihHead (apart_part .head free apart) (by omega),
        ihTail (apart_part .tail free apart) (by omega), List.forM_append]

theorem visit_eq (fringe : store.Fringe value leaves) {σ : Type} (visitor : Visitor σ) :
    visitor.visit store value = forM leaves (visitor.visitAtom store) := by
  have apart : ∀ id ∈ (∅ : Finset CellId), ¬ store.Reaches value id := by simp
  exact fringe.visitWithin_eq apart (by simp) visitor

end Fringe

theorem exists_fringe (opened : Finset CellId) (free : ¬ store.MeetsCircle value)
    (apart : ∀ id ∈ opened, ¬ store.Reaches value id) : ∃ leaves, store.Fringe value leaves := by
  -- with each pair on the way down, one less is left that may still be met
  induction left : (Finset.range store.cells.size \ opened).card using Nat.strongRecOn
    generalizing opened value with
  | ind count ih =>
      subst left
      cases value with
      | pair id =>
          by_cases inside : id < store.cells.size
          · have fewer := unopened_lt_of_apart inside apart
            have part : ∀ side, ∃ leaves, store.Fringe (store.part id side) leaves := fun side =>
              ih _ fewer _ (fun circular => free (.of_part side circular))
                (apart_part side free apart) rfl
            obtain ⟨heads, first⟩ := part .head
            obtain ⟨tails, rest⟩ := part .tail
            exact first.pair rest
          · have blank := cell_of_ge (Nat.not_lt.mp inside)
            have first : store.Fringe (store.cell id).head [.nil] := by
              rw [blank]
              exact .atom rfl
            exact ⟨_, .last first (by rw [blank])⟩
      | _ => exact ⟨_, .atom rfl⟩

theorem exists_fringe_iff (store : Store) (value : Object) :
    (∃ leaves, store.Fringe value leaves) ↔ ¬ store.MeetsCircle value :=
  ⟨fun ⟨_, fringe⟩ => fringe.not_meetsCircle,
    fun free => exists_fringe ∅ free (by simp)⟩

/-- A walk through the value meets these atoms, one after the other, and nothing else. -/
structure WalksAlong (store : Store) (value : Object) (leaves : List Object) : Prop where
  /-- Whatever the visitor, it is called for each of them. -/
  calls : ∀ {σ : Type} (visitor : Visitor σ),
    visitor.visit store value = forM leaves (visitor.visitAtom store)
  /-- One that has no kind stops any visitor, which has been called for those before. -/
  stops : ∀ {σ : Type} (visitor : Visitor σ) (before : List Object) (leaf : Object)
    (after : List Object), leaves = before ++ leaf :: after → leaf.kind? = none →
      visitor.visit store value = do
        forM before (visitor.visitAtom store)
        throw (Visitor.unvisited store leaf)
  /-- If all have kinds, the walk ends, and each is met as what it is. -/
  recorded : ∀ kinds : List Kind, leaves.map Object.kind? = kinds.map some →
    store.walk? value = some ⟨kinds.zip leaves, none⟩
  /-- If one has no kind, the walk ends there, and those before are met as what they are. -/
  cutShort : ∀ (before : List Object) (leaf : Object) (after : List Object) (kinds : List Kind),
    leaves = before ++ leaf :: after → before.map Object.kind? = kinds.map some →
      leaf.kind? = none →
        store.walk? value = some ⟨kinds.zip before, some (Visitor.unvisited store leaf)⟩

theorem Fringe.walksAlong (fringe : store.Fringe value leaves) : store.WalksAlong value leaves where
  calls := fringe.visit_eq
  stops visitor before leaf after split foreign := by
    rw [fringe.visit_eq, split, visitor.forM_visitAtom_stopped foreign]
  recorded kinds known := by
    rw [walk?, fringe.visit_eq, Visitor.run_recorder fringe.isPair_eq_false known]
    simp
  cutShort before leaf after kinds split known foreign := by
    subst split
    have plain : ∀ atom ∈ before, atom.isPair = false := fun atom member =>
      fringe.isPair_eq_false atom (List.mem_append_left _ member)
    rw [walk?, fringe.visit_eq, Visitor.run_recorder_stopped plain known foreign]
    simp

end Store

/-- A value in which no pair reaches itself has one fringe, and a walk through it meets just the
atoms of the fringe, in order and each as what it is, up to the first that is of no kind of the
language. That one is refused, if it can be written. -/
theorem atoms_in_reading_order {store : Store} {value : Object}
    (free : ¬ store.MeetsCircle value) :
    ∃ leaves, (∀ other, store.Fringe value other ↔ other = leaves) ∧
      store.WalksAlong value leaves := by
  obtain ⟨leaves, fringe⟩ := (store.exists_fringe_iff value).mpr free
  refine ⟨leaves, fun other => ⟨fringe.unique, ?_⟩, fringe.walksAlong⟩
  rintro rfl
  exact fringe

/-- A list of the host is an atom without a kind, but what it holds may be too long to be shown in
the message that says so. -/
theorem unwritableLeaf_stops :
    Object.kind? (.sequence none .list [.integer digitBound]) = none ∧
      Store.empty.walk? (.sequence none .list [.integer digitBound]) =
        some ⟨[], some (.host .tooLong)⟩ := by
  refine ⟨rfl, ?_⟩
  have tooLong : Store.empty.writable (.sequence none .list [.integer digitBound]) = false :=
    Store.not_writable_of_part List.mem_cons_self (Store.writable_digitBound .empty)
  have alone : Store.empty.Fringe (.sequence none .list [.integer digitBound]) _ := .atom rfl
  rw [alone.walksAlong.cutShort [] _ [] [] rfl rfl rfl, Visitor.unvisited, tooLong]
  rfl

namespace Store

/-- The pair 2 is a dotted list of a list, nil and something foreign; the pair 3 holds that list
twice. -/
def nested : Store :=
  { empty with cells :=
      #[⟨.boolean true, .nil⟩, ⟨.alien .absent, .integer 4⟩, ⟨.pair 0, .pair 4⟩, ⟨.pair 0, .pair 0⟩,
        ⟨.nil, .pair 1⟩] }

theorem nested_fringe :
    nested.Fringe (.pair 2) [.boolean true, .nil, .alien .absent, .integer 4] ∧
      nested.Fringe (.pair 3) [.boolean true, .boolean true] := by
  have inner : nested.Fringe (.pair 0) [.boolean true] := .last (.atom rfl) rfl
  have twice : nested.Fringe (.pair 3) ([.boolean true] ++ [.boolean true]) :=
    .more inner (by simp [nested, cell]) inner
  have dotted : nested.Fringe (.pair 1) ([.alien .absent] ++ [.integer 4]) :=
    .more (.atom rfl) (by simp [nested, cell]) (.atom rfl)
  have rest : nested.Fringe (.pair 4) ([.nil] ++ [.alien .absent, .integer 4]) :=
    .more (.atom rfl) (by simp [nested, cell]) dotted
  have whole : nested.Fringe (.pair 2) ([.boolean true] ++ [.nil, .alien .absent, .integer 4]) :=
    .more inner (by simp [nested, cell]) rest
  exact ⟨whole, twice⟩

end Store

theorem nested_walks :
    ¬ Store.nested.MeetsCircle (.pair 2) ∧ ¬ Store.nested.MeetsCircle (.pair 3) ∧
      Store.nested.walk? (.pair 2) =
        some ⟨[(.boolean, .boolean true), (.nil, .nil)], some (.notValue (.alien .absent))⟩ ∧
      Store.nested.walk? (.pair 3) =
        some ⟨[(.boolean, .boolean true), (.boolean, .boolean true)], none⟩ := by
  obtain ⟨dotted, twice⟩ := Store.nested_fringe
  obtain ⟨_, only, walks⟩ := atoms_in_reading_order dotted.not_meetsCircle
  obtain ⟨_, onlyTwice, walksTwice⟩ := atoms_in_reading_order twice.not_meetsCircle
  obtain rfl := (only _).mp dotted
  obtain rfl := (onlyTwice _).mp twice
  refine ⟨dotted.not_meetsCircle, twice.not_meetsCircle, ?_, ?_⟩
  · have told : Visitor.unvisited Store.nested (.alien .absent) = .notValue (.alien .absent) :=
      if_pos (Store.writable_of_bare rfl rfl)
    rw [← told]
    exact walks.cutShort [.boolean true, .nil] (.alien .absent) [.integer 4] [.boolean, .nil]
      rfl rfl rfl
  · exact walksTwice.recorded [.boolean, .boolean] rfl

end LispCore
