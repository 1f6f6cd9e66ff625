import LispCore.Proofs.Runs
import LispCore.Telling
import Mathlib.Logic.Relation

namespace LispCore

theorem Object.isTooLong_digitBound : (integer digitBound).isTooLong := by
  rw [isTooLong, Int.natAbs_natCast]
  simp

namespace Store

variable {store : Store} {seen : Std.TreeSet CellId compare} {pending : List Object}
  {object part : Object}

/-- What the text of an object shows of it, one level further down. -/
def shownParts (store : Store) : Object → List Object
  | .pair id => [(store.cell id).head, (store.cell id).tail]
  | object => object.contents

/-- The text of the object shows the other, which may be the object itself. -/
abbrev Shows (store : Store) : Object → Object → Prop :=
  Relation.ReflTransGen fun whole part => part ∈ store.shownParts whole

theorem shownParts_of_not_pair (plain : ∀ id, object = .pair id → False) :
    store.shownParts object = object.contents := by
  cases object with
  | pair id => exact (plain id rfl).elim
  | _ => rfl

/-- What a search has gone through once it succeeds: the pending objects, and all parts of what is
among it, but for pairs that had been seen before. -/
theorem among_of_writableAll (writable : store.writableAll seen pending) :
    ∃ among : Object → Prop,
      (∀ object ∈ pending, among object ∨ ∃ id ∈ seen, object = .pair id) ∧
      ∀ object, among object → object.isTooLong = false ∧
        ∀ part ∈ store.shownParts object, among part ∨ ∃ id ∈ seen, part = .pair id := by
  fun_induction writableAll store seen pending with
  | case1 seen => exact ⟨fun _ => False, nofun, nofun⟩
  | case2 seen id pending new ih =>
      obtain ⟨among, first, closed⟩ := ih writable
      have widen : ∀ object, (among object ∨ ∃ other ∈ seen.insert id, object = .pair other) →
          (among object ∨ object = .pair id) ∨ ∃ other ∈ seen, object = .pair other := by
        rintro object (inside | ⟨other, member, rfl⟩)
        · exact .inl (.inl inside)
        · rcases Std.TreeSet.mem_insert.mp member with same | old
          · exact .inl (.inr (congrArg Object.pair (Std.LawfulEqCmp.eq_of_compare same).symm))
          · exact .inr ⟨other, old, rfl⟩
      refine ⟨fun object => among object ∨ object = .pair id, ?_, ?_⟩
      · refine List.forall_mem_cons.mpr ⟨.inl (.inr rfl), fun object member => ?_⟩
        exact widen object (first object (by simp [member]))
      · rintro object (inside | rfl)
        · exact ⟨(closed object inside).1, fun part shown =>
            widen part ((closed object inside).2 part shown)⟩
        · refine ⟨rfl, fun part shown => widen part (first part ?_)⟩
          rcases List.mem_cons.mp shown with rfl | shown
          · exact List.mem_cons_self
          · obtain rfl := List.mem_singleton.mp shown
            exact List.mem_cons_of_mem _ List.mem_cons_self
  | case3 seen id pending old ih =>
      obtain ⟨among, rest, closed⟩ := ih writable
      by_cases member : id ∈ seen
      · exact ⟨among, List.forall_mem_cons.mpr ⟨.inr ⟨id, member, rfl⟩, rest⟩, closed⟩
      · -- the parts of a pair that was never given out are nil
        have blank : store.cell id = ⟨.nil, .nil⟩ :=
          cell_of_ge (Nat.not_lt.mp fun inside => old ⟨member, inside⟩)
        refine ⟨fun object => among object ∨ object = .pair id ∨ object = .nil, ?_, ?_⟩
        · refine List.forall_mem_cons.mpr ⟨.inl (.inr (.inl rfl)), fun object member => ?_⟩
          exact (rest object member).imp_left .inl
        · rintro object (inside | rfl | rfl)
          · exact ⟨(closed object inside).1, fun part shown =>
              ((closed object inside).2 part shown).imp_left .inl⟩
          · refine ⟨rfl, fun part shown => .inl (.inr (.inr ?_))⟩
            simpa [shownParts, blank] using shown
          · exact ⟨rfl, nofun⟩
  | case4 seen object pending plain ih =>
      obtain ⟨short, others⟩ := (Bool.and_eq_true _ _).mp writable
      obtain ⟨among, rest, closed⟩ := ih others
      refine ⟨fun other => among other ∨ other = object, ?_, ?_⟩
      · refine List.forall_mem_cons.mpr ⟨.inl (.inr rfl), fun other member => ?_⟩
        exact (rest other (List.mem_append_right _ member)).imp_left .inl
      · rintro other (inside | rfl)
        · exact ⟨(closed other inside).1, fun part shown =>
            ((closed other inside).2 part shown).imp_left .inl⟩
        · refine ⟨by simpa using short, fun part shown => ?_⟩
          rw [shownParts_of_not_pair plain] at shown
          exact (rest part (List.mem_append_left _ shown)).imp_left .inl

theorem writableAll_of_short
    (short : ∀ object ∈ pending, ∀ part, store.Shows object part → part.isTooLong = false) :
    store.writableAll seen pending := by
  fun_induction writableAll store seen pending with
  | case1 => rfl
  | case2 seen id pending new ih =>
      obtain ⟨first, rest⟩ := List.forall_mem_cons.mp short
      have parts : ∀ part ∈ store.shownParts (.pair id), ∀ further, store.Shows part further →
          further.isTooLong = false :=
        fun part shown further more => first further (.head shown more)
      refine ih (List.forall_mem_cons.mpr ⟨parts _ List.mem_cons_self,
        List.forall_mem_cons.mpr ⟨parts _ (List.mem_cons_of_mem _ List.mem_cons_self), rest⟩⟩)
  | case3 seen id pending old ih => exact ih (List.forall_mem_cons.mp short).2
  | case4 seen object pending plain ih =>
      obtain ⟨first, rest⟩ := List.forall_mem_cons.mp short
      refine (Bool.and_eq_true _ _).mpr ⟨by simp [first object .refl], ih fun part member => ?_⟩
      rcases List.mem_append.mp member with inside | later
      · rw [← shownParts_of_not_pair plain] at inside
        exact fun further more => first further (.head inside more)
      · exact rest part later

/-- The text of an object can be written if it shows no integer that is too long. -/
theorem writable_iff :
    store.writable object ↔ ∀ part, store.Shows object part → part.isTooLong = false := by
  constructor
  · intro writable
    obtain ⟨among, first, closed⟩ := among_of_writableAll writable
    have unseen : ∀ {object}, (among object ∨ ∃ id ∈ (∅ : Std.TreeSet CellId compare),
        object = .pair id) → among object := by
      rintro object (inside | ⟨id, member, -⟩)
      · exact inside
      · exact absurd member Std.TreeSet.not_mem_emptyc
    intro part shown
    suffices inside : among part from (closed part inside).1
    induction shown with
    | refl => exact unseen (first object List.mem_cons_self)
    | tail _ shown inside => exact unseen ((closed _ inside).2 _ shown)
  · intro short
    exact writableAll_of_short (by simpa using short)

theorem writable_iff_parts :
    store.writable object ↔
      object.isTooLong = false ∧ ∀ part ∈ store.shownParts object, store.writable part := by
  simp only [writable_iff]
  constructor
  · intro short
    exact ⟨short object .refl, fun part member further more => short further (.head member more)⟩
  · rintro ⟨short, others⟩ part shown
    rcases Relation.ReflTransGen.cases_head shown with rfl | ⟨next, member, more⟩
    · exact short
    · exact others next member part more

/-- What holds nothing else can be written if it is not too long itself. -/
theorem writable_of_bare (plain : object.isPair = false) (bare : object.contents = []) :
    store.writable object = !object.isTooLong := by
  have alone : store.shownParts object = [] := by
    rw [shownParts_of_not_pair fun id same => by simp [same, Object.isPair] at plain, bare]
  rw [Bool.eq_iff_iff, writable_iff_parts, alone]
  simp

theorem writable_digitBound (store : Store) : store.writable (.integer digitBound) = false := by
  rw [writable_of_bare rfl rfl, Object.isTooLong_digitBound]
  rfl

theorem not_writable_of_part (shown : part ∈ store.shownParts object)
    (tooLong : store.writable part = false) : store.writable object = false := by
  rw [← Bool.not_eq_true, writable_iff_parts]
  intro writable
  rw [writable.2 part shown] at tooLong
  contradiction

/-- Only the pairs of a store matter to what it can write. -/
theorem writable_congr {other : Store} (same : ∀ id, other.cell id = store.cell id) :
    other.writable object = store.writable object := by
  have parts : other.shownParts = store.shownParts := by
    funext object
    cases object with
    | pair id => simp only [shownParts, same]
    | _ => rfl
  rw [Bool.eq_iff_iff, writable_iff, writable_iff, Shows, Shows, parts]

/-- Objects of a kind that is not too long, and shows only its like, can be written. -/
theorem writable_of_closed {kind : Object → Prop}
    (short : ∀ object, kind object → object.isTooLong = false)
    (closed : ∀ whole, kind whole → ∀ part ∈ store.shownParts whole, kind part)
    (holds : kind object) : store.writable object := by
  refine writable_iff.mpr fun part shown => short part ?_
  induction shown with
  | refl => exact holds
  | tail _ member inside => exact closed _ inside _ member

end Store

namespace Fault

variable {fault : Fault} {store : Store} {object : Object}

theorem told_of_writable (writable : ∀ object ∈ fault.shows, store.writable object) :
    fault.told store = fault := by
  rw [told, if_pos (List.all_eq_true.mpr writable)]

theorem told_of_shows (shown : fault.shows = [object]) :
    fault.told store = if store.writable object then fault else .host .tooLong := by
  simp [told, shown]

theorem told_told (fault : Fault) (store : Store) :
    (fault.told store).told store = fault.told store := by
  by_cases writable : fault.shows.all store.writable
  · have same : fault.told store = fault := if_pos writable
    rw [same, same]
  · have host : fault.told store = .host .tooLong := if_neg writable
    rw [host]
    rfl

end Fault

theorem toldOutcome_ok_iff {α : Type} {store : Store} {outcome : Except Fault α} {value : α} :
    toldOutcome store outcome = .ok value ↔ outcome = .ok value := by
  cases outcome with
  | ok result => exact Iff.rfl
  | error fault =>
      have told : toldOutcome store (.error fault : Except Fault α) = .error (fault.told store) :=
        rfl
      simp [told]

namespace Eval

variable {α : Type} {run : Eval α} {before after : Store}

theorem told_of_ok {value : α} (ended : run before = .ok value after) :
    run.told before = .ok value after := by
  rw [told, ended]

theorem told_of_fault {fault : Fault} (ended : run before = .error (.fault fault) after) :
    run.told before = .error (.fault (fault.told after)) after := by
  rw [told, ended]

end Eval

end LispCore
