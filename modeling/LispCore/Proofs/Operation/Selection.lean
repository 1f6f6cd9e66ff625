import LispCore.Proofs.Operation.Order

namespace LispCore

/-- The two ends of the line: the order in which a number is nearer to the end than another, and the
relation of a number at the end to all others. -/
inductive Toward : Ordering → Comparison → Prop
  | bottom : Toward .lt .lessOrEqual
  | top : Toward .gt .greaterOrEqual

namespace Toward

variable {before : Ordering} {relation : Comparison} {α : Type} [LinearOrder α] {a b : α}

theorem total (toward : Toward before relation) (a b : α) :
    relation.Relates a b ∨ relation.Relates b a := by
  cases toward with
  | bottom => exact le_total a b
  | top => exact (le_total a b).symm

theorem antisymm (toward : Toward before relation) (one : relation.Relates a b)
    (other : relation.Relates b a) : a = b := by
  cases toward with
  | bottom => exact le_antisymm one other
  | top => exact ge_antisymm one other

theorem compares_iff (toward : Toward before relation) :
    before.Compares a b ↔ ¬ relation.Relates b a := by
  cases toward with
  | bottom => exact lt_iff_not_ge
  | top => exact lt_iff_not_ge

end Toward

namespace Number

variable {before : Ordering} {relation : Comparison} {a b number best : Number}
  {numbers rest : List Number}

theorem compare?_eq_some_iff (proper : ¬ a.IsNaN) (properOther : ¬ b.IsNaN) :
    a.compare? b = some before ↔ before.Compares a.place b.place := by
  obtain ⟨order, found, compared⟩ := exists_compare? proper properOther
  rw [found, Option.some.injEq]
  constructor
  · rintro rfl
    exact compared
  · exact compared.inj

/-- A number is related to all of a list, and none that comes before it there is related to it. -/
def Foremost (relation : Comparison) (numbers : List Number) (number : Number) : Prop :=
  ∃ earlier later, numbers = earlier ++ number :: later ∧
    (∀ other ∈ earlier, ¬ relation.Relates other.place number.place) ∧
      ∀ other ∈ later, relation.Relates number.place other.place

namespace Foremost

theorem mem (foremost : Foremost relation numbers number) : number ∈ numbers := by
  obtain ⟨earlier, later, rfl, _⟩ := foremost
  exact List.mem_append_right earlier List.mem_cons_self

theorem relates (toward : Toward before relation) (foremost : Foremost relation numbers number)
    {other : Number} (member : other ∈ numbers) : relation.Relates number.place other.place := by
  obtain ⟨earlier, later, rfl, behind, ahead⟩ := foremost
  rcases List.mem_append.mp member with early | late
  · exact (toward.total _ _).resolve_right (behind other early)
  · rcases List.mem_cons.mp late with rfl | late
    · exact (toward.total _ _).elim id id
    · exact ahead other late

theorem find?_eq (toward : Toward before relation) (foremost : Foremost relation numbers number) :
    numbers.find? (fun number => ∀ other ∈ numbers, relation.Relates number.place other.place) =
      some number := by
  have all : ∀ other ∈ numbers, relation.Relates number.place other.place :=
    fun other member => foremost.relates toward member
  have member := foremost.mem
  obtain ⟨earlier, later, split, behind, _⟩ := foremost
  refine List.find?_eq_some_iff_append.mpr ⟨decide_eq_true all, earlier, later, split, ?_⟩
  intro other early
  have fails : ¬ ∀ another ∈ numbers, relation.Relates other.place another.place :=
    fun best => behind other early (best number member)
  simpa using fails

/-- One more number keeps the first of the best, or is the only best one. -/
theorem next (toward : Toward before relation) (foremost : Foremost relation numbers best)
    (properBest : ¬ best.IsNaN) (proper : ¬ number.IsNaN) :
    Foremost relation (numbers ++ [number])
      (if number.compare? best = some before then number else best) := by
  by_cases better : number.compare? best = some before
  · rw [if_pos better]
    rw [compare?_eq_some_iff proper properBest, toward.compares_iff] at better
    refine ⟨numbers, [], rfl, fun other member related => better ?_, nofun⟩
    exact Trans.trans (foremost.relates toward member) related
  · rw [if_neg better]
    rw [compare?_eq_some_iff proper properBest, toward.compares_iff, not_not] at better
    obtain ⟨earlier, later, rfl, behind, ahead⟩ := foremost
    refine ⟨earlier, later ++ [number], by simp, behind, ?_⟩
    intro other member
    rcases List.mem_append.mp member with member | member
    · exact ahead other member
    · rwa [List.mem_singleton.mp member]

end Foremost

/-- What is selected from a list is the first of its best numbers, if what it started with is that
of the numbers before. -/
theorem foremost_extreme (toward : Toward before relation)
    (foremost : Foremost relation numbers best)
    (proper : ∀ number ∈ numbers ++ rest, ¬ number.IsNaN) :
    Foremost relation (numbers ++ rest) (extreme before best rest) := by
  induction rest generalizing numbers best with
  | nil => rwa [List.append_nil]
  | cons number rest ih =>
      have properBest := proper best (List.mem_append_left _ foremost.mem)
      have properNext := proper number (List.mem_append_right _ List.mem_cons_self)
      rw [List.append_cons] at proper ⊢
      exact ih (foremost.next toward properBest properNext) proper

theorem foremost_singleton (relation : Comparison) (number : Number) :
    Foremost relation [number] number :=
  ⟨[], [], rfl, nofun, nofun⟩

end Number

namespace Primitive

/-- The standard primitives that select the least and the greatest number. -/
def least : Primitive :=
  .ofOperation .minimum 1 none

def greatest : Primitive :=
  .ofOperation .maximum 1 none

variable (store : Store) (first : Number) (rest : List Number)

theorem call_select {primitive : Primitive} {before : Ordering}
    (admitted : primitive.admits (first :: rest).length)
    (computes : ∀ operands, primitive.operation.arithmetic? operands =
      some (primitive.operation.select before operands)) :
    primitive.call ((first :: rest).map Number.toObject) store =
      .ok (Number.extreme before first rest).toObject store :=
  call_onFirst store admitted computes

theorem call_least :
    least.call ((first :: rest).map Number.toObject) store =
      .ok (Number.extreme .lt first rest).toObject store :=
  call_select store first rest (admits_atLeast (Nat.le_add_left 1 _)) fun _ => rfl

theorem call_greatest :
    greatest.call ((first :: rest).map Number.toObject) store =
      .ok (Number.extreme .gt first rest).toObject store :=
  call_select store first rest (admits_atLeast (Nat.le_add_left 1 _)) fun _ => rfl

end Primitive

/-- A primitive selects, of numbers without NaNs, the first that is related to all of them. -/
structure Store.SelectsFirst (store : Store) (primitive : Primitive) (relation : Comparison) :
    Prop where
  /-- It hands out that number as it is. -/
  first : ∀ numbers : List Number, numbers ≠ [] → (∀ number ∈ numbers, ¬ number.IsNaN) →
    ∃ number ∈ numbers,
      numbers.find? (fun number =>
        ∀ other ∈ numbers, relation.Relates number.place other.place) = some number ∧
      primitive.call (numbers.map Number.toObject) store = .ok number.toObject store ∧
      ∀ other ∈ numbers,
        (Primitive.comparer relation).call [number.toObject, other.toObject] store =
          .ok (.boolean true) store
  /-- In another order of the numbers it may be another, but an equal one. -/
  perm : ∀ numbers others : List Number, numbers.Perm others → numbers ≠ [] →
    (∀ number ∈ numbers, ¬ number.IsNaN) →
      ∃ number ∈ numbers, ∃ other ∈ numbers,
        primitive.call (numbers.map Number.toObject) store = .ok number.toObject store ∧
        primitive.call (others.map Number.toObject) store = .ok other.toObject store ∧
        (Primitive.comparer .equal).call [number.toObject, other.toObject] store =
          .ok (.boolean true) store

section selection

variable {store : Store} {before : Ordering} {relation : Comparison} {primitive : Primitive}

/-- The call of a primitive that selects toward an end of the line. -/
theorem exists_foremost (toward : Toward before relation)
    (calls : ∀ first rest, primitive.call ((first :: rest).map Number.toObject) store =
      .ok (Number.extreme before first rest).toObject store)
    {numbers : List Number} (nonempty : numbers ≠ [])
    (proper : ∀ number ∈ numbers, ¬ number.IsNaN) :
    ∃ number, Number.Foremost relation numbers number ∧
      primitive.call (numbers.map Number.toObject) store = .ok number.toObject store := by
  cases numbers with
  | nil => contradiction
  | cons first rest =>
      exact ⟨_, Number.foremost_extreme toward (Number.foremost_singleton relation first) proper,
        calls first rest⟩

theorem call_comparer_related {a b : Number} (proper : ¬ a.IsNaN) (properOther : ¬ b.IsNaN)
    (related : relation.Relates a.place b.place) :
    (Primitive.comparer relation).call [a.toObject, b.toObject] store =
      .ok (.boolean true) store := by
  rw [Primitive.call_comparer_pair, (Number.holds_iff relation proper properOther).mpr related]

theorem selectsFirst_of_calls (toward : Toward before relation)
    (calls : ∀ first rest, primitive.call ((first :: rest).map Number.toObject) store =
      .ok (Number.extreme before first rest).toObject store) :
    store.SelectsFirst primitive relation where
  first numbers nonempty proper := by
    obtain ⟨number, foremost, called⟩ := exists_foremost toward calls nonempty proper
    refine ⟨number, foremost.mem, foremost.find?_eq toward, called, fun other member => ?_⟩
    exact call_comparer_related (proper number foremost.mem) (proper other member)
      (foremost.relates toward member)
  perm numbers others same nonempty proper := by
    obtain ⟨number, foremost, called⟩ := exists_foremost toward calls nonempty proper
    obtain ⟨other, foremostOther, calledOther⟩ := exists_foremost toward calls
      (fun empty => nonempty (empty ▸ same).eq_nil)
      (fun other member => proper other (same.mem_iff.mpr member))
    have member := same.mem_iff.mpr foremostOther.mem
    refine ⟨number, foremost.mem, other, member, called, calledOther, ?_⟩
    refine call_comparer_related (proper number foremost.mem) (proper other member) ?_
    exact toward.antisymm (foremost.relates toward member)
      (foremostOther.relates toward (same.mem_iff.mp foremost.mem))

end selection

theorem selects_first (store : Store) :
    store.SelectsFirst .least .lessOrEqual ∧ store.SelectsFirst .greatest .greaterOrEqual :=
  ⟨selectsFirst_of_calls .bottom (Primitive.call_least store),
    selectsFirst_of_calls .top (Primitive.call_greatest store)⟩

/-- Of equal numbers of different kinds it is the first that is selected, and integers that doubles
do not tell apart are told apart. -/
theorem selections_among_equals :
    Primitive.least.call [.integer 3, .float 1, .integer 1] .empty = .ok (.float 1) .empty ∧
      Primitive.greatest.call [.float (-0), .integer 0] .empty = .ok (.float (-0)) .empty ∧
      Primitive.greatest.call [.float 9007199254740992, .integer 9007199254740993] .empty =
        .ok (.integer 9007199254740993) .empty := by
  obtain ⟨least, greatest⟩ := selects_first .empty
  refine ⟨?_, ?_, ?_⟩
  · obtain ⟨number, _, found, called, _⟩ :=
      least.first [.integer 3, .float 1, .integer 1] (by decide) (by decide +kernel)
    rw [List.find?_cons_of_neg (by decide +kernel), List.find?_cons_of_pos (by decide +kernel)]
      at found
    cases found
    exact called
  · obtain ⟨number, _, found, called, _⟩ :=
      greatest.first [.float (-0), .integer 0] (by decide) (by decide +kernel)
    rw [List.find?_cons_of_pos (by decide +kernel)] at found
    cases found
    exact called
  · obtain ⟨number, _, found, called, _⟩ :=
      greatest.first [.float 9007199254740992, .integer 9007199254740993] (by decide)
        (by decide +kernel)
    rw [List.find?_cons_of_neg (by decide +kernel), List.find?_cons_of_pos (by decide +kernel)]
      at found
    cases found
    exact called

end LispCore
