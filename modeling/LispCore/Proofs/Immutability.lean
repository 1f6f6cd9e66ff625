import LispCore.Proofs.Circles
import LispCore.Proofs.Presence
import LispCore.Proofs.References

namespace LispCore

namespace Store

/-- Development without a primitive that writes pairs. -/
abbrev Accrues : Store → Store → Prop :=
  Develops Operation.SparesPairs

variable {store before after : Store} {id part : CellId}

theorem not_partOf_of_ge (new : store.cells.size ≤ id) : ¬ store.PartOf id part := by
  simp [PartOf, cell_of_ge new]

theorem Whole.part_lt {admitted : Operation → Prop} (whole : store.Whole admitted)
    (partOf : store.PartOf id part) : part < store.cells.size := by
  rcases partOf with first | last
  · exact (first ▸ whole.head id : store.Knows admitted (.pair part))
  · exact (last ▸ whole.tail id : store.Knows admitted (.pair part))

theorem Change.cell_eq (change : Change Operation.SparesPairs before after)
    (old : id < before.cells.size) : after.cell id = before.cell id := by
  cases change with
  | cons => exact before.cell_cons_of_lt _ _ old
  | setHead _ _ possible | setTail _ _ possible => exact False.elim possible
  | _ => rfl

theorem Change.part_lt (change : Change Operation.SparesPairs before after)
    (new : before.cells.size ≤ id) (partOf : after.PartOf id part) : part < id := by
  cases change with
  | @cons head tail first last =>
      by_cases made : id = before.cells.size
      · rw [PartOf, cell_cons, if_pos made] at partOf
        rcases partOf with rfl | rfl
        · exact made ▸ first
        · exact made ▸ last
      · rw [PartOf, cell_cons, if_neg made] at partOf
        exact absurd partOf (not_partOf_of_ge new)
  | setHead _ _ possible | setTail _ _ possible => exact False.elim possible
  | _ => exact absurd partOf (not_partOf_of_ge new)

namespace Accrues

theorem cell_eq (accrues : Accrues before after) (old : id < before.cells.size) :
    after.cell id = before.cell id := by
  induction accrues with
  | refl => rfl
  | tail earlier change ih =>
      have still := Nat.lt_of_lt_of_le old (Develops.grown earlier).cells_le
      exact (change.cell_eq still).trans ih

theorem part_lt (accrues : Accrues before after) (new : before.cells.size ≤ id)
    (partOf : after.PartOf id part) : part < id := by
  induction accrues with
  | refl => exact absurd partOf (not_partOf_of_ge new)
  | @tail between after earlier change ih =>
      by_cases old : id < between.cells.size
      · rw [PartOf, change.cell_eq old] at partOf
        exact ih partOf
      · exact change.part_lt (Nat.le_of_not_lt old) partOf

/-- What is reached from a pair that there was is reached as before. -/
theorem reaches_of_lt (accrues : Accrues before after) {admitted : Operation → Prop}
    (whole : before.Whole admitted) {other : CellId}
    (reaches : Relation.TransGen after.PartOf id other) (old : id < before.cells.size) :
    Relation.TransGen before.PartOf id other ∧ other < before.cells.size := by
  have still : ∀ {id part}, id < before.cells.size → after.PartOf id part →
      before.PartOf id part := fun old partOf => by
    rwa [PartOf, accrues.cell_eq old] at partOf
  induction reaches with
  | single partOf => exact ⟨.single (still old partOf), whole.part_lt (still old partOf)⟩
  | tail _ partOf ih =>
      have last := still ih.2 partOf
      exact ⟨ih.1.tail last, whole.part_lt last⟩

/-- What is reached from a new pair is older than it. -/
theorem reaches_of_ge (accrues : Accrues before after) {admitted : Operation → Prop}
    (whole : before.Whole admitted) {other : CellId}
    (reaches : Relation.TransGen after.PartOf id other) (new : before.cells.size ≤ id) :
    other < id := by
  induction reaches with
  | single partOf => exact accrues.part_lt new partOf
  | @tail middle last _ partOf ih =>
      by_cases old : middle < before.cells.size
      · have inside := (accrues.reaches_of_lt whole (.single partOf) old).2
        exact Nat.lt_of_lt_of_le inside new
      · exact Nat.lt_trans (accrues.part_lt (Nat.le_of_not_lt old) partOf) ih

theorem acyclic (accrues : Accrues before after) {admitted : Operation → Prop}
    (whole : before.Whole admitted) (acyclic : before.Acyclic) : after.Acyclic := by
  intro id circle
  by_cases old : id < before.cells.size
  · exact acyclic id (accrues.reaches_of_lt whole circle old).1
  · exact Nat.lt_irrefl id (accrues.reaches_of_ge whole circle (Nat.le_of_not_lt old))

end Accrues

end Store

open Store (Accrues)

/-- One evaluation among others. -/
structure Turn where
  budget : Budget
  node : Object
  frame : FrameId

namespace Turn

def run (turn : Turn) : Eval Object :=
  evaluate turn.budget turn.node turn.frame

/-- The store after evaluations one after the other, whether they succeed or fail. -/
def afterAll (store : Store) : List Turn → Store
  | [] => store
  | turn :: rest => afterAll (turn.run.storeAfter store) rest

/-- Does every evaluation take place in a frame, and on a node of data, that are there when
its turn comes, and without a primitive that writes pairs among the data? -/
def Feasible (store : Store) : List Turn → Prop
  | [] => True
  | turn :: rest =>
      turn.frame < store.frames.size ∧
        store.KnowsNode Operation.SparesPairs turn.node ∧
        Feasible (turn.run.storeAfter store) rest

theorem afterAll_accrues {store : Store} {turns : List Turn}
    (whole : store.Whole Operation.SparesPairs)
    (feasible : Feasible store turns) :
    (afterAll store turns).Whole Operation.SparesPairs ∧
      Accrues store (afterAll store turns) := by
  induction turns generalizing store with
  | nil => exact ⟨whole, .refl⟩
  | cons turn rest ih =>
      obtain ⟨inside, known, later⟩ := feasible
      obtain ⟨wholeNext, first⟩ := evaluate_whole turn.budget whole known inside
      obtain ⟨wholeLast, further⟩ := ih wholeNext later
      exact ⟨wholeLast, first.trans further⟩

end Turn

/-- What is true of the pairs of a store that another one was before. -/
structure Store.KeepsPairs (before after : Store) : Prop where
  /-- All that has happened to pairs is that new ones were made of what was there. -/
  accrued : Accrues before after
  unchanged : ∀ id < before.cells.size, after.cell id = before.cell id
  older : ∀ id, before.cells.size ≤ id → ∀ part, after.PartOf id part → part < id
  acyclic : after.Acyclic
  ends : ∀ id < after.cells.size, (after.chain (.pair id)).2.isPair = false ∧
    (after.lastTail (.pair id)).isPair = false

/-- In a store where nothing writes pairs and no pair reaches itself, whatever is evaluated, no
pair is changed, new pairs are made of what was there before them, none reaches itself, and
every chain ends in what is no pair. -/
theorem pairs_stay_as_made {store : Store} {turns : List Turn}
    (whole : store.Whole Operation.SparesPairs) (acyclic : store.Acyclic)
    (feasible : Turn.Feasible store turns) : store.KeepsPairs (Turn.afterAll store turns) := by
  obtain ⟨wholeAfter, accrues⟩ := Turn.afterAll_accrues whole feasible
  have still := accrues.acyclic whole acyclic
  refine ⟨accrues, fun _ => accrues.cell_eq, fun _ new _ => accrues.part_lt new, still, ?_⟩
  intro id inside
  have there : (Turn.afterAll store turns).Has (.pair id) := inside
  have ended := still.ended wholeAfter.closed there
  exact ⟨ended, by rwa [Store.lastTail_of_ended ended]⟩

/-- A store with one pair, which a frame binds beside the primitive that joins pairs. -/
def Store.paired : Store :=
  { empty with
    cells := #[⟨.integer 1, .nil⟩]
    frames := #[⟨[(⟨"cons"⟩, .primitive (.ofOperation .cons 2 (some 2))), (⟨"p"⟩, .pair 0)], []⟩] }

theorem Store.paired_whole : paired.Whole Operation.SparesPairs where
  head id := match id with | 0 | _ + 1 => trivial
  tail id := match id with | 0 | _ + 1 => trivial
  binding id := by
    match id with
    | 0 => simp [paired, Store.frame, Knows, Operation.SparesPairs, Primitive.ofOperation]
    | _ + 1 => simp [paired, Store.frame]
  ancestor id := by
    match id with
    | 0 | _ + 1 => simp [paired, Store.frame]
  body id := by
    rintro value ⟨⟩
  captured id inside := by simp [paired, empty] at inside

theorem Store.paired_acyclic : paired.Acyclic := by
  have alone : ∀ id part, ¬ paired.PartOf id part := fun id part => by
    match id with
    | 0 | _ + 1 => simp [PartOf, paired, Store.cell]
  intro id circle
  obtain ⟨part, first, _⟩ := Relation.TransGen.head'_iff.mp circle
  exact alone id part first

/-- Joins the pair to a quoted list, and then joins it to nothing, which fails. -/
def joinTwice : List Turn :=
  [⟨⟨3, 1⟩, .formOf [.refer "cons", .refer "p", .formOf [.refer "quote",
      .formOf [.literal none (.integer 2), .refer "x"]]], 0⟩,
    ⟨⟨3, 1⟩, .formOf [.refer "cons", .refer "p"], 0⟩]

theorem joinTwice_keepsPairs :
    Store.paired.KeepsPairs (Turn.afterAll .paired joinTwice) ∧
      (Turn.afterAll .paired joinTwice).cells.size = 4 := by
  have feasible : Turn.Feasible .paired joinTwice := by
    refine ⟨by decide, ?_, by decide, ?_, trivial⟩
    · simp [Object.formOf, Object.refer, Store.Knows]
    · simp [Object.formOf, Object.refer, Store.Knows]
  exact ⟨pairs_stay_as_made Store.paired_whole Store.paired_acyclic feasible, rfl⟩

end LispCore
