import LispCore.Proofs.Renaming.Containers
import Mathlib.Order.RelClasses

/-!
The record in twin stores.

What operations write to the record is the text of objects. The text of an object does not tell
the numbers of pairs and closures, so it is the same in twin stores. Containers of the host are
not renamed with what is in them; but where they hold only what keeps its number, they have one
text as well. Evaluation thus writes the same texts in the same order in both of two twins
(`Renaming.suits_settlement`).
-/

namespace LispCore

open Store (Twin)

namespace Operation

variable {store : Store} {operation : Operation} {operands : List Object}
  {result : EStateM.Result Interrupt Store Object}

theorem Effect.silent (effect : Effect store operation operands result)
    (other : operation ≠ .record) : (Eval.storeOf result).log = store.log := by
  cases effect with
  | records => contradiction
  | lists => exact store.ofItems_log operands .nil
  | _ => rfl

theorem run_silent (other : operation ≠ .record) (operands : List Object) :
    (operation.run operands).Silent :=
  fun store => (operation.run_effect operands store).silent other

end Operation

theorem Store.shownAll_eq (store : Store) (trail : Trail) (objects : List Object) :
    store.shownAll trail objects = objects.map (store.shownWithin trail) := by
  induction objects with
  | nil => rw [shownAll, List.map_nil]
  | cons object rest ih => rw [shownAll, ih, List.map_cons]

namespace Renaming

/-- Is nothing renamed that there is in a store? -/
structure Leaves (ρ : Renaming) (store : Store) : Prop where
  cells : ∀ id < store.cells.size, ρ.cells.of id = id
  closures : ∀ id < store.closures.size, ρ.closures.of id = id
  frames : ∀ id < store.frames.size, ρ.frames.of id = id

/-- The same places are being written around the present one, in two twins. -/
structure Trails (ρ : Renaming) (trail trail' : Trail) : Prop where
  cells : ∀ id, ρ.cells.of id ∈ trail'.cells ↔ id ∈ trail.cells
  labels : trail'.labels = trail.labels

namespace Trails

variable {ρ : Renaming} {trail trail' : Trail}

theorem intoCell (same : ρ.Trails trail trail') (id : CellId) :
    ρ.Trails (trail.intoCell id) (trail'.intoCell (ρ.cells.of id)) where
  cells other := by
    simp only [Trail.intoCell, Std.TreeSet.mem_insert, Std.LawfulEqCmp.compare_eq_iff_eq,
      Shift.of_inj, same.cells]
  labels := same.labels

theorem isInside (same : ρ.Trails trail trail') (label : Option Label) :
    trail'.isInside label = trail.isInside label := by
  cases label with
  | none => rfl
  | some label => rw [Trail.isInside, same.labels, Trail.isInside]

end Trails

end Renaming

namespace Store.Twin

open Discipline (settlement)

variable {ρ : Renaming} {origin first second : Store}

theorem closure_text (twin : Twin ρ first second) {id : ClosureId}
    (inside : id < first.closures.size) :
    (second.closure (ρ.closures.of id)).text = (first.closure id).text := by
  rw [twin.closure id inside]
  rfl

/-- Objects have one text for diagnostics in both stores, if they mention only what is not
renamed: the pairs in them have, and all that is inside of other containers has. -/
theorem shownWithin (twin : Twin ρ first second) (grown : Grown origin first)
    (leaves : ρ.Leaves origin) (labels : second.labels = first.labels) {trail trail' : Trail}
    (same : ρ.Trails trail trail')
    (pairs : ∀ id, second.pairPieces true trail' (ρ.cells.of id) =
      first.pairPieces true trail id)
    (deeper : ∀ inner inner', Trail.Less (inner.remaining first) (trail.remaining first) →
      ρ.Trails inner inner' → ∀ object, origin.KnowsAll object →
        second.shownWithin inner' object = first.shownWithin inner object)
    {object : Object} (known : origin.KnowsAll object) :
    second.shownWithin trail' object = first.shownWithin trail object := by
  induction size : sizeOf object using Nat.strongRecOn generalizing object with
  | ind count ih =>
      subst size
      have held : ∀ label part, ¬ trail.isInside label → sizeOf part < sizeOf object →
          origin.KnowsAll part →
          second.shownWithin (trail'.intoContainer second label) part =
            first.shownWithin (trail.intoContainer first label) part := by
        intro label part outside smaller knownPart
        cases label with
        | none => exact ih _ smaller knownPart rfl
        | some label =>
            by_cases given : label < first.labels
            · have new : label ∉ trail.labels := by simpa [Trail.isInside] using outside
              have less : Trail.Less (Trail.remaining ⟨∅, trail.labels.insert label⟩ first)
                  (trail.remaining first) :=
                .left _ _ (unvisited_insert_lt (List.mem_range.mpr given) new)
              have anew : ρ.Trails ⟨∅, trail.labels.insert label⟩
                  ⟨∅, trail'.labels.insert label⟩ := ⟨by simp, by rw [same.labels]⟩
              simp only [Trail.intoContainer, labels, if_pos given]
              exact deeper _ _ less anew part knownPart
            · simp only [Trail.intoContainer, labels, if_neg given]
              exact ih _ smaller knownPart rfl
      have heldAll : ∀ label parts, ¬ trail.isInside label →
          (∀ part ∈ parts, sizeOf part < sizeOf object ∧ origin.KnowsAll part) →
          second.shownAll (trail'.intoContainer second label) parts =
            first.shownAll (trail.intoContainer first label) parts := by
        intro label parts outside each
        rw [shownAll_eq, shownAll_eq]
        refine List.map_congr_left fun part member => ?_
        exact held label part outside (each part member).1 (each part member).2
      cases object with
      | pair id =>
          have text := pairs id
          rw [leaves.cells id (known _ .itself)] at text
          rw [Store.shownWithin, Store.shownWithin, text]
      | closure id =>
          have old : id < origin.closures.size := known _ .itself
          have text := twin.closure_text (Nat.lt_of_lt_of_le old grown.closures_le)
          rw [leaves.closures id old] at text
          rw [Store.shownWithin, Store.shownWithin, text]
      | boolean truth => cases truth <;> rw [Store.shownWithin, Store.shownWithin]
      | sequence label kind items =>
          rw [Store.shownWithin, Store.shownWithin, same.isInside]
          split
          · rfl
          · rw [heldAll label items ‹_› fun item member =>
              ⟨Nat.lt_of_lt_of_le (List.sizeOf_lt_of_mem member) (by simp +arith),
                fun part inside => known part (.item member inside)⟩]
      | literal label value =>
          rw [Store.shownWithin, Store.shownWithin, same.isInside]
          split
          · rfl
          · rw [held label value ‹_› (by simp +arith) fun part inside => known part (.value inside)]
      | reference label name =>
          rw [Store.shownWithin, Store.shownWithin, same.isInside]
          split
          · rfl
          · rw [held label name ‹_› (by simp +arith) fun part inside => known part (.name inside)]
      | form label shape elements =>
          rw [Store.shownWithin.eq_def, Store.shownWithin.eq_def]
          by_cases written : trail.isInside label
          · simp only [same.isInside, if_pos written]
          · have each : second.shownAll (trail'.intoContainer second label) elements =
                first.shownAll (trail.intoContainer first label) elements :=
              heldAll label elements written fun element member =>
                ⟨Nat.lt_of_lt_of_le (List.sizeOf_lt_of_mem member) (by simp +arith),
                  fun part inside => known part (.element member inside)⟩
            simp only [same.isInside, each]
      | _ => rw [Store.shownWithin, Store.shownWithin]

/-- Objects have one text in both stores: pairs are written in both at the same places, and
pairs are marked in both at the same places. -/
theorem texts (twin : Twin ρ first second) (leaves : ρ.Leaves origin)
    (good : (settlement origin).Good first) (labels : second.labels = first.labels)
    (trail : Trail) : ∀ trail', ρ.Trails trail trail' →
    (∀ object, origin.KnowsAll object →
      second.shownWithin trail' object = first.shownWithin trail object) ∧
    ∀ readable,
      (∀ object, (settlement origin).Value first object →
        second.pieces readable trail' (ρ.object object) = first.pieces readable trail object) ∧
      ∀ head tail, (settlement origin).Value first head → (settlement origin).Value first tail →
        second.chainPieces readable trail' (ρ.object head) (ρ.object tail) =
          first.chainPieces readable trail head tail := by
  have falls : WellFounded fun inner outer : Trail =>
      Trail.Less (inner.remaining first) (outer.remaining first) :=
    InvImage.wf _ (wellFounded_lt.prod_lex wellFounded_lt)
  induction trail using falls.induction with
  | _ trail ih =>
      intro trail' same
      -- What is inside of a new pair is written with fewer pairs left.
      have inner : ∀ readable id, id ∉ trail.cells → id < first.cells.size →
          second.chainPieces readable (trail'.intoCell (ρ.cells.of id))
            (second.cell (ρ.cells.of id)).head (second.cell (ρ.cells.of id)).tail =
          first.chainPieces readable (trail.intoCell id) (first.cell id).head
            (first.cell id).tail := by
        intro readable id new inside
        have fewer := Trail.remaining_intoCell new inside
        rw [twin.cell]
        exact ((ih _ fewer _ (same.intoCell id)).2 readable).2 _ _
          ⟨good.1.head id, good.2.1.head id⟩ ⟨good.1.tail id, good.2.1.tail id⟩
      have pairs : ∀ readable id, second.pairPieces readable trail' (ρ.cells.of id) =
          first.pairPieces readable trail id := by
        intro readable id
        rw [pairPieces, pairPieces]
        simp only [same.cells, twin.cells.of_lt_iff]
        split
        · rfl
        · split
          · rw [inner readable id ‹_› ‹_›]
          · rfl
      have shown : ∀ object, origin.KnowsAll object →
          second.shownWithin trail' object = first.shownWithin trail object := fun _ known =>
        twin.shownWithin good.2.2 leaves labels same (pairs true)
          (fun _ _ less still => (ih _ less _ still).1) known
      have whole : ∀ readable object, (settlement origin).Value first object →
          second.pieces readable trail' (ρ.object object) =
            first.pieces readable trail object := by
        intro readable object known
        cases object with
        | pair id => rw [Renaming.object_pair, Store.pieces, Store.pieces, pairs readable id]
        | closure id =>
            simp only [Renaming.object, Store.pieces]
            rw [twin.closure_text known.1]
        | boolean truth => cases truth <;> simp only [Renaming.object, Store.pieces]
        | sequence | literal | reference | form =>
            rcases known.2 with simple | held
            · contradiction
            · simp only [Renaming.object, Store.pieces, shown _ held]
        | _ => simp only [Renaming.object, Store.pieces, Store.shownWithin]
      refine ⟨shown, fun readable => ⟨whole readable, fun head tail knownHead knownTail => ?_⟩⟩
      rw [chainPieces.eq_def, chainPieces.eq_def, whole readable head knownHead]
      cases tail with
      | pair id =>
          simp only [Renaming.object_pair, same.cells, twin.cells.of_lt_iff]
          congr 1
          split
          · rfl
          · split
            · rw [inner readable id ‹_› ‹_›]
            · rfl
      | nil => rfl
      | alien thing =>
          have written := whole readable (.alien thing) knownTail
          cases thing with
          | absent => rfl
          | _ => exact congrArg _ (congrArg _ written)
      | _ => exact congrArg _ (congrArg _ (whole readable _ knownTail))

theorem written (twin : Twin ρ first second) (leaves : ρ.Leaves origin)
    (good : (settlement origin).Good first) (labels : second.labels = first.labels)
    (readable : Bool) {object : Object} (known : (settlement origin).Value first object) :
    second.written (ρ.object object) readable = first.written object readable := by
  have start : ρ.Trails .start .start := ⟨by simp [Trail.start], rfl⟩
  have texts := (twin.texts leaves good labels .start .start start).2 readable
  rw [Store.written, texts.1 object known, Store.written]

end Store.Twin

namespace Renaming

open Discipline (settlement)

variable {ρ : Renaming} {origin first second : Store}

/-- An operation writes the same to the records of twins. -/
theorem run_logs (twin : Twin ρ first second) (leaves : ρ.Leaves origin)
    (good : (settlement origin).Good first) (operation : Operation) {operands : List Object}
    (known : ∀ operand ∈ operands, (settlement origin).Value first operand)
    (same : first.log = second.log) :
    ((operation.run operands).storeAfter first).log =
      ((operation.run (operands.map ρ.object)).storeAfter second).log := by
  by_cases recording : operation = .record
  · subst recording
    cases operands with
    | nil => exact same
    | cons object rest =>
        have labels : second.labels = first.labels := (congrArg Store.Log.labels same).symm
        have text := twin.written leaves good labels true (known object List.mem_cons_self)
        have records : first.record = second.record := congrArg Store.Log.record same
        change Store.Log.mk (first.record.push (first.written object true)) first.labels =
          Store.Log.mk (second.record.push (second.written (ρ.object object) true)) second.labels
        rw [records, labels, text]
  · rw [Operation.run_silent recording, Operation.run_silent recording, same]

/-- Settled stores, with the same in their logs, suit all renamings that leave alone what there
was of old. -/
theorem suits_settlement (leaves : ρ.Leaves origin) : ρ.Suits (settlement origin) Eq where
  lawful := Discipline.settlement_lawful origin
  whole good := good.1
  known known := known.1
  primitive _ _ := ⟨trivial, .inl rfl⟩
  scope inside := inside
  count _ _ := trivial
  call primitive operands good twin known same := by
    unfold Eval.storeAfter
    rw [primitive.call_apply, primitive.call_apply, List.length_map]
    split
    · exact run_logs twin leaves good primitive.operation known same
    · exact same

end Renaming

end LispCore
