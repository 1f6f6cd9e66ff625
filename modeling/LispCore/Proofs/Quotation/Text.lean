import LispCore.Proofs.Echoes
import LispCore.Proofs.Quotation.Shape

/-!
The text of a node, and the text of the data that it was written as.

A node is written by joining the texts of its elements, its data by going along pairs. Both write
the picture of the node (`Object.plain_eq`, `Store.Built.pieces_eq`). Only what stands at the ends
could be told apart: it is written on its own in the node, and among the pairs of the datum,
which are new. As nothing of old leads to a new pair, it is written the same
(`Store.AddsPairs.pieces_eq`).
-/

namespace LispCore

open Discipline (settlement_good)
open Store (AddsPairs Built)

namespace Picture

/-- Do the lists in a picture end in nil, wherever they do not go on? -/
def Listed : Picture → Prop
  | .atom _ | .mark => True
  | .pair head tail => head.Listed ∧ tail.Listed ∧ ∀ value, tail = .atom value → value = .nil

variable {picture : Picture} {store other : Store} {readable : Bool}

/-- The pieces of a picture depend on a store no more than those of its atoms. -/
theorem pieces_congr (same : picture.Ends fun value =>
      other.pieces readable .start value = store.pieces readable .start value) :
    picture.pieces other readable = picture.pieces store readable ∧
      picture.rest other readable = picture.rest store readable := by
  induction picture with
  | atom value =>
      refine ⟨same, ?_⟩
      rw [rest.eq_def, rest.eq_def]
      cases value with
      | nil => rfl
      | _ => exact congrArg _ same
  | mark => exact ⟨rfl, rfl⟩
  | pair head tail ihHead ihTail =>
      obtain ⟨heads, _⟩ := ihHead same.1
      obtain ⟨_, tails⟩ := ihTail same.2
      simp only [pieces, rest, heads, tails, and_self]

end Picture

namespace Store

variable {before after : Store} {trail : Trail} {value : Object} {picture : Picture}
  {cells : Finset CellId} {readable : Bool}

/-- Is nothing being written but pairs that are new in the second store? -/
structure Writes (before after : Store) (trail : Trail) : Prop where
  labels : trail.labels = Trail.start.labels
  cells : ∀ id ∈ trail.cells, before.cells.size ≤ id ∧ id < after.cells.size

theorem Writes.start : before.Writes after .start :=
  ⟨rfl, by simp [Trail.start]⟩

theorem Writes.intoCell {id : CellId} (writes : before.Writes after trail)
    (new : before.cells.size ≤ id) (inside : id < after.cells.size) :
    before.Writes after (trail.intoCell id) := by
  refine ⟨writes.labels, fun other member => ?_⟩
  rcases Std.TreeSet.mem_insert.mp member with same | old
  · rw [← compare_eq_iff_eq.mp same]
    exact ⟨new, inside⟩
  · exact writes.cells other old

/-- What is known of old has the same text after pairs have been added, and while new pairs are
being written. -/
theorem AddsPairs.pieces_eq (added : AddsPairs before after) (complete : before.Complete)
    (known : before.KnowsAll value) (writes : before.Writes after trail) :
    after.pieces readable trail value = before.pieces readable .start value := by
  have good := settlement_good complete
  have confined : before.Confined (fun _ => False) after := .of_eq added.frames added.closures
  have twin := Renaming.past_twin_of_kept good.1 added.size_le added.kept confined
  have labels : after.labels = before.labels := congrArg Store.Log.labels added.log
  -- No pair of old is being written, nor is one that the renaming moves past the new ones.
  have trails : (Renaming.past before after).Trails .start trail := by
    refine ⟨fun id => ?_, writes.labels⟩
    refine iff_of_false (fun member => ?_) (by simp [Trail.start])
    obtain ⟨new, inside⟩ := writes.cells _ member
    by_cases old : id < before.cells.size
    · have stays : (Renaming.past before after).cells.of id = id := Shift.of_lt old
      omega
    · have size_le := added.size_le
      have past := Nat.le_of_not_lt old
      have moved : (Renaming.past before after).cells.of id =
          id + (after.cells.size - before.cells.size) := Shift.of_ge past
      have least : after.cells.size ≤ (Renaming.past before after).cells.of id := by omega
      exact Nat.not_lt.mpr least inside
  have texts := twin.texts (Renaming.past_leaves (.refl before)) good labels .start trail trails
  have same := (texts.2 readable).1 value ⟨known value .itself, .inr known⟩
  rwa [Renaming.past_object (known value .itself)] at same

/-- What is built of new pairs is written as its picture. -/
theorem Built.pieces_eq (built : after.Built value picture cells)
    (new : ∀ id ∈ cells, before.cells.size ≤ id) (listed : picture.Listed)
    (ends : picture.Ends fun value => ∀ trail, before.Writes after trail →
      after.pieces readable trail value = before.pieces readable .start value)
    (writes : before.Writes after trail) (apart : ∀ id ∈ cells, id ∉ trail.cells) :
    after.pieces readable trail value = picture.pieces before readable ∧
      ((∀ value, picture = .atom value → value = .nil) → ∀ head,
        after.chainPieces readable trail head value =
          after.pieces readable trail head ++ picture.rest before readable) := by
  induction built generalizing trail with
  | atom value =>
      refine ⟨by rw [ends trail writes, Picture.pieces], fun closed head => ?_⟩
      obtain rfl := closed value rfl
      rw [chainPieces.eq_def, Picture.rest]
  | @pair id head tail first last inside _ _ separate other ihHead ihTail =>
      have outside : id ∉ trail.cells := apart id (Finset.mem_insert_self _ _)
      have still := writes.intoCell (new id (Finset.mem_insert_self _ _)) inside
      have beyond : ∀ part ∈ first ∪ last, part ∉ (trail.intoCell id).cells := by
        intro part member again
        rcases Std.TreeSet.mem_insert.mp again with same | old
        · obtain rfl := compare_eq_iff_eq.mp same
          exact other member
        · exact apart part (Finset.mem_insert_of_mem member) old
      have newPart : ∀ part ∈ first ∪ last, before.cells.size ≤ part :=
        fun part member => new part (Finset.mem_insert_of_mem member)
      have heads := ihHead (fun part member => newPart part (Finset.mem_union_left _ member))
        listed.1 ends.1 still fun part member => beyond part (Finset.mem_union_left _ member)
      have tails := ihTail (fun part member => newPart part (Finset.mem_union_right _ member))
        listed.2.1 ends.2 still fun part member => beyond part (Finset.mem_union_right _ member)
      have parts : after.chainPieces readable (trail.intoCell id) (after.cell id).head
          (after.cell id).tail =
          head.pieces before readable ++ tail.rest before readable := by
        rw [tails.2 listed.2.2, heads.1]
      refine ⟨?_, fun _ element => ?_⟩
      · rw [pieces, pairPieces, if_neg outside, if_pos inside, parts, Picture.pieces]
        simp
      · rw [chainPieces.eq_def]
        simp only [outside, inside, if_true, if_false, parts, Picture.rest]
        simp

end Store

namespace Object

mutual

theorem listed_picture : ∀ node : Object, node.picture.Listed
  | .form _ _ elements => (listed_listPicture elements).1
  | .literal _ _ | .reference _ _ | .nil | .boolean _ | .integer _ | .float _ | .symbol _
  | .string _ | .pair _ | .closure _ | .primitive _ | .alien _ | .sequence _ _ _ => trivial

theorem listed_listPicture : ∀ nodes : List Object,
    (listPicture nodes).Listed ∧ ∀ value, listPicture nodes = .atom value → value = .nil
  | [] => by simp [listPicture, Picture.Listed]
  | node :: nodes => by
      obtain ⟨listed, closed⟩ := listed_listPicture nodes
      exact ⟨⟨listed_picture node, listed, closed⟩, by simp [listPicture]⟩

end

theorem plain_eq (store : Store) {node : Object} (faultless : node.Faultless) :
    store.plain node = Piece.renderAll (node.picture.pieces store true) := by
  induction faultless with
  | literal isValue => rw [Store.plain, picture, Picture.pieces, Store.written]
  | reference name =>
      rw [Store.plain, Store.plain, picture, Picture.pieces, Store.pieces]
      simp [Piece.render]
  | @form label shape elements each ih =>
      have joined : ∀ (node : Object) (nodes : List Object),
          (∀ part ∈ node :: nodes,
            store.plain part = Piece.renderAll (part.picture.pieces store true)) →
          Piece.renderAll (node.picture.pieces store true ++
              (listPicture nodes).rest store true) =
            " ".intercalate (store.plainAll (node :: nodes)) := by
        intro node nodes same
        induction nodes generalizing node with
        | nil =>
            obtain ⟨here, _⟩ := List.forall_mem_cons.mp same
            simp [Store.plainAll, listPicture, Picture.rest, here]
        | cons next nodes ihNodes =>
            obtain ⟨here, others⟩ := List.forall_mem_cons.mp same
            have rest := ihNodes next others
            rw [Store.plainAll] at rest ⊢
            rw [Store.plainAll, String.intercalate_cons_cons, ← rest, here]
            simp [listPicture, Picture.rest, Piece.render, String.append_assoc]
      rw [Store.plain, picture]
      cases elements with
      | nil =>
          rw [listPicture, Picture.pieces, Store.pieces, Store.plainAll]
          rfl
      | cons node nodes =>
          have inner := joined node nodes ih
          rw [Piece.renderAll_append] at inner
          simp [listPicture, Picture.pieces, Piece.render, ← inner, String.append_assoc]

end Object

/-- What quoting comes to has the text of the node that is quoted: with strings in quotes, names
bare, and whatever its literals hold as it is written by itself, shared and circular pairs among
it. The node has this text in the store that quoting leaves as well. -/
theorem quoted_text_agrees {before after : Store} (complete : before.Complete)
    {node value : Object} (known : before.KnowsAll node)
    (named : ∀ part, Object.Part part node → ¬ part.isMisnamed)
    (quoted : node.quoted before = .ok value after) :
    before.plain node = after.written value true ∧ after.plain node = before.plain node := by
  have faultless := Object.faultless_of_quoted quoted named
  obtain ⟨added, cells, built, new⟩ := Object.quoted_builds quoted
  have ends : node.picture.Ends fun value => ∀ trail, before.Writes after trail →
      after.pieces true trail value = before.pieces true .start value := by
    refine faultless.ends_picture (fun trail _ => by rw [Store.pieces, Store.pieces]) ?_
    exact fun value carried trail writes => added.pieces_eq complete (known.carried carried) writes
  have nowhere : ∀ id ∈ cells, id ∉ Trail.start.cells := by simp [Trail.start]
  have datum := (built.pieces_eq new (Object.listed_picture node) ends .start nowhere).1
  have still := (Picture.pieces_congr (ends.imp fun value same => same .start .start)).1
  have text := fun store => Object.plain_eq store faultless
  rw [text before, text after, still, Store.written, datum]
  exact ⟨rfl, rfl⟩

theorem Store.circles_complete : circles.Complete where
  head id := by
    match id with
    | 0 | 1 | 2 | _ + 3 => exact .of_isSimple rfl trivial
  tail id := by
    match id with
    | 0 => exact .of_isSimple rfl (by decide : 0 < 3)
    | 1 => exact .of_isSimple rfl (by decide : 2 < 3)
    | 2 => exact .of_isSimple rfl (by decide : 1 < 3)
    | _ + 3 => exact .of_isSimple rfl trivial
  binding _ _ member := by simp [circles, empty, frame] at member
  ancestor _ _ member := by simp [circles, empty, frame] at member
  body _ := .of_isSimple rfl trivial
  captured id inside := by simp [circles, empty] at inside

/-- A form of a name, a circle, and the empty form. -/
def circleHeld : Object :=
  .formOf [.refer "x", .literal none (.pair 1), .formOf []]

theorem circleHeld_text : ∃ after, circleHeld.quoted .circles = .ok (.pair 5) after ∧
    Store.circles.plain circleHeld = after.written (.pair 5) true := by
  have known : Store.circles.KnowsAll circleHeld := by
    have circle : Store.circles.KnowsAll (.pair 1) := .of_isSimple rfl (by decide : 1 < 3)
    simp [circleHeld, Object.formOf, Object.refer, circle]
  have named : ∀ part, Object.Part part circleHeld → ¬ part.isMisnamed := by
    rintro part (_ | ⟨member, inside⟩)
    · exact Bool.false_ne_true
    · simp only [List.mem_cons, List.not_mem_nil, or_false] at member
      rcases member with rfl | rfl | rfl
      · cases inside
        exact Bool.false_ne_true
      · cases inside
        exact Bool.false_ne_true
      · cases inside with
        | self => exact Bool.false_ne_true
        | element member => contradiction
  exact ⟨_, rfl, (quoted_text_agrees Store.circles_complete known named rfl).1⟩

end LispCore
