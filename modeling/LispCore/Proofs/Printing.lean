import LispCore.Printer
import LispCore.Proofs.Circles
import Mathlib.Data.Finset.Card
import Mathlib.Tactic.IntervalCases

/-!
The printer and circles.

`Store.written` ends circular structure by a trail of the pairs around the present place. The
writer below does the same as a program with one set of open pairs and one buffer for all that
it writes, lists inside lists among them: a pair goes into the set when its turn comes and is
taken out when the whole list is written. What either writes is the text of a *picture*, the
unfolding of a value up to the places where a pair on the way there turns up again
(`Store.Draws`).
-/

namespace LispCore

/-- The unfolding of a value, ended by marks. -/
inductive Picture
  | atom (value : Object)
  | mark
  | pair (head tail : Picture)

/-- Where the pair and its place in a picture are looked into. -/
abbrev Route := List Side

namespace Piece

variable {piece : Piece} {pieces more : List Piece}

@[simp]
theorem renderAll_nil : renderAll [] = "" :=
  rfl

@[simp]
theorem renderAll_cons : renderAll (piece :: pieces) = piece.render ++ renderAll pieces := by
  simp [renderAll]

@[simp]
theorem renderAll_append : renderAll (pieces ++ more) = renderAll pieces ++ renderAll more := by
  simp [renderAll]

end Piece

/-- The text of what is no pair. -/
def Store.atomText (store : Store) (readable : Bool) : Object → String
  | .nil => "()"
  | .boolean true => "#t"
  | .boolean false => "#f"
  | .integer value => Text.integer value
  | .float value => Text.float value
  | .symbol symbol => symbol.name
  | .string text => if readable then Text.readable text else text
  | .closure id => (store.closure id).text
  | .primitive primitive => primitive.text
  | object => "#<python " ++ store.shown object ++ ">"

namespace Picture

/-- What there is at the end of a route. -/
def along? : Picture → Route → Option Picture
  | picture, [] => some picture
  | .pair head _, .head :: route => head.along? route
  | .pair _ tail, .tail :: route => tail.along? route
  | _, _ :: _ => none

/-- Is there a mark in it? -/
def Marked : Picture → Prop
  | .atom _ => False
  | .mark => True
  | .pair head tail => head.Marked ∨ tail.Marked

mutual

/-- A picture as a text, with dots for a mark. -/
def text (store : Store) (readable : Bool) : Picture → String
  | .atom value => store.atomText readable value
  | .mark => "..."
  | .pair head tail =>
      "(" ++ text store readable head ++ textAfter store readable tail ++ ")"

/-- The text of the rest of a list, from one of its tails on. -/
def textAfter (store : Store) (readable : Bool) : Picture → String
  | .atom .nil => ""
  | .atom value => " . " ++ store.atomText readable value
  | .mark => " ..."
  | .pair head tail => " " ++ text store readable head ++ textAfter store readable tail

end

mutual

/-- A picture as the pieces of a value. -/
def pieces (store : Store) (readable : Bool) : Picture → List Piece
  | .atom value => store.pieces readable .start value
  | .mark => [.mark]
  | .pair head tail =>
      .opening :: pieces store readable head ++ rest store readable tail ++ [.closing]

/-- The rest of a list, from one of its tails on. -/
def rest (store : Store) (readable : Bool) : Picture → List Piece
  | .atom .nil => []
  | .atom value => .dot :: store.pieces readable .start value
  | .mark => [.gap, .mark]
  | .pair head tail => .gap :: pieces store readable head ++ rest store readable tail

end

end Picture

namespace Store

/-- The pictures of an object in a place inside of the open pairs. -/
inductive Draws (store : Store) : Finset CellId → Object → Picture → Prop
  | atom {opened : Finset CellId} {value : Object} (isValue : value.isValue)
      (plain : value.isPair = false) : Draws store opened value (.atom value)
  | mark {opened : Finset CellId} {id : CellId} (again : id ∈ opened) :
      Draws store opened (.pair id) .mark
  | pair {opened : Finset CellId} {id : CellId} {head tail : Picture} (new : id ∉ opened)
      (inside : id < store.cells.size)
      (first : Draws store (insert id opened) (store.cell id).head head)
      (last : Draws store (insert id opened) (store.cell id).tail tail) :
      Draws store opened (.pair id) (.pair head tail)

/-- The pairs that a route from an object passes, and what there is at its end. -/
def along? (store : Store) : Object → Route → Option (List CellId × Object)
  | object, [] => some ([], object)
  | .pair id, side :: route =>
      (store.along? (store.part id side) route).map fun (passed, last) => (id :: passed, last)
  | _, _ :: _ => none

/-- The pair is the object, or a part of it at any depth. -/
def Reaches (store : Store) (object : Object) (id : CellId) : Prop :=
  ∃ first, object = .pair first ∧ Relation.ReflTransGen store.PartOf first id

/-- Does a pair that reaches itself turn up in the object? -/
def MeetsCircle (store : Store) (object : Object) : Prop :=
  ∃ id, store.Reaches object id ∧ Relation.TransGen store.PartOf id id

/-- Are the parts of all pairs values? -/
def HoldsValues (store : Store) : Prop :=
  ∀ id < store.cells.size, (store.cell id).head.isValue ∧ (store.cell id).tail.isValue

end Store

/-- What a writer has at hand: the pairs that are being written, and what is written so far. -/
structure Sheet where
  opened : Finset CellId
  buffer : String

abbrev Writer := StateT Sheet Option

namespace Writer

def put (text : String) : Writer Unit :=
  modify fun sheet => { sheet with buffer := sheet.buffer ++ text }

def opening (id : CellId) : Writer Unit :=
  modify fun sheet => { sheet with opened := insert id sheet.opened }

/-- Ends a list and lets go of its pairs. -/
def close (seen : List CellId) : Writer Unit := do
  put ")"
  modify fun sheet => { sheet with opened := sheet.opened \ seen.toFinset }

variable (store : Store) (readable : Bool)

mutual

/-- Writes an object, in at most the given number of steps. -/
def write : Nat → Object → Writer Unit
  | 0, _ => failure
  | steps + 1, .pair id => do
      if id ∈ (← get).opened then
        put "..."
      else
        put "("
        writeFrom steps true [] (.pair id)
  | _ + 1, object => put (store.atomText readable object)

/-- Writes what is left of a list whose pairs so far have been seen. -/
def writeFrom : Nat → Bool → List CellId → Object → Writer Unit
  | 0, _, _, _ => failure
  | steps + 1, first, seen, .pair id => do
      if id ∈ (← get).opened then
        put " ..."
        close seen
      else
        opening id
        unless first do put " "
        write steps (store.cell id).head
        writeFrom steps false (seen ++ [id]) (store.cell id).tail
  | _ + 1, _, seen, .nil | _ + 1, _, seen, .alien .absent => close seen
  | steps + 1, _, seen, last => do
      put " . "
      write steps last
      close seen

end

end Writer

namespace Store

mutual

/-- The text of an object, as it is if no circle is watched for, in at most the given number of
steps. -/
def plainly (store : Store) (readable : Bool) : Nat → Object → Option String
  | 0, _ => none
  | steps + 1, .pair id => do
      let head ← store.plainly readable steps (store.cell id).head
      let rest ← store.plainRest readable steps (store.cell id).tail
      some ("(" ++ head ++ rest ++ ")")
  | _ + 1, object => some (store.atomText readable object)

def plainRest (store : Store) (readable : Bool) : Nat → Object → Option String
  | 0, _ => none
  | steps + 1, .pair id => do
      let head ← store.plainly readable steps (store.cell id).head
      let rest ← store.plainRest readable steps (store.cell id).tail
      some (" " ++ head ++ rest)
  | _ + 1, .nil => some ""
  | _ + 1, last => some (" . " ++ store.atomText readable last)

end

end Store

namespace Store

variable {store : Store} {readable : Bool} {opened : Finset CellId} {value : Object}
  {picture : Picture}

/-- The text of an atom is the same at any place. -/
theorem pieces_of_value (store : Store) (readable : Bool) (isValue : value.isValue)
    (plain : value.isPair = false) (trail : Trail) :
    store.pieces readable trail value = [.text (store.atomText readable value)] := by
  cases value with
  | boolean truth => cases truth <;> rw [pieces] <;> rfl
  | pair id => contradiction
  | nil | integer _ | float _ | symbol _ | string _ | closure _ | primitive _ =>
      rw [pieces]
      rfl
  | _ => contradiction

theorem unopened_lt {id : CellId} (inside : id < store.cells.size) (new : id ∉ opened) :
    (Finset.range store.cells.size \ insert id opened).card <
      (Finset.range store.cells.size \ opened).card := by
  rw [Finset.sdiff_insert]
  exact Finset.card_erase_lt_of_mem (Finset.mem_sdiff.mpr ⟨Finset.mem_range.mpr inside, new⟩)

theorem exists_draws (closed : store.Closed) (values : store.HoldsValues)
    (opened : Finset CellId) (known : store.Has value) (isValue : value.isValue) :
    ∃ picture, store.Draws opened value picture := by
  induction left : (Finset.range store.cells.size \ opened).card using Nat.strongRecOn
    generalizing opened value with
  | ind count ih =>
      subst left
      cases value with
      | pair id =>
          by_cases again : id ∈ opened
          · exact ⟨.mark, .mark again⟩
          · have fewer := unopened_lt known again
            obtain ⟨knownHead, knownTail⟩ := closed id known
            obtain ⟨isHead, isTail⟩ := values id known
            obtain ⟨head, first⟩ := ih _ fewer (insert id opened) knownHead isHead rfl
            obtain ⟨tail, last⟩ := ih _ fewer (insert id opened) knownTail isTail rfl
            exact ⟨.pair head tail, .pair again known first last⟩
      | _ => exact ⟨.atom _, .atom isValue rfl⟩

theorem along?_cons_iff {id : CellId} {side : Side} {route : Route}
    {holds : List CellId → CellId → Prop} :
    (∃ passed last, store.along? (.pair id) (side :: route) = some (passed, .pair last) ∧
        holds passed last) ↔
      ∃ passed last, store.along? (store.part id side) route = some (passed, .pair last) ∧
        holds (id :: passed) last := by
  constructor
  · rintro ⟨passed, last, arrives, held⟩
    obtain ⟨⟨others, place⟩, further, same⟩ := Option.map_eq_some_iff.mp arrives
    cases same
    exact ⟨others, last, further, held⟩
  · rintro ⟨passed, last, arrives, held⟩
    exact ⟨id :: passed, last, Option.map_eq_some_iff.mpr ⟨_, arrives, rfl⟩, held⟩

theorem along?_cons_of_not_pair (plain : value.isPair = false) (side : Side) (route : Route) :
    store.along? value (side :: route) = none := by
  cases value with
  | pair id => contradiction
  | _ => rfl

end Store

/-- Is the pair open once the given ones were opened in turn, none of which was open before? -/
def OpenAfter (opened : Finset CellId) (passed : List CellId) (id : CellId) : Prop :=
  passed.Nodup ∧ (∀ other ∈ passed, other ∉ opened) ∧ (id ∈ opened ∨ id ∈ passed)

theorem openAfter_cons {opened : Finset CellId} {first : CellId} (new : first ∉ opened)
    {passed : List CellId} {id : CellId} :
    OpenAfter opened (first :: passed) id ↔ OpenAfter (insert first opened) passed id := by
  simp only [OpenAfter, List.nodup_cons, Finset.mem_insert, List.mem_cons]
  grind

namespace Store.Draws

variable {store : Store} {readable : Bool} {opened : Finset CellId} {value : Object}
  {picture : Picture}

/-- Marks stand at the ends of those routes that lead through different pairs to one that is
open by then, as it was open before or is passed on the way. -/
theorem mark_iff (draws : store.Draws opened value picture) (route : Route) :
    picture.along? route = some .mark ↔
      ∃ passed id, store.along? value route = some (passed, .pair id) ∧
        OpenAfter opened passed id := by
  induction draws generalizing route with
  | atom isValue plain =>
      refine iff_of_false ?_ ?_
      · cases route <;> simp [Picture.along?]
      · rintro ⟨passed, id, arrives, -⟩
        cases route with
        | nil =>
            cases arrives
            contradiction
        | cons side route => simp [along?_cons_of_not_pair plain] at arrives
  | @mark opened id again =>
      cases route with
      | nil => exact iff_of_true rfl ⟨[], id, rfl, by simp [OpenAfter, again]⟩
      | cons side route =>
          refine iff_of_false (by simp [Picture.along?]) ?_
          rw [along?_cons_iff]
          rintro ⟨passed, last, -, -, new, -⟩
          exact new id List.mem_cons_self again
  | @pair opened id head tail new inside _ _ ihHead ihTail =>
      cases route with
      | nil =>
          refine iff_of_false (by simp [Picture.along?]) ?_
          rintro ⟨passed, last, arrives, meets⟩
          cases arrives
          simp [OpenAfter, new] at meets
      | cons side route =>
          rw [along?_cons_iff]
          simp only [openAfter_cons new]
          cases side with
          | head => exact ihHead route
          | tail => exact ihTail route

theorem pieces_eq (draws : store.Draws opened value picture) {trail : Trail}
    (same : ∀ id, id ∈ trail.cells ↔ id ∈ opened) :
    store.pieces readable trail value = picture.pieces store readable ∧
      ∀ head, store.chainPieces readable trail head value =
        store.pieces readable trail head ++ picture.rest store readable := by
  induction draws generalizing trail with
  | @atom opened value isValue plain =>
      have written := pieces_of_value store readable isValue plain
      refine ⟨by rw [Picture.pieces, written, written], fun head => ?_⟩
      rw [chainPieces.eq_def]
      cases value with
      | nil => rfl
      | pair id | alien thing => contradiction
      | _ => simp only [Picture.rest, written]
  | @mark opened id again =>
      have inside := (same id).mpr again
      refine ⟨by rw [pieces, pairPieces, if_pos inside, Picture.pieces], fun head => ?_⟩
      rw [chainPieces, if_pos inside, Picture.rest]
  | @pair opened id head tail new inside _ _ ihHead ihTail =>
      have outside : id ∉ trail.cells := fun member => new ((same id).mp member)
      have still : ∀ other, other ∈ (trail.intoCell id).cells ↔ other ∈ insert id opened := by
        intro other
        rw [Trail.intoCell, Std.TreeSet.mem_insert, same, Finset.mem_insert, compare_eq_iff_eq,
          eq_comm]
      have parts : store.chainPieces readable (trail.intoCell id) (store.cell id).head
          (store.cell id).tail = head.pieces store readable ++ tail.rest store readable := by
        rw [(ihTail still).2, (ihHead still).1]
      refine ⟨?_, fun first => ?_⟩
      · rw [pieces, pairPieces, if_neg outside, if_pos inside, parts, Picture.pieces]
        simp
      · rw [chainPieces.eq_def]
        simp only [outside, inside, if_true, if_false, parts, Picture.rest]
        simp

theorem unique (draws : store.Draws opened value picture) {other : Picture}
    (again : store.Draws opened value other) : other = picture := by
  induction draws generalizing other with
  | atom isValue plain =>
      cases again with
      | atom => rfl
      | mark | pair => contradiction
  | mark inside =>
      cases again with
      | atom => contradiction
      | mark => rfl
      | pair new => contradiction
  | pair new _ _ _ ihHead ihTail =>
      cases again with
      | atom => contradiction
      | mark inside => contradiction
      | pair _ _ first last => rw [ihHead first, ihTail last]

/-- The pieces of a picture, put together, are its text. -/
theorem renderAll_eq (draws : store.Draws opened value picture) :
    Piece.renderAll (picture.pieces store readable) = picture.text store readable ∧
      Piece.renderAll (picture.rest store readable) = picture.textAfter store readable := by
  induction draws with
  | @atom opened value isValue plain =>
      have written := pieces_of_value store readable isValue plain .start
      constructor
      · simp [Picture.pieces, Picture.text, written, Piece.render]
      · rw [Picture.rest.eq_def, Picture.textAfter.eq_def]
        cases value with
        | nil => rfl
        | _ => simp [written, Piece.render]
  | mark => exact ⟨rfl, rfl⟩
  | pair _ _ _ _ ihHead ihTail =>
      simp [Picture.pieces, Picture.rest, Picture.text, Picture.textAfter, ihHead, ihTail,
        Piece.render, String.append_assoc]

theorem text_eq (draws : store.Draws opened value picture) {trail : Trail}
    (same : ∀ id, id ∈ trail.cells ↔ id ∈ opened) :
    Piece.renderAll (store.pieces readable trail value) = picture.text store readable := by
  rw [(draws.pieces_eq same).1, draws.renderAll_eq.1]

theorem written_eq (draws : store.Draws ∅ value picture) (readable : Bool) :
    store.written value readable = picture.text store readable :=
  draws.text_eq fun id => by simp [Trail.start]

end Store.Draws

namespace Writer

variable {store : Store} {readable first : Bool} {opened : Finset CellId} {id : CellId}
  {buffer : String} {steps : Nat} {seen : List CellId}

@[simp] theorem run_put (text : String) :
    (put text).run ⟨opened, buffer⟩ = some ((), ⟨opened, buffer ++ text⟩) :=
  rfl

@[simp] theorem run_opening :
    (opening id).run ⟨opened, buffer⟩ = some ((), ⟨insert id opened, buffer⟩) :=
  rfl

@[simp] theorem run_close :
    (close seen).run ⟨opened, buffer⟩ =
      some ((), ⟨opened \ seen.toFinset, buffer ++ ")"⟩) :=
  rfl

theorem write_open (again : id ∈ opened) :
    (write store readable (steps + 1) (.pair id)).run ⟨opened, buffer⟩ =
      some ((), ⟨opened, buffer ++ "..."⟩) := by
  simp [write, again]

theorem write_new (new : id ∉ opened) :
    (write store readable (steps + 1) (.pair id)).run ⟨opened, buffer⟩ =
      (writeFrom store readable steps true [] (.pair id)).run ⟨opened, buffer ++ "("⟩ := by
  simp [write, new]

theorem write_atom {value : Object} (plain : value.isPair = false) :
    (write store readable (steps + 1) value).run ⟨opened, buffer⟩ =
      some ((), ⟨opened, buffer ++ store.atomText readable value⟩) := by
  cases value with
  | pair id => contradiction
  | _ => rfl

theorem writeFrom_open (again : id ∈ opened) :
    (writeFrom store readable (steps + 1) first seen (.pair id)).run ⟨opened, buffer⟩ =
      some ((), ⟨opened \ seen.toFinset, buffer ++ " ..." ++ ")"⟩) := by
  simp [writeFrom, again]

theorem writeFrom_new (new : id ∉ opened) :
    (writeFrom store readable (steps + 1) first seen (.pair id)).run ⟨opened, buffer⟩ =
      (do
        write store readable steps (store.cell id).head
        writeFrom store readable steps false (seen ++ [id]) (store.cell id).tail).run
        ⟨insert id opened, buffer ++ (if first then "" else " ")⟩ := by
  cases first <;> simp [writeFrom, new]

theorem writeFrom_last {value : Object} (isValue : value.isValue) (plain : value.isPair = false) :
    (writeFrom store readable (steps + 2) first seen value).run ⟨opened, buffer⟩ =
      some ((), ⟨opened \ seen.toFinset,
        buffer ++ (Picture.atom value).textAfter store readable ++ ")"⟩) := by
  cases value with
  | pair id | alien thing => contradiction
  | nil => simp [writeFrom, Picture.textAfter]
  | _ => simp [writeFrom, write, Picture.textAfter, String.append_assoc]

/-- With enough steps, the writer puts out the text of an object, and all pairs that are open
afterwards are those that were. -/
def Writes (store : Store) (readable : Bool) (opened : Finset CellId) (object : Object)
    (text : String) : Prop :=
  ∃ enough, ∀ steps, enough ≤ steps → ∀ buffer,
    (write store readable steps object).run ⟨opened, buffer⟩ =
      some ((), ⟨opened, buffer ++ text⟩)

/-- With enough steps, the writer ends a list, and lets go of all its pairs. -/
def Finishes (store : Store) (readable : Bool) (opened : Finset CellId) (tail : Object)
    (text : String) : Prop :=
  ∃ enough, ∀ steps, enough ≤ steps → ∀ seen buffer,
    (writeFrom store readable steps false seen tail).run ⟨opened, buffer⟩ =
      some ((), ⟨opened \ seen.toFinset, buffer ++ text ++ ")"⟩)

/-- A pair that was not open before is let go of in the end. -/
theorem writes_parts {text rest : String} (new : id ∉ opened)
    (first : Writes store readable (insert id opened) (store.cell id).head text)
    (last : Finishes store readable (insert id opened) (store.cell id).tail rest) :
    ∃ enough, ∀ steps, enough ≤ steps → ∀ seen buffer,
      (do
        write store readable steps (store.cell id).head
        writeFrom store readable steps false (seen ++ [id]) (store.cell id).tail).run
        ⟨insert id opened, buffer⟩ =
        some ((), ⟨opened \ seen.toFinset, buffer ++ text ++ rest ++ ")"⟩) := by
  obtain ⟨enough, writes⟩ := first
  obtain ⟨enough', finishes⟩ := last
  refine ⟨max enough enough', fun steps le seen buffer => ?_⟩
  have letGo : insert id opened \ (seen ++ [id]).toFinset = opened \ seen.toFinset := by
    ext other
    simp only [Finset.mem_sdiff, Finset.mem_insert, List.mem_toFinset, List.mem_append,
      List.mem_singleton]
    grind
  rw [StateT.run_bind, writes steps (Nat.le_trans (Nat.le_max_left ..) le)]
  exact (finishes steps (Nat.le_trans (Nat.le_max_right ..) le) _ _).trans (by rw [letGo])

end Writer

/-- From a pair that reaches a circle, its head or its tail reaches it as well. -/
theorem Store.MeetsCircle.in_part {store : Store} {id : CellId}
    (circular : store.MeetsCircle (.pair id)) :
    store.MeetsCircle (store.cell id).head ∨ store.MeetsCircle (store.cell id).tail := by
  obtain ⟨last, reaches, circle⟩ := circular
  -- The next pair on the way to the circle, or once around it.
  obtain ⟨next, part, onward⟩ : ∃ next, store.PartOf id next ∧
      Relation.ReflTransGen store.PartOf next last := by
    obtain ⟨_, ⟨⟩, way⟩ := reaches
    rcases Relation.ReflTransGen.cases_head way with rfl | further
    · exact Relation.TransGen.head'_iff.mp circle
    · exact further
  rcases part with head | tail
  · exact .inl ⟨last, ⟨next, head, onward⟩, circle⟩
  · exact .inr ⟨last, ⟨next, tail, onward⟩, circle⟩

namespace Store.Draws

variable {store : Store} {readable : Bool} {opened : Finset CellId} {value : Object}
  {picture : Picture}

theorem writes (draws : store.Draws opened value picture) :
    Writer.Writes store readable opened value (picture.text store readable) ∧
      Writer.Finishes store readable opened value (picture.textAfter store readable) := by
  induction draws with
  | atom isValue plain =>
      refine ⟨⟨1, fun steps le buffer => ?_⟩, ⟨2, fun steps le seen buffer => ?_⟩⟩
      · obtain ⟨steps, rfl⟩ := Nat.exists_eq_add_of_le' le
        rw [Writer.write_atom plain, Picture.text]
      · obtain ⟨steps, rfl⟩ := Nat.exists_eq_add_of_le' le
        exact Writer.writeFrom_last isValue plain
  | mark again =>
      refine ⟨⟨1, fun steps le buffer => ?_⟩, ⟨1, fun steps le seen buffer => ?_⟩⟩
      · obtain ⟨steps, rfl⟩ := Nat.exists_eq_add_of_le' le
        rw [Writer.write_open again, Picture.text]
      · obtain ⟨steps, rfl⟩ := Nat.exists_eq_add_of_le' le
        rw [Writer.writeFrom_open again, Picture.textAfter]
  | pair new _ _ _ ihHead ihTail =>
      obtain ⟨enough, parts⟩ := Writer.writes_parts new ihHead.1 ihTail.2
      refine ⟨⟨enough + 2, fun steps le buffer => ?_⟩, ⟨enough + 1, fun steps le seen buffer => ?_⟩⟩
      · obtain ⟨steps, rfl⟩ := Nat.exists_eq_add_of_le' (Nat.le_of_add_left_le le)
        rw [Writer.write_new new, Writer.writeFrom_new new, parts steps (by omega)]
        simp [Picture.text, String.append_assoc]
      · obtain ⟨steps, rfl⟩ := Nat.exists_eq_add_of_le' (Nat.le_of_add_left_le le)
        rw [Writer.writeFrom_new new, parts steps (by omega)]
        simp [Picture.textAfter, String.append_assoc]

theorem marked_of_circle (draws : store.Draws opened value picture)
    (circular : store.MeetsCircle value) : picture.Marked := by
  induction draws with
  | atom _ plain =>
      obtain ⟨_, ⟨_, rfl, _⟩, _⟩ := circular
      contradiction
  | mark => trivial
  | pair _ _ _ _ ihHead ihTail => exact circular.in_part.imp ihHead ihTail

end Store.Draws

namespace Store

variable {store : Store} {id : CellId}

theorem Reaches.of_part {side : Side} {other : CellId}
    (reaches : store.Reaches (store.part id side) other) :
    Relation.TransGen store.PartOf id other := by
  obtain ⟨next, part, onward⟩ := reaches
  refine Relation.TransGen.head' ?_ onward
  cases side with
  | head => exact .inl part
  | tail => exact .inr part

theorem MeetsCircle.of_part (side : Side) (circular : store.MeetsCircle (store.part id side)) :
    store.MeetsCircle (.pair id) := by
  obtain ⟨other, reaches, circle⟩ := circular
  exact ⟨other, ⟨id, rfl, reaches.of_part.to_reflTransGen⟩, circle⟩

/-- No open pair is reached from a part of a pair that reaches neither itself nor an open pair. -/
theorem apart_part {opened : Finset CellId} (side : Side) (free : ¬ store.MeetsCircle (.pair id))
    (apart : ∀ other ∈ opened, ¬ store.Reaches (.pair id) other) :
    ∀ other ∈ insert id opened, ¬ store.Reaches (store.part id side) other := by
  intro other member reaches
  rcases Finset.mem_insert.mp member with rfl | member
  · exact free ⟨other, ⟨other, rfl, .refl⟩, reaches.of_part⟩
  · exact apart other member ⟨id, rfl, reaches.of_part.to_reflTransGen⟩

end Store

namespace Store.Draws

variable {store : Store} {readable : Bool} {opened : Finset CellId} {value : Object}
  {picture : Picture}

theorem unmarked (draws : store.Draws opened value picture) (free : ¬ store.MeetsCircle value)
    (apart : ∀ id ∈ opened, ¬ store.Reaches value id) : ¬ picture.Marked := by
  induction draws with
  | atom => exact not_false
  | mark again => exact absurd ⟨_, rfl, .refl⟩ (apart _ again)
  | pair _ _ _ _ ihHead ihTail =>
      rintro (marked | marked)
      · exact ihHead (fun circular => free (.of_part .head circular))
          (apart_part .head free apart) marked
      · exact ihTail (fun circular => free (.of_part .tail circular))
          (apart_part .tail free apart) marked

/-- Without a mark, the text is what comes of writing that watches for no circles. -/
theorem plainly_eq (readable : Bool) (draws : store.Draws opened value picture)
    (unmarked : ¬ picture.Marked) :
    ∃ enough, ∀ steps, enough ≤ steps →
      store.plainly readable steps value = some (picture.text store readable) ∧
        store.plainRest readable steps value = some (picture.textAfter store readable) := by
  induction draws with
  | @atom opened value isValue plain =>
      refine ⟨1, fun steps le => ?_⟩
      obtain ⟨steps, rfl⟩ := Nat.exists_eq_add_of_le' le
      cases value with
      | pair id => contradiction
      | _ => simp [plainly, plainRest, Picture.text, Picture.textAfter]
  | mark => exact absurd trivial unmarked
  | pair _ _ _ _ ihHead ihTail =>
      obtain ⟨enough, heads⟩ := ihHead fun marked => unmarked (.inl marked)
      obtain ⟨enough', tails⟩ := ihTail fun marked => unmarked (.inr marked)
      refine ⟨max enough enough' + 1, fun steps le => ?_⟩
      obtain ⟨steps, rfl⟩ := Nat.exists_eq_add_of_le' (Nat.le_of_add_left_le le)
      have head := (heads steps (by omega)).1
      have tail := (tails steps (by omega)).2
      simp [plainly, plainRest, Picture.text, Picture.textAfter, head, tail]

end Store.Draws

namespace Picture

variable {store : Store} {readable : Bool} {picture : Picture}

/-- A mark is three dots in the text. -/
theorem exists_dots (marked : picture.Marked) :
    (∃ before after, picture.text store readable = before ++ "..." ++ after) ∧
      ∃ before after, picture.textAfter store readable = before ++ "..." ++ after := by
  induction picture with
  | atom value => contradiction
  | mark => exact ⟨⟨"", "", rfl⟩, ⟨" ", "", rfl⟩⟩
  | pair head tail ihHead ihTail =>
      rcases marked with marked | marked
      · obtain ⟨before, after, same⟩ := (ihHead marked).1
        refine ⟨⟨"(" ++ before, after ++ tail.textAfter store readable ++ ")", ?_⟩,
          ⟨" " ++ before, after ++ tail.textAfter store readable, ?_⟩⟩
        · simp [text, same, String.append_assoc]
        · simp [textAfter, same, String.append_assoc]
      · obtain ⟨before, after, same⟩ := (ihTail marked).2
        refine ⟨⟨"(" ++ head.text store readable ++ before, after ++ ")", ?_⟩,
          ⟨" " ++ head.text store readable ++ before, after, ?_⟩⟩
        · simp [text, same, String.append_assoc]
        · simp [textAfter, same, String.append_assoc]

end Picture

/-- How the text of a value is written in the presence of circles. -/
structure Store.WritesCircles (store : Store) (readable : Bool) (value : Object) : Prop where
  /-- Whatever pairs are open, the writer ends and leaves just these open. What it puts out is the
  text of the one picture of the value, and so is what comes of writing with a trail. -/
  drawn : ∀ opened : Finset CellId, ∃ picture,
    (∀ other, store.Draws opened value other ↔ other = picture) ∧
    (∀ route, picture.along? route = some .mark ↔
      ∃ passed id, store.along? value route = some (passed, .pair id) ∧
        OpenAfter opened passed id) ∧
    Writer.Writes store readable opened value (picture.text store readable) ∧
    ∀ trail : Trail, (∀ id, id ∈ trail.cells ↔ id ∈ opened) →
      Piece.renderAll (store.pieces readable trail value) = picture.text store readable
  /-- The text of the value has a mark exactly if there is a circle. -/
  written : ∃ picture, store.Draws ∅ value picture ∧
    store.written value readable = picture.text store readable ∧
    (picture.Marked ↔ store.MeetsCircle value)
  dots : store.MeetsCircle value → ∃ before after,
    store.written value readable = before ++ "..." ++ after
  /-- Without circles, they need not be watched for. -/
  plain : ¬ store.MeetsCircle value → ∃ enough, ∀ steps, enough ≤ steps →
    store.plainly readable steps value = some (store.written value readable)

/-- In a store whose pairs hold values of the store, every value is written to the end. A mark
stands for a pair just where it is still open on the way there: nowhere if no pair in the value
reaches itself, and somewhere if one does. -/
theorem circles_marked (readable : Bool) {store : Store} (closed : store.Closed)
    (values : store.HoldsValues) {value : Object} (known : store.Has value)
    (isValue : value.isValue) : store.WritesCircles readable value := by
  obtain ⟨picture, draws⟩ := Store.exists_draws closed values ∅ known isValue
  have written := draws.written_eq readable
  refine ⟨fun opened => ?_, ⟨picture, draws, written, fun marked => ?_, draws.marked_of_circle⟩,
    fun circular => ?_, fun free => ?_⟩
  · obtain ⟨picture, draws⟩ := Store.exists_draws closed values opened known isValue
    refine ⟨picture, fun other => ⟨draws.unique, ?_⟩, draws.mark_iff, draws.writes.1,
      fun trail same => draws.text_eq same⟩
    rintro rfl
    exact draws
  · by_contra free
    exact draws.unmarked free (by simp) marked
  · rw [written]
    exact (Picture.exists_dots (draws.marked_of_circle circular)).1
  · have unmarked := draws.unmarked free (by simp)
    obtain ⟨enough, plainly⟩ := draws.plainly_eq readable unmarked
    exact ⟨enough, fun steps le => written ▸ (plainly steps le).1⟩

theorem Store.circles_holdValues : circles.HoldsValues := by
  intro id inside
  have three : id < 3 := inside
  interval_cases id <;> exact ⟨rfl, rfl⟩

theorem Store.circles_meetsCircle : circles.MeetsCircle (.pair 1) := by
  have first : circles.PartOf 1 2 := .inr rfl
  have second : circles.PartOf 2 1 := .inr rfl
  exact ⟨1, ⟨1, rfl, .refl⟩, .head first (.single second)⟩

theorem circles_written :
    Store.circles.MeetsCircle (.pair 1) ∧ Store.circles.written (.pair 1) true = "(1 1 ...)" := by
  have known : Store.circles.Has (.pair 1) := (by decide : 1 < 3)
  obtain ⟨picture, draws, written, _⟩ :=
    (circles_marked true Store.circles_closed Store.circles_holdValues known rfl).written
  refine ⟨Store.circles_meetsCircle, written.trans ?_⟩
  have drawn : Store.circles.Draws ∅ (.pair 1)
      (.pair (.atom (.integer 1)) (.pair (.atom (.integer 1)) .mark)) :=
    .pair (by simp) (by decide) (.atom rfl rfl)
      (.pair (by simp) (by decide) (.atom rfl rfl) (.mark (by simp)))
  rw [drawn.unique draws]
  rfl

end LispCore
