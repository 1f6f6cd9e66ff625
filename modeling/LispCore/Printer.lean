import LispCore.Number.Decimal
import LispCore.Store
import LispCore.Text.Quoted
import LispCore.Visited

/-!
The text of objects.

`Store.written` is the text of a value as the language writes it, `Store.shown` the
text of any object for diagnostics. The two call each other, since either may turn
up inside the other. A trail of what is being written ends circular structure: a
pair met again on the way down is written as a mark, and so is a container of the
host. Writing goes through pieces, so that the shape of a list and the marks can be
told apart from the characters of its atoms.
-/

namespace LispCore

inductive Piece
  | opening
  | closing
  | gap
  | dot
  /-- Stands for a pair that is still being written. -/
  | mark
  | text (text : String)
deriving DecidableEq

namespace Piece

def render : Piece → String
  | .opening => "("
  | .closing => ")"
  | .gap => " "
  | .dot => " . "
  | .mark => "..."
  | .text written => written

def renderAll (pieces : List Piece) : String :=
  String.join (pieces.map render)

end Piece

/-- What is being written around the present place: pairs, and containers of the
host by label. -/
structure Trail where
  cells : Std.TreeSet CellId compare
  labels : Std.TreeSet Label compare

namespace Trail

def start : Trail :=
  ⟨∅, ∅⟩

def intoCell (trail : Trail) (id : CellId) : Trail :=
  { trail with cells := trail.cells.insert id }

/-- Is a container with this label being written already? -/
def isInside (trail : Trail) : Option Label → Bool
  | none => false
  | some label => trail.labels.contains label

/-- Goes into a container. Inside it, the marks of pairs start anew. -/
def intoContainer (trail : Trail) (store : Store) : Option Label → Trail
  | none => trail
  | some label => if label < store.labels then ⟨∅, trail.labels.insert label⟩ else trail

/-- What is not on the trail yet: containers first, then pairs. -/
def remaining (trail : Trail) (store : Store) : Nat × Nat :=
  (unvisited (List.range store.labels) trail.labels,
    unvisited (List.range store.cells.size) trail.cells)

abbrev Less : Nat × Nat → Nat × Nat → Prop :=
  Prod.Lex (· < ·) (· < ·)

theorem remaining_intoCell {trail : Trail} {store : Store} {id : CellId}
    (new : id ∉ trail.cells) (inside : id < store.cells.size) :
    Less ((trail.intoCell id).remaining store) (trail.remaining store) :=
  .right _ (unvisited_insert_lt (List.mem_range.mpr inside) new)

theorem remaining_intoContainer {trail : Trail} {store : Store} {label : Option Label}
    (outside : ¬ trail.isInside label) :
    trail.intoContainer store label = trail ∨
      Less ((trail.intoContainer store label).remaining store) (trail.remaining store) := by
  cases label with
  | none => exact .inl rfl
  | some label =>
      by_cases inside : label < store.labels
      · have new : label ∉ trail.labels := by simpa [isInside] using outside
        simp only [intoContainer, inside, if_true]
        exact .inr (.left _ _ (unvisited_insert_lt (List.mem_range.mpr inside) new))
      · simp [intoContainer, inside]

end Trail

namespace Closure

/-- The text of a closure names its parameters. -/
def text (closure : Closure) : String :=
  "#<closure (" ++ " ".intercalate (closure.formals.map Symbol.name) ++ ")>"

end Closure

namespace Primitive

def text (primitive : Primitive) : String :=
  "#<primitive " ++ primitive.name ++ ">"

end Primitive

namespace Alien

def text : Alien → String
  | .absent => "None"
  | .emptyMap => "\x7b\x7d"
  | .bytes => "b'ab'"

end Alien

def brackets (kind : SequenceKind) (text : String) : String :=
  match kind with
  | .list => "[" ++ text ++ "]"
  | .tuple => "(" ++ text ++ ")"

/-- The text of a sequence with the given texts of its items; a tuple of one item
has a comma after it. -/
def bracketed (kind : SequenceKind) (items : List String) : String :=
  match kind, items with
  | .tuple, [item] => brackets .tuple (item ++ ",")
  | kind, items => brackets kind (", ".intercalate items)

/-- The characters of a form that holds a text. -/
def formText (elements : List Object) : String :=
  String.join (elements.map fun element =>
    match element with
    | .string text => text
    | _ => "")

namespace Store

mutual

/-- The pieces of an object in the text of a value. -/
def pieces (store : Store) (readable : Bool) (trail : Trail) : Object → List Piece
  | .nil => [.text "()"]
  | .boolean true => [.text "#t"]
  | .boolean false => [.text "#f"]
  | .integer value => [.text (Text.integer value)]
  | .float value => [.text (Text.float value)]
  | .symbol symbol => [.text symbol.name]
  | .string text => [.text (if readable then Text.readable text else text)]
  | .pair id => store.pairPieces readable trail id
  | .closure id => [.text (store.closure id).text]
  | .primitive primitive => [.text primitive.text]
  | object => [.text ("#<python " ++ store.shownWithin trail object ++ ">")]
termination_by object => (trail.remaining store, sizeOf object, 1)

/-- The pieces of a pair, or a mark if it is being written already. -/
def pairPieces (store : Store) (readable : Bool) (trail : Trail) (id : CellId) : List Piece :=
  if id ∈ trail.cells then [.mark]
  else if id < store.cells.size then
    .opening :: store.chainPieces readable (trail.intoCell id)
      (store.cell id).head (store.cell id).tail ++ [.closing]
  else [.mark]
termination_by (trail.remaining store, 0, 0)
decreasing_by exact .left _ _ (Trail.remaining_intoCell ‹_› ‹_›)

/-- The pieces of a list from one of its pairs on, between the brackets. -/
def chainPieces (store : Store) (readable : Bool) (trail : Trail) (head tail : Object) :
    List Piece :=
  store.pieces readable trail head ++
    match tail with
    | .nil | .alien .absent => []
    | .pair id =>
        if id ∈ trail.cells then [.gap, .mark]
        else if id < store.cells.size then
          .gap :: store.chainPieces readable (trail.intoCell id)
            (store.cell id).head (store.cell id).tail
        else [.gap, .mark]
    | last => .dot :: store.pieces readable trail last
termination_by (trail.remaining store, sizeOf head + sizeOf tail, 0)
decreasing_by
  · exact .right _ (.left _ _ (Nat.lt_add_of_pos_right tail.sizeOf_pos))
  · exact .left _ _ (Trail.remaining_intoCell ‹_› ‹_›)
  · exact .right _ (.left _ _ (Nat.lt_add_of_pos_left head.sizeOf_pos))

/-- The text of an object for diagnostics, inside of what is on the trail. -/
def shownWithin (store : Store) (trail : Trail) : Object → String
  | .nil => "Nil"
  | .boolean true => "True"
  | .boolean false => "False"
  | .integer value => Text.integer value
  | .float value => Text.float value
  | .symbol symbol => "Symbol(" ++ Text.shown symbol.name ++ ")"
  | .string text => Text.shown text
  | .pair id => "<Pair " ++ Piece.renderAll (store.pairPieces true trail id) ++ ">"
  | .closure id => (store.closure id).text
  | .primitive primitive => primitive.text
  | .alien thing => thing.text
  | .sequence label kind items =>
      if trail.isInside label then brackets kind "..."
      else bracketed kind (store.shownAll (trail.intoContainer store label) items)
  | .literal label value =>
      if trail.isInside label then "..."
      else "Literal(value=" ++
        store.shownWithin (trail.intoContainer store label) value ++ ")"
  | .reference label name =>
      if trail.isInside label then "..."
      else "SymbolRef(name=" ++
        store.shownWithin (trail.intoContainer store label) name ++ ")"
  | .form label shape elements =>
      if trail.isInside label then "..."
      else "ListForm(elements=" ++
        (match shape with
          | .tuple =>
              bracketed .tuple (store.shownAll (trail.intoContainer store label) elements)
          | .list =>
              bracketed .list (store.shownAll (trail.intoContainer store label) elements)
          | .text => Text.shown (formText elements)) ++ ")"
termination_by object => (trail.remaining store, sizeOf object, 0)
decreasing_by
  · exact .right _ (.left _ _ (by simp +arith))
  all_goals
    rcases Trail.remaining_intoContainer ‹_› with same | less
    · rw [same]
      exact .right _ (.left _ _ (by simp +arith))
    · exact .left _ _ less

def shownAll (store : Store) (trail : Trail) : List Object → List String
  | [] => []
  | object :: rest => store.shownWithin trail object :: store.shownAll trail rest
termination_by objects => (trail.remaining store, sizeOf objects, 0)

end

/-- The text of an object as the language writes it; a readable text has its strings
in quotes. -/
def written (store : Store) (object : Object) (readable : Bool) : String :=
  Piece.renderAll (store.pieces readable .start object)

def shown (store : Store) (object : Object) : String :=
  store.shownWithin .start object

mutual

/-- The text of an object where it stands for itself: names and strings bare, nodes
as source. -/
def plain (store : Store) : Object → String
  | .nil => "()"
  | .symbol symbol => symbol.name
  | .string text => text
  | .pair id => store.written (.pair id) true
  | .literal _ value => store.written value true
  | .reference _ name => store.plain name
  | .form _ _ elements => "(" ++ " ".intercalate (store.plainAll elements) ++ ")"
  | object => store.shown object

def plainAll (store : Store) : List Object → List String
  | [] => []
  | object :: rest => store.plain object :: store.plainAll rest

end

/-- The most characters of an object that an error shows. -/
def mostShown : Nat := 60

def described (store : Store) (object : Object) : String :=
  let text := if object.isValue then store.written object true else store.shown object
  if text.length ≤ mostShown then text
  else (text.take (mostShown - 3)).toString ++ "..."

end Store

end LispCore
