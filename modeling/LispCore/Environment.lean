import LispCore.Key
import LispCore.Telling

/-!
Environments: frames searched from the inside out.

A frame is seen together with the frames around it, its scope. Definitions go
into the frame itself and never further out, and no binding is ever taken away.
-/

namespace LispCore

namespace Store

/-- A frame and the frames around it, nearest first. -/
def scope (store : Store) (frame : FrameId) : List FrameId :=
  frame :: (store.frame frame).ancestors

def child (store : Store) (frame : FrameId) : FrameId × Store :=
  (store.frames.size, { store with frames := store.frames.push ⟨[], store.scope frame⟩ })

/-- A new empty frame inside no other. -/
def rootFrame (store : Store) : FrameId × Store :=
  (store.frames.size, { store with frames := store.frames.push ⟨[], []⟩ })

/-- The nearest frame of a scope that binds a name. -/
def find? (store : Store) (frame : FrameId) (name : Symbol) : Option FrameId :=
  (store.scope frame).find? fun id => ((store.frame id).bindings.get? name).isSome

/-- The value of a name in the nearest frame that binds it. -/
def lookup? (store : Store) (frame : FrameId) (name : Symbol) : Option Object :=
  (store.scope frame).findSome? fun id => (store.frame id).bindings.get? name

def root (store : Store) (frame : FrameId) : FrameId :=
  (store.scope frame).getLast (List.cons_ne_nil _ _)

def define (store : Store) (frame : FrameId) (name : Symbol) (value : Object) : Store :=
  { store with frames := store.frames.modify frame fun entry =>
      { entry with bindings := entry.bindings.set name value } }

def defineAll (store : Store) (frame : FrameId) (entries : List (Symbol × Object)) : Store :=
  entries.foldl (fun store entry => store.define frame entry.1 entry.2) store

variable (store : Store) {frame other : FrameId}

theorem frame_child_self :
    (store.child frame).2.frame (store.child frame).1 = ⟨[], store.scope frame⟩ := by
  simp [child, Store.frame]

theorem frame_child_of_lt (old : other < store.frames.size) :
    (store.child frame).2.frame other = store.frame other := by
  simp [child, Store.frame, Array.getD, old, Nat.lt_succ_of_lt old, Array.getElem_push_lt]

theorem frame_define_self (old : frame < store.frames.size) (name : Symbol) (value : Object) :
    (store.define frame name value).frame frame =
      { store.frame frame with bindings := (store.frame frame).bindings.set name value } := by
  simp [define, Store.frame, Array.getD, old, Array.getElem_modify]

theorem frame_define_ne (different : other ≠ frame) (name : Symbol) (value : Object) :
    (store.define frame name value).frame other = store.frame other := by
  simp [define, Store.frame, Array.getD, Array.getElem_modify, Ne.symm different]

theorem frame_define (frame id : FrameId) (name : Symbol) (value : Object) :
    (store.define frame name value).frame id =
      if id = frame ∧ id < store.frames.size then
        { store.frame id with bindings := (store.frame id).bindings.set name value }
      else store.frame id := by
  by_cases same : id = frame
  · subst same
    by_cases inside : id < store.frames.size
    · rw [if_pos ⟨rfl, inside⟩, store.frame_define_self inside]
    · rw [if_neg fun both => inside both.2]
      simp [define, Store.frame, Array.getD, inside]
  · rw [if_neg fun both => same both.1, store.frame_define_ne same]

theorem frame_child (frame id : FrameId) :
    (store.child frame).2.frame id =
      if id = store.frames.size then ⟨[], store.scope frame⟩ else store.frame id := by
  by_cases new : id = store.frames.size
  · rw [if_pos new, new]
    exact store.frame_child_self
  · rw [if_neg new]
    by_cases inside : id < store.frames.size
    · exact store.frame_child_of_lt inside
    · have beyond : ¬ id < store.frames.size + 1 := fun less =>
        (Nat.lt_succ_iff_lt_or_eq.mp less).elim inside new
      simp [child, Store.frame, Array.getD, inside, beyond]

end Store

namespace Environment

/-- Binds a name that may not be a symbol, and then is refused. -/
def define (frame : FrameId) (name value : Object) : Eval Unit :=
  match name with
  | .symbol name => modify fun store => store.define frame name value
  | other => raiseTold (.invalidName other)

/-- Binds names in order up to the first that is refused; those before it stay. -/
def update (frame : FrameId) : List (Object × Object) → Eval Unit
  | [] => pure ()
  | (name, value) :: rest => do
      define frame name value
      update frame rest

/-- The frame that binds a name. Only symbols are bound, but any key may be looked
for. -/
def find? (store : Store) (frame : FrameId) : Object → Except Fault (Option FrameId)
  | .symbol name => .ok (store.find? frame name)
  | other => do
      other.checkKey
      .ok none

/-- Is a key bound in a frame or around it? -/
def isBound (store : Store) (frame : FrameId) (name : Object) : Except Fault Bool :=
  (find? store frame name).map Option.isSome

def lookup (frame : FrameId) (name : Object) : Eval Object := do
  let store ← get
  match name with
  | .symbol symbol =>
      match store.lookup? frame symbol with
      | some value => pure value
      | none => raise (.unbound name)
  | other => do
      Eval.ofExcept other.checkKey
      raiseTold (.unbound other)

theorem lookup_apply (frame : FrameId) (name : Symbol) (store : Store) :
    lookup frame (.symbol name) store =
      match store.lookup? frame name with
      | some value => .ok value store
      | none => .error (.fault (.unbound (.symbol name))) store := by
  change (match store.lookup? frame name with
    | some value => pure value
    | none => raise (.unbound (.symbol name)) : Eval Object) store = _
  cases store.lookup? frame name <;> rfl

def register (frame : FrameId) (table : List (Symbol × Primitive)) : Eval Unit :=
  update frame (table.map fun entry => (.symbol entry.1, .primitive entry.2))

end Environment

end LispCore
