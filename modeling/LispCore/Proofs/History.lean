import LispCore.Application
import LispCore.Environment
import LispCore.Proofs.Telling
import Mathlib.Data.List.Induction

namespace LispCore

namespace Bindings

variable {name : Symbol} {value : Object} {bindings : Bindings}

/-- Sets names in order. -/
def setAll (bindings : Bindings) (entries : List (Symbol × Object)) : Bindings :=
  entries.foldl (fun bindings entry => bindings.set entry.1 entry.2) bindings

theorem names_set :
    (bindings.set name value).names =
      if name ∈ bindings.names then bindings.names else bindings.names ++ [name] := by
  induction bindings with
  | nil => rfl
  | cons entry rest ih =>
      obtain ⟨bound, old⟩ := entry
      by_cases same : bound = name
      · simp [set, names, same]
      · have different : ¬ name = bound := fun equal => same equal.symm
        simp only [names] at ih
        by_cases later : name ∈ rest.map Prod.fst <;> simp [set, names, same, different, ih, later]

theorem nodup_names_set (nodup : bindings.names.Nodup) : (bindings.set name value).names.Nodup := by
  rw [names_set]
  split
  · exact nodup
  · rename_i new
    simpa [List.nodup_append] using ⟨nodup, fun other member same => new (same ▸ member)⟩

theorem nodup_names_setAll (entries : List (Symbol × Object)) (nodup : bindings.names.Nodup) :
    (bindings.setAll entries).names.Nodup := by
  induction entries generalizing bindings with
  | nil => exact nodup
  | cons entry rest ih => exact ih (nodup_names_set nodup)

theorem setAll_append (first second : List (Symbol × Object)) :
    bindings.setAll (first ++ second) = (bindings.setAll first).setAll second :=
  List.foldl_append

theorem names_setAll (entries : List (Symbol × Object)) :
    (setAll [] entries).names = (entries.map Prod.fst).eraseDups := by
  induction entries using List.reverseRecOn with
  | nil => rfl
  | append_singleton entries entry ih =>
      have step : (setAll [] (entries ++ [entry])).names =
          ((setAll [] entries).set entry.1 entry.2).names := by
        rw [setAll_append]
        rfl
      rw [step, names_set, ih, List.map_append, List.eraseDups_append]
      by_cases old : entry.1 ∈ entries.map Prod.fst
      · have none : [entry.1].removeAll (entries.map Prod.fst) = [] := by
          simpa [List.removeAll] using old
        simp [none, List.mem_eraseDups, old]
      · have one : [entry.1].removeAll (entries.map Prod.fst) = [entry.1] := by
          simpa [List.removeAll] using old
        simp [one, List.mem_eraseDups, old, List.eraseDups_cons]

theorem get?_setAll (entries : List (Symbol × Object)) :
    (setAll [] entries).get? name =
      (entries.reverse.find? fun entry => entry.1 = name).map Prod.snd := by
  induction entries using List.reverseRecOn with
  | nil => rfl
  | append_singleton entries entry ih =>
      have step : (setAll [] (entries ++ [entry])).get? name =
          ((setAll [] entries).set entry.1 entry.2).get? name := by
        rw [setAll_append]
        rfl
      rw [step, List.reverse_append, List.reverse_singleton, List.singleton_append]
      by_cases same : entry.1 = name
      · rw [← same, get?_set_self]
        simp
      · rw [get?_set_ne (Ne.symm same), ih]
        simp [same]

end Bindings

namespace Store

theorem size_defineAll (store : Store) (frame : FrameId) (entries : List (Symbol × Object)) :
    (store.defineAll frame entries).frames.size = store.frames.size := by
  induction entries generalizing store with
  | nil => rfl
  | cons entry rest ih => exact (ih _).trans (by simp [define])

theorem frame_defineAll (store : Store) (frame id : FrameId) (entries : List (Symbol × Object)) :
    (store.defineAll frame entries).frame id =
      if id = frame ∧ id < store.frames.size then
        { store.frame id with bindings := (store.frame id).bindings.setAll entries }
      else store.frame id := by
  induction entries generalizing store with
  | nil => simp [defineAll, Bindings.setAll]
  | cons entry rest ih =>
      have step := ih (store.define frame entry.1 entry.2)
      have size : (store.define frame entry.1 entry.2).frames.size = store.frames.size := by
        simp [define]
      rw [size, frame_define] at step
      by_cases here : id = frame ∧ id < store.frames.size
      · simp only [if_pos here] at step ⊢
        exact step
      · simp only [if_neg here] at step ⊢
        exact step

theorem ancestors_defineAll (store : Store) (frame id : FrameId)
    (entries : List (Symbol × Object)) :
    ((store.defineAll frame entries).frame id).ancestors = (store.frame id).ancestors := by
  rw [frame_defineAll]
  split <;> rfl

end Store

/-- What is found first after one entry has been set: that entry, if nothing is found before
it, and otherwise what was found without it. -/
theorem findSome?_of_set {before after : FrameId → Option Object} {place : FrameId}
    {value : Object} (here : after place = some value)
    (elsewhere : ∀ other ≠ place, after other = before other) (way : List FrameId) :
    ((∃ nearer further, way = nearer ++ place :: further ∧
        ∀ between ∈ nearer, before between = none) → way.findSome? after = some value) ∧
    ((¬ ∃ nearer further, way = nearer ++ place :: further ∧
        ∀ between ∈ nearer, before between = none) →
      way.findSome? after = way.findSome? before) := by
  induction way with
  | nil => simp
  | cons first rest ih =>
      by_cases same : first = place
      · subst same
        refine ⟨fun _ => by simp [here], fun unseen => absurd ?_ unseen⟩
        exact ⟨[], rest, rfl, by simp⟩
      · rw [List.findSome?_cons, List.findSome?_cons, elsewhere first same]
        cases found : before first with
        | some old =>
            refine ⟨?_, fun _ => rfl⟩
            rintro ⟨nearer, further, way, free⟩
            cases nearer with
            | nil => exact absurd (List.cons.inj way).1 same
            | cons nearest nearer =>
                have equal := (List.cons.inj way).1
                simp [← equal, found] at free
        | none =>
            constructor
            · rintro ⟨nearer, further, way, free⟩
              cases nearer with
              | nil => exact absurd (List.cons.inj way).1 same
              | cons nearest nearer =>
                  have others := (List.cons.inj way).2
                  exact ih.1 ⟨nearer, further, others, (List.forall_mem_cons.mp free).2⟩
            · intro unseen
              refine ih.2 fun ⟨nearer, further, others, free⟩ => unseen ?_
              exact ⟨first :: nearer, further, by simp [others],
                List.forall_mem_cons.mpr ⟨found, free⟩⟩

theorem Store.scope_define (store : Store) (outer frame : FrameId) (name : Symbol)
    (value : Object) : (store.define outer name value).scope frame = store.scope frame := by
  rw [scope, frame_define, scope]
  split <;> rfl

namespace Environment

/-- What may be done with environments: frames are made, inside others or on their own, and
names are bound in them. -/
inductive Action
  | root
  | child (frame : FrameId)
  | define (frame : FrameId) (name value : Object)
  | update (frame : FrameId) (entries : List (Object × Object))
  | register (frame : FrameId) (table : List (Symbol × Primitive))
  | extend (closure : Closure) (operands : List Object)

namespace Action

def run : Action → Eval Unit
  | .root => do let _ ← Eval.create Store.rootFrame
  | .child frame => do let _ ← Eval.create fun store => store.child frame
  | .define frame name value => Environment.define frame name value
  | .update frame entries => Environment.update frame entries
  | .register frame table => Environment.register frame table
  | .extend closure operands => do let _ ← closure.extend operands

/-- The frame that an action is about. -/
def frame? : Action → Option FrameId
  | .root => none
  | .child frame | .define frame _ _ | .update frame _ | .register frame _ => some frame
  | .extend closure _ => some closure.frame

end Action

/-- The store after actions, of which some may fail. -/
def act (store : Store) : List Action → Store
  | [] => store
  | action :: rest => act (action.run.storeAfter store) rest

/-- Is every action about a frame that is there when its turn comes? -/
def Feasible (store : Store) : List Action → Prop
  | [] => True
  | action :: rest =>
      (∀ frame ∈ action.frame?, frame < store.frames.size) ∧
        Feasible (action.run.storeAfter store) rest

/-- The entries before the first name that is no symbol. -/
def leading : List (Object × Object) → List (Symbol × Object)
  | (.symbol name, value) :: rest => (name, value) :: leading rest
  | _ => []

/-- The first name that is no symbol. -/
def misnamed? : List (Object × Object) → Option Object
  | [] => none
  | (.symbol _, _) :: rest => misnamed? rest
  | (name, _) :: _ => some name

/-- What a host is told of a name that is refused: its message shows the name. -/
def refusal (store : Store) (name : Object) : Fault :=
  if store.writable name then .invalidName name else .host .tooLong

theorem define_of_misnamed {name : Object} (misnamed : name.isSymbol = false) (frame : FrameId)
    (value : Object) (store : Store) :
    define frame name value store = .error (.fault (refusal store name)) store := by
  have told : (Fault.invalidName name).told store = refusal store name := Fault.told_of_shows rfl
  rw [← told]
  cases name with
  | symbol => contradiction
  | _ => rfl

theorem refusal_define (store : Store) (frame : FrameId) (bound : Symbol) (value name : Object) :
    refusal (store.define frame bound value) name = refusal store name := by
  have same : (store.define frame bound value).writable name = store.writable name :=
    Store.writable_congr fun _ => rfl
  rw [refusal, same, refusal]

/-- An update binds what comes before the first name that is refused, and that stays. -/
theorem update_apply (frame : FrameId) (entries : List (Object × Object)) (store : Store) :
    update frame entries store =
      match misnamed? entries with
      | none => .ok () (store.defineAll frame (leading entries))
      | some name => .error (.fault (refusal store name))
          (store.defineAll frame (leading entries)) := by
  induction entries generalizing store with
  | nil => rfl
  | cons entry rest ih =>
      obtain ⟨name, value⟩ := entry
      cases name with
      | symbol name =>
          refine (ih (store.define frame name value)).trans ?_
          simp only [refusal_define]
          rfl
      | _ => rw [update, Eval.bind_apply, define_of_misnamed rfl]; rfl

theorem storeAfter_update (frame : FrameId) (entries : List (Object × Object)) (store : Store) :
    (update frame entries).storeAfter store = store.defineAll frame (leading entries) := by
  rw [Eval.storeAfter, update_apply]
  cases misnamed? entries <;> rfl

theorem leading_table (table : List (Symbol × Primitive)) :
    leading (table.map fun entry => (.symbol entry.1, .primitive entry.2)) =
      table.map fun entry => (entry.1, .primitive entry.2) := by
  induction table with
  | nil => rfl
  | cons entry rest ih => simp [leading, ih]

end Environment

/-- One name given a value in a frame. -/
structure Definition where
  frame : FrameId
  name : Symbol
  value : Object

/-- For each frame in order of creation the frame that it was made inside of, if any, and all
definitions in order. -/
structure History where
  parents : List (Option FrameId)
  definitions : List Definition

namespace History

def blank : History :=
  ⟨[], []⟩

def makes (history : History) (parent : Option FrameId) : History :=
  { history with parents := history.parents ++ [parent] }

def gives (history : History) (frame : FrameId) (entries : List (Symbol × Object)) : History :=
  { history with
    definitions := history.definitions ++ entries.map fun entry => ⟨frame, entry.1, entry.2⟩ }

open Environment (Action leading)

/-- What an action adds to a history. -/
def after (history : History) : Action → History
  | .root => history.makes none
  | .child frame => history.makes (some frame)
  | .define frame name value => history.gives frame (leading [(name, value)])
  | .update frame entries => history.gives frame (leading entries)
  | .register frame table =>
      history.gives frame (table.map fun entry => (entry.1, .primitive entry.2))
  | .extend closure operands =>
      if operands.length = closure.formals.length then
        (history.makes (some closure.frame)).gives history.parents.length
          (closure.formals.zip operands)
      else history

def ofActions (actions : List Action) : History :=
  actions.foldl after blank

/-- All that was defined in a frame, in order. -/
def definedIn (history : History) (frame : FrameId) : List (Symbol × Object) :=
  (history.definitions.filter (·.frame = frame)).map fun entry => (entry.name, entry.value)

/-- Was the name ever given a value in the frame? -/
def Defines (history : History) (frame : FrameId) (name : Symbol) : Prop :=
  ∃ value, (name, value) ∈ history.definedIn frame

/-- The value that the name was given in the frame most recently. -/
def latest? (history : History) (frame : FrameId) (name : Symbol) : Option Object :=
  ((history.definedIn frame).reverse.find? fun entry => entry.1 = name).map Prod.snd

/-- The way from a frame outwards, to a frame that was made inside no other. -/
inductive Path (history : History) : FrameId → List FrameId → Prop
  | root {frame : FrameId} (alone : history.parents[frame]? = some none) :
      Path history frame [frame]
  | inside {frame outer : FrameId} {rest : List FrameId}
      (parent : history.parents[frame]? = some (some outer)) (further : Path history outer rest) :
      Path history frame (frame :: rest)

/-- The first frame on a way in which the name was ever given a value. -/
def Nearest (history : History) (way : List FrameId) (name : Symbol) (target : FrameId) : Prop :=
  ∃ nearer further, way = nearer ++ target :: further ∧ history.Defines target name ∧
    ∀ frame ∈ nearer, ¬ history.Defines frame name

/-- The frames of a store are what a history made them. -/
structure Shapes (history : History) (store : Store) : Prop where
  size : store.frames.size = history.parents.length
  ancestors : ∀ id < store.frames.size, history.parents[id]? = some none ∧
      (store.frame id).ancestors = [] ∨
    ∃ outer < id, history.parents[id]? = some (some outer) ∧
      (store.frame id).ancestors = store.scope outer
  bindings : ∀ id < store.frames.size,
    (store.frame id).bindings = Bindings.setAll [] (history.definedIn id)
  known : ∀ entry ∈ history.definitions, entry.frame < history.parents.length

variable {history : History} {store : Store}

theorem definedIn_gives (frame id : FrameId) (entries : List (Symbol × Object)) :
    (history.gives frame entries).definedIn id =
      history.definedIn id ++ if id = frame then entries else [] := by
  by_cases same : id = frame
  · subst same
    simp [definedIn, gives, List.filter_map, Function.comp_def]
  · have different : ¬ frame = id := fun equal => same equal.symm
    simp [definedIn, gives, List.filter_map, Function.comp_def, same, different]

theorem isSome_latest?_iff (frame : FrameId) (name : Symbol) :
    (history.latest? frame name).isSome ↔ history.Defines frame name := by
  simp [latest?, Defines]

theorem nearest_or_undefined (way : List FrameId) (name : Symbol) :
    (∃ target, history.Nearest way name target) ∨
      ∀ frame ∈ way, ¬ history.Defines frame name := by
  induction way with
  | nil => exact .inr (by simp)
  | cons frame rest ih =>
      by_cases here : history.Defines frame name
      · exact .inl ⟨frame, [], rest, rfl, here, by simp⟩
      · rcases ih with ⟨target, nearer, further, way, defined, undefined⟩ | undefined
        · refine .inl ⟨target, frame :: nearer, further, by simp [way], defined, ?_⟩
          exact List.forall_mem_cons.mpr ⟨here, undefined⟩
        · exact .inr (List.forall_mem_cons.mpr ⟨here, undefined⟩)

namespace Path

theorem le {frame : FrameId} {way : List FrameId} (path : history.Path frame way)
    (older : ∀ id outer : FrameId, history.parents[id]? = some (some outer) → outer < id) :
    ∀ other ∈ way, other ≤ frame := by
  induction path with
  | root alone => simp
  | inside parent further ih =>
      have less := older _ _ parent
      intro other member
      rcases List.mem_cons.mp member with rfl | later
      · exact Nat.le_refl _
      · exact Nat.le_of_lt (Nat.lt_of_le_of_lt (ih other later) less)

theorem getLast {frame : FrameId} {way : List FrameId} (path : history.Path frame way)
    (some : way ≠ []) : history.parents[way.getLast some]? = Option.some none := by
  induction path with
  | root alone => exact alone
  | inside parent further ih =>
      cases further with
      | root alone => exact alone
      | inside parent further => exact ih (List.cons_ne_nil _ _)

end Path

namespace Shapes

theorem definedIn_new (shapes : history.Shapes store) :
    history.definedIn history.parents.length = [] := by
  have none : history.definitions.filter (·.frame = history.parents.length) = [] := by
    rw [List.filter_eq_nil_iff]
    intro entry member
    have inside := shapes.known entry member
    simpa using Nat.ne_of_lt inside
  rw [definedIn, none, List.map_nil]

theorem blank (bare : store.frames = #[]) : History.blank.Shapes store := by
  have none : ∀ id, ¬ id < store.frames.size := by simp [bare]
  exact ⟨by simp [bare, History.blank], fun id inside => absurd inside (none id),
    fun id inside => absurd inside (none id), by simp [History.blank]⟩

theorem makes (shapes : history.Shapes store) {parent : Option FrameId}
    (there : ∀ outer ∈ parent, outer < store.frames.size) {later : Store}
    (pushed : later.frames = store.frames.push ⟨[], parent.elim [] store.scope⟩) :
    (history.makes parent).Shapes later := by
  have size : later.frames.size = store.frames.size + 1 := by simp [pushed]
  have parents : (history.makes parent).parents = history.parents ++ [parent] := rfl
  have old : ∀ id < store.frames.size, later.frame id = store.frame id := by
    intro id inside
    simp [Store.frame, pushed, Array.getD, inside, Nat.lt_succ_of_lt inside, Array.getElem_push_lt]
  have new : later.frame store.frames.size = ⟨[], parent.elim [] store.scope⟩ := by
    simp [Store.frame, pushed, Array.getD]
  have scope : ∀ outer < store.frames.size, later.scope outer = store.scope outer := by
    intro outer inside
    rw [Store.scope, old outer inside, Store.scope]
  have count := shapes.size
  constructor
  case size => simp [size, parents, count]
  case ancestors =>
    intro id inside
    by_cases before : id < store.frames.size
    · have earlier : (history.makes parent).parents[id]? = history.parents[id]? :=
        List.getElem?_append_left (count ▸ before)
      rw [earlier, old id before]
      rcases shapes.ancestors id before with alone | ⟨outer, less, named, around⟩
      · exact .inl alone
      · exact .inr ⟨outer, less, named, by rw [around, scope outer (Nat.lt_trans less before)]⟩
    · obtain rfl : id = store.frames.size := by omega
      have last : (history.makes parent).parents[store.frames.size]? = some parent := by
        simp [parents, count]
      rw [last, new]
      cases parent with
      | none => exact .inl ⟨rfl, rfl⟩
      | some outer =>
          have inside := there outer rfl
          exact .inr ⟨outer, inside, rfl, (scope outer inside).symm⟩
  case bindings =>
    intro id inside
    by_cases before : id < store.frames.size
    · rw [old id before]
      exact shapes.bindings id before
    · obtain rfl : id = store.frames.size := by omega
      have none : (history.makes parent).definedIn store.frames.size = [] := by
        rw [count]
        exact shapes.definedIn_new
      rw [new, none]
      rfl
  case known =>
    intro entry member
    have before := shapes.known entry member
    rw [parents, List.length_append]
    exact Nat.lt_add_right 1 before

theorem gives (shapes : history.Shapes store) {frame : FrameId}
    (inside : frame < store.frames.size) (entries : List (Symbol × Object)) :
    (history.gives frame entries).Shapes (store.defineAll frame entries) where
  size := (store.size_defineAll frame entries).trans shapes.size
  ancestors id there := by
    rw [store.size_defineAll] at there
    rw [store.ancestors_defineAll]
    rcases shapes.ancestors id there with alone | ⟨outer, less, named, around⟩
    · exact .inl alone
    · refine .inr ⟨outer, less, named, ?_⟩
      rw [around, Store.scope, Store.scope, store.ancestors_defineAll]
  bindings id there := by
    rw [store.size_defineAll] at there
    rw [Store.frame_defineAll, definedIn_gives, Bindings.setAll_append, ← shapes.bindings id there]
    by_cases same : id = frame
    · simp [same, inside]
    · simp [same, Bindings.setAll]
  known entry member := by
    have parents : (history.gives frame entries).parents = history.parents := rfl
    rw [parents]
    rcases List.mem_append.mp member with old | new
    · exact shapes.known entry old
    · obtain ⟨given, _, rfl⟩ := List.mem_map.mp new
      exact shapes.size ▸ inside

theorem extend (shapes : history.Shapes store) {closure : Closure}
    (inside : closure.frame < store.frames.size) (operands : List Object) :
    (history.after (.extend closure operands)).Shapes
      ((Action.extend closure operands).run.storeAfter store) := by
  by_cases fits : operands.length = closure.formals.length
  · have made : (history.makes (some closure.frame)).Shapes (store.child closure.frame).2 :=
      shapes.makes (by simpa using inside) rfl
    have there : history.parents.length < (store.child closure.frame).2.frames.size := by
      simp [Store.child, shapes.size]
    have given := made.gives there (closure.formals.zip operands)
    have entered : (Action.extend closure operands).run.storeAfter store =
        (store.child closure.frame).2.defineAll store.frames.size
          (closure.formals.zip operands) := by
      simp only [Action.run, Closure.extend, if_pos fits]
      rfl
    rw [entered, after, if_pos fits, shapes.size]
    exact given
  · have refused : (Action.extend closure operands).run.storeAfter store = store := by
      simp only [Action.run, Closure.extend, if_neg fits]
      rfl
    rw [refused, after, if_neg fits]
    exact shapes

theorem after (shapes : history.Shapes store) {action : Action}
    (possible : ∀ frame ∈ action.frame?, frame < store.frames.size) :
    (history.after action).Shapes (action.run.storeAfter store) := by
  cases action with
  | root => exact shapes.makes (by simp) rfl
  | child frame => exact shapes.makes possible rfl
  | define frame name value =>
      have stored : (Action.define frame name value).run.storeAfter store =
          store.defineAll frame (leading [(name, value)]) := by
        cases name <;> rfl
      rw [stored]
      exact shapes.gives (possible frame rfl) _
  | update frame entries =>
      have stored : (Action.update frame entries).run.storeAfter store =
          store.defineAll frame (leading entries) :=
        Environment.storeAfter_update frame entries store
      rw [stored]
      exact shapes.gives (possible frame rfl) _
  | register frame table =>
      have stored : (Action.register frame table).run.storeAfter store =
          store.defineAll frame (table.map fun entry => (entry.1, .primitive entry.2)) :=
        (Environment.storeAfter_update frame _ store).trans
          (congrArg _ (Environment.leading_table table))
      rw [stored]
      exact shapes.gives (possible frame rfl) _
  | extend closure operands => exact shapes.extend (possible closure.frame rfl) operands

/-- Whatever is done, the frames stay as the history has them. -/
theorem act (shapes : history.Shapes store) {actions : List Action}
    (feasible : Environment.Feasible store actions) :
    (actions.foldl History.after history).Shapes (Environment.act store actions) := by
  induction actions generalizing store history with
  | nil => exact shapes
  | cons action rest ih => exact ih (shapes.after feasible.1) feasible.2

theorem path (shapes : history.Shapes store) {frame : FrameId}
    (inside : frame < store.frames.size) : history.Path frame (store.scope frame) := by
  induction frame using Nat.strongRecOn with
  | ind frame ih =>
      rcases shapes.ancestors frame inside with ⟨alone, none⟩ | ⟨outer, less, named, around⟩
      · rw [Store.scope, none]
        exact .root alone
      · rw [Store.scope, around]
        exact .inside named (ih outer less (Nat.lt_trans less inside))

theorem get?_eq_latest? (shapes : history.Shapes store) {frame : FrameId}
    (inside : frame < store.frames.size) (name : Symbol) :
    (store.frame frame).bindings.get? name = history.latest? frame name := by
  rw [shapes.bindings frame inside, Bindings.get?_setAll, latest?]

theorem older (shapes : history.Shapes store) (id outer : FrameId)
    (parent : history.parents[id]? = some (some outer)) : outer < id := by
  have inside : id < store.frames.size := by
    obtain ⟨known, _⟩ := List.getElem?_eq_some_iff.mp parent
    exact shapes.size ▸ known
  rcases shapes.ancestors id inside with ⟨alone, _⟩ | ⟨other, less, named, _⟩
  · simp [alone] at parent
  · obtain rfl : other = outer := by simpa [named] using parent
    exact less

theorem scope_le (shapes : history.Shapes store) {frame : FrameId}
    (inside : frame < store.frames.size) : ∀ outer ∈ store.scope frame, outer ≤ frame :=
  (shapes.path inside).le shapes.older

theorem scope_lt (shapes : history.Shapes store) {frame : FrameId}
    (inside : frame < store.frames.size) : ∀ outer ∈ store.scope frame, outer < store.frames.size :=
  fun outer around => Nat.lt_of_le_of_lt (shapes.scope_le inside outer around) inside

theorem lookups_of_nearest (shapes : history.Shapes store) {frame target : FrameId}
    {name : Symbol} (inside : frame < store.frames.size)
    (nearest : history.Nearest (store.scope frame) name target) :
    store.find? frame name = some target ∧
      ∃ value, history.latest? target name = some value ∧
        store.lookup? frame name = some value := by
  obtain ⟨nearer, further, way, defined, undefined⟩ := nearest
  have known : ∀ outer ∈ store.scope frame,
      (store.frame outer).bindings.get? name = history.latest? outer name :=
    fun outer around => shapes.get?_eq_latest? (shapes.scope_lt inside outer around) name
  have latest := (history.isSome_latest?_iff target name).mpr defined
  have here : target ∈ store.scope frame := by simp [way]
  have before : ∀ outer ∈ nearer, (store.frame outer).bindings.get? name = none := by
    intro outer member
    rw [known outer (by simp [way, member])]
    have unset := undefined outer member
    rw [← isSome_latest?_iff] at unset
    simpa using unset
  obtain ⟨value, last⟩ := Option.isSome_iff_exists.mp latest
  refine ⟨?_, value, last, ?_⟩
  · rw [Store.find?, List.find?_eq_some_iff_append]
    refine ⟨by simp [known target here, last], nearer, further, way, ?_⟩
    intro outer member
    simp [before outer member]
  · rw [Store.lookup?, List.findSome?_eq_some_iff]
    exact ⟨nearer, target, further, way, (known target here).trans last, before⟩

theorem lookups_of_undefined (shapes : history.Shapes store) {frame : FrameId} {name : Symbol}
    (inside : frame < store.frames.size)
    (undefined : ∀ outer ∈ store.scope frame, ¬ history.Defines outer name) :
    store.find? frame name = none ∧ store.lookup? frame name = none := by
  have unbound : ∀ outer ∈ store.scope frame, (store.frame outer).bindings.get? name = none := by
    intro outer around
    rw [shapes.get?_eq_latest? (shapes.scope_lt inside outer around)]
    have unset := undefined outer around
    rw [← isSome_latest?_iff] at unset
    simpa using unset
  constructor
  · rw [Store.find?, List.find?_eq_none]
    intro outer around
    simp [unbound outer around]
  · rw [Store.lookup?, List.findSome?_eq_none_iff]
    exact unbound

end Shapes

/-- What is found in the frames of a store is what the history says. -/
structure Describes (history : History) (store : Store) : Prop where
  /-- Going outwards from a frame ends, at a frame that is inside no other. -/
  way : ∀ frame < store.frames.size, history.Path frame (store.scope frame) ∧
    (store.scope frame).getLast? = some (store.root frame) ∧
    history.parents[store.root frame]? = some none
  either : ∀ frame < store.frames.size, ∀ name,
    (∃ target, history.Nearest (store.scope frame) name target) ∨
      ∀ outer ∈ store.scope frame, ¬ history.Defines outer name
  found : ∀ frame < store.frames.size, ∀ name target,
    history.Nearest (store.scope frame) name target →
      Environment.find? store frame (.symbol name) = .ok (some target) ∧
      Environment.isBound store frame (.symbol name) = .ok true ∧
      ∃ value, history.latest? target name = some value ∧
        Environment.lookup frame (.symbol name) store = .ok value store
  missing : ∀ frame < store.frames.size, ∀ name,
    (∀ outer ∈ store.scope frame, ¬ history.Defines outer name) →
      Environment.find? store frame (.symbol name) = .ok none ∧
      Environment.isBound store frame (.symbol name) = .ok false ∧
      Environment.lookup frame (.symbol name) store =
        .error (.fault (.unbound (.symbol name))) store
  /-- A frame lists every name once, where it was first defined. -/
  names : ∀ frame < store.frames.size,
    (store.frame frame).bindings.names = ((history.definedIn frame).map Prod.fst).eraseDups ∧
      (store.frame frame).bindings.names.Nodup

theorem Shapes.describes (shapes : history.Shapes store) : history.Describes store where
  way frame inside := by
    have path := shapes.path inside
    exact ⟨path, List.getLast?_eq_some_getLast _, path.getLast (List.cons_ne_nil _ _)⟩
  either frame _ name := nearest_or_undefined (store.scope frame) name
  found frame inside name target nearest := by
    obtain ⟨found, value, latest, looked⟩ := shapes.lookups_of_nearest inside nearest
    have find : Environment.find? store frame (.symbol name) = .ok (some target) :=
      congrArg Except.ok found
    refine ⟨find, by rw [Environment.isBound, find]; rfl, value, latest, ?_⟩
    rw [Environment.lookup_apply, looked]
  missing frame inside name undefined := by
    obtain ⟨missed, unbound⟩ := shapes.lookups_of_undefined inside undefined
    have find : Environment.find? store frame (.symbol name) = .ok none :=
      congrArg Except.ok missed
    refine ⟨find, by rw [Environment.isBound, find]; rfl, ?_⟩
    rw [Environment.lookup_apply, unbound]
  names frame inside := by
    rw [shapes.bindings frame inside]
    exact ⟨Bindings.names_setAll _, Bindings.nodup_names_setAll _ List.nodup_nil⟩

/-- Is a definition of the name in one frame seen from another, for all that was defined
between the two? -/
def Sees (history : History) (store : Store) (frame outer : FrameId) (name : Symbol) : Prop :=
  ∃ nearer further, store.scope frame = nearer ++ outer :: further ∧
    ∀ between ∈ nearer, ¬ history.Defines between name

/-- Who sees a definition that comes next. -/
structure Exposes (history : History) (store : Store) : Prop where
  seen : ∀ frame < store.frames.size, ∀ outer < store.frames.size, ∀ name value,
    history.Sees store frame outer name →
      (store.define outer name value).lookup? frame name = some value
  unseen : ∀ frame < store.frames.size, ∀ outer < store.frames.size, ∀ name value,
    ¬ history.Sees store frame outer name →
      (store.define outer name value).lookup? frame name = store.lookup? frame name
  other : ∀ frame outer name value, ∀ bound ≠ name,
    (store.define outer name value).lookup? frame bound = store.lookup? frame bound
  /-- Nothing is seen in a frame from the frames around it. -/
  ancestor : ∀ outer < store.frames.size, ∀ frame ∈ store.scope outer, frame ≠ outer →
    ∀ name, ¬ history.Sees store frame outer name
  sibling : ∀ frame < store.frames.size, ∀ outer < store.frames.size, frame ≠ outer →
    history.parents[frame]? = history.parents[outer]? →
      ∀ name, ¬ history.Sees store frame outer name

theorem Shapes.sees_iff (shapes : history.Shapes store) {frame outer : FrameId} {name : Symbol}
    (inside : frame < store.frames.size) :
    history.Sees store frame outer name ↔
      ∃ nearer further, store.scope frame = nearer ++ outer :: further ∧
        ∀ between ∈ nearer, (store.frame between).bindings.get? name = none := by
  have free_iff : ∀ nearer further, store.scope frame = nearer ++ outer :: further →
      ∀ between ∈ nearer, (¬ history.Defines between name ↔
        (store.frame between).bindings.get? name = none) := by
    intro nearer further way between member
    have around : between ∈ store.scope frame := by simp [way, member]
    rw [shapes.get?_eq_latest? (shapes.scope_lt inside between around), ← isSome_latest?_iff]
    simp
  constructor
  · rintro ⟨nearer, further, way, free⟩
    exact ⟨nearer, further, way, fun between member =>
      (free_iff nearer further way between member).mp (free between member)⟩
  · rintro ⟨nearer, further, way, free⟩
    exact ⟨nearer, further, way, fun between member =>
      (free_iff nearer further way between member).mpr (free between member)⟩

theorem Shapes.not_sees_of_apart {frame outer : FrameId} (apart : outer ∉ store.scope frame)
    (name : Symbol) : ¬ history.Sees store frame outer name := by
  rintro ⟨nearer, further, way, _⟩
  exact apart (by simp [way])

theorem Shapes.exposes (shapes : history.Shapes store) : history.Exposes store := by
  have bound : ∀ outer < store.frames.size, ∀ name value,
      ((store.define outer name value).frame outer).bindings.get? name = some value := by
    intro outer there name value
    rw [store.frame_define_self there, Bindings.get?_set_self]
  have elsewhere : ∀ outer name value, ∀ other ≠ outer,
      ((store.define outer name value).frame other).bindings.get? name =
        (store.frame other).bindings.get? name := by
    intro outer name value other different
    rw [store.frame_define_ne different]
  constructor
  case seen =>
    intro frame inside outer there name value sees
    rw [Store.lookup?, Store.scope_define]
    exact (findSome?_of_set (bound outer there name value) (elsewhere outer name value) _).1
      ((shapes.sees_iff inside).mp sees)
  case unseen =>
    intro frame inside outer there name value unseen
    rw [Store.lookup?, Store.scope_define, Store.lookup?]
    exact (findSome?_of_set (bound outer there name value) (elsewhere outer name value) _).2
      fun sees => unseen ((shapes.sees_iff inside).mpr sees)
  case other =>
    intro frame outer name value other different
    rw [Store.lookup?, Store.scope_define, Store.lookup?]
    refine congrArg (fun get => List.findSome? get _) (funext fun id => ?_)
    rw [store.frame_define]
    split
    · exact Bindings.get?_set_ne different value _
    · rfl
  case ancestor =>
    intro outer there frame around different name
    have nearer := shapes.scope_le there frame around
    have inside := shapes.scope_lt there frame around
    refine not_sees_of_apart (fun back => different ?_) name
    exact Nat.le_antisymm nearer (shapes.scope_le inside outer back)
  case sibling =>
    intro frame inside outer there different parents name
    refine not_sees_of_apart (fun back => ?_) name
    rcases List.mem_cons.mp back with rfl | further
    · exact different rfl
    · rcases shapes.ancestors frame inside with ⟨_, none⟩ | ⟨parent, _, named, around⟩
      · simp [none] at further
      · have less := shapes.older outer parent (parents ▸ named)
        have within := Nat.lt_trans less there
        rw [around] at further
        exact absurd less (Nat.not_lt.mpr (shapes.scope_le within outer further))

end History

/-- An update up to a name that is refused, or a single definition of it. -/
structure Environment.RefusesNames (store : Store) : Prop where
  define : ∀ frame name value, name.isSymbol = false →
    define frame name value store = .error (.fault (refusal store name)) store
  update : ∀ frame (first : List (Symbol × Object)) name value rest, name.isSymbol = false →
    update frame (first.map (fun entry => (.symbol entry.1, entry.2)) ++ (name, value) :: rest)
        store =
      .error (.fault (refusal store name)) (store.defineAll frame first)

theorem Environment.refusesNames (store : Store) : RefusesNames store where
  define frame _ value misnamed := define_of_misnamed misnamed frame value store
  update frame first name value rest misnamed := by
    induction first generalizing store with
    | nil =>
        rw [List.map_nil, List.nil_append, Environment.update, Eval.bind_apply,
          define_of_misnamed misnamed]
        rfl
    | cons entry first ih =>
        rw [← refusal_define store frame entry.1 entry.2]
        exact ih (store.define frame entry.1 entry.2)

/-- From a store without frames on, after any actions on environments, of which some may fail,
everything is found as the history of the actions says; the next definition is seen from the
frames inside, unless one between them has the name too, and from nowhere else; and a name that
is no symbol is refused as such if it can be written, and as too long to write if it cannot, when
what came before it is done. -/
theorem environment_follows_history {store : Store} {actions : List Environment.Action}
    (bare : store.frames = #[]) (feasible : Environment.Feasible store actions) :
    (History.ofActions actions).Describes (Environment.act store actions) ∧
      (History.ofActions actions).Exposes (Environment.act store actions) ∧
      Environment.RefusesNames (Environment.act store actions) := by
  have shapes : (History.ofActions actions).Shapes (Environment.act store actions) :=
    (History.Shapes.blank bare).act feasible
  exact ⟨shapes.describes, shapes.exposes, Environment.refusesNames _⟩

/-- The message that refuses a name shows it, and so the refusal itself fails for a name that is too
long to be written. -/
theorem unwritableName_fails :
    (Object.integer digitBound).isSymbol = false ∧
      Environment.define 0 (.integer digitBound) (.integer 1) .empty =
        .error (.fault (.host .tooLong)) .empty := by
  refine ⟨rfl, ?_⟩
  rw [Environment.define_of_misnamed rfl, Environment.refusal, Store.writable_digitBound]
  rfl

/-- Three frames inside each other, of which the middle one hides a name of the outermost, with
an update that fails on the way and a call of a function. -/
def layered : List Environment.Action :=
  [.root, .define 0 (.symbol ⟨"x"⟩) (.integer 1), .child 0, .child 1,
    .define 1 (.symbol ⟨"x"⟩) (.integer 2),
    .update 2 [(.symbol ⟨"y"⟩, .integer 3), (.nil, .integer 4), (.symbol ⟨"x"⟩, .integer 5)],
    .extend ⟨[⟨"x"⟩], .nil, 1⟩ [.integer 6], .define 1 (.symbol ⟨"x"⟩) (.integer 7)]

theorem layered_lookup :
    Environment.lookup 2 (.symbol ⟨"x"⟩) (Environment.act .empty layered) =
      .ok (.integer 7) (Environment.act .empty layered) := by
  have feasible : Environment.Feasible .empty layered := by
    simp [Environment.Feasible, layered]
    decide
  have described := (environment_follows_history rfl feasible).1
  have hidden : (History.ofActions layered).definedIn 1 =
      [(⟨"x"⟩, .integer 2), (⟨"x"⟩, .integer 7)] := rfl
  have inner : (History.ofActions layered).definedIn 2 = [(⟨"y"⟩, .integer 3)] := rfl
  have nearest : (History.ofActions layered).Nearest
      ((Environment.act .empty layered).scope 2) ⟨"x"⟩ 1 := by
    refine ⟨[2], [0], rfl, ⟨.integer 7, by simp [hidden]⟩, ?_⟩
    simp [History.Defines, inner]
  obtain ⟨_, _, value, latest, looked⟩ := described.found 2 (by decide) ⟨"x"⟩ 1 nearest
  obtain rfl : Object.integer 7 = value := by
    simpa [History.latest?, hidden] using latest
  exact looked

end LispCore
