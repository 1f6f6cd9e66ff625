import LispCore.Object

namespace LispCore

/-- The bindings of one frame, in order of first definition. -/
abbrev Bindings := List (Symbol × Object)

namespace Bindings

def get? (name : Symbol) : Bindings → Option Object
  | [] => none
  | (bound, value) :: rest => if bound = name then some value else get? name rest

/-- Rebinds a bound name where it stands, and binds a new one at the end. -/
def set (name : Symbol) (value : Object) : Bindings → Bindings
  | [] => [(name, value)]
  | (bound, old) :: rest =>
      if bound = name then (bound, value) :: rest else (bound, old) :: set name value rest

def names (bindings : Bindings) : List Symbol :=
  bindings.map Prod.fst

theorem get?_set_self (name : Symbol) (value : Object) (bindings : Bindings) :
    (bindings.set name value).get? name = some value := by
  induction bindings with
  | nil => simp [set, get?]
  | cons entry rest ih =>
      obtain ⟨bound, old⟩ := entry
      by_cases same : bound = name <;> simp [set, get?, same, ih]

theorem get?_set_ne {name other : Symbol} (different : other ≠ name) (value : Object)
    (bindings : Bindings) : (bindings.set name value).get? other = bindings.get? other := by
  induction bindings with
  | nil => simp [set, get?, Ne.symm different]
  | cons entry rest ih =>
      obtain ⟨bound, old⟩ := entry
      by_cases same : bound = name
      · subst same
        simp [set, get?, Ne.symm different]
      · simp [set, get?, same, ih]

end Bindings

end LispCore
