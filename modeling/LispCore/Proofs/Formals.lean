import LispCore.Node
import Mathlib.Data.List.Forall2
import Mathlib.Data.List.Induction
import Mathlib.Data.List.Nodup

namespace LispCore

namespace Object

def RefersTo (node : Object) (name : Symbol) : Prop :=
  ∃ label, node = .reference label (.symbol name)

theorem refersTo_iff {node : Object} {name : Symbol} :
    node.RefersTo name ↔ node.referenceName? = some name := by
  constructor
  · intro ⟨label, same⟩
    rw [same, referenceName?]
  · intro named
    unfold referenceName? at named
    split at named
    · rename_i label found
      obtain rfl := Option.some.inj named
      exact ⟨label, rfl⟩
    · contradiction

end Object

/-- The nodes refer to these names, one to each, and no two of these are the same. -/
structure DistinctNames (nodes : List Object) (names : List Symbol) : Prop where
  refer : List.Forall₂ Object.RefersTo nodes names
  distinct : names.Nodup

/-- Why parameters are refused, with the node at fault: they are no form at all, or it is the first
element that is no reference to a name, or refers to one again. -/
inductive RefusedFormals : Object → Object → Malformation → Prop
  | notList {formals : Object} (other : ∀ label shape nodes, formals ≠ .form label shape nodes) :
      RefusedFormals formals formals .formalsNotList
  | notSymbol {label : Option Label} {shape : FormShape} {earlier later : List Object}
      {names : List Symbol} {node : Object} (good : DistinctNames earlier names)
      (other : ∀ name, ¬ node.RefersTo name) :
      RefusedFormals (.form label shape (earlier ++ node :: later)) node .formalNotSymbol
  | repeated {label : Option Label} {shape : FormShape} {earlier later : List Object}
      {names : List Symbol} {node : Object} {name : Symbol} (good : DistinctNames earlier names)
      (refers : node.RefersTo name) (again : name ∈ names) :
      RefusedFormals (.form label shape (earlier ++ node :: later)) node (.duplicateFormal name)

section Scan

variable {taken names : List Symbol} {nodes rest : List Object} {node : Object} {name : Symbol}

theorem formalsFrom_append (refer : List.Forall₂ Object.RefersTo nodes names)
    (distinct : (taken ++ names).Nodup) :
    formalsFrom taken (nodes ++ rest) = formalsFrom (taken ++ names) rest := by
  induction refer generalizing taken with
  | nil => simp only [List.nil_append, List.append_nil]
  | @cons node name nodes names named _ ih =>
      have new : name ∉ taken := fun old =>
        (List.nodup_append.mp distinct).2.2 name old name List.mem_cons_self rfl
      rw [List.append_cons] at distinct ⊢
      simp only [List.cons_append, formalsFrom, Object.refersTo_iff.mp named, if_neg new]
      exact ih distinct

theorem formalsFrom_distinct (good : DistinctNames nodes names) (rest : List Object) :
    formalsFrom [] (nodes ++ rest) = formalsFrom names rest := by
  have distinct : ([] ++ names).Nodup := good.distinct
  exact formalsFrom_append good.refer distinct

theorem parseFormals_ok (label : Option Label) (shape : FormShape)
    (good : DistinctNames nodes names) : parseFormals (.form label shape nodes) = .ok names := by
  have scanned := formalsFrom_distinct good []
  rwa [List.append_nil] at scanned

theorem parseFormals_error {formals : Object} {reason : Malformation}
    (refused : RefusedFormals formals node reason) :
    parseFormals formals = .error (.malformed node reason) := by
  cases refused with
  | notList other =>
      cases node with
      | form label shape nodes => exact absurd rfl (other label shape nodes)
      | _ => rfl
  | @notSymbol _ _ earlier later names _ good other =>
      have unnamed : node.referenceName? = none :=
        Option.eq_none_iff_forall_ne_some.mpr fun name named =>
          other name (Object.refersTo_iff.mpr named)
      change formalsFrom [] (earlier ++ node :: later) = _
      rw [formalsFrom_distinct good, formalsFrom]
      simp only [unnamed]
  | @repeated _ _ earlier later names _ name good refers again =>
      change formalsFrom [] (earlier ++ node :: later) = _
      rw [formalsFrom_distinct good, formalsFrom]
      simp only [Object.refersTo_iff.mp refers, if_pos again]

theorem DistinctNames.concat (good : DistinctNames nodes names) (refers : node.RefersTo name)
    (new : name ∉ names) : DistinctNames (nodes ++ [node]) (names ++ [name]) where
  refer := List.rel_append good.refer (.cons refers .nil)
  distinct := by
    rw [List.nodup_append_comm, List.singleton_append, List.nodup_cons]
    exact ⟨new, good.distinct⟩

/-- Nodes that do not refer to distinct names have a first one at fault. -/
theorem named_or_refused (label : Option Label) (shape : FormShape) (nodes : List Object) :
    (∃ names, DistinctNames nodes names) ∨
      ∃ node reason, RefusedFormals (.form label shape nodes) node reason := by
  induction nodes using List.reverseRecOn with
  | nil => exact .inl ⟨[], .nil, List.nodup_nil⟩
  | append_singleton nodes last ih =>
      rcases ih with ⟨names, good⟩ | ⟨node, reason, refused⟩
      · by_cases named : ∃ name, last.RefersTo name
        · obtain ⟨name, refers⟩ := named
          by_cases again : name ∈ names
          · exact .inr ⟨last, _, .repeated good refers again⟩
          · exact .inl ⟨names ++ [name], good.concat refers again⟩
        · exact .inr ⟨last, _, .notSymbol good fun name refers => named ⟨name, refers⟩⟩
      -- whatever comes after a node at fault is not looked at
      · cases refused with
        | notList other => exact absurd rfl (other label shape nodes)
        | @notSymbol _ _ earlier later _ _ good other =>
            rw [List.append_assoc, List.cons_append]
            exact .inr ⟨node, _, .notSymbol good other⟩
        | @repeated _ _ earlier later _ _ _ good refers again =>
            rw [List.append_assoc, List.cons_append]
            exact .inr ⟨node, _, .repeated good refers again⟩

theorem parsed_or_refused (formals : Object) :
    (∃ label shape nodes names, formals = .form label shape nodes ∧ DistinctNames nodes names) ∨
      ∃ node reason, RefusedFormals formals node reason := by
  cases formals with
  | form label shape nodes =>
      rcases named_or_refused label shape nodes with ⟨names, good⟩ | refused
      · exact .inl ⟨label, shape, nodes, names, rfl, good⟩
      · exact .inr refused
  | _ => exact .inr ⟨_, _, .notList fun _ _ _ same => by cases same⟩

theorem parseFormals_ok_iff {formals : Object} :
    parseFormals formals = .ok names ↔
      ∃ label shape nodes, formals = .form label shape nodes ∧ DistinctNames nodes names := by
  constructor
  · intro parsed
    rcases parsed_or_refused formals with
      ⟨label, shape, nodes, found, same, good⟩ | ⟨node, reason, refused⟩
    · have found_ok := parseFormals_ok label shape good
      rw [← same, parsed] at found_ok
      cases found_ok
      exact ⟨label, shape, nodes, same, good⟩
    · rw [parseFormals_error refused] at parsed
      contradiction
  · intro ⟨label, shape, nodes, same, good⟩
    rw [same, parseFormals_ok label shape good]

theorem parseFormals_error_iff {formals : Object} {fault : Fault} :
    parseFormals formals = .error fault ↔
      ∃ node reason, fault = .malformed node reason ∧ RefusedFormals formals node reason := by
  constructor
  · intro failed
    rcases parsed_or_refused formals with
      ⟨label, shape, nodes, found, same, good⟩ | ⟨node, reason, refused⟩
    · rw [same, parseFormals_ok label shape good] at failed
      contradiction
    · rw [parseFormals_error refused] at failed
      cases failed
      exact ⟨node, reason, rfl, refused⟩
  · intro ⟨node, reason, same, refused⟩
    rw [same, parseFormals_error refused]

end Scan

end LispCore
