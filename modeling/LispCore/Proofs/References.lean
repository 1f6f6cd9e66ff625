import LispCore.SpecialForm

namespace LispCore

namespace SpecialForm

/-- The operands, or parts of operands, that a form evaluates in its own frame. -/
def evaluated (form : SpecialForm) (operands : List Object) : List Object :=
  match form, operands with
  | .define, [_, node] => [node]
  | .binding, first :: _ =>
      (first.formElements?.getD []).filterMap fun binding => (bindingParts? binding).map Prod.snd
  | .quote, _ | .define, _ | .lambda, _ | .binding, _ => []
  | _, operands => operands

/-- Does a form bind names, or hold on to the frame that it is evaluated in? -/
def binds : SpecialForm → Bool
  | .define | .lambda | .binding => true
  | _ => false

theorem ofHead?_begin :
    ofHead? (.reference none (.symbol beginKeyword)) = some .begin := rfl

end SpecialForm

namespace Object

def refer (text : String) : Object :=
  .reference none (.symbol ⟨text⟩)

def formOf (elements : List Object) : Object :=
  .form none .tuple elements

mutual

/-- The names in reference position: all but what is quoted, the names that are defined
or bound, the parameters of functions, and the keywords at the head of special forms. -/
def references : Object → List Symbol
  | .reference _ (.symbol name) => [name]
  | .form _ _ (head :: operands) =>
      match SpecialForm.ofHead? head with
      | none => references head ++ referencesAll operands
      | some .quote => []
      | some .define | some .lambda => referencesAfterFirst operands
      | some .binding => referencesOfLet operands
      | some _ => referencesAll operands
  | _ => []

def referencesAll : List Object → List Symbol
  | [] => []
  | node :: nodes => references node ++ referencesAll nodes

def referencesAfterFirst : List Object → List Symbol
  | [] => []
  | _ :: nodes => referencesAll nodes

def referencesOfLet : List Object → List Symbol
  | [] => []
  | .form _ _ bindings :: body => referencesOfBindings bindings ++ referencesAll body
  | _ :: body => referencesAll body

def referencesOfBindings : List Object → List Symbol
  | [] => []
  | .form _ _ parts :: bindings => referencesAfterFirst parts ++ referencesOfBindings bindings
  | _ :: bindings => referencesOfBindings bindings

end

mutual

/-- Is a node built without forms that bind, but for what is quoted? -/
def bindsNothing : Object → Bool
  | .form _ _ (head :: operands) =>
      match SpecialForm.ofHead? head with
      | none => bindsNothing head && bindNothing operands
      | some .quote => true
      | some special => !special.binds && bindNothing operands
  | _ => true

def bindNothing : List Object → Bool
  | [] => true
  | node :: nodes => bindsNothing node && bindNothing nodes

end

variable {name : Symbol} {head node : Object} {nodes operands : List Object}

theorem mem_referencesAll :
    name ∈ referencesAll nodes ↔ ∃ node ∈ nodes, name ∈ node.references := by
  induction nodes with
  | nil => simp [referencesAll]
  | cons node nodes ih => simp [referencesAll, ih]

theorem bindNothing_iff : bindNothing nodes ↔ ∀ node ∈ nodes, node.bindsNothing := by
  induction nodes with
  | nil => simp [bindNothing]
  | cons node nodes ih => simp [bindNothing, ih]

variable {special : SpecialForm} {label : Option Label} {shape : FormShape}

theorem references_applied (applied : SpecialForm.ofHead? head = none) :
    references (.form label shape (head :: operands)) = referencesAll (head :: operands) := by
  simp only [references, applied, referencesAll]

theorem mem_references_of_lambda {formals : Object} {body : List Object}
    (closes : SpecialForm.ofHead? head = some .lambda) (refers : name ∈ referencesAll body) :
    name ∈ references (.form label shape (head :: formals :: body)) := by
  simpa only [references, closes, referencesAfterFirst] using refers

theorem mem_references_of_let {first : Object} {body : List Object}
    (opens : SpecialForm.ofHead? head = some .binding) (refers : name ∈ referencesAll body) :
    name ∈ references (.form label shape (head :: first :: body)) := by
  have inLet : name ∈ referencesOfLet (first :: body) := by
    cases first <;> simp [referencesOfLet, refers]
  simpa only [references, opens] using inLet

theorem form_of_bindingParts? {binding : Object} {bound : Symbol}
    (parts : bindingParts? binding = some (bound, node)) :
    ∃ label shape target, binding = .form label shape [target, node] := by
  unfold bindingParts? sequenceElements? at parts
  split at parts
  · rename_i target part elements
    obtain ⟨_, _, pair⟩ := Option.map_eq_some_iff.mp parts
    obtain rfl : part = node := congrArg Prod.snd pair
    split at elements
    · contradiction
    · rename_i label shape _ _
      obtain rfl := Option.some.inj elements
      exact ⟨label, shape, target, rfl⟩
    · contradiction
  · contradiction

theorem mem_referencesOfBindings {bindings : List Object} {binding : Object} {bound : Symbol}
    (member : binding ∈ bindings) (parts : bindingParts? binding = some (bound, node))
    (refers : name ∈ node.references) : name ∈ referencesOfBindings bindings := by
  induction bindings with
  | nil => contradiction
  | cons first rest ih =>
      rcases List.mem_cons.mp member with rfl | later
      · obtain ⟨label, shape, target, rfl⟩ := form_of_bindingParts? parts
        simp [referencesOfBindings, referencesAfterFirst, referencesAll, refers]
      · have inRest := ih later
        cases first <;> simp [referencesOfBindings, inRest]

/-- What a form evaluates in its own frame refers to nothing that the form does not. -/
theorem mem_references_of_evaluated (asked : SpecialForm.ofHead? head = some special)
    (member : node ∈ special.evaluated operands) (refers : name ∈ node.references) :
    name ∈ references (.form label shape (head :: operands)) := by
  have amongAll : node ∈ operands → name ∈ referencesAll operands :=
    fun inside => mem_referencesAll.mpr ⟨node, inside, refers⟩
  cases special with
  | quote | lambda => simp [SpecialForm.evaluated] at member
  | define =>
      match operands with
      | [target, value] =>
          obtain rfl := List.mem_singleton.mp member
          simpa [references, asked, referencesAfterFirst, referencesAll] using refers
      | [] | [_] | _ :: _ :: _ :: _ => simp [SpecialForm.evaluated] at member
  | binding =>
      match operands with
      | [] => simp [SpecialForm.evaluated] at member
      | first :: body =>
          obtain ⟨binding, inFirst, named⟩ := List.mem_filterMap.mp member
          obtain ⟨⟨bound, value⟩, parts, rfl⟩ := Option.map_eq_some_iff.mp named
          cases first with
          | form firstLabel firstShape bindings =>
              have inBindings : name ∈ referencesOfBindings bindings :=
                mem_referencesOfBindings inFirst parts refers
              simp [references, asked, referencesOfLet, inBindings]
          | _ => simp [formElements?] at inFirst
  | conditional | begin | conjunction | disjunction | apply =>
      simpa only [references, asked] using amongAll member

theorem references_bodyNode : (bodyNode nodes).references = referencesAll nodes := by
  match nodes with
  | [] => rfl
  | [node] => simp [bodyNode, referencesAll]
  | first :: second :: rest => simp [bodyNode, references, SpecialForm.ofHead?_begin]

theorem bindsNothing_applied (plain : bindsNothing (.form label shape (head :: operands)))
    (applied : SpecialForm.ofHead? head = none) :
    ∀ node ∈ head :: operands, node.bindsNothing := by
  simp only [bindsNothing, applied, Bool.and_eq_true] at plain
  exact List.forall_mem_cons.mpr ⟨plain.1, bindNothing_iff.mp plain.2⟩

theorem binds_of_bindsNothing (plain : bindsNothing (.form label shape (head :: operands)))
    (asked : SpecialForm.ofHead? head = some special) : special.binds = false := by
  cases special with
  | define | lambda | binding => simp [bindsNothing, asked, SpecialForm.binds] at plain
  | _ => rfl

theorem bindsNothing_evaluated (plain : bindsNothing (.form label shape (head :: operands)))
    (asked : SpecialForm.ofHead? head = some special) :
    ∀ node ∈ special.evaluated operands, node.bindsNothing := by
  intro node member
  cases special with
  | quote => simp [SpecialForm.evaluated] at member
  | define | lambda | binding => simp [bindsNothing, asked, SpecialForm.binds] at plain
  | conditional | begin | conjunction | disjunction | apply =>
      simp only [bindsNothing, asked, Bool.and_eq_true] at plain
      exact bindNothing_iff.mp plain.2 node member

end Object

end LispCore
