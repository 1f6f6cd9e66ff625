import LispCore.Proofs.Legibility.Letters

namespace LispCore

namespace Store

/-- Values built by pairs from nil, truth values, integers, strings and plain symbols. As they are
built in finitely many steps, no pair in them reaches itself. -/
inductive Legible (store : Store) : Object → Prop
  | atom {value : Object} (isValue : value.isValue) (legible : value.isLegible) :
      Legible store value
  | pair {id : CellId} (inside : id < store.cells.size) (head : Legible store (store.cell id).head)
      (tail : Legible store (store.cell id).tail) : Legible store (.pair id)

variable {store : Store} {a b value : Object} {picture picture' : Picture}
  {opened opened' : Finset CellId}

theorem isPair_of_isLegible (legible : value.isLegible) : value.isPair = false := by
  cases value with
  | pair id => contradiction
  | _ => rfl

namespace Legible

theorem has (legible : store.Legible value) : store.Has value := by
  cases legible with
  | atom _ legible =>
      cases value with
      | pair id => contradiction
      | _ => trivial
  | pair inside => exact inside

theorem not_meetsCircle (legible : store.Legible value) : ¬ store.MeetsCircle value := by
  induction legible with
  | atom _ legible =>
      rintro ⟨_, ⟨id, rfl, _⟩, _⟩
      contradiction
  | pair inside _ _ ihHead ihTail =>
      intro circular
      rcases circular.in_part with head | tail
      · exact ihHead head
      · exact ihTail tail

/-- A legible value has a legible picture at any place around which no pair of it is open. -/
theorem exists_draws (legible : store.Legible value)
    (apart : ∀ id ∈ opened, ¬ store.Reaches value id) :
    ∃ picture, store.Draws opened value picture ∧ picture.IsLegible := by
  induction legible generalizing opened with
  | @atom value isValue legible =>
      exact ⟨.atom value, .atom isValue (isPair_of_isLegible legible), legible⟩
  | @pair id inside head tail ihHead ihTail =>
      have free := (Legible.pair inside head tail).not_meetsCircle
      have new : id ∉ opened := fun again => apart id again ⟨id, rfl, .refl⟩
      obtain ⟨first, drawsHead, legibleHead⟩ := ihHead (apart_part .head free apart)
      obtain ⟨last, drawsTail, legibleTail⟩ := ihTail (apart_part .tail free apart)
      exact ⟨.pair first last, .pair new inside drawsHead drawsTail, legibleHead, legibleTail⟩

theorem unfolds (legible : store.Legible value) :
    ∃ picture, store.Draws ∅ value picture ∧ picture.IsLegible :=
  legible.exists_draws (by simp)

end Legible

theorem atomsAgree_of_isLegible (legible : value.isLegible) : value.AtomsAgree value := by
  cases value with
  | nil => exact .nil
  | boolean truth => exact .boolean truth
  | integer number => exact .number rfl rfl rfl (by simp [Number.exact])
  | symbol name => exact .symbol name
  | string text => exact .string text
  | _ => contradiction

theorem eq_of_atomsAgree (legible : a.isLegible) (legible' : b.isLegible)
    (agree : a.AtomsAgree b) : a = b := by
  cases agree with
  | @number _ _ m n left right same proper =>
      cases a with
      | integer first =>
          cases b with
          | integer second =>
              cases left
              cases right
              have exact : (first : Rat) = second := by simpa [Number.exact] using same
              exact congrArg Object.integer (by exact_mod_cast exact)
          | _ => contradiction
      | _ => contradiction
  | closure | primitive => contradiction
  | _ => rfl

theorem bisimilar_of_draws (legible : picture.IsLegible) (draws : store.Draws opened a picture)
    (draws' : store.Draws opened' b picture) : store.Bisimilar a b := by
  refine ⟨fun a b => ∃ (picture : Picture) (opened opened' : Finset CellId), picture.IsLegible ∧
    store.Draws opened a picture ∧ store.Draws opened' b picture, ?_,
    picture, opened, opened', legible, draws, draws'⟩
  rintro a b ⟨picture, opened, opened', legible, draws, draws'⟩
  cases draws with
  | atom isValue plain =>
      cases draws'
      exact .atoms (atomsAgree_of_isLegible legible)
  | mark again => contradiction
  | pair new inside first last =>
      cases draws' with
      | pair new' inside' first' last' =>
          exact .pairs ⟨_, _, _, legible.1, first, first'⟩ ⟨_, _, _, legible.2, last, last'⟩

/-- The parts of bisimilar pairs are bisimilar, whether these are two pairs or one. -/
theorem Bisimilar.parts_of_draws {first second : CellId} {head tail : Picture}
    (similar : store.Bisimilar (.pair first) (.pair second)) (legible : head.IsLegible)
    (legible' : tail.IsLegible) (drawsHead : store.Draws opened (store.cell first).head head)
    (drawsTail : store.Draws opened (store.cell first).tail tail) :
    store.Bisimilar (store.cell first).head (store.cell second).head ∧
      store.Bisimilar (store.cell first).tail (store.cell second).tail := by
  by_cases same : first = second
  · subst same
    exact ⟨bisimilar_of_draws legible drawsHead drawsHead,
      bisimilar_of_draws legible' drawsTail drawsTail⟩
  · exact similar.parts fun identical => same (eq_of_beq identical)

theorem Bisimilar.isPair_eq (similar : store.Bisimilar a b) : a.isPair = b.isPair := by
  cases similar.matches with
  | identical same =>
      unfold Object.identical at same
      split at same <;> first | rfl | contradiction
  | atoms agree =>
      cases agree with
      | number left right _ _ =>
          have number : ∀ {c : Object} {n : Number}, Number.ofObject? c = some n →
              c.isPair = false := fun {c n} known => by
            cases c with
            | pair id => contradiction
            | _ => rfl
          rw [number left, number right]
      | _ => rfl
  | pairs => rfl

/-- Bisimilar values unfold to the same legible picture, if to legible ones at all. -/
theorem eq_of_bisimilar (legible : picture.IsLegible) (legible' : picture'.IsLegible)
    (draws : store.Draws opened a picture) (draws' : store.Draws opened' b picture')
    (similar : store.Bisimilar a b) : picture = picture' := by
  -- The cases follow the drawings, not the match: what is identical matches without a look inside.
  have sort := similar.isPair_eq
  induction draws generalizing b picture' opened' with
  | @atom opened value isValue plain =>
      cases draws' with
      | atom isValue' plain' =>
          cases similar.matches with
          | identical same =>
              rw [Object.eq_of_identical_value (Object.kind?_of_isValue isValue') same]
          | atoms agree => rw [eq_of_atomsAgree legible legible' agree]
          | pairs => contradiction
      | mark | pair => exact (Bool.false_ne_true (plain.symm.trans sort)).elim
  | mark again => contradiction
  | @pair opened id head tail new inside first last ihHead ihTail =>
      cases draws' with
      | atom isValue' plain' => exact (Bool.false_ne_true (plain'.symm.trans sort.symm)).elim
      | mark => contradiction
      | pair new' inside' first' last' =>
          obtain ⟨heads, tails⟩ := similar.parts_of_draws legible.1 legible.2 first last
          rw [ihHead legible.1 legible'.1 first' heads heads.isPair_eq,
            ihTail legible.2 legible'.2 last' tails tails.isPair_eq]

/-- A legible picture does not depend on what is open around it. -/
theorem Draws.fewer (draws : store.Draws opened value picture) (legible : picture.IsLegible)
    (fewer : opened' ⊆ opened) : store.Draws opened' value picture := by
  induction draws generalizing opened' with
  | atom isValue plain => exact .atom isValue plain
  | mark again => contradiction
  | pair new inside _ _ ihHead ihTail =>
      exact .pair (fun member => new (fewer member)) inside
        (ihHead legible.1 (Finset.insert_subset_insert _ fewer))
        (ihTail legible.2 (Finset.insert_subset_insert _ fewer))

/-- Two values that unfold to the same legible picture. -/
def Alike (store : Store) (a b : Object) : Prop :=
  ∃ picture : Picture, picture.IsLegible ∧ store.Draws ∅ a picture ∧ store.Draws ∅ b picture

namespace Alike

theorem bisimilar (alike : store.Alike a b) : store.Bisimilar a b := by
  obtain ⟨picture, legible, draws, draws'⟩ := alike
  exact bisimilar_of_draws legible draws draws'

theorem parts {first second : CellId} (alike : store.Alike (.pair first) (.pair second)) :
    store.Alike (store.cell first).head (store.cell second).head ∧
      store.Alike (store.cell first).tail (store.cell second).tail := by
  obtain ⟨picture, legible, draws, draws'⟩ := alike
  cases draws with
  | atom | mark => contradiction
  | pair new inside first last =>
      cases draws' with
      | pair new' inside' first' last' =>
          exact ⟨⟨_, legible.1, first.fewer legible.1 (by simp), first'.fewer legible.1 (by simp)⟩,
            ⟨_, legible.2, last.fewer legible.2 (by simp), last'.fewer legible.2 (by simp)⟩⟩

theorem text_eq (alike : store.Alike a b) : store.written a true = store.written b true := by
  obtain ⟨picture, legible, draws, draws'⟩ := alike
  rw [draws.written_eq, draws'.written_eq]

theorem follow (steps : Nat) (alike : store.Alike a b) :
    List.Forall₂ store.Alike (store.follow steps a).1 (store.follow steps b).1 ∧
      store.Alike (store.follow steps a).2 (store.follow steps b).2 := by
  induction steps generalizing a b with
  | zero => exact ⟨.nil, alike⟩
  | succ steps ih =>
      have sort := alike.bisimilar.isPair_eq
      cases a with
      | pair first =>
          cases b with
          | pair second =>
              obtain ⟨heads, tails⟩ := alike.parts
              obtain ⟨elements, last⟩ := ih tails
              exact ⟨.cons heads elements, last⟩
          | _ => contradiction
      | _ =>
          cases b with
          | pair second => contradiction
          | _ => exact ⟨.nil, alike⟩

theorem eq_nil (alike : store.Alike .nil b) : b = .nil := by
  obtain ⟨picture, legible, draws, draws'⟩ := alike
  cases draws
  cases draws'
  rfl

end Alike

theorem alike_iff_equal (closed : store.Closed) (legible : store.Legible a)
    (legible' : store.Legible b) : store.Alike a b ↔ store.equal a b := by
  constructor
  · intro alike
    exact equalAll_of_bisimilar closed (List.forall_mem_singleton.mpr ⟨legible.has, legible'.has⟩)
      (List.forall_mem_singleton.mpr alike.bisimilar)
  · intro equal
    obtain ⟨picture, draws, drawn⟩ := legible.unfolds
    obtain ⟨picture', draws', drawn'⟩ := legible'.unfolds
    obtain rfl := eq_of_bisimilar drawn drawn' draws draws' (store.bisimilar_of_equal equal)
    exact ⟨picture, drawn, draws, draws'⟩

theorem alike_iff_text_eq (legible : store.Legible a) (legible' : store.Legible b) :
    store.Alike a b ↔ store.written a true = store.written b true := by
  refine ⟨Alike.text_eq, fun same => ?_⟩
  obtain ⟨picture, draws, drawn⟩ := legible.unfolds
  obtain ⟨picture', draws', drawn'⟩ := legible'.unfolds
  have letters := congrArg String.toList same
  rw [draws.written_eq, draws'.written_eq, (Picture.letters_eq store drawn).1,
    (Picture.letters_eq store drawn').1] at letters
  obtain rfl := (Picture.letters_inj drawn drawn').mp letters
  exact ⟨picture, drawn, draws, draws'⟩

/-- What two values have in common as lists: the texts of their elements, one by one, and the
text of what comes after the last. -/
structure ListedAlike (store : Store) (a b : Object) : Prop where
  pair : a.isPair = b.isPair
  elements : List.Forall₂ (fun c d => store.written c true = store.written d true)
    (store.chain a).1 (store.chain b).1
  last : store.written (store.chain a).2 true = store.written (store.chain b).2 true
  proper : store.isProperList a = store.isProperList b

theorem Alike.listedAlike (alike : store.Alike a b) : store.ListedAlike a b := by
  obtain ⟨elements, last⟩ := alike.follow store.cells.size
  refine ⟨alike.bisimilar.isPair_eq, elements.imp fun _ _ => Alike.text_eq, last.text_eq, ?_⟩
  rw [Bool.eq_iff_iff, isProperList_iff, isProperList_iff]
  constructor
  · intro proper
    exact Alike.eq_nil (proper ▸ last)
  · intro proper
    obtain ⟨picture, legible, draws, draws'⟩ := last
    exact Alike.eq_nil ⟨picture, legible, proper ▸ draws', draws⟩

end Store

/-- A readable text is read in one way. What is between the quotes of a string tells where the
string ends and what it is; and values made of pairs, legible atoms at their ends, have the same
text exactly if they are equal, and are then the same as lists. -/
theorem readable_text_identifies :
    (∀ text text' rest rest' : String, Text.readable text ++ rest = Text.readable text' ++ rest' →
      text = text' ∧ rest = rest') ∧
    ∀ store : Store, store.Closed → ∀ a b, store.Legible a → store.Legible b →
      (store.written a true = store.written b true ↔ store.equal a b) ∧
      (store.written a true = store.written b true → store.ListedAlike a b) := by
  constructor
  · intro text text' rest rest' same
    have letters := congrArg String.toList same
    simp only [Text.readable, String.toList_append, String.toList_ofList] at letters
    obtain ⟨texts, rests⟩ := Readable.encode_cancel letters
    exact ⟨String.toList_inj.mp texts, String.toList_inj.mp rests⟩
  · intro store closed a b legible legible'
    rw [← Store.alike_iff_text_eq legible legible']
    exact ⟨Store.alike_iff_equal closed legible legible', Store.Alike.listedAlike⟩

namespace Store

/-- A list of the name `x` and a string that is a quote, and another list with the same tail. -/
def sharing : Store :=
  { empty with cells :=
      #[⟨.string "\"", .nil⟩, ⟨.symbol ⟨"x"⟩, .pair 0⟩, ⟨.symbol ⟨"x"⟩, .pair 0⟩] }

theorem sharing_closed : sharing.Closed := by
  intro id inside
  have three : id < 3 := inside
  interval_cases id
  · exact ⟨trivial, trivial⟩
  · exact ⟨trivial, (by decide : 0 < 3)⟩
  · exact ⟨trivial, (by decide : 0 < 3)⟩

theorem sharing_legible : sharing.Legible (.pair 1) ∧ sharing.Legible (.pair 2) := by
  have last : sharing.Legible (.pair 0) :=
    .pair (by decide) (.atom rfl rfl) (.atom rfl rfl)
  have name : sharing.Legible (.symbol ⟨"x"⟩) := .atom rfl (by decide)
  exact ⟨.pair (by decide) name last, .pair (by decide) name last⟩

theorem sharing_equal : sharing.equal (.pair 1) (.pair 2) := by
  have inside : 1 < sharing.cells.size ∧ 2 < sharing.cells.size := by decide
  have first : sharing.cell 1 = ⟨.symbol ⟨"x"⟩, .pair 0⟩ := rfl
  have second : sharing.cell 2 = ⟨.symbol ⟨"x"⟩, .pair 0⟩ := rfl
  simp [equal, equalAll, Object.identical, Object.equalAtoms, inside, first, second]

end Store

theorem sharing_texts :
    Store.sharing.Legible (.pair 1) ∧ Store.sharing.Legible (.pair 2) ∧
      Store.sharing.written (.pair 1) true = Store.sharing.written (.pair 2) true := by
  obtain ⟨first, second⟩ := Store.sharing_legible
  obtain ⟨text, -⟩ := readable_text_identifies.2 _ Store.sharing_closed _ _ first second
  exact ⟨first, second, text.mpr Store.sharing_equal⟩

end LispCore
