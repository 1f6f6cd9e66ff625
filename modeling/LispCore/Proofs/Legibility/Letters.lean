import LispCore.Proofs.Printing
import Std.Data.String.ToNat

/-!
Letters: what is read off the readable text of a value.

The text of a value made of nil, truth values, integers, strings and plain symbols tells where
it ends, and what it is the text of. A string ends with the first quote that is not escaped, a
word at the next break, and a list at its bracket. So no two pictures of such values start a text
in the same way (`Picture.letters_cancel`).
-/

namespace LispCore

namespace Readable

/-- What no word has in it: the gap after a word, the brackets, and the quote around a string. -/
def isBreak (char : Char) : Bool :=
  [' ', '(', ')', '"'].contains char

/-- Is a text at its end, or is a break next? -/
def Stops (rest : List Char) : Prop :=
  ∀ char ∈ rest.head?, isBreak char

/-- The character that an escape stands for. -/
def unescaped : Char → Char
  | 'n' => '\n'
  | 't' => '\t'
  | 'r' => '\r'
  | char => char

/-- Reads a string up to its closing quote, and what comes after it. -/
def unquote : List Char → Option (List Char × List Char)
  | [] => none
  | '"' :: rest => some ([], rest)
  | '\\' :: char :: rest => (unquote rest).map fun (text, rest) => (unescaped char :: text, rest)
  | char :: rest => (unquote rest).map fun (text, rest) => (char :: text, rest)

variable {text text' rest rest' word word' : List Char}

theorem unquote_escape (char : Char) (rest : List Char) :
    unquote (escape char ++ rest) =
      (unquote rest).map fun (text, rest) => (char :: text, rest) := by
  unfold escape
  split <;> simp_all [unquote, unescaped]

theorem unquote_escaped (text rest : List Char) :
    unquote (text.flatMap escape ++ '"' :: rest) = some (text, rest) := by
  induction text with
  | nil => rfl
  | cons char text ih =>
      rw [List.flatMap_cons, List.append_assoc, unquote_escape, ih]
      rfl

/-- A string in quotes tells where it ends, and what it is. -/
theorem encode_cancel (same : encode text ++ rest = encode text' ++ rest') :
    text = text' ∧ rest = rest' := by
  have inner : text.flatMap escape ++ '"' :: rest = text'.flatMap escape ++ '"' :: rest' := by
    simpa [encode] using same
  have read := congrArg unquote inner
  rw [unquote_escaped, unquote_escaped] at read
  exact Prod.mk.inj (Option.some.inj read)

theorem word_cancel (unbroken : ∀ char ∈ word, isBreak char = false)
    (unbroken' : ∀ char ∈ word', isBreak char = false) (stops : Stops rest) (stops' : Stops rest')
    (same : word ++ rest = word' ++ rest') : word = word' ∧ rest = rest' := by
  have goesOn : ∀ {char : Char} {more after : List Char}, Stops (char :: more ++ after) →
      isBreak char = false → False := fun stops unbroken => by
    rw [stops _ rfl] at unbroken
    contradiction
  induction word generalizing word' with
  | nil =>
      cases word' with
      | nil => exact ⟨rfl, same⟩
      | cons char more =>
          rw [List.nil_append] at same
          exact (goesOn (same ▸ stops) (unbroken' char List.mem_cons_self)).elim
  | cons char more ih =>
      cases word' with
      | nil =>
          rw [List.nil_append] at same
          exact (goesOn (same ▸ stops') (unbroken char List.mem_cons_self)).elim
      | cons char' more' =>
          obtain ⟨rfl, further⟩ := List.cons.inj same
          obtain ⟨rfl, ends⟩ := ih (List.forall_mem_cons.mp unbroken).2
            (List.forall_mem_cons.mp unbroken').2 further
          exact ⟨rfl, ends⟩

/-- A decimal integer, with or without a sign. -/
def isNumeral : List Char → Bool
  | '+' :: digits | '-' :: digits => isDigits digits
  | digits => isDigits digits
where
  isDigits (digits : List Char) : Bool := !digits.isEmpty && digits.all Char.isDigit

theorem isBreak_of_isDigit {char : Char} (digit : char.isDigit) : isBreak char = false := by
  refine Bool.eq_false_iff.mpr fun broken => ?_
  have each : char = ' ' ∨ char = '(' ∨ char = ')' ∨ char = '"' := by
    simpa [isBreak] using broken
  rcases each with rfl | rfl | rfl | rfl <;> contradiction

theorem isNumeral_of_isDigits {digits : List Char} (all : isNumeral.isDigits digits) :
    isNumeral digits := by
  unfold isNumeral
  split
  · exact absurd all (by simp [isNumeral.isDigits])
  · exact absurd all (by simp [isNumeral.isDigits])
  · exact all

/-- A numeral is made of digits, with a sign before them at most. -/
theorem unbroken_of_isNumeral {text : List Char} (numeral : isNumeral text) :
    ∀ char ∈ text, isBreak char = false := by
  have ofDigits : ∀ digits, isNumeral.isDigits digits → ∀ char ∈ digits, isBreak char = false :=
    fun digits all char member => by
      have each : digits ≠ [] ∧ ∀ char ∈ digits, char.isDigit := by
        simpa [isNumeral.isDigits] using all
      exact isBreak_of_isDigit (each.2 char member)
  unfold isNumeral at numeral
  split at numeral
  · exact List.forall_mem_cons.mpr ⟨rfl, ofDigits _ numeral⟩
  · exact List.forall_mem_cons.mpr ⟨rfl, ofDigits _ numeral⟩
  · exact ofDigits _ numeral

end Readable

open Readable (isBreak isNumeral Stops)

theorem isDigits_repr (value : Nat) : isNumeral.isDigits (Nat.repr value).toList := by
  rw [Nat.repr_eq_ofList_toDigits, String.toList_ofList]
  have digits : ∀ char ∈ Nat.toDigits 10 value, char.isDigit := fun char =>
    Nat.isDigit_of_mem_toDigits (by decide) (by decide)
  simpa [isNumeral.isDigits, Nat.toDigits_ne_nil] using digits

namespace Text

theorem isNumeral_integer (value : Int) : isNumeral (integer value).toList := by
  cases value with
  | ofNat value => exact Readable.isNumeral_of_isDigits (isDigits_repr value)
  | negSucc value =>
      rw [integer, String.toList_append]
      exact isDigits_repr (value + 1)

theorem integer_inj {a b : Int} (same : integer a = integer b) : a = b := by
  have signed : ∀ m n : Nat, Nat.repr m ≠ "-" ++ Nat.repr n := fun m n same => by
    have digits := isDigits_repr m
    rw [same, String.toList_append] at digits
    exact absurd digits (by simp [isNumeral.isDigits])
  cases a with
  | ofNat m =>
      cases b with
      | ofNat n => exact congrArg Int.ofNat (Nat.repr_inj.mp same)
      | negSucc n => exact (signed m (n + 1) same).elim
  | negSucc m =>
      cases b with
      | ofNat n => exact (signed n (m + 1) same.symm).elim
      | negSucc n =>
          have digits : Nat.repr (m + 1) = Nat.repr (n + 1) := by
            have letters := congrArg String.toList same
            rw [integer, integer, String.toList_append, String.toList_append] at letters
            exact String.toList_inj.mp (List.append_cancel_left letters)
          rw [Nat.succ.inj (Nat.repr_inj.mp digits)]

end Text

/-- A name that is written as a word which reads as nothing else. -/
def Symbol.isPlain (symbol : Symbol) : Bool :=
  let letters := symbol.name.toList
  !letters.isEmpty && letters.all (!isBreak ·) && !isNumeral letters &&
    !([".", "#t", "#f"].contains symbol.name)

namespace Object

/-- Is it an atom that is written as one word? -/
def isWord : Object → Bool
  | .boolean _ | .integer _ => true
  | .symbol name => name.isPlain
  | _ => false

/-- Is it an atom that its readable text tells from all others? -/
def isLegible : Object → Bool
  | .nil | .string _ => true
  | object => object.isWord

/-- The readable text of a legible atom. -/
def letters : Object → List Char
  | .nil => ['(', ')']
  | .boolean true => ['#', 't']
  | .boolean false => ['#', 'f']
  | .integer value => (Text.integer value).toList
  | .symbol name => name.name.toList
  | .string text => Readable.encode text.toList
  | _ => []

variable {a b : Object}

/-- The text of a word is not empty, has no breaks in it, and is not the dot of a pair. -/
theorem letters_of_isWord (word : a.isWord) :
    a.letters ≠ [] ∧ (∀ char ∈ a.letters, isBreak char = false) ∧ a.letters ≠ ['.'] := by
  cases a with
  | boolean truth => cases truth <;> simp [letters, isBreak]
  | integer value =>
      have numeral := Text.isNumeral_integer value
      refine ⟨?_, Readable.unbroken_of_isNumeral numeral, ?_⟩
      · intro empty
        rw [letters] at empty
        rw [empty] at numeral
        contradiction
      · intro dot
        rw [letters] at dot
        rw [dot] at numeral
        contradiction
  | symbol name =>
      obtain ⟨⟨⟨filled, unbroken⟩, -⟩, other⟩ := by
        simpa [isWord, Symbol.isPlain] using word
      refine ⟨by simpa [letters] using filled, unbroken, fun dot => other.1 ?_⟩
      exact String.toList_inj.mp dot
  | _ => contradiction

theorem isBreak_of_letters (word : a.isWord) {char : Char} {rest more : List Char}
    (same : a.letters ++ rest = char :: more) : isBreak char = false := by
  obtain ⟨filled, unbroken, -⟩ := letters_of_isWord word
  cases letters : a.letters with
  | nil => contradiction
  | cons first others =>
      rw [letters] at same unbroken
      obtain ⟨rfl, -⟩ := List.cons.inj same
      exact unbroken first List.mem_cons_self

theorem isInteger_of_isNumeral (word : a.isWord) : isNumeral a.letters = a.isInteger := by
  cases a with
  | boolean truth => cases truth <;> rfl
  | integer value => exact Text.isNumeral_integer value
  | symbol name =>
      obtain ⟨⟨-, other⟩, -⟩ := by
        simpa [isWord, Symbol.isPlain] using word
      exact other
  | _ => contradiction

theorem letters_boolean_ne {truth : Bool} {name : Symbol} (plain : name.isPlain) :
    (boolean truth).letters ≠ (symbol name).letters := by
  obtain ⟨-, other⟩ := by
    simpa [Symbol.isPlain] using plain
  intro same
  have named : name.name = if truth then "#t" else "#f" := by
    refine String.toList_inj.mp (same.symm.trans ?_)
    cases truth <;> rfl
  cases truth <;> simp [named] at other

theorem eq_of_letters (word : a.isWord) (word' : b.isWord) (same : a.letters = b.letters) :
    a = b := by
  have sort : a.isInteger = b.isInteger := by
    rw [← isInteger_of_isNumeral word, ← isInteger_of_isNumeral word', same]
  cases a with
  | boolean truth =>
      cases b with
      | boolean truth' => cases truth <;> cases truth' <;> first | rfl | contradiction
      | symbol name => exact absurd same (letters_boolean_ne word')
      | _ => contradiction
  | integer value =>
      cases b with
      | integer value' => exact congrArg integer (Text.integer_inj (String.toList_inj.mp same))
      | _ => contradiction
  | symbol name =>
      cases b with
      | boolean truth => exact absurd same.symm (letters_boolean_ne word)
      | symbol name' =>
          have names : name.name = name'.name := String.toList_inj.mp same
          exact congrArg symbol (congrArg Symbol.mk names)
      | _ => contradiction
  | _ => contradiction

/-- What a legible atom is written as. -/
inductive Writing : Object → Prop
  | nil : Writing .nil
  | string (text : String) : Writing (.string text)
  | word {value : Object} (word : value.isWord) : Writing value

theorem writing_of_isLegible (legible : a.isLegible) : Writing a := by
  cases a with
  | nil => exact .nil
  | string text => exact .string text
  | _ => exact .word legible

/-- Two texts that start with legible atoms start with the same one if they are the same. -/
theorem letters_cancel (legible : a.isLegible) (legible' : b.isLegible) {rest rest' : List Char}
    (stops : Stops rest) (stops' : Stops rest') (same : a.letters ++ rest = b.letters ++ rest') :
    a = b ∧ rest = rest' := by
  cases writing_of_isLegible legible with
  | nil =>
      cases writing_of_isLegible legible' with
      | nil => exact ⟨rfl, List.append_cancel_left same⟩
      | string text => exact absurd same (by simp [letters, Readable.encode])
      | word word => exact absurd (isBreak_of_letters word same.symm) (by decide)
  | string text =>
      cases writing_of_isLegible legible' with
      | nil => exact absurd same (by simp [letters, Readable.encode])
      | string text' =>
          obtain ⟨texts, rests⟩ := Readable.encode_cancel same
          exact ⟨congrArg string (String.toList_inj.mp texts), rests⟩
      | word word => exact absurd (isBreak_of_letters word same.symm) (by decide)
  | word word =>
      cases writing_of_isLegible legible' with
      | nil => exact absurd (isBreak_of_letters word same) (by decide)
      | string text => exact absurd (isBreak_of_letters word same) (by decide)
      | word word' =>
          obtain ⟨texts, rests⟩ := Readable.word_cancel (letters_of_isWord word).2.1
            (letters_of_isWord word').2.1 stops stops' same
          exact ⟨eq_of_letters word word' texts, rests⟩

end Object

namespace Picture

/-- A picture of pairs of legible atoms, without a mark. -/
def IsLegible : Picture → Prop
  | .atom value => value.isLegible
  | .mark => False
  | .pair head tail => head.IsLegible ∧ tail.IsLegible

mutual

/-- The readable text of a legible picture. -/
def letters : Picture → List Char
  | .atom value => value.letters
  | .mark => []
  | .pair head tail => '(' :: letters head ++ lettersAfter tail ++ [')']

/-- The text of the rest of a list, from one of its tails on. -/
def lettersAfter : Picture → List Char
  | .atom .nil | .mark => []
  | .atom value => ' ' :: '.' :: ' ' :: value.letters
  | .pair head tail => ' ' :: letters head ++ lettersAfter tail

end

variable {picture : Picture}

theorem atomText_of_isLegible (store : Store) {value : Object} (legible : value.isLegible) :
    store.atomText true value = String.ofList value.letters := by
  cases value with
  | boolean truth => cases truth <;> rfl
  | nil | string text => rfl
  | integer value | symbol name => exact String.ofList_toList.symm
  | _ => contradiction

theorem letters_eq (store : Store) (legible : picture.IsLegible) :
    (picture.text store true).toList = picture.letters ∧
      (picture.textAfter store true).toList = picture.lettersAfter := by
  induction picture with
  | atom value =>
      have written := atomText_of_isLegible store legible
      refine ⟨by simp [text, letters, written], ?_⟩
      rw [textAfter.eq_def, lettersAfter.eq_def]
      cases value with
      | nil => rfl
      | _ => simp [written]
  | mark => contradiction
  | pair head tail ihHead ihTail =>
      simp [text, textAfter, letters, lettersAfter, ihHead legible.1, ihTail legible.2]

theorem letters_ne_closing (legible : picture.IsLegible) (rest more : List Char) :
    picture.letters ++ rest ≠ ')' :: more := by
  intro same
  cases picture with
  | atom value =>
      cases Object.writing_of_isLegible legible with
      | nil | string text => simp [letters, Object.letters, Readable.encode] at same
      | word word => exact absurd (Object.isBreak_of_letters word same) (by decide)
  | mark => contradiction
  | pair head tail => simp [letters] at same

/-- The text of a picture is not taken for the dot of a pair. -/
theorem letters_ne_dot (legible : picture.IsLegible) {rest : List Char} (stops : Stops rest)
    (more : List Char) : picture.letters ++ rest ≠ '.' :: ' ' :: more := by
  intro same
  cases picture with
  | atom value =>
      cases Object.writing_of_isLegible legible with
      | nil | string text => simp [letters, Object.letters, Readable.encode] at same
      | word word =>
          obtain ⟨_, unbroken, other⟩ := Object.letters_of_isWord word
          have gap : Stops (' ' :: more) := by simp [Stops, isBreak]
          have dot : ∀ char ∈ ['.'], isBreak char = false := by simp [isBreak]
          exact other (Readable.word_cancel unbroken dot stops gap same).1
  | mark => contradiction
  | pair head tail => simp [letters] at same

/-- After an element of a list there is a gap, or the list is closed. -/
theorem stops_lettersAfter (picture : Picture) (rest : List Char) :
    Stops (picture.lettersAfter ++ ')' :: rest) := by
  rw [lettersAfter.eq_def]
  split <;> simp [Stops, isBreak]

theorem letters_atom_ne_pair {value : Object} {head tail : Picture} (legible : value.isLegible)
    (legible' : head.IsLegible) (rest rest' : List Char) :
    value.letters ++ rest ≠ (pair head tail).letters ++ rest' := by
  intro same
  cases Object.writing_of_isLegible legible with
  | nil =>
      have inner : head.letters ++ (tail.lettersAfter ++ ')' :: rest') = ')' :: rest := by
        simpa [letters, Object.letters] using same.symm
      exact letters_ne_closing legible' _ _ inner
  | string text => simp [letters, Object.letters, Readable.encode] at same
  | word word => exact absurd (Object.isBreak_of_letters word same) (by decide)

theorem lettersAfter_atom {value : Object} (other : value ≠ .nil) :
    (atom value).lettersAfter = ' ' :: '.' :: ' ' :: value.letters := by
  cases value with
  | nil => contradiction
  | _ => rfl

theorem lettersAfter_atoms_cancel {a b : Object} (legible : a.isLegible) (legible' : b.isLegible)
    {rest rest' : List Char}
    (same : (atom a).lettersAfter ++ ')' :: rest = (atom b).lettersAfter ++ ')' :: rest') :
    a = b ∧ rest = rest' := by
  have stops : ∀ rest, Stops (')' :: rest) := fun rest => by simp [Stops, isBreak]
  by_cases last : a = .nil <;> by_cases last' : b = .nil
  · subst last last'
    exact ⟨rfl, (List.cons.inj same).2⟩
  · subst last
    rw [lettersAfter_atom last'] at same
    exact absurd same (by simp [lettersAfter])
  · subst last'
    rw [lettersAfter_atom last] at same
    exact absurd same (by simp [lettersAfter])
  · rw [lettersAfter_atom last, lettersAfter_atom last'] at same
    have letters : a.letters ++ ')' :: rest = b.letters ++ ')' :: rest' := by simpa using same
    obtain ⟨rfl, rests⟩ := Object.letters_cancel legible legible' (stops rest) (stops rest') letters
    exact ⟨rfl, (List.cons.inj rests).2⟩

theorem lettersAfter_atom_ne_pair {value : Object} {head tail : Picture} (legible : head.IsLegible)
    (rest rest' : List Char) :
    (atom value).lettersAfter ++ ')' :: rest ≠ (pair head tail).lettersAfter ++ ')' :: rest' := by
  intro same
  by_cases last : value = .nil
  · subst last
    exact absurd same (by simp [lettersAfter])
  · rw [lettersAfter_atom last] at same
    have element : head.letters ++ (tail.lettersAfter ++ ')' :: rest') =
        '.' :: ' ' :: (value.letters ++ ')' :: rest) := by
      simpa [lettersAfter] using same.symm
    exact letters_ne_dot legible (stops_lettersAfter tail rest') _ element

/-- Two texts that start with pictures start with the same one if they are the same, whether the
pictures are written for themselves or as what is left of lists. -/
theorem letters_cancel {first second : Picture} (legible : first.IsLegible)
    (legible' : second.IsLegible) :
    (∀ rest rest', Stops rest → Stops rest' → first.letters ++ rest = second.letters ++ rest' →
      first = second ∧ rest = rest') ∧
    ∀ rest rest', first.lettersAfter ++ ')' :: rest = second.lettersAfter ++ ')' :: rest' →
      first = second ∧ rest = rest' := by
  -- Both at once: what is left of a list holds its next element, and that may be a list itself.
  induction first generalizing second with
  | atom value =>
      cases second with
      | atom value' =>
          constructor
          · intro rest rest' stops stops' same
            obtain ⟨rfl, rests⟩ := Object.letters_cancel legible legible' stops stops' same
            exact ⟨rfl, rests⟩
          · intro rest rest' same
            obtain ⟨rfl, rests⟩ := lettersAfter_atoms_cancel legible legible' same
            exact ⟨rfl, rests⟩
      | mark => contradiction
      | pair head tail =>
          constructor
          · intro rest rest' _ _ same
            exact (letters_atom_ne_pair legible legible'.1 rest rest' same).elim
          · intro rest rest' same
            exact (lettersAfter_atom_ne_pair legible'.1 rest rest' same).elim
  | mark => contradiction
  | pair head tail ihHead ihTail =>
      cases second with
      | atom value =>
          constructor
          · intro rest rest' _ _ same
            exact (letters_atom_ne_pair legible' legible.1 rest' rest same.symm).elim
          · intro rest rest' same
            exact (lettersAfter_atom_ne_pair legible.1 rest' rest same.symm).elim
      | mark => contradiction
      | pair head' tail' =>
          have parts : ∀ rest rest',
              head.letters ++ (tail.lettersAfter ++ ')' :: rest) =
                head'.letters ++ (tail'.lettersAfter ++ ')' :: rest') →
              pair head tail = pair head' tail' ∧ rest = rest' := by
            intro rest rest' same
            obtain ⟨rfl, further⟩ := (ihHead legible.1 legible'.1).1 _ _
              (stops_lettersAfter tail rest) (stops_lettersAfter tail' rest') same
            obtain ⟨rfl, rests⟩ := (ihTail legible.2 legible'.2).2 _ _ further
            exact ⟨rfl, rests⟩
          constructor
          · intro rest rest' _ _ same
            exact parts rest rest' (by simpa [letters] using same)
          · intro rest rest' same
            exact parts rest rest' (by simpa [lettersAfter] using same)

theorem letters_inj {first second : Picture} (legible : first.IsLegible)
    (legible' : second.IsLegible) : first.letters = second.letters ↔ first = second := by
  refine ⟨fun same => ?_, fun same => same ▸ rfl⟩
  have atEnd : Stops [] := by simp [Stops]
  have whole : first.letters ++ [] = second.letters ++ [] := by rw [same]
  exact ((letters_cancel legible legible').1 [] [] atEnd atEnd whole).1

end Picture

end LispCore
