/-
# Lower case beyond ASCII

A token is read in lower case, and `parse` takes the lower case of ASCII for it.  The lower case of
a whole script is another matter: one character may become several, and what it becomes may depend
on its neighbours, as that of a final sigma does.

For the notation this makes no difference.  A `LowerCase` is any such way of writing in lower case
that does the usual thing to ASCII and never turns a character of another script into characters of
the notation only.

* `LowerCase.lawful_text_iff`: the lower case of a text, in any of these ways, is made of some
  lawful parts exactly if its ASCII lower case is.
-/
import Dice.Proofs.Notation.Form

namespace Dice.Notation

open Dice.Numeral

/-! ## 1. The characters of the notation -/

/-- The letters and signs of the notation. -/
def formLetters : List Char := ['d', 'r', 'h', 'l', '+', '-']

/-- The characters that a token in lower case is made of. -/
def isFormChar (c : Char) : Bool := c.isDigit || formLetters.contains c

theorem isFormChar_of_isDigit {c : Char} (h : c.isDigit = true) : isFormChar c = true := by
  rw [isFormChar, h, Bool.true_or]

/-- Every character of the notation is ASCII, and is seen when it is printed. -/
theorem toNat_of_isFormChar {c : Char} (h : isFormChar c = true) :
    0x21 ≤ c.toNat ∧ c.toNat ≤ 0x7e := by
  rcases Bool.or_eq_true _ _ ▸ h with h | h
  · have := toNat_of_isDigit h
    omega
  · have hm : c ∈ formLetters := List.contains_iff_mem.mp h
    have hall : ∀ d ∈ formLetters, 0x21 ≤ d.toNat ∧ d.toNat ≤ 0x7e := by simp [formLetters]
    exact hall c hm

/-- A marked part with a mark of the notation. -/
theorem isFormChar_of_mem_markedChars {α : Type} {letter : α → Char} {part : Option (α × List Char)}
    (hp : ∀ a ds, part = some (a, ds) → isFormChar (letter a) = true ∧ IsDigits ds) :
    ∀ c ∈ markedChars letter part, isFormChar c = true := by
  intro c hc
  cases part with
  | none => cases hc
  | some x =>
    obtain ⟨hl, hd⟩ := hp x.1 x.2 rfl
    rcases List.mem_cons.mp hc with rfl | hc
    · exact hl
    · exact isFormChar_of_isDigit (hd c hc)

/-- Lawful parts write nothing but characters of the notation. -/
theorem Parts.Lawful.isFormChar {p : Parts} (hp : p.Lawful) :
    ∀ c ∈ p.chars, isFormChar c = true := by
  intro c hc
  simp only [Parts.chars, List.mem_append, List.mem_cons] at hc
  rcases hc with hc | rfl | hc | hc | hc | hc
  · exact isFormChar_of_isDigit (hp.number c hc)
  · rfl
  · exact isFormChar_of_isDigit (hp.sides c hc)
  · refine isFormChar_of_mem_markedChars (fun u ds h => ⟨rfl, ?_⟩) c hc
    obtain ⟨_, he, heq⟩ := Option.map_eq_some_iff.mp h
    cases heq
    exact (hp.reroll _ he).2
  · refine isFormChar_of_mem_markedChars (fun d ds h => ⟨?_, (hp.keep d ds h).2⟩) c hc
    cases d <;> rfl
  · refine isFormChar_of_mem_markedChars (fun s ds h => ⟨?_, (hp.modifier s ds h).2.2⟩) c hc
    rcases (hp.modifier s ds h).1 with rfl | rfl <;> rfl

/-- Only the capital letters of ASCII have another lower case. -/
theorem toLower_eq_self {c : Char} (h : c.toNat < 65 ∨ 90 < c.toNat) : c.toLower = c := by
  unfold Char.toLower
  split
  · rename_i hc
    have h1 : 65 ≤ c.toNat := hc.1
    have h2 : c.toNat ≤ 90 := hc.2
    omega
  · rfl

/-- The characters of the notation are in lower case. -/
theorem toLower_of_isFormChar {c : Char} (h : isFormChar c = true) : c.toLower = c := by
  rcases Bool.or_eq_true _ _ ▸ h with h | h
  · have := toNat_of_isDigit h
    exact toLower_eq_self (by omega)
  · have hm : c ∈ formLetters := List.contains_iff_mem.mp h
    have hall : ∀ d ∈ formLetters, d.toLower = d := by simp [formLetters]
    exact hall c hm

/-! ## 2. Ways of writing in lower case -/

/-- A way of writing texts in lower case: what each character becomes between the text before it
and the text after it. -/
structure LowerCase where
  image : (before : List Char) → Char → (after : List Char) → List Char
  ascii : ∀ before c after, c.toNat < 128 → image before c after = [c.toLower]
  foreign : ∀ before c after, 128 ≤ c.toNat →
    ∃ x ∈ image before c after, isFormChar x = false

namespace LowerCase

/-- A text in lower case that stands after `before`. -/
def textAfter (l : LowerCase) (before : List Char) : List Char → List Char
  | [] => []
  | c :: cs => l.image before c cs ++ l.textAfter (before ++ [c]) cs

/-- A text in lower case. -/
def text (l : LowerCase) (cs : List Char) : List Char := l.textAfter [] cs

/-- Lower case that knows the letters of ASCII only. -/
def asciiOnly : LowerCase where
  image := fun _ c _ => [c.toLower]
  ascii := fun _ _ _ _ => rfl
  foreign := fun _ c _ h => by
    refine ⟨c.toLower, List.mem_singleton_self _, ?_⟩
    rw [toLower_eq_self (Or.inr (by omega))]
    cases hc : isFormChar c with
    | false => rfl
    | true =>
      have := toNat_of_isFormChar hc
      omega

theorem textAfter_asciiOnly : ∀ before cs : List Char,
    asciiOnly.textAfter before cs = cs.map Char.toLower
  | _, [] => rfl
  | before, c :: cs => by
    rw [textAfter, textAfter_asciiOnly (before ++ [c]) cs]
    rfl

/-- The lower case of ASCII, text by text. -/
@[simp] theorem text_asciiOnly (cs : List Char) : asciiOnly.text cs = cs.map Char.toLower :=
  textAfter_asciiOnly [] cs

variable (l : LowerCase)

/-- On a text in ASCII all ways are the same. -/
theorem textAfter_of_ascii : ∀ (before cs : List Char), (∀ c ∈ cs, c.toNat < 128) →
    l.textAfter before cs = cs.map Char.toLower
  | _, [], _ => rfl
  | before, c :: cs, h => by
    have ih := textAfter_of_ascii (before ++ [c]) cs fun d hd => h d (List.mem_cons_of_mem c hd)
    rw [textAfter, l.ascii before c cs (h c List.mem_cons_self), ih]
    rfl

/-- A letter of another script leaves a trace that is no part of the notation. -/
theorem exists_mem_textAfter : ∀ (before cs : List Char), (∃ c ∈ cs, 128 ≤ c.toNat) →
    ∃ x ∈ l.textAfter before cs, isFormChar x = false
  | _, [], h => by
    obtain ⟨c, hc, -⟩ := h
    cases hc
  | before, c :: cs, h => by
    obtain ⟨d, hd, hf⟩ := h
    rcases List.mem_cons.mp hd with rfl | hd
    · obtain ⟨x, hx, hn⟩ := l.foreign before d cs hf
      exact ⟨x, List.mem_append_left _ hx, hn⟩
    · obtain ⟨x, hx, hn⟩ := exists_mem_textAfter (before ++ [c]) cs ⟨d, hd, hf⟩
      exact ⟨x, List.mem_append_right _ hx, hn⟩

/-- A text whose lower case has the characters of the notation only is in ASCII. -/
theorem ascii_of_isFormChar {cs : List Char} (h : ∀ x ∈ l.text cs, isFormChar x = true) :
    ∀ c ∈ cs, c.toNat < 128 := by
  intro c hc
  by_cases hf : 128 ≤ c.toNat
  · obtain ⟨x, hx, hn⟩ := l.exists_mem_textAfter [] cs ⟨c, hc, hf⟩
    rw [h x hx] at hn
    cases hn
  · omega

/-- **Which lower case is taken makes no difference to the notation.** -/
theorem lawful_text_iff {cs : List Char} {p : Parts} :
    p.Lawful ∧ p.chars = l.text cs ↔ p.Lawful ∧ p.chars = cs.map Char.toLower := by
  constructor
  · rintro ⟨hp, h⟩
    have ha : ∀ c ∈ cs, c.toNat < 128 :=
      l.ascii_of_isFormChar fun x hx => hp.isFormChar x (h ▸ hx)
    exact ⟨hp, h.trans (l.textAfter_of_ascii [] cs ha)⟩
  · rintro ⟨hp, h⟩
    rw [← text_asciiOnly] at h
    have ha : ∀ c ∈ cs, c.toNat < 128 :=
      asciiOnly.ascii_of_isFormChar fun x hx => hp.isFormChar x (h ▸ hx)
    rw [text_asciiOnly] at h
    exact ⟨hp, h.trans (l.textAfter_of_ascii [] cs ha).symm⟩

end LowerCase
end Dice.Notation
