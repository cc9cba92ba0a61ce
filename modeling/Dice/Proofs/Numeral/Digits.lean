/-
# Runs of ASCII digits as numerals

The reader of numerals accepts more than what is ever handed to it by the notation of rolls, which
is a run of ASCII digits, alone or after a sign.  On such runs it is simple:

* `read?_digits`: a run that is not too long is read as the number it denotes;
* `read?_sign`: the same after a sign, which is not counted as a digit.

What is written is such a run (`isDigits_natText`), it is not empty (`natText_ne_nil`), it denotes
the number it was written for (`value_natText`) and is the text of no other (`intText_injective`),
and it is short if the number is small (`length_natText_le`).
-/
import Mathlib.Algebra.Group.Int.Defs
import Mathlib.Algebra.Group.Nat.Defs
import Dice.Numeral
import Dice.Proofs.Text.Words

namespace Dice.Numeral

open Dice.Text

/-! ## 1. Runs and their values -/

/-- Nothing but ASCII digits. -/
def IsDigits (cs : List Char) : Prop := ∀ c ∈ cs, c.isDigit = true

/-- The number that a run of ASCII digits denotes; zero if there are none. -/
def value (cs : List Char) : Nat := Nat.ofDigitChars 10 cs 0

theorem isDigits_nil : IsDigits [] := fun _ h => absurd h List.not_mem_nil

theorem IsDigits.head {c : Char} {cs : List Char} (h : IsDigits (c :: cs)) : c.isDigit = true :=
  h c List.mem_cons_self

theorem IsDigits.tail {c : Char} {cs : List Char} (h : IsDigits (c :: cs)) : IsDigits cs :=
  fun d hd => h d (List.mem_cons_of_mem c hd)

/-- The code points of the ASCII digits. -/
theorem toNat_of_isDigit {c : Char} (h : c.isDigit = true) : 48 ≤ c.toNat ∧ c.toNat ≤ 57 :=
  Char.isDigit_iff_toNat.mp h

/-- A digit is no other character that is known not to be one. -/
theorem ne_of_isDigit {c d : Char} (h : c.isDigit = true) (hd : d.isDigit = false) : c ≠ d := by
  rintro rfl
  rw [h] at hd
  cases hd

/-! ## 2. Written numbers -/

theorem isDigits_natText (n : Nat) : IsDigits (natText n) := fun _ h =>
  Nat.isDigit_of_mem_toDigits (by decide) (by decide) h

theorem natText_ne_nil (n : Nat) : natText n ≠ [] := Nat.toDigits_ne_nil

@[simp] theorem value_natText (n : Nat) : value (natText n) = n := Nat.ofDigitChars_ten_toDigits

/-- No two numbers are written alike. -/
theorem natText_injective : Function.Injective natText :=
  Function.LeftInverse.injective value_natText

/-- No two integers are written alike. -/
theorem intText_injective : Function.Injective intText := by
  intro m n h
  have hsign : ∀ k l : Nat, natText k ≠ '-' :: natText l := by
    intro k l heq
    have hdigit := isDigits_natText k
    rw [heq] at hdigit
    exact absurd hdigit.head (by decide)
  cases m with
  | ofNat m =>
    cases n with
    | ofNat n => exact congrArg Int.ofNat (natText_injective h)
    | negSucc n => exact absurd h (hsign m (n + 1))
  | negSucc m =>
    cases n with
    | ofNat n => exact absurd h.symm (hsign n (m + 1))
    | negSucc n =>
      have hsucc := natText_injective (List.cons.inj h).2
      rw [Nat.succ.inj hsucc]

/-- A number below a power of ten has no more digits than the exponent says. -/
theorem length_natText_le {n k : Nat} (hk : 0 < k) (h : n < 10 ^ k) : (natText n).length ≤ k :=
  (Nat.length_toDigits_le_iff (by decide) hk).mpr h

/-! ## 3. Reading a run -/

/-- An ASCII digit has its usual value. -/
theorem digitValue?_of_isDigit {c : Char} (h : c.isDigit = true) :
    digitValue? c = some (c.toNat - '0'.toNat) := by
  obtain ⟨h1, h2⟩ := toNat_of_isDigit h
  have hz : (48 ≤ c.toNat && c.toNat < 58) = true := by
    simp only [Bool.and_eq_true, decide_eq_true_eq]
    omega
  simp [digitValue?, digitZeroes, hz]

/-- A character that is no underscore has to be a digit itself. -/
theorem moreDigits?_cons {c : Char} (hc : c ≠ '_') (cs : List Char) :
    moreDigits? (c :: cs) = (digitValue? c).bind fun d => (moreDigits? cs).map (d :: ·) := by
  rw [moreDigits?]
  exact fun _ _ h _ => hc h

theorem moreDigits?_of_isDigits : ∀ {cs : List Char}, IsDigits cs →
    moreDigits? cs = some (cs.map fun c => c.toNat - '0'.toNat)
  | [], _ => rfl
  | c :: cs, h => by
    have hu : c ≠ '_' := ne_of_isDigit h.head (by decide)
    rw [moreDigits?_cons hu, digitValue?_of_isDigit h.head, moreDigits?_of_isDigits h.tail]
    rfl

theorem digits?_of_isDigits {cs : List Char} (hne : cs ≠ []) (h : IsDigits cs) :
    digits? cs = some (cs.map fun c => c.toNat - '0'.toNat) := by
  cases cs with
  | nil => exact absurd rfl hne
  | cons c cs =>
    simp only [digits?, digitValue?_of_isDigit h.head, moreDigits?_of_isDigits h.tail,
      Option.bind_some, Option.map_some, List.map_cons]

/-- The values of the digits of a run denote what the run denotes. -/
theorem ofDigits_map (cs : List Char) :
    ofDigits (cs.map fun c => c.toNat - '0'.toNat) = value cs := by
  simp only [ofDigits, value, Nat.ofDigitChars_eq_foldl, List.foldl_map]

/-- What is not to be stripped anywhere is not stripped at the ends. -/
theorem stripBy_eq_self {p : Char → Bool} {cs : List Char} (h : ∀ c ∈ cs, p c = false) :
    stripBy p cs = cs := by
  have drop : ∀ {ds : List Char}, (∀ c ∈ ds, p c = false) → ds.dropWhile p = ds := by
    intro ds hd
    cases ds with
    | nil => rfl
    | cons d ds => rw [List.dropWhile_cons_of_neg (by simp [hd d List.mem_cons_self])]
  have hr : ∀ c ∈ cs.reverse, p c = false := fun c hc => h c (List.mem_reverse.mp hc)
  rw [stripBy, drop h, drop hr, List.reverse_reverse]

/-- A character that is no padding because of its code point. -/
theorem isPadding_eq_false {c : Char} (h1 : 0x21 ≤ c.toNat) (h2 : c.toNat ≤ 0x7e) :
    isPadding c = false := by
  simp [isPadding, isBlank_eq_false h1 h2]

theorem isPadding_of_isDigit {c : Char} (h : c.isDigit = true) : isPadding c = false := by
  obtain ⟨h1, h2⟩ := toNat_of_isDigit h
  exact isPadding_eq_false (by omega) (by omega)

theorem splitSign_of_isDigits {cs : List Char} (h : IsDigits cs) : splitSign cs = (false, cs) := by
  unfold splitSign
  split
  · exact absurd rfl (ne_of_isDigit h.head (by decide))
  · exact absurd rfl (ne_of_isDigit h.head (by decide))
  · rfl

/-- **A run of digits is read as the number it denotes**, unless it is too long. -/
theorem read?_digits {cs : List Char} (hne : cs ≠ []) (h : IsDigits cs) :
    read? cs = if cs.length ≤ maxDigits then some (value cs : Int) else none := by
  have hs : stripBy isPadding cs = cs := stripBy_eq_self fun c hc => isPadding_of_isDigit (h c hc)
  simp only [read?, hs, splitSign_of_isDigits h, digits?_of_isDigits hne h, ofDigits_map,
    List.length_map, signed, Bool.false_eq_true, if_false]

/-- **A signed run of digits is read as the integer it denotes**, unless it is too long. -/
theorem read?_sign {s : Char} {cs : List Char} (hs : s = '+' ∨ s = '-') (hne : cs ≠ [])
    (h : IsDigits cs) :
    read? (s :: cs)
      = if cs.length ≤ maxDigits then some (signed (s == '-') (value cs)) else none := by
  have hpad : stripBy isPadding (s :: cs) = s :: cs := by
    refine stripBy_eq_self fun c hc => ?_
    rcases List.mem_cons.mp hc with rfl | hc
    · rcases hs with rfl | rfl <;> decide
    · exact isPadding_of_isDigit (h c hc)
  have hsplit : splitSign (s :: cs) = (s == '-', cs) := by
    rcases hs with rfl | rfl <;> rfl
  simp only [read?, hpad, hsplit, digits?_of_isDigits hne h, ofDigits_map, List.length_map]

end Dice.Numeral
