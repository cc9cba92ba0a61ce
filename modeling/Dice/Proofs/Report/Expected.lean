/-
# How an expected total reads

In the line for a roll the expected total is either an integer or has a point and one or two places
after it.  Within the limits of tokens it is never enormous, so its hundredths are shown as they are
on paper.

Whether it is whole is asked before it is rounded, and of a binary64 number.  So a point is shown
although there is nothing after it if the number only rounds to a whole one.

* `Shown.Canonical`: an integer, or a decimal of one or two places that does not end with a zero;
* `Shown.toList_text_ofBinary64`: what is shown for a number that is not enormous;
* `Shown.canonical_chars_iff`: when this is canonical;
* `line_of_parse`: **the line for the roll of a token**, for every outcome;
* `line_whole_with_point`: an expected total that is whole, and reads as `63.0`.
-/
import Dice.Proofs.Binary64.Hundredths
import Dice.Proofs.Expectation.Size
import Dice.Proofs.Report.Lines

namespace Dice

open Binary64 (hundredthsText hundredthsPlaces hundredthsBound)

namespace Shown

/-! ## 1. Canonical decimals -/

/-- **A canonical decimal**: an integer, or a number with one or two places of which the last is not
a zero. -/
inductive Canonical : List Char → Prop
  | whole (n : Int) : Canonical (Numeral.intText n)
  | decimal (negative : Bool) (units : Nat) (places : List Char) (digits : Numeral.IsDigits places)
      (short : places.length = 1 ∨ places.length = 2) (last : places.getLast? ≠ some '0') :
      Canonical (signed negative (Numeral.natText units ++ '.' :: places))

theorem point_notMem_intText (n : Int) : '.' ∉ Numeral.intText n := by
  have hnat : ∀ k : Nat, '.' ∉ Numeral.natText k := fun k h =>
    absurd (Numeral.isDigits_natText k '.' h) (by decide)
  cases n with
  | ofNat k => exact hnat k
  | negSucc k =>
    intro h
    rcases List.mem_cons.mp h with h | h
    · exact absurd h (by decide)
    · exact hnat (k + 1) h

theorem getLast?_signed_append (negative : Bool) (cs : List Char) {places : List Char}
    (hne : places ≠ []) :
    (signed negative (cs ++ '.' :: places)).getLast? = places.getLast? := by
  have hsplit : signed negative (cs ++ '.' :: places)
      = (signed negative cs ++ ['.']) ++ places := by
    cases negative <;> simp [signed]
  rw [hsplit, List.getLast?_append_of_ne_nil _ hne]

/-- What has a point does not end with a zero. -/
theorem Canonical.getLast?_ne {cs : List Char} (h : Canonical cs) (hpoint : '.' ∈ cs) :
    cs.getLast? ≠ some '0' := by
  cases h with
  | whole n => exact absurd hpoint (point_notMem_intText n)
  | decimal negative units places digits short last =>
    have hne : places ≠ [] := by
      rintro rfl
      simp at short
    rw [getLast?_signed_append negative _ hne]
    exact last

/-! ## 2. What is shown -/

/-- What is shown for a number: the number itself if it is whole, and otherwise its hundredths. -/
def chars (q : Rat) : List Char :=
  if q.den = 1 then Numeral.intText q.num
  else signed (q < 0) (hundredthsText (hundredths q).natAbs)

theorem natAbs_hundredths_le {q : Rat} (h : |q| ≤ hundredthsBound) :
    (hundredths q).natAbs ≤ 100 * hundredthsBound := by
  obtain ⟨hlow, hhigh⟩ := abs_le.mp h
  have hround : |hundredths q| ≤ (100 * hundredthsBound : Nat) := by
    refine abs_le.mpr ⟨le_roundHalfEven ?_, roundHalfEven_le ?_⟩
    · push_cast
      linarith
    · push_cast
      linarith
  rw [Int.abs_eq_natAbs] at hround
  exact_mod_cast hround

/-- **What is shown** for a number that is not enormous.  Neither zero has a sign. -/
theorem toList_text_ofBinary64 {x : Binary64} (hx : x.IsFinite) (h : |x.value| ≤ hundredthsBound) :
    (ofBinary64 x).text.toList = chars x.value := by
  cases x with
  | finite q =>
    have hbound := natAbs_hundredths_le (q := q) h
    change (ofBinary64 (.finite q)).text.toList = chars q
    unfold ofBinary64 chars
    dsimp only
    split_ifs
    · exact String.toList_ofList
    · rw [text, String.toList_ofList, Binary64.magnitudeText_nearest hbound]
  | negZero => decide
  | infinite negative => exact hx.elim
  | nan => exact hx.elim

theorem digitChar_ne_zero {n : Nat} (h : n % 10 ≠ 0) : Nat.digitChar (n % 10) ≠ '0' := by
  rwa [ne_eq, Nat.digitChar_eq_zero]

theorem isDigit_digitChar_mod (n : Nat) : (Nat.digitChar (n % 10)).isDigit = true := by
  rw [Nat.isDigit_digitChar, decide_eq_true_eq]
  exact Nat.mod_lt n (by decide)

/-- Hundredths are canonical if they are no whole number. -/
theorem canonical_hundredthsText (negative : Bool) {n : Nat} (h : ¬100 ∣ n) :
    Canonical (signed negative (hundredthsText n)) := by
  have h100 : ¬n % 100 = 0 := mt Nat.dvd_of_mod_eq_zero h
  unfold hundredthsText hundredthsPlaces
  rw [if_neg h100]
  split_ifs with h10
  · refine Canonical.decimal negative _ _ ?_ (.inl rfl) ?_
    · intro c hc
      rw [List.mem_singleton.mp hc]
      exact isDigit_digitChar_mod (n / 10)
    · have htenths : n / 10 % 10 ≠ 0 := by omega
      simpa using digitChar_ne_zero htenths
  · refine Canonical.decimal negative _ _ ?_ (.inr rfl) ?_
    · intro c hc
      rcases List.mem_cons.mp hc with rfl | hc
      · exact isDigit_digitChar_mod (n / 10)
      · rw [List.mem_singleton.mp hc]
        exact isDigit_digitChar_mod n
    · simpa using digitChar_ne_zero h10

/-- Those of a whole number are not: there is a zero after the point. -/
theorem not_canonical_hundredthsText (negative : Bool) {n : Nat} (h : 100 ∣ n) :
    ¬Canonical (signed negative (hundredthsText n)) := by
  intro hcanonical
  have hzero : n % 100 = 0 := Nat.mod_eq_zero_of_dvd h
  unfold hundredthsText hundredthsPlaces at hcanonical
  rw [if_pos hzero] at hcanonical
  refine hcanonical.getLast?_ne ?_ ?_
  · cases negative <;> simp [signed]
  · rw [getLast?_signed_append negative _ (by decide)]
    rfl

/-- **When it is canonical**: if the number is whole, or does not round to a whole one. -/
theorem canonical_chars_iff (q : Rat) :
    Canonical (chars q) ↔ q.den = 1 ∨ ¬(100 : Int) ∣ hundredths q := by
  have hnatAbs : (100 : Int) ∣ hundredths q ↔ 100 ∣ (hundredths q).natAbs := Int.ofNat_dvd_left
  rw [hnatAbs]
  unfold chars
  split_ifs with hden
  · exact iff_of_true (Canonical.whole q.num) (.inl hden)
  · rw [or_iff_right hden]
    constructor
    · intro hcanonical hdvd
      exact not_canonical_hundredthsText _ hdvd hcanonical
    · exact canonical_hundredthsText _

end Shown

/-! ## 3. The line for a roll -/

namespace Report

open Shown (Canonical)

/-- **The line for the roll of a token.**  The roll has an expected total, and every outcome of it
whose integers are not too long has its line.  After the label stands what is shown for the total:
an integer if the total is whole, and otherwise its hundredths.  This is a canonical decimal unless
the total is not whole and its hundredths are. -/
theorem line_of_parse {token : String} {r : Roll} (h : Notation.parse token = .ok r) :
    ∃ (x : Binary64) (expected : String), Expectation.ofRoll r = .ok x ∧
      (∀ o l, line r o = .ok l ↔ o.integers.all Numeral.fits = true ∧
        l = r.text ++ ": " ++ o.text ++ " (Expected: " ++ expected ++ ")") ∧
      expected.toList = Shown.chars x.value ∧
      (Canonical expected.toList ↔
        x.value.den = 1 ∨ ¬(100 : Int) ∣ Shown.hundredths x.value) := by
  obtain ⟨x, hx, hfinite, hsmall⟩ := Expectation.exists_ofRoll (Roll.inLimits_of_parse h)
  have hbound : |x.value| ≤ hundredthsBound := by
    refine hsmall.le.trans (le_of_eq ?_)
    norm_num [hundredthsBound]
  have htext := Shown.toList_text_ofBinary64 hfinite hbound
  refine ⟨x, (Shown.ofBinary64 x).text, hx, fun o l => ?_, htext, ?_⟩
  · rw [line_eq_ok_iff, hx]
    simp
  · rw [htext]
    exact Shown.canonical_chars_iff x.value

/-- One die with three sides, thrown again on a one. -/
def threeRerolled : Roll := ⟨3, 1, some 1, none, none, by decide⟩

/-- It is expected to come to two and a third, which reads as `2.33`. -/
theorem line_of_parse_threeRerolled :
    Notation.parse "d3r1" = .ok threeRerolled ∧
    ∃ (x : Binary64) (expected : String), Expectation.ofRoll threeRerolled = .ok x ∧
      (∀ o l, line threeRerolled o = .ok l ↔ o.integers.all Numeral.fits = true ∧
        l = threeRerolled.text ++ ": " ++ o.text ++ " (Expected: " ++ expected ++ ")") ∧
      expected.toList = "2.33".toList ∧ Canonical expected.toList := by
  have hparse : Notation.parse "d3r1" = .ok threeRerolled := by decide
  obtain ⟨x, expected, hx, hline, hchars, hcanonical⟩ := line_of_parse hparse
  have hvalue : (Expectation.ofRoll threeRerolled).map (fun y => (Shown.hundredths y.value,
      Shown.chars y.value)) = .ok (233, "2.33".toList) := by
    decide +kernel
  rw [hx] at hvalue
  obtain ⟨hhundredths, hshown⟩ := Prod.mk.inj (Except.ok.inj hvalue)
  refine ⟨hparse, x, expected, hx, hline, hchars.trans hshown, hcanonical.mpr (.inr ?_)⟩
  rw [hhundredths]
  decide

/-- As many such dice as are expected to come to 63. -/
def threesRerolled : Roll := ⟨3, 27, some 1, none, none, by decide⟩

/-- Twos on all of them. -/
def twos : Outcome :=
  ⟨List.replicate 27 (.kept 2), none, 0,
    List.pairwise_replicate.mpr (.inr (le_refl (Die.kept 2).value))⟩

/-- **A whole expected total with a point.**  Its binary64 number is not whole, but rounds to a
whole one. -/
theorem line_whole_with_point :
    Notation.parse "27d3r1" = .ok threesRerolled ∧ Expectation.exactTotal threesRerolled = 63 ∧
    line threesRerolled twos = .ok ("27d3r1: " ++ twos.text ++ " (Expected: 63.0)") ∧
    ¬Canonical "63.0".toList := by
  refine ⟨by decide, by decide +kernel, by decide +kernel, fun h => ?_⟩
  exact h.getLast?_ne (by decide) (by decide)

end Report
end Dice
