/-
# The mean of one die in closed form

The mean of a die is a sum over its faces.  With `c` faces that are thrown again, out of `s`, it is
the average face and `c (s - c) / 2 s` more: what throwing again is worth.

* `worthSum_id_eq`: the sum over any number of faces, by induction from one face to the next;
* `throwDie_twoFaces`: two answers of a source make the die that a pair of faces stands for;
* `exactMean_closed_form`: **the mean in closed form is the average over all pairs of answers**,
  whatever the threshold is, also below the first face or above the last one.
-/
import Dice.Proofs.Expectation.Average

namespace Dice.Expectation

open scoped BigOperators

/-! ## 1. The sum over some faces -/

/-- How many of so many faces are at or below a threshold. -/
def lowFaces (threshold : Int) (sides : Nat) : Int := max 0 (min threshold sides)

theorem lowFaces_zero (threshold : Int) : lowFaces threshold 0 = 0 := by
  unfold lowFaces
  omega

/-- A further face below the threshold has only such faces before it. -/
theorem lowFaces_succ_of_le {threshold : Int} {n : Nat} (h : ((n + 1 : Nat) : Int) ≤ threshold) :
    lowFaces threshold n = n ∧ lowFaces threshold (n + 1) = n + 1 := by
  unfold lowFaces
  omega

theorem lowFaces_succ_of_lt {threshold : Int} {n : Nat} (h : threshold < ((n + 1 : Nat) : Int)) :
    lowFaces threshold (n + 1) = lowFaces threshold n := by
  unfold lowFaces
  omega

/-- **The worths of some faces.**  The low ones are worth an average each, and the others are the
faces of all but the low ones. -/
theorem worthSum_id_eq (average : ℚ) (threshold : Int) (n : Nat) :
    worthSum id average threshold n
      = lowFaces threshold n * average
        + (n * (n + 1) - lowFaces threshold n * (lowFaces threshold n + 1)) / 2 := by
  induction n with
  | zero => simp [lowFaces_zero]
  | succ n ih =>
    rw [worthSum_succ, id_eq, ih]
    by_cases h : ((n + 1 : Nat) : Int) ≤ threshold
    · obtain ⟨hn, hsucc⟩ := lowFaces_succ_of_le h
      rw [hn, hsucc, worth, if_pos h]
      push_cast
      ring
    · rw [lowFaces_succ_of_lt (not_le.mp h), worth, if_neg h]
      push_cast
      ring

/-! ## 2. One die thrown -/

/-- **A die that is thrown with two faces at hand** is the die of that pair. -/
theorem throwDie_twoFaces (r : Roll) (p : r.Pair) :
    (r.throwDie (.twoFaces r.sides 0 (face p.1) (face p.2)) 0).1 = r.dieOf p := by
  have hfirst : Source.twoFaces r.sides 0 (face p.1) (face p.2) 0 r.sides = face p.1 := by
    simp [Source.twoFaces]
  have hsecond : Source.twoFaces r.sides 0 (face p.1) (face p.2) 1 r.sides = face p.2 := by
    simp [Source.twoFaces]
  cases h : r.isRerolled (face p.1) with
  | false =>
    rw [Roll.throwDie_kept (by rw [hfirst, h]), hfirst]
    simp [Roll.dieOf, h]
  | true =>
    rw [Roll.throwDie_rerolled (by rw [hfirst, h]), hfirst, hsecond]
    simp [Roll.dieOf, h]

/-! ## 3. The mean -/

theorem exactMean_eq_lowFaces {sides : Nat} (hpos : 0 < sides) (reroll : Option Int) :
    exactMean sides reroll
      = (sides + 1) / 2
        + lowFaces (reroll.getD noThreshold) sides
          * (sides - lowFaces (reroll.getD noThreshold) sides) / (2 * sides) := by
  have hne : (sides : ℚ) ≠ 0 := Nat.cast_ne_zero.mpr (Nat.pos_iff_ne_zero.mp hpos)
  rw [exactMean, worthSum_id_eq, averageFace]
  push_cast
  field_simp
  ring

/-- **The mean of one die in closed form.**  The threshold is cut to the faces that there are, and
is zero if there is none; so many faces are thrown again, and each of them is worth an average face.
The mean is also what the die comes to on average over all pairs of answers, each as likely as any
other, where the second answer counts if the first one is thrown again. -/
theorem exactMean_closed_form (r : Roll) :
    (let c : Int := max 0 (min (r.reroll.getD 0) r.sides)
     exactMean r.sides r.reroll = (r.sides + 1) / 2 + c * (r.sides - c) / (2 * r.sides)) ∧
    exactMean r.sides r.reroll
      = 𝔼 p : Fin r.sides × Fin r.sides,
          ((r.throwDie (.twoFaces r.sides 0 (face p.1) (face p.2)) 0).1.value : ℚ) := by
  refine ⟨exactMean_eq_lowFaces r.sides_pos r.reroll, ?_⟩
  rw [← expect_dieOf]
  exact Finset.expect_congr rfl fun p _ => by rw [throwDie_twoFaces]

end Dice.Expectation
