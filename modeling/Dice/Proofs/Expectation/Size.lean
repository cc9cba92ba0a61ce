/-
# How large an expected total is

An expected total is computed in binary64, where an integer can be too large to be an operand and
a result too large to be finite.  For a roll within the limits of tokens nothing comes near that.

The one place to look at is the sum over the faces, because it is rounded at every face, and a die
can have more than four thousand million of them.  After so many faces the sum is at most that many
times `2 ^ 32`.  This is a point of the grid, so rounding does not go past it.

* `abs_worthSum_le`: the sum, face by face;
* `exists_meanFace`: so a die has a mean, and the mean is at most `2 ^ 32`;
* `exists_ofRoll`: **a roll within the limits has an expected total**, which is finite and below
  `2 ^ 43`.
-/
import Dice.Proofs.Binary64.Magnitude
import Dice.Proofs.Notation.RoundTrip
import Dice.Expectation

namespace Dice.Expectation

open Binary64 (nearest OnGrid Within abs_nearest_le)

/-! ## 1. The sum over the faces -/

theorem natCast_le_twoPow {n k : Nat} (h : n ≤ 2 ^ k) : (n : ℚ) ≤ twoPow k := by
  rw [twoPow_natCast]
  exact_mod_cast h

theorem abs_averageFace_le {sides : Nat} (h : sides ≤ 2 ^ 32 - 1) :
    |averageFace sides| ≤ twoPow 32 := by
  have hsum : ((sides + 1 : Nat) : ℚ) ≤ twoPow 32 := natCast_le_twoPow (k := 32) (by omega)
  have hcast : ((sides + 1 : Int) : ℚ) = ((sides + 1 : Nat) : ℚ) := by push_cast; rfl
  have hnonneg : (0 : ℚ) ≤ ((sides + 1 : Nat) : ℚ) := Nat.cast_nonneg _
  rw [averageFace, hcast, abs_of_nonneg (by positivity)]
  linarith

theorem abs_worth_le {average : ℚ} {threshold : Int} {face : Nat} (haverage : |average| ≤ twoPow 32)
    (hface : face ≤ 2 ^ 32 - 1) : |worth average threshold face| ≤ twoPow 32 := by
  unfold worth
  split_ifs
  · exact haverage
  · rw [abs_of_nonneg (Nat.cast_nonneg face)]
    exact natCast_le_twoPow (k := 32) (by omega)

/-- **The rounded sum**, face by face.  So many times `2 ^ 32` is a point of the grid. -/
theorem abs_worthSum_le {average : ℚ} {threshold : Int} (haverage : |average| ≤ twoPow 32) :
    ∀ {sides : Nat}, sides ≤ 2 ^ 32 - 1 →
      |worthSum nearest average threshold sides| ≤ sides * twoPow 32
  | 0, _ => by simp
  | n + 1, h => by
    have hbefore : |worthSum nearest average threshold n| ≤ n * twoPow 32 :=
      abs_worthSum_le haverage (by omega)
    have hface : |worth average threshold (n + 1)| ≤ twoPow 32 := abs_worth_le haverage h
    have hgrid : OnGrid ((n + 1 : Nat) * twoPow 32) :=
      ⟨n + 1, 32, lt_of_le_of_lt h (by decide), by decide, rfl⟩
    rw [worthSum_succ]
    refine abs_nearest_le hgrid ?_
    calc |worthSum nearest average threshold n + worth average threshold (n + 1)|
        ≤ |worthSum nearest average threshold n| + |worth average threshold (n + 1)| :=
          abs_add_le _ _
      _ ≤ n * twoPow 32 + twoPow 32 := add_le_add hbefore hface
      _ = (n + 1 : Nat) * twoPow 32 := by push_cast; ring

theorem abs_faceSum_le {sides : Nat} (h : sides ≤ 2 ^ 32 - 1) :
    |(faceSum sides : ℚ)| ≤ sides * twoPow 32 := by
  have hnat : faceSum sides ≤ sides * 2 ^ 32 := by
    refine (Nat.div_le_self _ 2).trans (Nat.mul_le_mul_left sides ?_)
    omega
  have hpow : twoPow 32 = 2 ^ 32 := twoPow_natCast 32
  rw [abs_of_nonneg (Nat.cast_nonneg _), hpow]
  exact_mod_cast hnat

/-! ## 2. The mean, and the total -/

theorem within_ofRat_div {sum : ℚ} {sides : Nat} (hpos : 0 < sides)
    (h : |sum| ≤ sides * twoPow 32) : (Binary64.ofRat (sum / (sides : Int))).Within 32 := by
  have hsides : (0 : ℚ) < sides := Nat.cast_pos.mpr hpos
  refine Binary64.within_ofRat (by decide) (by decide) ?_
  rw [Int.cast_natCast, abs_div, abs_of_pos hsides, div_le_iff₀ hsides, mul_comm]
  exact h

/-- **A die within the limits has a mean.** -/
theorem exists_meanFace {sides : Nat} (hpos : 0 < sides) (h : sides ≤ 2 ^ 32 - 1)
    (reroll : Option Int) : ∃ x, meanFace sides reroll = .ok x ∧ x.Within 32 := by
  have haverage : (Binary64.ofRat (averageFace sides)).Within 32 :=
    Binary64.within_ofRat (by decide) (by decide) (abs_averageFace_le h)
  have hzero : ¬(sides : Int) = 0 := by omega
  have hneg : ¬(sides : Int) < 0 := by omega
  unfold meanFace
  dsimp only
  split
  · rename_i negative hinfinite
    rw [hinfinite] at haverage
    exact haverage.elim
  · rw [if_neg hzero, if_neg hneg, Int.toNat_natCast]
    split
    · exact ⟨_, rfl, within_ofRat_div hpos (abs_faceSum_le h)⟩
    · exact ⟨_, rfl, within_ofRat_div hpos (abs_worthSum_le haverage.abs_value_le h)⟩

theorem exists_operand {n : Int} {k : Nat} (hk : k < 1024) (h : n.natAbs ≤ 2 ^ k) :
    ∃ x, operand n = .ok x ∧ x.Within k := by
  have hcast : |(n : ℚ)| ≤ twoPow k := by
    have hnat := natCast_le_twoPow h
    rw [Nat.cast_natAbs, Int.cast_abs] at hnat
    exact hnat
  have hmin : Binary64.minUnit ≤ k := by
    unfold Binary64.minUnit
    omega
  obtain ⟨x, hx, hwithin⟩ := Binary64.exists_ofInt? hmin (by omega) hcast
  unfold operand
  rw [hx]
  exact ⟨x, rfl, hwithin⟩

/-- **A roll within the limits has an expected total**, and it is not large. -/
theorem exists_ofRoll {r : Roll} (h : r.InLimits) :
    ∃ x, ofRoll r = .ok x ∧ x.IsFinite ∧ |x.value| < 2 ^ 43 := by
  have hnumber := h.number
  have hcounted := countedDice_le r
  have hmodifier : (r.modifier.getD 0).natAbs ≤ 2 ^ 31 := by
    have hbetween := h.modifier_getD
    omega
  obtain ⟨mean, hmean, hmean32⟩ := exists_meanFace r.sides_pos h.sides r.reroll
  obtain ⟨dice, hdice, hdice10⟩ :=
    exists_operand (n := countedDice r) (k := 10) (by decide) (by omega)
  obtain ⟨modifier, hmodifier, hmodifier31⟩ := exists_operand (by decide) hmodifier
  have hproduct : (mean.mul dice).Within 42 := hmean32.mul hdice10 (by decide) (by decide)
  have hsum : OnGrid (twoPow 42 + twoPow 31) :=
    ⟨2 ^ 11 + 1, 31, by decide, by decide, by norm_num [twoPow]⟩
  refine ⟨(mean.mul dice).add modifier, ?_, ?_, ?_⟩
  · unfold ofRoll
    rw [hmean, hdice, hmodifier]
    rfl
  · have hwide : modifier.Within 42 := hmodifier31.mono (by decide)
    exact (hproduct.add hwide (by decide) (by decide)).isFinite
  · calc |((mean.mul dice).add modifier).value|
        ≤ twoPow 42 + twoPow 31 := Binary64.abs_value_add_le hproduct.isFinite hmodifier31.isFinite
          hsum (add_le_add hproduct.abs_value_le hmodifier31.abs_value_le)
      _ < 2 ^ 43 := by norm_num [twoPow]

end Dice.Expectation
