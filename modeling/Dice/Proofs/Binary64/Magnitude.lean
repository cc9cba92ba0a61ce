/-
# How large a rounded number is

Rounding goes to a neighbour on the grid, so it does not go past a number that is on the grid
itself.  A whole number of few bits, counted in a unit that is not too small, is such a point
(`OnGrid`), and with it every power of two; so a number that is at most such a point in magnitude
is rounded to one of which the same holds.

* `roundHalfEven_le`, `le_roundHalfEven`: rounding to whole numbers does not go past a whole number;
* `twoPow_binade_le`: the binade of a number is not above it;
* `abs_nearest_le`, `nearest_eq_self`: rounding to binary64 does not go past a point of the grid, and
  leaves it where it is;
* `within_ofRat`, `exists_ofInt?`: so what is rounded is finite, and an integer is an operand, as
  long as they are not enormous (`Within`);
* `ofRat_eq_finite`: a point of the grid that is not enormous is a binary64 number itself;
* `Within.mul`, `Within.add`, `abs_value_add_le`: and so are products and sums.
-/
import Mathlib.Algebra.Order.Field.Rat
import Mathlib.Algebra.Order.Field.Power
import Mathlib.Data.Rat.Cast.Order
import Mathlib.Tactic.Linarith
import Mathlib.Tactic.NormNum
import Mathlib.Tactic.Positivity
import Mathlib.Tactic.Ring
import Mathlib.Tactic.GCongr
import Dice.Binary64.Basic

namespace Dice

/-! ## 1. Rounding to whole numbers -/

theorem roundHalfEven_eq_floor_or (q : ℚ) :
    roundHalfEven q = q.floor ∨ roundHalfEven q = q.floor + 1 := by
  unfold roundHalfEven
  dsimp only
  split_ifs <;> simp

theorem le_roundHalfEven {q : ℚ} {n : ℤ} (h : (n : ℚ) ≤ q) : n ≤ roundHalfEven q := by
  have hfloor : n ≤ q.floor := Rat.le_floor_iff.mpr h
  rcases roundHalfEven_eq_floor_or q with hq | hq <;> omega

theorem roundHalfEven_le {q : ℚ} {n : ℤ} (h : q ≤ n) : roundHalfEven q ≤ n := by
  have hfloor : q.floor ≤ n := Rat.intCast_le_intCast.mp ((Rat.floor_le q).trans h)
  by_cases hn : q.floor = n
  · -- then the number lies between its floor and the same whole number
    have hq : q = n := le_antisymm h (hn ▸ Rat.floor_le q)
    rw [hq, roundHalfEven_intCast]
  · rcases roundHalfEven_eq_floor_or q with hq | hq <;> omega

/-! ## 2. Powers of two and the unit -/

theorem twoPow_pos (e : ℤ) : 0 < twoPow e := zpow_pos (by norm_num) e

theorem twoPow_natCast (n : ℕ) : twoPow n = 2 ^ n := zpow_natCast 2 n

theorem twoPow_le_iff {d e : ℤ} : twoPow d ≤ twoPow e ↔ d ≤ e :=
  zpow_le_zpow_iff_right₀ (by norm_num)

theorem twoPow_lt_iff {d e : ℤ} : twoPow d < twoPow e ↔ d < e :=
  zpow_lt_zpow_iff_right₀ (by norm_num)

/-- A power of two counted in units of a lesser one. -/
theorem twoPow_eq_mul {d e : ℤ} (h : d ≤ e) :
    twoPow e = ((2 ^ (e - d).toNat : ℤ) : ℚ) * twoPow d := by
  have hnat : (e - d).toNat + d = e := by omega
  unfold twoPow
  rw [Int.cast_pow, Int.cast_ofNat, ← zpow_natCast, ← zpow_add₀ (by norm_num), hnat]

theorem rat_abs_eq (q : ℚ) : q.abs = |q| := by
  unfold Rat.abs
  split_ifs with h
  · exact (abs_of_nonneg h).symm
  · exact (abs_of_neg (not_le.mp h)).symm

namespace Binary64

/-- The binade of a positive number is not above it. -/
theorem twoPow_binade_le {q : ℚ} (h : 0 < q) : twoPow (binade q) ≤ q := by
  unfold binade
  dsimp only
  split_ifs with he
  · exact he
  · -- the numerator is at least its leading power, and the denominator is below the next one
    have hnum : q.num.natAbs ≠ 0 := Int.natAbs_ne_zero.mpr (Rat.num_pos.mpr h).ne'
    have hden : (0 : ℚ) < q.den := Nat.cast_pos.mpr q.den_pos
    have hlow : (2 : ℚ) ^ q.num.natAbs.log2 ≤ q.num := by
      have hcast : ((q.num.natAbs : ℤ) : ℚ) = q.num := by
        rw [Int.natAbs_of_nonneg (Rat.num_pos.mpr h).le]
      rw [← hcast]
      exact_mod_cast Nat.log2_self_le hnum
    have hhigh : (q.den : ℚ) ≤ 2 ^ (q.den.log2 + 1) := by
      exact_mod_cast Nat.lt_log2_self.le
    have hexponent : (q.num.natAbs.log2 : ℤ) - q.den.log2 - 1
        = q.num.natAbs.log2 - (q.den.log2 + 1 : ℕ) := by
      omega
    calc twoPow ((q.num.natAbs.log2 : ℤ) - q.den.log2 - 1)
        = 2 ^ q.num.natAbs.log2 / 2 ^ (q.den.log2 + 1) := by
          rw [hexponent, twoPow, zpow_sub₀ (by norm_num), zpow_natCast, zpow_natCast]
      _ ≤ q.num / q.den := by gcongr
      _ = q := Rat.num_div_den q

/-- **A point of the grid**: a whole number that fits the multiplier, counted in a unit that is not
too small. -/
def OnGrid (b : ℚ) : Prop :=
  ∃ (m : ℕ) (k : ℤ), m < 2 ^ precision ∧ minUnit ≤ k ∧ b = m * twoPow k

theorem onGrid_twoPow {k : ℤ} (hk : minUnit ≤ k) : OnGrid (twoPow k) :=
  ⟨1, k, by decide, hk, by rw [Nat.cast_one, one_mul]⟩

/-- The unit near a number is not above the one in which a greater point of the grid is counted. -/
theorem unitExponent_le {q : ℚ} {m : ℕ} {k : ℤ} (hm : m < 2 ^ precision) (hk : minUnit ≤ k)
    (hq : q ≠ 0) (h : |q| ≤ m * twoPow k) : unitExponent q ≤ k := by
  have hbinade : binade q.abs < precision + k := by
    rw [rat_abs_eq]
    refine twoPow_lt_iff.mp ?_
    calc twoPow (binade |q|) ≤ |q| := twoPow_binade_le (abs_pos.mpr hq)
      _ ≤ m * twoPow k := h
      _ < 2 ^ precision * twoPow k := mul_lt_mul_of_pos_right (by exact_mod_cast hm) (twoPow_pos k)
      _ = twoPow (precision + k) := by
        rw [← twoPow_natCast, twoPow, twoPow, twoPow, zpow_add₀ (by norm_num)]
  unfold unitExponent precision
  unfold precision at hbinade
  omega

/-- A point of the grid, counted in units near a number that is not greater. -/
theorem mul_twoPow_eq_units {q : ℚ} {m : ℕ} {k : ℤ} (hm : m < 2 ^ precision) (hk : minUnit ≤ k)
    (hq : q ≠ 0) (h : |q| ≤ m * twoPow k) :
    m * twoPow k
      = ((m * 2 ^ (k - unitExponent q).toNat : ℤ) : ℚ) * twoPow (unitExponent q) := by
  rw [twoPow_eq_mul (unitExponent_le hm hk hq h), Int.cast_mul, Int.cast_natCast, mul_assoc]

/-! ## 3. The nearest number -/

/-- **Rounding does not go past a point of the grid.** -/
theorem abs_nearest_le {q b : ℚ} (hb : OnGrid b) (h : |q| ≤ b) : |nearest q| ≤ b := by
  by_cases hq : q = 0
  · rw [hq, abs_zero] at h
    rw [hq, nearest_zero, abs_zero]
    exact h
  · obtain ⟨m, k, hm, hk, rfl⟩ := hb
    have hunit := twoPow_pos (unitExponent q)
    have hgrid := mul_twoPow_eq_units hm hk hq h
    obtain ⟨hlow, hhigh⟩ := abs_le.mp h
    have hround : |roundHalfEven (q / twoPow (unitExponent q))|
        ≤ m * 2 ^ (k - unitExponent q).toNat := by
      refine abs_le.mpr ⟨le_roundHalfEven ?_, roundHalfEven_le ?_⟩
      · rw [le_div_iff₀ hunit, Int.cast_neg, neg_mul, ← hgrid]
        exact hlow
      · rw [div_le_iff₀ hunit, ← hgrid]
        exact hhigh
    have hcast : (|roundHalfEven (q / twoPow (unitExponent q))| : ℚ)
        ≤ ((m * 2 ^ (k - unitExponent q).toNat : ℤ) : ℚ) := by exact_mod_cast hround
    unfold nearest
    rw [if_neg hq]
    dsimp only
    rw [abs_mul, abs_of_pos hunit, hgrid]
    exact mul_le_mul_of_nonneg_right hcast hunit.le

/-- **A point of the grid stays where it is**, on either side of zero. -/
theorem nearest_eq_self {q : ℚ} (h : OnGrid |q|) : nearest q = q := by
  by_cases hq : q = 0
  · rw [hq, nearest_zero]
  · obtain ⟨m, k, hm, hk, habs⟩ := h
    obtain ⟨n, hn⟩ : ∃ n : ℤ, q = n * twoPow (unitExponent q) := by
      have hunits := habs.trans (mul_twoPow_eq_units hm hk hq habs.le)
      rcases abs_choice q with hsign | hsign
      · exact ⟨_, hsign.symm.trans hunits⟩
      · refine ⟨-(m * 2 ^ (k - unitExponent q).toNat), ?_⟩
        rw [Int.cast_neg, neg_mul, ← hunits, hsign, neg_neg]
    have hwhole : q / twoPow (unitExponent q) = n :=
      (div_eq_iff (twoPow_pos (unitExponent q)).ne').mpr hn
    unfold nearest
    rw [if_neg hq]
    dsimp only
    rw [hwhole, roundHalfEven_intCast, ← hn]

/-! ## 4. Finite numbers -/

/-- **A finite number whose magnitude is at most a power of two.** -/
def Within (k : ℤ) : Binary64 → Prop
  | finite q => |q| ≤ twoPow k
  | negZero => True
  | infinite _ => False
  | nan => False

variable {k : ℤ}

theorem within_round {q : ℚ} (hk : minUnit ≤ k) (hbound : k < 1024) (h : |q| ≤ twoPow k)
    (negative : Bool) : (round negative q).Within k := by
  have hnearest := abs_nearest_le (onGrid_twoPow hk) h
  have hoverflow : ¬overflowBound ≤ (nearest q).abs := by
    rw [rat_abs_eq, not_le]
    exact hnearest.trans_lt (twoPow_lt_iff.mpr hbound)
  unfold round
  dsimp only
  split_ifs with hzero
  · trivial
  · change |(0 : ℚ)| ≤ twoPow k
    rw [abs_zero]
    exact (twoPow_pos k).le
  · exact hnearest

/-- **A rational that is not enormous** is rounded to a finite number. -/
theorem within_ofRat {q : ℚ} (hk : minUnit ≤ k) (hbound : k < 1024) (h : |q| ≤ twoPow k) :
    (ofRat q).Within k :=
  within_round hk hbound h (q < 0)

/-- **A point of the grid that is not enormous** is a binary64 number as it is. -/
theorem ofRat_eq_finite {q : ℚ} (h : OnGrid |q|) (hbound : |q| < overflowBound) :
    ofRat q = finite q := by
  have hoverflow : ¬overflowBound ≤ q.abs := by
    rw [rat_abs_eq, not_le]
    exact hbound
  unfold ofRat round
  dsimp only
  rw [nearest_eq_self h]
  split_ifs with hzero hnegative
  · rw [hzero] at hnegative
    exact absurd hnegative (by decide)
  · rw [hzero]
  · rfl

theorem ofRat_ne_infinite {q : ℚ} (hk : minUnit ≤ k) (hbound : k < 1024) (h : |q| ≤ twoPow k)
    (negative : Bool) : ofRat q ≠ infinite negative := by
  intro heq
  have hwithin := within_ofRat hk hbound h
  rw [heq] at hwithin
  exact hwithin

/-- **An integer that is not enormous** is an operand. -/
theorem exists_ofInt? {n : ℤ} (hk : minUnit ≤ k) (hbound : k < 1024) (h : |(n : ℚ)| ≤ twoPow k) :
    ∃ x, ofInt? n = some x ∧ x.Within k := by
  have hwithin := within_ofRat hk hbound h
  unfold ofInt?
  cases hx : ofRat (n : ℚ) with
  | infinite negative => exact absurd hx (ofRat_ne_infinite hk hbound h negative)
  | finite q => exact ⟨finite q, rfl, hx ▸ hwithin⟩
  | negZero => exact ⟨negZero, rfl, trivial⟩
  | nan =>
    rw [hx] at hwithin
    exact hwithin.elim

/-! ## 5. Products and sums -/

/-- Neither infinite nor the not-a-number. -/
def IsFinite : Binary64 → Prop
  | finite _ => True
  | negZero => True
  | infinite _ => False
  | nan => False

variable {x y : Binary64} {j : ℤ}

theorem Within.isFinite (h : x.Within k) : x.IsFinite := by
  cases x with
  | finite q => trivial
  | negZero => trivial
  | infinite negative => exact h.elim
  | nan => exact h.elim

theorem Within.mono (h : x.Within k) (hle : k ≤ j) : x.Within j := by
  cases x with
  | finite q => exact le_trans h (twoPow_le_iff.mpr hle)
  | negZero => trivial
  | infinite negative => exact h.elim
  | nan => exact h.elim

theorem Within.abs_value_le (h : x.Within k) : |x.value| ≤ twoPow k := by
  cases x with
  | finite q => exact h
  | negZero =>
    rw [value, abs_zero]
    exact (twoPow_pos k).le
  | infinite negative => exact h.elim
  | nan => exact h.elim

theorem IsFinite.mul_eq (hx : x.IsFinite) (hy : y.IsFinite) :
    x.mul y = round (x.isNegative ^^ y.isNegative) (x.value * y.value) := by
  cases x with
  | infinite negative => exact hx.elim
  | nan => exact hx.elim
  | finite q =>
    cases y with
    | infinite negative => exact hy.elim
    | nan => exact hy.elim
    | _ => rfl
  | negZero =>
    cases y with
    | infinite negative => exact hy.elim
    | nan => exact hy.elim
    | _ => rfl

theorem IsFinite.add_eq (hx : x.IsFinite) (hy : y.IsFinite) :
    x.add y = round (x.value + y.value < 0) (x.value + y.value) ∨
      x.add y = negZero := by
  cases x with
  | infinite negative => exact hx.elim
  | nan => exact hx.elim
  | finite q =>
    cases y with
    | infinite negative => exact hy.elim
    | nan => exact hy.elim
    | _ => exact Or.inl rfl
  | negZero =>
    cases y with
    | infinite negative => exact hy.elim
    | nan => exact hy.elim
    | finite q => exact Or.inl rfl
    | negZero => exact Or.inr rfl

/-- **A product** of finite numbers that are not enormous. -/
theorem Within.mul (hx : x.Within j) (hy : y.Within k) (hk : minUnit ≤ j + k)
    (hbound : j + k < 1024) : (x.mul y).Within (j + k) := by
  rw [hx.isFinite.mul_eq hy.isFinite]
  refine within_round hk hbound ?_ _
  rw [abs_mul]
  calc |x.value| * |y.value| ≤ twoPow j * twoPow k :=
        mul_le_mul hx.abs_value_le hy.abs_value_le (abs_nonneg _) (twoPow_pos j).le
    _ = twoPow (j + k) := (zpow_add₀ (by norm_num) j k).symm

/-- **A sum** of finite numbers that are not enormous. -/
theorem Within.add (hx : x.Within k) (hy : y.Within k) (hk : minUnit ≤ k + 1)
    (hbound : k + 1 < 1024) : (x.add y).Within (k + 1) := by
  rcases hx.isFinite.add_eq hy.isFinite with h | h
  · rw [h]
    refine within_round hk hbound ?_ _
    calc |x.value + y.value| ≤ |x.value| + |y.value| := abs_add_le _ _
      _ ≤ twoPow k + twoPow k := add_le_add hx.abs_value_le hy.abs_value_le
      _ = twoPow (k + 1) := by rw [twoPow, twoPow, zpow_add_one₀ (by norm_num)]; ring
  · rw [h]
    trivial

theorem abs_value_round_le (negative : Bool) (q : ℚ) :
    |(round negative q).value| ≤ |nearest q| := by
  unfold round
  dsimp only
  split_ifs <;> simp [value]

/-- A sum does not go past a point of the grid, either. -/
theorem abs_value_add_le {b : ℚ} (hx : x.IsFinite) (hy : y.IsFinite) (hb : OnGrid b)
    (h : |x.value| + |y.value| ≤ b) : |(x.add y).value| ≤ b := by
  rcases hx.add_eq hy with hadd | hadd
  · rw [hadd]
    exact (abs_value_round_le _ _).trans (abs_nearest_le hb ((abs_add_le _ _).trans h))
  · rw [hadd, value, abs_zero]
    exact (add_nonneg (abs_nonneg _) (abs_nonneg _)).trans h

end Binary64
end Dice
