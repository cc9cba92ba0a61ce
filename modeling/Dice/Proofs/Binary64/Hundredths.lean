/-
# Hundredths in decimal

Near a number that is not enormous the grid of binary64 is much finer than the hundredths, so a
hundredth is still singled out after it has been rounded to the grid: no other hundredth is close
enough.  This is why the search for the fewest places finds the places the hundredth has itself, and
why the text is the one it has on paper.

* `abs_roundHalfEven_sub_le`, `roundHalfEven_eq_of_abs_sub_lt`: rounding to whole numbers moves a
  number by at most a half, and goes to the whole number that is closer than that;
* `abs_nearest_sub_le`: rounding to the grid moves a number by at most half a unit;
* `readsBackAt_nearest_iff`, `unitsAt_nearest`: a hundredth reads back with some places just if it
  has no more of them;
* `magnitudeText_nearest`: **the text of a hundredth.**
-/
import Dice.Proofs.Binary64.Magnitude
import Dice.Binary64.Decimal

namespace Dice

/-! ## 1. How far rounding goes -/

/-- Rounding moves a number by at most a half. -/
theorem abs_roundHalfEven_sub_le (q : ℚ) : |(roundHalfEven q : ℚ) - q| ≤ 1 / 2 := by
  have hlow : (q.floor : ℚ) ≤ q := Rat.floor_le q
  have hcast : ((q.floor + 1 : ℤ) : ℚ) = q.floor + 1 := by push_cast; rfl
  have hhigh : q < q.floor + 1 := hcast ▸ Rat.lt_floor_add_one q
  unfold roundHalfEven
  dsimp only
  split_ifs with hless hmore
  · rw [abs_le]
    constructor <;> linarith
  · rw [hcast, abs_le]
    constructor <;> linarith
  · rw [abs_le]
    constructor <;> linarith
  · rw [hcast, abs_le]
    constructor <;> linarith

/-- Whole numbers that are less than one apart are equal. -/
theorem eq_of_abs_sub_lt_one {m n : ℤ} (h : |(m : ℚ) - n| < 1) : m = n := by
  have hcast : |m - n| < 1 := by exact_mod_cast h
  exact sub_eq_zero.mp (Int.abs_lt_one_iff.mp hcast)

/-- A number goes to the whole number that is less than a half away. -/
theorem roundHalfEven_eq_of_abs_sub_lt {q : ℚ} {n : ℤ} (h : |q - n| < 1 / 2) :
    roundHalfEven q = n := by
  refine eq_of_abs_sub_lt_one ?_
  calc |(roundHalfEven q : ℚ) - n| ≤ |(roundHalfEven q : ℚ) - q| + |q - n| := abs_sub_le _ _ _
    _ < 1 / 2 + 1 / 2 := add_lt_add_of_le_of_lt (abs_roundHalfEven_sub_le q) h
    _ = 1 := by norm_num

namespace Binary64

/-- **Rounding to the grid** moves a number by at most half a unit, counted in any unit that is not
too small for it. -/
theorem abs_nearest_sub_le {q : ℚ} {m : ℕ} {k : ℤ} (hm : m < 2 ^ precision) (hk : minUnit ≤ k)
    (h : |q| ≤ m * twoPow k) : |nearest q - q| ≤ twoPow k / 2 := by
  by_cases hq : q = 0
  · rw [hq, nearest_zero, sub_zero, abs_zero]
    exact div_nonneg (twoPow_pos k).le (by norm_num)
  · have hunit := twoPow_pos (unitExponent q)
    have hsplit : nearest q - q
        = (roundHalfEven (q / twoPow (unitExponent q)) - q / twoPow (unitExponent q))
          * twoPow (unitExponent q) := by
      unfold nearest
      rw [if_neg hq, sub_mul, div_mul_cancel₀ q hunit.ne']
    calc |nearest q - q|
        = |(roundHalfEven (q / twoPow (unitExponent q)) : ℚ) - q / twoPow (unitExponent q)|
          * twoPow (unitExponent q) := by rw [hsplit, abs_mul, abs_of_pos hunit]
      _ ≤ 1 / 2 * twoPow (unitExponent q) :=
          mul_le_mul_of_nonneg_right (abs_roundHalfEven_sub_le _) hunit.le
      _ ≤ 1 / 2 * twoPow k :=
          mul_le_mul_of_nonneg_left (twoPow_le_iff.mpr (unitExponent_le hm hk hq h)) (by norm_num)
      _ = twoPow k / 2 := by ring

/-! ## 2. Hundredths that read back -/

/-- The largest number whose hundredths are looked at. -/
def hundredthsBound : ℕ := 2 ^ 43

/-- Up to that number the grid is fine enough for hundredths. -/
theorem abs_nearest_sub_lt {q : ℚ} (h : |q| ≤ hundredthsBound) : |nearest q - q| < 1 / 250 := by
  have hbound : |q| ≤ (2 ^ 52 : ℕ) * twoPow (-9) := by
    refine h.trans (le_of_eq ?_)
    norm_num [hundredthsBound, twoPow]
  calc |nearest q - q| ≤ twoPow (-9) / 2 := abs_nearest_sub_le (by decide) (by decide) hbound
    _ < 1 / 250 := by norm_num [twoPow]

variable {n places unit : ℕ}

theorem abs_hundredth_le (hn : n ≤ 100 * hundredthsBound) : |(n : ℚ) / 100| ≤ hundredthsBound := by
  have hcast : (n : ℚ) ≤ 100 * hundredthsBound := by exact_mod_cast hn
  rw [abs_of_nonneg (by positivity), div_le_iff₀ (by norm_num)]
  linarith

theorem tenPow_pos (places : ℕ) : 0 < tenPow places := Nat.pow_pos (by decide)

/-- A decimal with so many places, in hundredths. -/
theorem div_tenPow_eq (hunit : tenPow places * unit = 100) (u : ℚ) :
    u / tenPow places = u * unit / 100 := by
  have hcast : (tenPow places : ℚ) * unit = 100 := by exact_mod_cast hunit
  have hne : (unit : ℚ) ≠ 0 := by
    intro h
    rw [h, mul_zero] at hcast
    norm_num at hcast
  rw [← hcast, mul_div_mul_right u _ hne]

theorem unit_pos (hunit : tenPow places * unit = 100) : 0 < unit :=
  Nat.pos_of_mul_pos_left (hunit ▸ (by decide : 0 < 100))

/-- **The closest decimal** with so many places, for a hundredth that has no more of them. -/
theorem unitsAt_nearest (hn : n ≤ 100 * hundredthsBound) (hunit : tenPow places * unit = 100)
    (h : unit ∣ n) : unitsAt (nearest (n / 100)) places = (n / unit : ℕ) := by
  obtain ⟨m, rfl⟩ := h
  have hplaces : tenPow places ≤ 100 := Nat.le_of_dvd (by decide) ⟨unit, hunit.symm⟩
  have htenPow : (0 : ℚ) < tenPow places := Nat.cast_pos.mpr (tenPow_pos places)
  have hexact : ((unit * m : ℕ) : ℚ) / 100 * tenPow places = m := by
    rw [mul_comm unit, Nat.cast_mul, ← div_tenPow_eq hunit, div_mul_cancel₀ _ htenPow.ne']
  have hscale : nearest ((unit * m : ℕ) / 100) * tenPow places - ((m : ℤ) : ℚ)
      = (nearest ((unit * m : ℕ) / 100) - (unit * m : ℕ) / 100) * tenPow places := by
    rw [sub_mul, hexact, Int.cast_natCast]
  rw [Nat.mul_div_cancel_left m (unit_pos hunit)]
  refine roundHalfEven_eq_of_abs_sub_lt ?_
  calc |nearest ((unit * m : ℕ) / 100) * tenPow places - ((m : ℤ) : ℚ)|
      = |nearest ((unit * m : ℕ) / 100) - (unit * m : ℕ) / 100| * tenPow places := by
        rw [hscale, abs_mul, abs_of_pos htenPow]
    _ < 1 / 250 * tenPow places :=
        mul_lt_mul_of_pos_right (abs_nearest_sub_lt (abs_hundredth_le hn)) htenPow
    _ ≤ 1 / 250 * 100 :=
        mul_le_mul_of_nonneg_left (by exact_mod_cast hplaces) (by norm_num)
    _ < 1 / 2 := by norm_num

/-- What is read back from the closest decimal is not enormous, either. -/
theorem abs_unitsAt_div_le (places : ℕ) {q : ℚ} (h : |q| ≤ hundredthsBound) :
    |(unitsAt q places : ℚ) / tenPow places| ≤ hundredthsBound := by
  have htenPow : (0 : ℚ) < tenPow places := Nat.cast_pos.mpr (tenPow_pos places)
  obtain ⟨hlow, hhigh⟩ := abs_le.mp h
  have hround : |unitsAt q places| ≤ (hundredthsBound * tenPow places : ℕ) := by
    refine abs_le.mpr ⟨le_roundHalfEven ?_, roundHalfEven_le ?_⟩
    · push_cast
      rw [← neg_mul]
      exact mul_le_mul_of_nonneg_right hlow htenPow.le
    · push_cast
      exact mul_le_mul_of_nonneg_right hhigh htenPow.le
  rw [abs_div, abs_of_pos htenPow, div_le_iff₀ htenPow]
  exact_mod_cast hround

/-- A decimal with so many places is a hundredth, too; so the one that is less than a hundredth away
is the same, and the hundredth has no more places. -/
theorem dvd_of_abs_sub_lt (hunit : tenPow places * unit = 100) {u : ℤ}
    (h : |(u : ℚ) / tenPow places - n / 100| < 1 / 100) : unit ∣ n := by
  have hhundred : (0 : ℚ) < 100 := by norm_num
  have hscale : (u : ℚ) / tenPow places - n / 100 = ((u * unit : ℤ) - (n : ℤ) : ℚ) / 100 := by
    push_cast
    rw [sub_div, div_tenPow_eq hunit]
  rw [hscale, abs_div, abs_of_pos hhundred, div_lt_div_iff_of_pos_right hhundred] at h
  have hdvd : (unit : ℤ) ∣ n := Dvd.intro_left u (eq_of_abs_sub_lt_one h)
  exact_mod_cast hdvd

/-- **A hundredth reads back** with so many places just if it has no more of them: any
other decimal with so many places is too far away. -/
theorem readsBackAt_nearest_iff (hn : n ≤ 100 * hundredthsBound)
    (hunit : tenPow places * unit = 100) :
    readsBackAt (nearest (n / 100)) places = true ↔ unit ∣ n := by
  unfold readsBackAt
  rw [beq_iff_eq]
  constructor
  · intro h
    have hn' := abs_hundredth_le hn
    have hgrid : OnGrid (hundredthsBound : ℚ) :=
      ⟨1, 43, by decide, by decide, by norm_num [hundredthsBound, twoPow]⟩
    have hmoved := abs_nearest_sub_lt hn'
    have hback := abs_nearest_sub_lt (abs_unitsAt_div_le places (abs_nearest_le hgrid hn'))
    rw [h, abs_sub_comm] at hback
    generalize unitsAt (nearest (n / 100)) places = u at hback
    refine dvd_of_abs_sub_lt (u := u) hunit ?_
    calc |(u : ℚ) / tenPow places - n / 100|
        ≤ |(u : ℚ) / tenPow places - nearest (n / 100)| + |nearest (n / 100) - n / 100| :=
          abs_sub_le _ _ _
      _ < 1 / 250 + 1 / 250 := add_lt_add hback hmoved
      _ ≤ 1 / 100 := by norm_num
  · intro h
    rw [unitsAt_nearest hn hunit h]
    obtain ⟨m, rfl⟩ := h
    rw [Nat.mul_div_cancel_left m (unit_pos hunit), Int.cast_natCast,
      div_tenPow_eq hunit, mul_comm unit, Nat.cast_mul]

/-! ## 3. Their text -/

theorem fewestPlaces_eq {q : ℚ} (h : readsBackAt q places = true) (hmax : places < maxPlaces)
    (hfewer : ∀ p < places, readsBackAt q p = false) : fewestPlaces q = places := by
  have hfind : (List.range maxPlaces).find? (readsBackAt q) = some places := by
    rw [List.find?_range_eq_some]
    refine ⟨h, List.mem_range.mpr hmax, fun p hp => ?_⟩
    rw [hfewer p hp]
    rfl
  rw [fewestPlaces, hfind, Option.getD_some]

/-- The text of a hundredth, from the fewest places with which it reads back. -/
theorem magnitudeText_of_fewest (hn : n ≤ 100 * hundredthsBound)
    (hunit : tenPow places * unit = 100) (hmax : places < maxPlaces) (h : unit ∣ n)
    (hfewer : ∀ p < places, readsBackAt (nearest (n / 100)) p = false) :
    magnitudeText (nearest (n / 100)) = pointText (n / unit) places := by
  have hreads := (readsBackAt_nearest_iff hn hunit).mpr h
  rw [magnitudeText, fewestPlaces_eq hreads hmax hfewer, unitsAt_nearest hn hunit h,
    Int.natAbs_natCast]

/-- With too few places it does not read back. -/
theorem readsBackAt_nearest_eq_false (hn : n ≤ 100 * hundredthsBound)
    (hunit : tenPow places * unit = 100) (h : ¬unit ∣ n) :
    readsBackAt (nearest (n / 100)) places = false := by
  rw [← Bool.not_eq_true, readsBackAt_nearest_iff hn hunit]
  exact h

/-- The places of a number of hundredths: without zeroes at the end, but at least one. -/
def hundredthsPlaces (n : ℕ) : List Char :=
  if n % 100 = 0 then ['0']
  else if n % 10 = 0 then [Nat.digitChar (n / 10 % 10)]
  else [Nat.digitChar (n / 10 % 10), Nat.digitChar (n % 10)]

/-- A number of hundredths, in decimal. -/
def hundredthsText (n : ℕ) : List Char := Numeral.natText (n / 100) ++ '.' :: hundredthsPlaces n

/-- **The text of a hundredth** is the one it has before it is rounded to the grid. -/
theorem magnitudeText_nearest (hn : n ≤ 100 * hundredthsBound) :
    magnitudeText (nearest (n / 100)) = hundredthsText n := by
  unfold hundredthsText hundredthsPlaces
  by_cases h100 : 100 ∣ n
  · have htext : magnitudeText (nearest (n / 100)) = pointText (n / 100) 0 :=
      magnitudeText_of_fewest hn (by decide) (by decide) h100 (fun p hp => absurd hp (by omega))
    rw [htext, if_pos (Nat.mod_eq_zero_of_dvd h100)]
    simp [pointText, tenPow]
  · have hnot0 : readsBackAt (nearest (n / 100)) 0 = false :=
      readsBackAt_nearest_eq_false hn (by decide) h100
    rw [if_neg (mt Nat.dvd_of_mod_eq_zero h100)]
    by_cases h10 : 10 ∣ n
    · have htext : magnitudeText (nearest (n / 100)) = pointText (n / 10) 1 := by
        refine magnitudeText_of_fewest hn (by decide) (by decide) h10 (fun p hp => ?_)
        obtain rfl : p = 0 := by omega
        exact hnot0
      rw [htext, if_pos (Nat.mod_eq_zero_of_dvd h10)]
      simp [pointText, tenPow, lastDigits, Nat.div_div_eq_div_mul]
    · have hnot1 : readsBackAt (nearest (n / 100)) 1 = false :=
        readsBackAt_nearest_eq_false hn (by decide) h10
      have htext : magnitudeText (nearest (n / 100)) = pointText (n / 1) 2 := by
        refine magnitudeText_of_fewest hn (by decide) (by decide) (one_dvd n) (fun p hp => ?_)
        obtain rfl | rfl : p = 0 ∨ p = 1 := by omega
        · exact hnot0
        · exact hnot1
      rw [htext, Nat.div_one, if_neg (mt Nat.dvd_of_mod_eq_zero h10)]
      simp [pointText, tenPow, lastDigits]

end Binary64
end Dice
