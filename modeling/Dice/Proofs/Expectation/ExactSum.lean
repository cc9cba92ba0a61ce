/-
# The sum over the faces without a rounding error

The mean of a die is a sum over its faces, rounded at every face, over their number.  For dice that
are not too large the rounding at the faces does nothing: twice the sum over any number of faces is
a whole number below `2 ^ 53`, and so the sum is a binary64 number itself.

* `exists_two_mul_partialSum`: twice a sum is whole, and at most `5 s ^ 2 / 4 + s` for a die with
  `s` sides, whatever the threshold is.  A threshold in the middle of the die comes closest to it;
* `worthSum_nearest_eq`: so the rounded sum is the exact one, face by face;
* `meanFace_sum_exact`: **only the quotient is rounded.**
-/
import Dice.Proofs.Binary64.Magnitude
import Dice.Proofs.Expectation.ClosedForm

namespace Dice.Expectation

open Binary64 (nearest OnGrid)

/-! ## 1. Halves of whole numbers -/

theorem onGrid_abs_half {m : Nat} (h : m < 2 ^ 53) : OnGrid |(m : ℚ) / 2| := by
  refine ⟨m, -1, h, by decide, ?_⟩
  rw [abs_of_nonneg (by positivity), twoPow, zpow_neg_one]
  rfl

/-- **Half a whole number of few bits** is a binary64 number. -/
theorem ofRat_half {m : Nat} (h : m < 2 ^ 53) :
    Binary64.ofRat ((m : ℚ) / 2) = .finite (m / 2) := by
  refine Binary64.ofRat_eq_finite (onGrid_abs_half h) ?_
  have hnonneg : (0 : ℚ) ≤ m := Nat.cast_nonneg m
  have hcast : (m : ℚ) < twoPow (53 : Nat) := by
    rw [twoPow_natCast]
    exact_mod_cast h
  calc |(m : ℚ) / 2| ≤ m := by
        rw [abs_of_nonneg (by positivity)]
        linarith
    _ < twoPow (53 : Nat) := hcast
    _ ≤ twoPow 1024 := twoPow_le_iff.mpr (by decide)

/-! ## 2. Exact sums -/

section Sums

variable {sides n : Nat}

/-- The sum over some faces of a die, in exact arithmetic. -/
def partialSum (sides : Nat) (threshold : Int) (n : Nat) : ℚ :=
  worthSum id (averageFace sides) threshold n

theorem partialSum_succ (sides : Nat) (threshold : Int) (n : Nat) :
    partialSum sides threshold (n + 1)
      = partialSum sides threshold n + worth (averageFace sides) threshold (n + 1) :=
  worthSum_succ id (averageFace sides) threshold n

theorem averageFace_eq_half (sides : Nat) : averageFace sides = (sides + 1 : Nat) / 2 := by
  rw [averageFace]
  push_cast
  rfl

/-- What a face is worth is half a whole number. -/
theorem exists_worth_eq_half (threshold : Int) (hn : n < sides) :
    ∃ m : Nat, m ≤ 2 * sides ∧ worth (averageFace sides) threshold (n + 1) = (m : ℚ) / 2 := by
  unfold worth
  split_ifs
  · exact ⟨sides + 1, by omega, averageFace_eq_half sides⟩
  · refine ⟨2 * (n + 1), by omega, ?_⟩
    push_cast
    ring

/-- **Twice a sum** is a whole number.  Each low face is worth an average one, and that of the whole
die, so the low faces add most to the sum if they are half of the die. -/
theorem exists_two_mul_partialSum (threshold : Int) (hn : n ≤ sides) :
    ∃ m : Nat, 4 * m ≤ 5 * sides ^ 2 + 4 * sides ∧ 2 * partialSum sides threshold n = m := by
  have hlow : 0 ≤ lowFaces threshold n := le_max_left _ _
  have hhigh : lowFaces threshold n ≤ n := by
    unfold lowFaces
    omega
  generalize hc : lowFaces threshold n = c at hlow hhigh
  lift c to Nat using hlow
  have hcn : c ≤ n := Int.ofNat_le.mp hhigh
  obtain ⟨others, rfl⟩ := Nat.exists_eq_add_of_le (hcn.trans hn)
  refine ⟨n * (n + 1) + c * others, ?_, ?_⟩
  · have hfaces : n * (n + 1) ≤ (c + others) * (c + others + 1) :=
      Nat.mul_le_mul hn (Nat.succ_le_succ hn)
    have hmiddle : 4 * c * others ≤ (c + others) ^ 2 := four_mul_le_sq_add c others
    calc 4 * (n * (n + 1) + c * others)
        = 4 * (n * (n + 1)) + 4 * c * others := by ring
      _ ≤ 4 * ((c + others) * (c + others + 1)) + (c + others) ^ 2 :=
          Nat.add_le_add (Nat.mul_le_mul_left 4 hfaces) hmiddle
      _ = 5 * (c + others) ^ 2 + 4 * (c + others) := by ring
  · rw [partialSum, worthSum_id_eq, hc, averageFace]
    push_cast
    ring

/-- The largest number of sides that is looked at. -/
def maxExactSides : Nat := 2 ^ 26

/-- **A sum over some faces** of a die that is not too large is half a whole number of few bits. -/
theorem exists_partialSum_eq_half (threshold : Int) (hsides : sides ≤ maxExactSides)
    (hn : n ≤ sides) : ∃ m : Nat, m < 2 ^ 53 ∧ partialSum sides threshold n = m / 2 := by
  obtain ⟨m, hm, hsum⟩ := exists_two_mul_partialSum threshold hn
  refine ⟨m, ?_, ?_⟩
  · have hsquare : sides ^ 2 ≤ maxExactSides ^ 2 := Nat.pow_le_pow_left hsides 2
    unfold maxExactSides at hsides hsquare
    omega
  · rw [← hsum]
    ring

/-! ## 3. Rounded sums -/

/-- **The rounded sum is the exact one**, face by face. -/
theorem worthSum_nearest_eq (threshold : Int) (hsides : sides ≤ maxExactSides) :
    ∀ {n : Nat}, n ≤ sides →
      worthSum nearest (averageFace sides) threshold n = partialSum sides threshold n
  | 0, _ => rfl
  | n + 1, hn => by
    obtain ⟨m, hm, hsum⟩ := exists_partialSum_eq_half threshold hsides hn
    have hgrid : OnGrid |partialSum sides threshold (n + 1)| := hsum ▸ onGrid_abs_half hm
    rw [worthSum_succ, worthSum_nearest_eq threshold hsides (Nat.le_of_succ_le hn),
      ← partialSum_succ]
    exact Binary64.nearest_eq_self hgrid

/-- A sum over some faces is a binary64 number. -/
theorem ofRat_partialSum (threshold : Int) (hsides : sides ≤ maxExactSides) (hn : n ≤ sides) :
    Binary64.ofRat (partialSum sides threshold n) = .finite (partialSum sides threshold n) := by
  obtain ⟨m, hm, hsum⟩ := exists_partialSum_eq_half threshold hsides hn
  rw [hsum, ofRat_half hm]

/-- The average face is a binary64 number. -/
theorem ofRat_averageFace (hsides : sides ≤ maxExactSides) :
    Binary64.ofRat (averageFace sides) = .finite (averageFace sides) := by
  unfold maxExactSides at hsides
  rw [averageFace_eq_half]
  exact ofRat_half (by omega)

/-- What a face is worth is a binary64 number. -/
theorem ofRat_worth (threshold : Int) (hsides : sides ≤ maxExactSides) (hn : n < sides) :
    Binary64.ofRat (worth (averageFace sides) threshold (n + 1))
      = .finite (worth (averageFace sides) threshold (n + 1)) := by
  unfold maxExactSides at hsides
  obtain ⟨m, hm, hworth⟩ := exists_worth_eq_half threshold hn
  rw [hworth]
  exact ofRat_half (by omega)

/-- **The addition of one face** does not round. -/
theorem add_worth_exact (threshold : Int) (hsides : sides ≤ maxExactSides) (hn : n < sides) :
    (Binary64.finite (partialSum sides threshold n)).add
        (Binary64.ofRat (worth (averageFace sides) threshold (n + 1)))
      = .finite (partialSum sides threshold (n + 1)) := by
  rw [ofRat_worth threshold hsides hn, ← ofRat_partialSum threshold hsides hn, partialSum_succ]
  rfl

/-! ## 4. The mean -/

/-- **The mean is rounded once**, after the sum. -/
theorem meanFace_eq_ofRat_exactMean (hpos : 1 ≤ sides) (hsides : sides ≤ maxExactSides)
    (reroll : Option Int) :
    meanFace sides reroll = .ok (Binary64.ofRat (exactMean sides reroll)) := by
  have hzero : ¬(sides : Int) = 0 := by omega
  have hneg : ¬(sides : Int) < 0 := by omega
  simp only [meanFace, ofRat_averageFace hsides, if_neg hzero, if_neg hneg, Int.toNat_natCast,
    Int.cast_natCast, Binary64.value]
  split_ifs with hthreshold
  · rw [exactMean_of_threshold_lt hthreshold]
  · rw [worthSum_nearest_eq _ hsides le_rfl, partialSum, exactMean]

/-- **The sum over the faces has no rounding error** for a die with at most `2 ^ 26` sides, whatever
the threshold is.  Twice the sum over any number of faces is a whole number of at most 53 bits, so
that sum is a binary64 number, it is what the rounded sum comes to, and the addition of the next
face gives the next sum.  The mean is the exact one, rounded once. -/
theorem meanFace_sum_exact (hpos : 1 ≤ sides) (hsides : sides ≤ 2 ^ 26) (reroll : Option Int) :
    (∀ n ≤ sides,
      (∃ m : Nat, m < 2 ^ 53 ∧ 2 * partialSum sides (reroll.getD noThreshold) n = m) ∧
      Binary64.ofRat (partialSum sides (reroll.getD noThreshold) n)
        = .finite (partialSum sides (reroll.getD noThreshold) n) ∧
      worthSum nearest (averageFace sides) (reroll.getD noThreshold) n
        = partialSum sides (reroll.getD noThreshold) n) ∧
    (∀ n < sides,
      (Binary64.finite (partialSum sides (reroll.getD noThreshold) n)).add
          (Binary64.ofRat (worth (averageFace sides) (reroll.getD noThreshold) (n + 1)))
        = .finite (partialSum sides (reroll.getD noThreshold) (n + 1))) ∧
    Binary64.ofRat (averageFace sides) = .finite (averageFace sides) ∧
    meanFace sides reroll = .ok (Binary64.ofRat (exactMean sides reroll)) := by
  refine ⟨fun n hn => ⟨?_, ofRat_partialSum _ hsides hn, worthSum_nearest_eq _ hsides hn⟩,
    fun n hn => add_worth_exact _ hsides hn, ofRat_averageFace hsides,
    meanFace_eq_ofRat_exactMean hpos hsides reroll⟩
  obtain ⟨m, hm, hsum⟩ := exists_partialSum_eq_half _ hsides hn
  exact ⟨m, hm, by rw [hsum]; ring⟩

end Sums

/-- A die with that many sides, half of them thrown again; no threshold makes its sum larger. -/
theorem meanFace_sum_exact_halfRerolled :
    1 ≤ 2 ^ 26 ∧ 2 ^ 26 ≤ 2 ^ 26 ∧
    2 * worthSum nearest (averageFace (2 ^ 26 : Nat)) (2 ^ 25) (2 ^ 26) = 5 * 2 ^ 50 + 2 ^ 26 ∧
    meanFace (2 ^ 26 : Nat) (some (2 ^ 25)) = .ok (.finite (83886081 / 2)) := by
  obtain ⟨hsums, -, -, hmean⟩ := meanFace_sum_exact (by decide : 1 ≤ 2 ^ 26) le_rfl (some (2 ^ 25))
  have hlow : lowFaces (2 ^ 25) (2 ^ 26) = 2 ^ 25 := by decide
  refine ⟨by decide, le_rfl, ?_, ?_⟩
  · have hsum := (hsums (2 ^ 26) le_rfl).2.2
    rw [Option.getD_some] at hsum
    rw [hsum, partialSum, worthSum_id_eq, hlow, averageFace]
    norm_num
  · have hexact : exactMean (2 ^ 26) (some (2 ^ 25)) = (83886081 : Nat) / 2 := by
      rw [exactMean_eq_lowFaces (by decide), Option.getD_some, hlow]
      norm_num
    rw [hmean, hexact]
    exact congrArg Except.ok (ofRat_half (by decide))

end Dice.Expectation
