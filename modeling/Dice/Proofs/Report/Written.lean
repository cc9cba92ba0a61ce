/-
# When a batch has a report

A report is refused if a roll has no expected total, or if an integer in it has too many digits.
Neither happens to a roll within the limits of tokens: its faces, its modifier and its number of
dice are small, and so is what can be made of them.  What is left is the sum of a batch.  It can
have too many digits, but then the batch is longer than any that is ever written down.

* `natAbs_total_throw`: its dice show faces, and so its total is small;
* `exists_line`: so it has its line in the report, whatever was thrown;
* `text_eq_error_iff`: **the report on a batch is refused exactly if the sum is too long**, and
  `length_of_not_fits`: how long the batch is then.
-/
import Dice.Proofs.Expectation.Size
import Dice.Proofs.Report.Lines
import Dice.Proofs.Roll.Totals

namespace Dice

/-! ## 1. Outcomes -/

namespace Numeral

theorem fits_of_lt {n : Int} {k : Nat} (hk : 0 < k) (hmax : k ≤ maxDigits)
    (h : n.natAbs < 10 ^ k) : fits n = true :=
  decide_eq_true ((length_natText_le hk h).trans hmax)

end Numeral

namespace Roll

variable {r : Roll} {source : Source}

/-- What a roll within the limits comes to has less than fourteen digits. -/
theorem natAbs_total_throw (h : r.InLimits) (hsource : source.InRange) (calls : Nat) :
    (r.throw source calls).1.total.natAbs < 10 ^ 13 := by
  obtain ⟨hlow, hhigh⟩ := total_throw_between (r := r) hsource calls
  have hcounted : Expectation.countedDice r ≤ 1000 :=
    (Expectation.countedDice_le r).trans h.number
  have hproduct : (Expectation.countedDice r : Int) * r.sides ≤ (1000 * (2 ^ 32 - 1) : Nat) := by
    exact_mod_cast Nat.mul_le_mul hcounted h.sides
  have hmodifier := h.modifier_getD
  omega

theorem fits_modifier (h : r.InLimits) : Numeral.fits (r.modifier.getD 0) = true := by
  have hmodifier := h.modifier_getD
  exact Numeral.fits_of_lt (k := 10) (by decide) (by decide) (by omega)

/-- **The outcome of a roll within the limits can be written.** -/
theorem written_throw (h : r.InLimits) (hsource : source.InRange) (calls : Nat) :
    (r.throw source calls).1.written = .ok (r.throw source calls).1.text := by
  refine if_pos (List.all_eq_true.mpr fun n hn => ?_)
  simp only [Outcome.integers, List.cons_append, List.mem_cons, List.mem_append,
    List.mem_flatMap, List.not_mem_nil, or_false] at hn
  rcases hn with rfl | ⟨d, hd, hn⟩ | rfl
  · exact Numeral.fits_of_lt (by decide) (by decide) (natAbs_total_throw h hsource calls)
  · have hface := integers_of_mem_throw hsource calls hd n hn
    have hsides := h.sides
    exact Numeral.fits_of_lt (k := 10) (by decide) (by decide) (by omega)
  · exact fits_modifier h

end Roll

/-! ## 2. The report -/

namespace Report

variable {rolls : List Roll} {source : Source}

/-- **A roll within the limits has its line.** -/
theorem exists_line {r : Roll} (h : r.InLimits) (hsource : source.InRange) (calls : Nat) :
    ∃ l, line r (r.throw source calls).1 = .ok l := by
  obtain ⟨x, hx, -⟩ := Expectation.exists_ofRoll h
  unfold line
  rw [hx, Roll.written_throw h hsource calls]
  exact ⟨_, rfl⟩

theorem exists_rollLines (hsource : source.InRange) :
    ∀ {rolls : List Roll} (calls : Nat), (∀ r ∈ rolls, r.InLimits) →
      ∃ ls, rollLines rolls (Roll.throwAll source rolls calls).1 = .ok ls
  | [], _, _ => ⟨[], rfl⟩
  | r :: rolls, calls, h => by
    obtain ⟨l, hl⟩ := exists_line (h r List.mem_cons_self) hsource calls
    obtain ⟨ls, hls⟩ := exists_rollLines hsource (r.throw source calls).2
      fun r' hr' => h r' (List.mem_cons_of_mem r hr')
    refine ⟨l :: ls, ?_⟩
    simp only [Roll.throwAll, rollLines]
    rw [hl, hls]
    rfl

/-- What a batch of rolls within the limits comes to. -/
theorem natAbs_sumTotals_le (hsource : source.InRange) :
    ∀ {rolls : List Roll} (calls : Nat), (∀ r ∈ rolls, r.InLimits) →
      (Outcome.sumTotals (Roll.throwAll source rolls calls).1).natAbs
        ≤ rolls.length * (10 ^ 13 - 1)
  | [], _, _ => Nat.le_refl 0
  | r :: rolls, calls, h => by
    have hfirst := Roll.natAbs_total_throw (h r List.mem_cons_self) hsource calls
    have hothers := natAbs_sumTotals_le hsource (r.throw source calls).2
      fun r' hr' => h r' (List.mem_cons_of_mem r hr')
    have hsum : Outcome.sumTotals (Roll.throwAll source (r :: rolls) calls).1
        = (r.throw source calls).1.total
          + Outcome.sumTotals (Roll.throwAll source rolls (r.throw source calls).2).1 := rfl
    rw [hsum, List.length_cons]
    omega

/-- **A batch whose sum is too long** has more rolls than any number of so many digits says. -/
theorem length_of_not_fits (h : ∀ r ∈ rolls, r.InLimits) (hsource : source.InRange)
    {calls : Nat}
    (hfits : Numeral.fits (Outcome.sumTotals (Roll.throwAll source rolls calls).1) = false)
    {k : Nat} (hk : k + 13 ≤ Numeral.maxDigits) : 10 ^ k < rolls.length := by
  refine Nat.lt_of_not_le fun hlength => ?_
  have hsum : (Outcome.sumTotals (Roll.throwAll source rolls calls).1).natAbs < 10 ^ (k + 13) :=
    calc (Outcome.sumTotals (Roll.throwAll source rolls calls).1).natAbs
        ≤ rolls.length * (10 ^ 13 - 1) := natAbs_sumTotals_le hsource calls h
      _ ≤ 10 ^ k * (10 ^ 13 - 1) := Nat.mul_le_mul_right _ hlength
      _ < 10 ^ k * 10 ^ 13 := Nat.mul_lt_mul_of_pos_left (by decide) (Nat.pow_pos (by decide))
      _ = 10 ^ (k + 13) := (pow_add 10 k 13).symm
  rw [Numeral.fits_of_lt (Nat.succ_pos (k + 12)) hk hsum] at hfits
  cases hfits

/-- **The report on a batch of rolls within the limits** is refused exactly if the sum of the batch
is too long, and for no other reason. -/
theorem text_eq_error_iff (h : ∀ r ∈ rolls, r.InLimits) (hsource : source.InRange) {calls : Nat}
    {e : Refusal} :
    text rolls (Roll.throwAll source rolls calls).1 = .error e ↔
      e = .notWritten .tooManyDigits ∧
        Numeral.fits (Outcome.sumTotals (Roll.throwAll source rolls calls).1) = false := by
  obtain ⟨ls, hls⟩ := exists_rollLines hsource calls h
  unfold text
  rw [hls, totalLines_eq, Roll.length_throwAll]
  cases hfits : Numeral.fits (Outcome.sumTotals (Roll.throwAll source rolls calls).1) with
  | true => simp [bind, Except.bind]
  | false =>
    have hmany : 1 < rolls.length := length_of_not_fits h hsource hfits (k := 0) (by decide)
    simp [hmany, bind, Except.bind, eq_comm]

end Report
end Dice
