/-
# The expected total against the average of all throws

The expected total of a roll is a closed expression.  What it is to tell is how throws come out on
average: over all scripts of the roll, each as likely as any other.

* `exactMean_of_threshold_lt`: without faces that are thrown again the mean is the sum in closed form
  that is shown;
* `expect_dieOf`: the mean of a die is the average over the pairs of faces of one die;
* `expect_poolSum`: so all dice together come on average to the mean, times their number, for the
  pairs of a script have nothing to do with each other (`expect_apply_coordinate`);
* `exactTotal_eq_expect`: the expected total takes the dice that count for an equal share of all
  dice.  That is right on average if all of them count;
* `exactTotal_average`: **the expected total is the average if all dice count**; it is not above the
  average if the highest are kept, and not below it if the lowest are.
-/
import Mathlib.Algebra.BigOperators.Expect
import Mathlib.Algebra.BigOperators.Fin
import Mathlib.Algebra.Order.BigOperators.Expect
import Mathlib.Tactic.FieldSimp
import Mathlib.Tactic.Ring
import Dice.Expectation
import Dice.Proofs.Pool.Selection
import Dice.Proofs.Roll.Script

namespace Dice.Expectation

open Finset
open scoped BigOperators

instance neZero_sides (r : Roll) : NeZero r.sides := ⟨Nat.pos_iff_ne_zero.mp r.sides_pos⟩

/-! ## 1. The mean of a die -/

theorem sum_face (sides : Nat) :
    ∑ i : Fin sides, (face i : ℚ) = sides * averageFace sides := by
  induction sides with
  | zero => simp
  | succ n ih =>
    have hlast : face (Fin.last n) = (n : Int) + 1 := rfl
    have hinit : ∀ i : Fin n, face i.castSucc = face i := fun i => rfl
    simp only [Fin.sum_univ_castSucc, hinit, ih, hlast, averageFace]
    push_cast
    ring

/-- The faces of a die are on average the average face. -/
theorem expect_face (sides : Nat) [NeZero sides] :
    𝔼 i : Fin sides, (face i : ℚ) = averageFace sides := by
  have hne : (sides : ℚ) ≠ 0 := Nat.cast_ne_zero.mpr (NeZero.ne sides)
  rw [Fintype.expect_eq_sum_div_card, sum_face, Fintype.card_fin]
  field_simp

theorem sum_worth (average : ℚ) (threshold : Int) (sides : Nat) :
    ∑ i : Fin sides, worth average threshold (i + 1)
      = worthSum id average threshold sides := by
  induction sides with
  | zero => simp
  | succ n ih =>
    rw [Fin.sum_univ_castSucc, worthSum_succ, ← ih]
    rfl

theorem faceSum_succ (n : Nat) : faceSum (n + 1) = faceSum n + (n + 1) := by
  have h : (n + 1) * (n + 1 + 1) = n * (n + 1) + (n + 1) * 2 := by ring
  rw [faceSum, faceSum, h, Nat.add_mul_div_right _ _ (by decide)]

/-- If no face is thrown again, the worths are the faces, and they add up to what is shown as a mean
in this case. -/
theorem exactMean_of_threshold_lt {sides : Nat} {reroll : Option Int}
    (h : reroll.getD noThreshold < 1) : exactMean sides reroll = faceSum sides / sides := by
  have hworth : ∀ average : ℚ, ∀ n : Nat,
      worth average (reroll.getD noThreshold) (n + 1) = (n + 1 : Nat) := by
    intro average n
    unfold worth
    rw [if_neg (by omega)]
  have hsum : ∀ average : ℚ, ∀ n : Nat,
      worthSum id average (reroll.getD noThreshold) n = faceSum n := by
    intro average n
    induction n with
    | zero => simp [faceSum]
    | succ n ih => rw [worthSum_succ, ih, hworth, id_eq, faceSum_succ, ← Nat.cast_add]
  rw [exactMean, hsum]

/-- A face is worth itself, unless it is thrown again. -/
theorem worth_succ (r : Roll) (average : ℚ) (i : Fin r.sides) :
    worth average (r.reroll.getD noThreshold) (i + 1)
      = if r.isRerolled (face i) then average else (face i : ℚ) := by
  have hpos : ¬face i ≤ noThreshold := by
    simp only [face, noThreshold]
    omega
  have hint : ((i + 1 : Nat) : Int) = face i := rfl
  have hrat : ((i + 1 : Nat) : ℚ) = face i := by simp [face]
  unfold worth Roll.isRerolled
  rw [hint, hrat]
  cases r.reroll with
  | none => simp [hpos]
  | some t => simp

/-- **One die.**  Its mean is the average over all pairs of its faces. -/
theorem expect_dieOf (r : Roll) :
    𝔼 p : r.Pair, ((r.dieOf p).value : ℚ) = exactMean r.sides r.reroll := by
  have hfirst : ∀ i : Fin r.sides, 𝔼 j : Fin r.sides, ((r.dieOf (i, j)).value : ℚ)
      = worth (averageFace r.sides) (r.reroll.getD noThreshold) (i + 1) := by
    intro i
    rw [worth_succ]
    cases h : r.isRerolled (face i) with
    | true => simp [Roll.dieOf, h, Die.value, expect_face]
    | false => simp [Roll.dieOf, h, Die.value]
  calc 𝔼 p : r.Pair, ((r.dieOf p).value : ℚ)
      = 𝔼 i : Fin r.sides, 𝔼 j : Fin r.sides, ((r.dieOf (i, j)).value : ℚ) := by
        rw [← expect_product', univ_product_univ]
    _ = 𝔼 i : Fin r.sides, worth (averageFace r.sides) (r.reroll.getD noThreshold) (i + 1) :=
        expect_congr rfl fun i _ => hfirst i
    _ = exactMean r.sides r.reroll := by
        rw [Fintype.expect_eq_sum_div_card, sum_worth, Fintype.card_fin, exactMean]

/-! ## 2. All dice of a script -/

/-- What is looked at in one place only has the average that it has there. -/
theorem expect_apply_coordinate {ι β : Type} [Fintype ι] [DecidableEq ι] [Fintype β] [Nonempty β]
    (i : ι) (f : β → ℚ) : 𝔼 σ : ι → β, f (σ i) = 𝔼 b, f b := by
  calc 𝔼 σ : ι → β, f (σ i)
      = 𝔼 p : β × ({j // j ≠ i} → β), f p.1 :=
        Fintype.expect_equiv (Equiv.funSplitAt i β) _ _ fun σ => rfl
    _ = 𝔼 b : β, 𝔼 _rest : {j // j ≠ i} → β, f b := by
        rw [← expect_product', univ_product_univ]
    _ = 𝔼 b, f b := by simp only [Fintype.expect_const]

/-- The sum of all dice of a script. -/
def poolSum (r : Roll) (σ : r.Script) : ℤ := ∑ i, (r.dieOf (σ i)).value

/-- **All dice together.** -/
theorem expect_poolSum (r : Roll) :
    𝔼 σ : r.Script, (poolSum r σ : ℚ) = r.number * exactMean r.sides r.reroll := by
  have hdie : ∀ i : Fin r.number, 𝔼 σ : r.Script, ((r.dieOf (σ i)).value : ℚ)
      = exactMean r.sides r.reroll := fun i =>
    (expect_apply_coordinate i fun p => ((r.dieOf p).value : ℚ)).trans (expect_dieOf r)
  simp only [poolSum, Int.cast_sum]
  rw [expect_sum_comm]
  simp [hdie]

/-- **The expected total as an average.**  Each script counts with the sum of all its dice, of which
the dice that count have an equal share. -/
theorem exactTotal_eq_expect (r : Roll) :
    exactTotal r = 𝔼 σ : r.Script,
      ((countedDice r / r.number : ℚ) * poolSum r σ + (r.modifier.getD 0 : Int)) := by
  rw [expect_add_distrib, Fintype.expect_const, ← mul_expect, expect_poolSum, exactTotal]
  congr 1
  by_cases hzero : r.number = 0
  · have hcounted : countedDice r = 0 := Nat.eq_zero_of_le_zero (hzero ▸ countedDice_le r)
    simp [hzero, hcounted]
  · have hne : (r.number : ℚ) ≠ 0 := Nat.cast_ne_zero.mpr hzero
    field_simp

/-! ## 3. The dice that count -/

section Script

variable (r : Roll) (σ : r.Script)

/-- What a roll comes to by a script. -/
def scriptOutcome : Outcome := (r.throw (r.scriptSource σ) 0).1

theorem length_scriptOutcome : (scriptOutcome r σ).dice.length = r.number := by
  rw [scriptOutcome, Roll.throw_script, (Outcome.perm_dice _ _ _).length_eq,
    Roll.length_scriptDice]

theorem sumValues_scriptOutcome :
    Outcome.sumValues (scriptOutcome r σ).dice = poolSum r σ := by
  rw [scriptOutcome, Roll.throw_script, sumValues_eq_sum,
    ((Outcome.perm_dice _ _ _).map Die.value).sum_eq, Roll.scriptDice, List.map_ofFn,
    List.sum_ofFn]
  rfl

end Script

/-- If there are no more dice than are kept, all of them count. -/
theorem sumValues_kept_of_le {o : Outcome}
    (h : ∀ k, o.keep = some k → o.dice.length ≤ k.count) :
    Outcome.sumValues o.kept = Outcome.sumValues o.dice := by
  unfold Outcome.kept
  cases hk : o.keep with
  | none => rfl
  | some k =>
    have hperm := k.select_append_leftOver_perm Die.value o.dice
    have hnil : k.leftOver Die.value o.dice = [] := by
      refine List.drop_eq_nil_of_le ?_
      rw [(k.rankedBy_ranking Die.value o.dice).perm.length_eq]
      exact h k hk
    rw [hnil, List.append_nil] at hperm
    rw [sumValues_eq_sum, sumValues_eq_sum]
    exact (hperm.map Die.value).sum_eq

/-- The dice that are kept have at least their share, or at most, of the sum of all. -/
theorem prefers_share_kept {r : Roll} {k : Keep} (hk : r.keep = some k) (σ : r.Script) :
    k.direction.Prefers (r.number * Outcome.sumValues (scriptOutcome r σ).kept)
      (countedDice r * poolSum r σ) := by
  have hkept : (scriptOutcome r σ).kept = k.select Die.value (scriptOutcome r σ).dice := by
    have hkeep : (scriptOutcome r σ).keep = some k := hk
    unfold Outcome.kept
    rw [hkeep]
  have hcounted : countedDice r = min k.count r.number := by
    unfold countedDice
    rw [hk]
  have hshare := k.prefers_share_select Die.value (scriptOutcome r σ).dice
  rw [← sumValues_eq_sum, ← sumValues_eq_sum, ← hkept, sumValues_scriptOutcome, hkept,
    Keep.length_select, length_scriptOutcome, ← hcounted, ← hkept] at hshare
  exact hshare

/-- Without dice nothing counts. -/
theorem sumValues_kept_of_number_eq_zero {r : Roll} (h : r.number = 0) (σ : r.Script) :
    Outcome.sumValues (scriptOutcome r σ).kept = 0 := by
  have hall : ∀ k, (scriptOutcome r σ).keep = some k →
      (scriptOutcome r σ).dice.length ≤ k.count := by
    intro k _
    rw [length_scriptOutcome, h]
    exact Nat.zero_le k.count
  have hempty : IsEmpty (Fin r.number) := by
    rw [h]
    exact Fin.isEmpty
  rw [sumValues_kept_of_le hall, sumValues_scriptOutcome, poolSum, univ_eq_empty, sum_empty]

/-! ## 4. The average total -/

/-- **The average total of a roll**, over all scripts. -/
def averageTotal (r : Roll) : ℚ := 𝔼 σ : r.Script, ((scriptOutcome r σ).total : ℚ)

theorem averageTotal_eq_expect (r : Roll) :
    averageTotal r = 𝔼 σ : r.Script,
      ((Outcome.sumValues (scriptOutcome r σ).kept : ℚ) + (r.modifier.getD 0 : Int)) := by
  refine expect_congr rfl fun σ _ => ?_
  have hmodifier : (scriptOutcome r σ).modifier = r.modifier.getD 0 := rfl
  rw [Outcome.total, hmodifier, Int.cast_add]

section Share

variable {counted number : Nat} {pool kept : Int}

/-- The share of some dice in a pool, where there may be no dice at all. -/
theorem share_le (hzero : number = 0 → kept = 0) (h : counted * pool ≤ number * kept) :
    (counted / number : ℚ) * pool ≤ kept := by
  by_cases hn : number = 0
  · simp [hn, hzero hn]
  · have hpos : (0 : ℚ) < number := Nat.cast_pos.mpr (Nat.pos_of_ne_zero hn)
    rw [div_mul_eq_mul_div, div_le_iff₀ hpos, mul_comm (kept : ℚ)]
    exact_mod_cast h

theorem le_share (hzero : number = 0 → kept = 0) (h : number * kept ≤ counted * pool) :
    kept ≤ (counted / number : ℚ) * pool := by
  -- less is more for the negatives
  have hneg : (counted / number : ℚ) * ((-pool : Int) : ℚ) ≤ ((-kept : Int) : ℚ) := by
    refine share_le (fun hn => by rw [hzero hn, neg_zero]) ?_
    rw [mul_neg, mul_neg]
    exact neg_le_neg h
  rw [Int.cast_neg, Int.cast_neg, mul_neg] at hneg
  exact neg_le_neg_iff.mp hneg

end Share

/-- **How the expected total relates to the average.**  It is the average of all throws if no dice
are left out.  The highest dice have more than their share of all dice, and the lowest have less; so
where the highest are kept it is never above the average, and where the lowest are kept it is never
below. -/
theorem exactTotal_average (r : Roll) :
    ((∀ k, r.keep = some k → r.number ≤ k.count) → exactTotal r = averageTotal r) ∧
    (∀ n, r.keep = some ⟨.high, n⟩ → exactTotal r ≤ averageTotal r) ∧
    ∀ n, r.keep = some ⟨.low, n⟩ → averageTotal r ≤ exactTotal r := by
  rw [exactTotal_eq_expect, averageTotal_eq_expect]
  refine ⟨fun hall => expect_congr rfl fun σ _ => ?_, fun n hk => expect_le_expect fun σ _ => ?_,
    fun n hk => expect_le_expect fun σ _ => ?_⟩
  · have hcounted : countedDice r = r.number := by
      unfold countedDice
      cases hk : r.keep with
      | none => rfl
      | some k => exact Nat.min_eq_right (hall k hk)
    have hkept : Outcome.sumValues (scriptOutcome r σ).kept = poolSum r σ := by
      rw [sumValues_kept_of_le, sumValues_scriptOutcome]
      intro k hk
      rw [length_scriptOutcome]
      exact hall k hk
    have hshare : (countedDice r : Int) * poolSum r σ
        = r.number * Outcome.sumValues (scriptOutcome r σ).kept := by rw [hcounted, hkept]
    have hzero := fun h => sumValues_kept_of_number_eq_zero (r := r) h σ
    rw [le_antisymm (share_le hzero hshare.le) (le_share hzero hshare.ge)]
  · have hshare := share_le (fun h => sumValues_kept_of_number_eq_zero h σ)
      (prefers_share_kept hk σ)
    gcongr
  · have hshare := le_share (fun h => sumValues_kept_of_number_eq_zero h σ)
      (prefers_share_kept hk σ)
    gcongr

end Dice.Expectation
