/-
# Keeping from a sorted pool

An outcome puts its dice in order before a keep ranks them, and a keep of high dice takes from the
other end than a keep of low ones.  Neither makes a difference that could be told from what is kept.

* `Keep.ranking_of_rankedBy`: a ranked pool is ranked like the pool, whatever order it was in; so
  sorting a pool first moves no die into or out of the selection, nor within it
  (`Keep.select_unchanged_by_sorting`);
* `Keep.values_ranking_eq`: the values of a ranking depend on the values of the pool alone, not on
  the dice that have them, and from the other end they are the same the other way round;
* `Outcome.total_ofDice`: so a total depends on the values of the pool and on nothing else;
* `Keep.high_low_complementary`: **the values of so many high dice and of the other low ones are the
  values of the pool**, although the dice need not be the dice of the pool.
-/
import Dice.Proofs.Pool.Selection

namespace Dice

open scoped List

/-! ## 1. Dice in order -/

namespace Keep

variable {α : Type} (k : Keep) {value : α → Int} {pool sorted : List α}

/-- **A ranked pool is ranked like the pool.** -/
theorem ranking_of_rankedBy {before : Int → Int → Prop} (h : RankedBy before value pool sorted) :
    k.ranking value sorted = k.ranking value pool :=
  RankedBy.unique (fun _ _ => Direction.Prefers.antisymm) (k.rankedBy_ranking value pool)
    (h.rerank (k.rankedBy_ranking value sorted))

theorem select_of_rankedBy {before : Int → Int → Prop} (h : RankedBy before value pool sorted) :
    k.select value sorted = k.select value pool :=
  congrArg (List.take k.count) (k.ranking_of_rankedBy h)

end Keep

/-- The dice that count in an outcome are selected from the dice in the order of the throw. -/
theorem Outcome.kept_ofDice (pool : List Die) (k : Keep) (modifier : Int) :
    (ofDice pool (some k) modifier).kept = k.select Die.value pool :=
  k.select_of_rankedBy (rankedBy_dice pool (some k) modifier)

/-- **Sorting first does not change which dice are kept.**  A keep goes through the dice from the
best down, dice of one value in the order in which they come, and takes as many as it keeps.  If the
pool is put in ascending order before, where dice of one value stay in their order too, then the
very same dice are selected in the same order, and these are the dice that count in an outcome. -/
theorem Keep.select_unchanged_by_sorting (k : Keep) (pool : List Die) :
    (∃ ranked, RankedBy k.direction.Prefers Die.value pool ranked ∧
      k.select Die.value pool = ranked.take k.count) ∧
    RankedBy (fun a b => a ≤ b) Die.value pool (pool.mergeSort Outcome.inOrder) ∧
    k.select Die.value (pool.mergeSort Outcome.inOrder) = k.select Die.value pool ∧
    ∀ modifier, (Outcome.ofDice pool (some k) modifier).kept = k.select Die.value pool := by
  have hsorted : RankedBy (fun a b => a ≤ b) Die.value pool (pool.mergeSort Outcome.inOrder) :=
    rankedBy_dice pool none 0
  exact ⟨⟨k.ranking Die.value pool, k.rankedBy_ranking Die.value pool, rfl⟩, hsorted,
    k.select_of_rankedBy hsorted, Outcome.kept_ofDice pool k⟩

/-- The cut goes through dice of one value: of the threes, the first two are kept. -/
example : (Outcome.ofDice [.kept 3, .kept 1, .rerolled 1 3, .kept 6, .rerolled 2 3]
      (some ⟨.high, 3⟩) 0).kept
    = [.kept 6, .kept 3, .rerolled 1 3] := by cbv

/-! ## 2. Values in order -/

namespace Keep

variable {α β : Type} (k : Keep) {value : α → Int} {pool : List α}

/-- **The values of a ranking** are the values of the pool in the one order that they can have. -/
theorem values_ranking_eq {values : List Int} (hperm : values ~ pool.map value)
    (hordered : values.Pairwise k.direction.Prefers) :
    (k.ranking value pool).map value = values := by
  have hranking := k.rankedBy_ranking value pool
  exact List.Perm.eq_of_pairwise (fun _ _ _ _ => Direction.Prefers.antisymm)
    (List.pairwise_map.mpr hranking.ordered) hordered
    ((hranking.perm.map value).trans hperm.symm)

/-- Pools of the same values have the same values selected. -/
theorem values_select_of_perm {value' : β → Int} {pool' : List β}
    (h : pool.map value ~ pool'.map value') :
    (k.select value pool).map value = (k.select value' pool').map value' := by
  have hranking' := k.rankedBy_ranking value' pool'
  have hvalues : (k.ranking value pool).map value = (k.ranking value' pool').map value' :=
    k.values_ranking_eq ((hranking'.perm.map value').trans h.symm)
      (List.pairwise_map.mpr hranking'.ordered)
  have htake := congrArg (List.take k.count) hvalues
  rwa [← List.map_take, ← List.map_take] at htake

/-- From the other end the values of a pool are the same the other way round. -/
theorem values_ranking_high (value : α → Int) (pool : List α) (high low : Nat) :
    ((⟨.high, high⟩ : Keep).ranking value pool).map value
      = (((⟨.low, low⟩ : Keep).ranking value pool).map value).reverse := by
  have hlow := (⟨.low, low⟩ : Keep).rankedBy_ranking value pool
  refine values_ranking_eq _ ((List.reverse_perm _).trans (hlow.perm.map value)) ?_
  exact List.pairwise_reverse.mpr (List.pairwise_map.mpr hlow.ordered)

end Keep

/-! ## 3. What a pool comes to -/

section Sum

variable {α β : Type} (keep : Option Keep) {value : α → Int} {pool : List α}

/-- The sum of the values that are kept: of all, or of those that a keep selects. -/
def keptSum (keep : Option Keep) (value : α → Int) (pool : List α) : Int :=
  match keep with
  | none => (pool.map value).sum
  | some k => ((k.select value pool).map value).sum

/-- It depends on the values alone. -/
theorem keptSum_of_perm {value' : β → Int} {pool' : List β}
    (h : pool.map value ~ pool'.map value') :
    keptSum keep value pool = keptSum keep value' pool' := by
  cases keep with
  | none => exact h.sum_eq
  | some k => exact congrArg List.sum (k.values_select_of_perm h)

/-- **A choice that nothing else is better than** comes to what is kept. -/
theorem keptSum_append {k : Keep} {best rest : List α}
    (hbest : ∀ a ∈ best, ∀ b ∈ rest, k.direction.Prefers (value a) (value b))
    (hlength : best.length = min k.count (best ++ rest).length) :
    keptSum (some k) value (best ++ rest) = (best.map value).sum := by
  have hselect := k.select_subperm value (best ++ rest)
  rw [← k.length_select value (best ++ rest)] at hlength
  exact (k.prefers_sum_select value (List.sublist_append_left best rest).subperm hlength).antisymm
    (k.direction.prefers_sum_of_best value (List.Perm.refl _) hbest hselect hlength.symm)

/-- **The total of an outcome**, from the dice in the order of the throw. -/
theorem Outcome.total_ofDice (pool : List Die) (modifier : Int) :
    (ofDice pool keep modifier).total = keptSum keep Die.value pool + modifier := by
  have hkept : sumValues (ofDice pool keep modifier).kept = keptSum keep Die.value pool := by
    rw [sumValues_eq_sum]
    cases keep with
    | none => exact ((perm_dice pool none modifier).map Die.value).sum_eq
    | some k =>
      rw [kept_ofDice]
      rfl
  rw [total, hkept]
  rfl

end Sum

/-! ## 4. Both ends of a pool -/

/-- **High values and the other low values** are all values. -/
theorem Keep.values_high_append_low {α : Type} (value : α → Int) (pool : List α) (n : Nat) :
    ((⟨.high, n⟩ : Keep).select value pool).map value
        ++ ((⟨.low, pool.length - n⟩ : Keep).select value pool).map value
      ~ pool.map value := by
  have hranked := (⟨.low, pool.length - n⟩ : Keep).rankedBy_ranking value pool
  have hhigh := Keep.values_ranking_high value pool n (pool.length - n)
  generalize hvalues : ((⟨.low, pool.length - n⟩ : Keep).ranking value pool).map value = values
    at hhigh
  have hlength : values.length = pool.length := by
    rw [← hvalues, List.length_map, hranked.perm.length_eq]
  have hselectHigh : ((⟨.high, n⟩ : Keep).select value pool).map value
      = (values.drop (pool.length - n)).reverse := by
    rw [← hlength, ← List.take_reverse, ← hhigh]
    exact List.map_take
  have hselectLow : ((⟨.low, pool.length - n⟩ : Keep).select value pool).map value
      = values.take (pool.length - n) := by
    rw [← hvalues]
    exact List.map_take
  rw [hselectHigh, hselectLow]
  calc (values.drop (pool.length - n)).reverse ++ values.take (pool.length - n)
      ~ values.drop (pool.length - n) ++ values.take (pool.length - n) :=
        (List.reverse_perm _).append_right _
    _ ~ values.take (pool.length - n) ++ values.drop (pool.length - n) := List.perm_append_comm
    _ = values := List.take_append_drop _ values
    _ ~ pool.map value := hvalues ▸ hranked.perm.map value

/-- **Keeping high and keeping low are complementary.**  The values of the highest `n` dice and the
values of the lowest ones, as many as are left, make up the values of the pool, each as often as it
is there.  The same holds of the dice that count in outcomes, and so the totals add up to the total
of all dice, where the modifier is in both.  If there are fewer than `n` dice, all of them are kept
at one end and none at the other. -/
theorem Keep.high_low_complementary (pool : List Die) (n : Nat) (modifier : Int) :
    let high : Keep := ⟨.high, n⟩
    let low : Keep := ⟨.low, pool.length - n⟩
    ((high.select Die.value pool).map Die.value ++ (low.select Die.value pool).map Die.value
      ~ pool.map Die.value) ∧
    ((Outcome.ofDice pool (some high) modifier).kept.map Die.value
        ++ (Outcome.ofDice pool (some low) modifier).kept.map Die.value
      ~ pool.map Die.value) ∧
    (Outcome.ofDice pool (some high) modifier).total
        + (Outcome.ofDice pool (some low) modifier).total
      = (Outcome.ofDice pool none modifier).total + modifier := by
  intro high low
  have hvalues : (high.select Die.value pool).map Die.value
      ++ (low.select Die.value pool).map Die.value ~ pool.map Die.value :=
    Keep.values_high_append_low Die.value pool n
  have hsum : keptSum (some high) Die.value pool + keptSum (some low) Die.value pool
      = keptSum none Die.value pool := by
    rw [keptSum, keptSum, keptSum, ← List.sum_append, hvalues.sum_eq]
  refine ⟨hvalues, ?_, ?_⟩
  · rw [Outcome.kept_ofDice, Outcome.kept_ofDice]
    exact hvalues
  · rw [Outcome.total_ofDice, Outcome.total_ofDice, Outcome.total_ofDice, ← hsum]
    omega

/-- Of two dice of one value the first is kept at both ends. -/
example : (⟨.high, 1⟩ : Keep).select Die.value [.kept 3, .rerolled 1 3] = [.kept 3] ∧
    (⟨.low, 1⟩ : Keep).select Die.value [.kept 3, .rerolled 1 3] = [.kept 3] := by
  constructor <;> cbv

end Dice
