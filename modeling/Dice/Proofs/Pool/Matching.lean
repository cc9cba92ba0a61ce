/-
# Pools that are matched die for die

Two pools of one size can be matched so that each die of the first has a die of the second that
counts for at least as much.  Raising dice can change which of them are kept; still the second pool
comes to at least as much as the first, and to no more than the dice were raised by in all.

The selected dice of either pool are a choice from the other one too, by way of the matching.  What
a keep selects is no worse than this choice, and on one and the same choice the two pools differ by
what its dice were raised by.

* `sum_between_of_subperm`: two sums over one choice;
* `keptSum_between`: the sums of what is kept, where the pool stays and the values are raised;
* `Outcome.total_monotone`: **totals are monotone in the dice**, and blind to their order and history.
-/
import Dice.Proofs.Pool.Sorted
import Mathlib.Algebra.BigOperators.Fin
import Mathlib.Data.List.Permutation

namespace Dice

open scoped BigOperators List

/-! ## 1. Raised values -/

section Raised

variable {α : Type} {low high : α → Int} {pool : List α}

/-- **Two sums over one choice** differ by no more than all values do. -/
theorem sum_between_of_subperm (h : ∀ a ∈ pool, low a ≤ high a) {sub : List α}
    (hsub : sub.Subperm pool) :
    (sub.map low).sum ≤ (sub.map high).sum ∧
    (sub.map high).sum ≤ (sub.map low).sum + (pool.map fun a => high a - low a).sum := by
  have hraised : ∀ a ∈ pool, 0 ≤ high a - low a := by
    intro a ha
    exact Int.sub_nonneg_of_le (h a ha)
  have hnonneg : 0 ≤ (sub.map fun a => high a - low a).sum := by
    refine sum_map_le_of_subperm ?_ List.nil_subperm
    intro a ha
    exact hraised a (hsub.subset ha)
  have hall := sum_map_le_of_subperm hraised hsub
  have hsum : (sub.map high).sum = (sub.map low).sum + (sub.map fun a => high a - low a).sum := by
    rw [← List.sum_map_add]
    refine congrArg List.sum (List.map_congr_left ?_)
    intro a _
    omega
  omega

/-- **The sums of what is kept**, before and after values are raised. -/
theorem keptSum_between (keep : Option Keep) (h : ∀ a ∈ pool, low a ≤ high a) :
    keptSum keep low pool ≤ keptSum keep high pool ∧
    keptSum keep high pool ≤ keptSum keep low pool + (pool.map fun a => high a - low a).sum := by
  cases keep with
  | none => exact sum_between_of_subperm h (List.Subperm.refl pool)
  | some k =>
    have hbefore := sum_between_of_subperm h (k.select_subperm low pool)
    have hafter := sum_between_of_subperm h (k.select_subperm high pool)
    -- each selection is a choice that the other one is no worse than
    have hlow := k.prefers_sum_select low (k.select_subperm high pool) (by simp)
    have hhigh := k.prefers_sum_select high (k.select_subperm low pool) (by simp)
    unfold keptSum
    cases hd : k.direction with
    | high =>
      rw [hd] at hlow hhigh
      exact ⟨hbefore.1.trans hhigh, hafter.2.trans (Int.add_le_add_right hlow _)⟩
    | low =>
      rw [hd] at hlow hhigh
      exact ⟨hlow.trans hafter.1, hhigh.trans hbefore.2⟩

end Raised

/-! ## 2. Matched pools -/

section Matched

variable {α : Type} {first second : List α}

theorem map_getElem_finRange (pool : List α) :
    (List.finRange pool.length).map (fun i => pool[i]) = pool := by
  rw [← List.ofFn_eq_map]
  exact List.ofFn_getElem

/-- A matching goes through all of the second pool. -/
theorem map_getElem_matched_perm (e : Fin first.length ≃ Fin second.length) :
    (List.finRange first.length).map (fun i => second[e i]) ~ second := by
  have hplaces : (List.finRange first.length).map e ~ List.finRange second.length := by
    refine (List.perm_ext_iff_of_nodup ((List.nodup_finRange _).map e.injective)
      (List.nodup_finRange _)).mpr ?_
    intro i
    simpa using e.surjective i
  have hvalues := hplaces.map fun i => second[i]
  rw [List.map_map, map_getElem_finRange] at hvalues
  exact hvalues

end Matched

namespace Outcome

variable (keep : Option Keep) (modifier : Int)

theorem total_eq_of_values {first second : List Die}
    (h : first.map Die.value ~ second.map Die.value) :
    (ofDice first keep modifier).total = (ofDice second keep modifier).total := by
  rw [total_ofDice, total_ofDice, keptSum_of_perm keep h]

theorem total_between_of_matching {first second : List Die}
    (e : Fin first.length ≃ Fin second.length)
    (h : ∀ i, first[i].value ≤ second[e i].value) :
    (ofDice first keep modifier).total ≤ (ofDice second keep modifier).total ∧
    (ofDice second keep modifier).total - (ofDice first keep modifier).total
      ≤ ∑ i, (second[e i].value - first[i].value) := by
  have hfirst : keptSum keep Die.value first
      = keptSum keep (fun i => first[i].value) (List.finRange first.length) := by
    refine keptSum_of_perm keep (List.Perm.of_eq ?_)
    conv_lhs => rw [← map_getElem_finRange first, List.map_map]
    rfl
  have hsecond : keptSum keep Die.value second
      = keptSum keep (fun i => second[e i].value) (List.finRange first.length) := by
    refine keptSum_of_perm keep ?_
    have hvalues := (map_getElem_matched_perm e).map Die.value
    rw [List.map_map] at hvalues
    exact hvalues.symm
  have hall : ∀ i ∈ List.finRange first.length, first[i].value ≤ second[e i].value := by
    intro i _
    exact h i
  obtain ⟨hle, hdiff⟩ := keptSum_between keep hall
  rw [total_ofDice, total_ofDice, hfirst, hsecond, Fin.sum_univ_def]
  omega

end Outcome

/-- **Totals are monotone in the dice.**  If each die of one pool is matched with a die of another
that counts for at least as much, the total of the second is not below that of the first, and the
difference is at most the sum of the differences between matched dice.  This holds without a keep,
and whatever is kept.  So the order of a pool is of no account for its total, and neither is the
first face of a die that was rolled again. -/
theorem Outcome.total_monotone (keep : Option Keep) (modifier : Int) :
    (∀ (first second : List Die) (e : Fin first.length ≃ Fin second.length),
      (∀ i, first[i].value ≤ second[e i].value) →
      (ofDice first keep modifier).total ≤ (ofDice second keep modifier).total ∧
      (ofDice second keep modifier).total - (ofDice first keep modifier).total
        ≤ ∑ i, (second[e i].value - first[i].value)) ∧
    (∀ first second : List Die, first ~ second →
      (ofDice first keep modifier).total = (ofDice second keep modifier).total) ∧
    ∀ (before after : List Die) (original final : Int),
      (ofDice (before ++ .rerolled original final :: after) keep modifier).total
        = (ofDice (before ++ .kept final :: after) keep modifier).total := by
  refine ⟨?_, ?_, ?_⟩
  · intro first second e h
    exact total_between_of_matching keep modifier e h
  · intro first second h
    exact total_eq_of_values keep modifier (h.map Die.value)
  · intro before after original final
    have hvalues : (before ++ .rerolled original final :: after).map Die.value
        = (before ++ .kept final :: after).map Die.value := by
      rw [List.map_append, List.map_append, List.map_cons, List.map_cons]
      rfl
    exact total_eq_of_values keep modifier (List.Perm.of_eq hvalues)

/-- Two pools that are matched crosswise.  In the order of their dice they could not be matched. -/
theorem Outcome.total_monotone_crossed :
    let first : List Die := [.kept 3, .rerolled 6 1]
    let second : List Die := [.kept 2, .kept 5]
    let e : Fin first.length ≃ Fin second.length := Equiv.swap (0 : Fin 2) 1
    (∀ i, first[i].value ≤ second[e i].value) ∧
    (ofDice first (some ⟨.high, 1⟩) 2).total = 5 ∧ (ofDice second (some ⟨.high, 1⟩) 2).total = 7 ∧
    (ofDice first (some ⟨.high, 1⟩) 2).total ≤ (ofDice second (some ⟨.high, 1⟩) 2).total ∧
    (ofDice second (some ⟨.high, 1⟩) 2).total - (ofDice first (some ⟨.high, 1⟩) 2).total
      ≤ ∑ i, (second[e i].value - first[i].value) := by
  intro first second e
  have h : ∀ i, first[i].value ≤ second[e i].value := by decide
  exact ⟨h, by cbv, by cbv, (total_monotone (some ⟨.high, 1⟩) 2).1 first second e h⟩

end Dice
