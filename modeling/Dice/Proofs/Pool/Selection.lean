/-
# A keep selects the best sub-pool

The dice that a keep selects and those that it leaves over make up the pool, and no die left over is
better than a selected one.  From this alone it follows that no other choice of as many dice has a
better sum.

The argument looks at the surplus of a list over a threshold: the sum of what its values exceed the
threshold by, where a value below it counts as nothing.  A sum is at most the threshold for each
element and the surplus, and with a threshold between the selected dice and the others the selected
ones reach this bound, with the surplus of the whole pool.

* `sum_le_of_subperm`: the bound, for any list that is split in a better part and a rest;
* `Keep.select_optimal`: what a keep selects, and that nothing else is better;
* `Keep.prefers_share_select`: a selection has at least its share of what the pool comes to, where
  each die has an equal share;
* `Outcome.sumValues_between`: what dice add up to lies between bounds.
-/
import Dice.Proofs.Pool.Ranking
import Mathlib.Algebra.BigOperators.Group.List.Basic
import Mathlib.Algebra.Order.BigOperators.Group.List
import Mathlib.Algebra.Ring.Int.Defs
import Mathlib.Data.List.Perm.Subperm
import Mathlib.Data.Set.Finite.Lemmas

namespace Dice

/-! ## 1. Surplus over a threshold -/

/-- A part of a list has a lower sum, if nothing is below zero. -/
theorem sum_map_le_of_subperm {α : Type} {weight : α → Int} {l l' : List α}
    (hweight : ∀ a ∈ l', 0 ≤ weight a) (h : l.Subperm l') :
    (l.map weight).sum ≤ (l'.map weight).sum := by
  obtain ⟨m, hperm, hsub⟩ := h
  rw [← (hperm.map weight).sum_eq]
  refine (hsub.map weight).sum_le_sum fun x hx => ?_
  obtain ⟨a, ha, rfl⟩ := List.mem_map.mp hx
  exact hweight a ha

section Surplus

variable {α : Type} (value : α → Int) (c : Int)

/-- What the values of a list exceed a threshold by, in all. -/
def surplus (l : List α) : Int := (l.map fun a => max (value a - c) 0).sum

@[simp] theorem surplus_nil : surplus value c [] = 0 := rfl

@[simp] theorem surplus_cons (a : α) (l : List α) :
    surplus value c (a :: l) = max (value a - c) 0 + surplus value c l := by
  simp [surplus]

theorem surplus_append (l l' : List α) :
    surplus value c (l ++ l') = surplus value c l + surplus value c l' := by
  simp [surplus]

theorem surplus_of_perm {l l' : List α} (h : l.Perm l') : surplus value c l = surplus value c l' :=
  (h.map _).sum_eq

theorem surplus_le_of_subperm {l l' : List α} (h : l.Subperm l') :
    surplus value c l ≤ surplus value c l' :=
  sum_map_le_of_subperm (fun _ _ => le_max_right _ _) h

variable {value c}

theorem surplus_eq_zero {l : List α} (h : ∀ a ∈ l, value a ≤ c) : surplus value c l = 0 := by
  induction l with
  | nil => rfl
  | cons a l ih =>
    have ha : value a ≤ c := h a List.mem_cons_self
    have hl := ih fun b hb => h b (List.mem_cons_of_mem a hb)
    rw [surplus_cons, hl]
    omega

/-- The threshold for each element, and the surplus. -/
theorem sum_threshold_add (l : List α) :
    (l.map fun a => c + max (value a - c) 0).sum = l.length * c + surplus value c l := by
  simp [surplus, List.sum_map_add]

/-- A sum is at most that. -/
theorem sum_le_surplus (l : List α) :
    (l.map value).sum ≤ l.length * c + surplus value c l := by
  rw [← sum_threshold_add]
  refine List.sum_le_sum fun a _ => ?_
  omega

/-- It is no less if no value is below the threshold. -/
theorem sum_eq_surplus {l : List α} (h : ∀ a ∈ l, c ≤ value a) :
    (l.map value).sum = l.length * c + surplus value c l := by
  rw [← sum_threshold_add]
  refine congrArg List.sum (List.map_congr_left fun a ha => ?_)
  have := h a ha
  omega

/-- A threshold between a list that is not empty and one whose values are no higher. -/
theorem exists_threshold {best rest : List α} (hne : best ≠ [])
    (h : ∀ a ∈ best, ∀ b ∈ rest, value b ≤ value a) :
    ∃ c, (∀ a ∈ best, c ≤ value a) ∧ ∀ b ∈ rest, value b ≤ c := by
  obtain ⟨a, ha⟩ := List.exists_mem_of_ne_nil best hne
  obtain ⟨m, hm, hmin⟩ := Set.exists_min_image {a | a ∈ best} value best.finite_toSet ⟨a, ha⟩
  exact ⟨value m, hmin, h m hm⟩

/-- **The better part of a list has more than its share**, where each element has an equal share of
the sum. -/
theorem share_le_of_best (value : α → Int) {best rest : List α}
    (h : ∀ a ∈ best, ∀ b ∈ rest, value b ≤ value a) :
    best.length * ((best ++ rest).map value).sum
      ≤ (best ++ rest).length * (best.map value).sum := by
  by_cases hne : best = []
  · simp [hne]
  · obtain ⟨c, hbestc, hrestc⟩ := exists_threshold hne h
    have hbest : best.length * c ≤ (best.map value).sum := by
      simpa using List.sum_le_sum (l := best) (f := fun _ => c) (g := value) hbestc
    have hrest : (rest.map value).sum ≤ rest.length * c := by
      simpa using List.sum_le_sum (l := rest) (f := value) (g := fun _ => c) hrestc
    have hcross : best.length * (rest.map value).sum ≤ rest.length * (best.map value).sum :=
      calc (best.length : Int) * (rest.map value).sum
          ≤ best.length * (rest.length * c) :=
            Int.mul_le_mul_of_nonneg_left hrest (Int.natCast_nonneg _)
        _ = rest.length * (best.length * c) := mul_left_comm _ _ _
        _ ≤ rest.length * (best.map value).sum :=
            Int.mul_le_mul_of_nonneg_left hbest (Int.natCast_nonneg _)
    rw [List.map_append, List.sum_append, List.length_append, Nat.cast_add, mul_add, add_mul]
    exact Int.add_le_add_left hcross _

/-- **The better part of a list has the highest sum** among all that have as many elements. -/
theorem sum_le_of_subperm (value : α → Int) {best rest sub pool : List α}
    (hpool : (best ++ rest).Perm pool) (hbest : ∀ a ∈ best, ∀ b ∈ rest, value b ≤ value a)
    (hsub : sub.Subperm pool) (hlength : sub.length = best.length) :
    (sub.map value).sum ≤ (best.map value).sum := by
  by_cases hne : best = []
  · rw [hne] at hlength ⊢
    rw [List.length_eq_zero_iff.mp hlength]
  · obtain ⟨c, hbestc, hrestc⟩ := exists_threshold hne hbest
    calc (sub.map value).sum
        ≤ sub.length * c + surplus value c sub := sum_le_surplus sub
      _ ≤ sub.length * c + surplus value c pool := by
          have := surplus_le_of_subperm value c hsub
          omega
      _ = best.length * c + surplus value c best := by
          rw [hlength, ← surplus_of_perm value c hpool, surplus_append, surplus_eq_zero hrestc,
            Int.add_zero]
      _ = (best.map value).sum := (sum_eq_surplus hbestc).symm

end Surplus

/-! ## 2. What a keep selects -/

theorem sumValues_eq_sum (ds : List Die) : Outcome.sumValues ds = (ds.map Die.value).sum := by
  induction ds with
  | nil => rfl
  | cons d ds ih =>
    rw [List.map_cons, List.sum_cons, ← ih]
    rfl

theorem sum_map_neg {α : Type} (value : α → Int) (l : List α) :
    (l.map fun a => -value a).sum = -(l.map value).sum := by
  rw [List.sum_neg, List.map_map, Function.comp_def]

/-- In either direction the better part of a list has a sum that is at least as good as any other. -/
theorem Direction.prefers_sum_of_best {α : Type} (d : Direction) (value : α → Int)
    {best rest sub pool : List α} (hpool : (best ++ rest).Perm pool)
    (hbest : ∀ a ∈ best, ∀ b ∈ rest, d.Prefers (value a) (value b)) (hsub : sub.Subperm pool)
    (hlength : sub.length = best.length) :
    d.Prefers (best.map value).sum (sub.map value).sum := by
  cases d with
  | high => exact sum_le_of_subperm value hpool hbest hsub hlength
  | low =>
    -- the lowest values are those whose negatives are highest
    have hneg := sum_le_of_subperm (fun a => -value a) hpool
      (fun a ha b hb => Int.neg_le_neg (hbest a ha b hb)) hsub hlength
    rw [sum_map_neg, sum_map_neg] at hneg
    exact Int.neg_le_neg_iff.mp hneg

theorem Keep.select_subperm {α : Type} (k : Keep) (value : α → Int) (pool : List α) :
    (k.select value pool).Subperm pool :=
  (List.sublist_append_left _ _).subperm.trans (k.select_append_leftOver_perm value pool).subperm

/-- What a keep selects has a sum that is at least as good as any other. -/
theorem Keep.prefers_sum_select {α : Type} (k : Keep) (value : α → Int) {pool sub : List α}
    (hsub : sub.Subperm pool) (hlength : sub.length = (k.select value pool).length) :
    k.direction.Prefers ((k.select value pool).map value).sum (sub.map value).sum :=
  k.direction.prefers_sum_of_best value (k.select_append_leftOver_perm value pool)
    (k.pairwise_select_and_leftOver value pool).2 hsub hlength

/-- In either direction the selected values have at least their share of the sum of the pool. -/
theorem Keep.prefers_share_select {α : Type} (k : Keep) (value : α → Int) (pool : List α) :
    k.direction.Prefers (pool.length * ((k.select value pool).map value).sum)
      ((k.select value pool).length * (pool.map value).sum) := by
  have hpool := k.select_append_leftOver_perm value pool
  have hbest := (k.pairwise_select_and_leftOver value pool).2
  rw [← hpool.length_eq, ← (hpool.map value).sum_eq]
  cases hd : k.direction with
  | high =>
    rw [hd] at hbest
    exact share_le_of_best value hbest
  | low =>
    rw [hd] at hbest
    have hneg := share_le_of_best (fun a => -value a)
      fun a ha b hb => Int.neg_le_neg (hbest a ha b hb)
    rw [sum_map_neg, sum_map_neg, mul_neg, mul_neg] at hneg
    exact Int.neg_le_neg_iff.mp hneg

/-- **A keep selects the best sub-pool.**  The selected dice and some rest make up the pool; there
are as many of them as the keep asks for and the pool holds; they come from the best down; no die of
the rest is better than a selected one; and no other choice of as many dice from the pool has a
better sum.  For a keep of high dice better means higher, for one of low dice lower. -/
theorem Keep.select_optimal (k : Keep) (pool : List Die) :
    (k.select Die.value pool).length = min k.count pool.length ∧
    (k.select Die.value pool).Pairwise (fun a b => k.direction.Prefers a.value b.value) ∧
    (∃ rest, (k.select Die.value pool ++ rest).Perm pool ∧
      ∀ a ∈ k.select Die.value pool, ∀ b ∈ rest, k.direction.Prefers a.value b.value) ∧
    ∀ sub : List Die, sub.Subperm pool → sub.length = min k.count pool.length →
      k.direction.Prefers (Outcome.sumValues (k.select Die.value pool))
        (Outcome.sumValues sub) := by
  obtain ⟨hordered, hrest⟩ := k.pairwise_select_and_leftOver Die.value pool
  refine ⟨k.length_select Die.value pool, hordered,
    ⟨k.leftOver Die.value pool, k.select_append_leftOver_perm Die.value pool, hrest⟩, ?_⟩
  intro sub hsub hlength
  rw [sumValues_eq_sum, sumValues_eq_sum]
  refine k.prefers_sum_select Die.value hsub ?_
  rw [hlength, k.length_select]

/-- A die that was rolled again is selected for its second face. -/
example : (⟨.high, 2⟩ : Keep).select Die.value [.kept 4, .rerolled 6 2, .rerolled 1 5, .kept 5]
    = [.rerolled 1 5, .kept 5] := by cbv

/-! ## 3. The dice that count -/

namespace Outcome

/-- The sum of values that lie between bounds. -/
theorem sumValues_between {lo hi : Int} {ds : List Die}
    (h : ∀ d ∈ ds, lo ≤ d.value ∧ d.value ≤ hi) :
    ds.length * lo ≤ sumValues ds ∧ sumValues ds ≤ ds.length * hi := by
  induction ds with
  | nil => simp [sumValues]
  | cons d ds ih =>
    obtain ⟨hlo, hhi⟩ := h d List.mem_cons_self
    obtain ⟨ihlo, ihhi⟩ := ih fun d' hd' => h d' (List.mem_cons_of_mem d hd')
    have hsum : sumValues (d :: ds) = d.value + sumValues ds := rfl
    rw [hsum, List.length_cons, Nat.cast_add, Nat.cast_one, add_mul, add_mul]
    omega

/-- Dice that count are dice of the outcome. -/
theorem mem_of_mem_kept {o : Outcome} {d : Die} (h : d ∈ o.kept) : d ∈ o.dice := by
  unfold kept at h
  cases hk : o.keep with
  | none =>
    rw [hk] at h
    exact h
  | some k =>
    rw [hk] at h
    exact (k.select_append_leftOver_perm Die.value o.dice).mem_iff.mp
      (List.mem_append_left _ h)

end Outcome
end Dice
