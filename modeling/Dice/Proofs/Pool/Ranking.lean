/-
# Pools in order of value

Dice are put in order by what they count for, and dice that count the same keep the order in which
they came.  `RankedBy` says this of a list and a pool: the list goes by value, and for each value it
has the very dice of that value that the pool has, in their order.

* `RankedBy.perm`: a ranking loses nothing and invents nothing;
* `RankedBy.unique`, `RankedBy.rerank`: there is one ranking only, and ranking a ranked list anew is
  ranking the pool;
* `rankedBy_mergeSort`: sorting by value ranks, whatever total order of values is meant;
* `rankedBy_dice`, `Keep.rankedBy_ranking`: the dice of an outcome are ranked upwards, and a keep
  ranks its pool from the best down.
-/
import Dice.Outcome
import Mathlib.Data.List.Count

namespace Dice

/-! ## 1. Rankings -/

section RankedBy

variable {α : Type} {before : Int → Int → Prop} {value : α → Int} {pool ranked : List α}

/-- **A list ranks a pool by value.**  Of two elements the one whose value may stand before the
other's does so, and the elements of one value are those of the pool, in the order of the pool. -/
structure RankedBy (before : Int → Int → Prop) (value : α → Int) (pool ranked : List α) : Prop where
  ordered : ranked.Pairwise fun a b => before (value a) (value b)
  stable : ∀ v, ranked.filter (fun a => value a = v) = pool.filter (fun a => value a = v)

theorem RankedBy.perm (h : RankedBy before value pool ranked) : ranked.Perm pool := by
  classical
  refine List.perm_iff_count.mpr fun a => ?_
  -- an element is counted among those of its own value
  have hcount := congrArg (List.count a) (h.stable (value a))
  rwa [List.count_filter (by simp), List.count_filter (by simp)] at hcount

/-- A list that is ranked anew, in whatever order, is ranked like the pool. -/
theorem RankedBy.rerank {after : Int → Int → Prop} {ranked' : List α}
    (h : RankedBy before value pool ranked) (h' : RankedBy after value ranked ranked') :
    RankedBy after value pool ranked' :=
  ⟨h'.ordered, fun v => (h'.stable v).trans (h.stable v)⟩

/-- Of two lists with the same classes that are in order, the heads have the same value. -/
theorem RankedBy.value_head_eq {a b : α}
    (antisymm : ∀ v w, before v w → before w v → v = w)
    (h : RankedBy before value (b :: pool) (a :: ranked))
    (hpool : (b :: pool).Pairwise fun a b => before (value a) (value b)) : value a = value b := by
  have ha : a ∈ b :: pool := h.perm.mem_iff.mp List.mem_cons_self
  have hb : b ∈ a :: ranked := h.perm.mem_iff.mpr List.mem_cons_self
  rcases List.mem_cons.mp ha with rfl | ha
  · rfl
  rcases List.mem_cons.mp hb with rfl | hb
  · rfl
  exact antisymm _ _ ((List.pairwise_cons.mp h.ordered).1 b hb)
    ((List.pairwise_cons.mp hpool).1 a ha)

/-- **A pool that is in order is its own ranking**, and has no other one. -/
theorem RankedBy.eq_of_ordered (antisymm : ∀ v w, before v w → before w v → v = w)
    (h : RankedBy before value pool ranked)
    (hpool : pool.Pairwise fun a b => before (value a) (value b)) : ranked = pool := by
  induction pool generalizing ranked with
  | nil => exact h.perm.eq_nil
  | cons b pool ih =>
    cases ranked with
    | nil => exact h.perm.nil_eq
    | cons a ranked =>
      have hvalue : value a = value b := h.value_head_eq antisymm hpool
      -- the heads are the first of one class, and without them the classes are still the same
      have hhead := h.stable (value b)
      rw [List.filter_cons_of_pos (by simp [hvalue]), List.filter_cons_of_pos (by simp)] at hhead
      obtain rfl : a = b := (List.cons.inj hhead).1
      have htail : RankedBy before value pool ranked := by
        refine ⟨(List.pairwise_cons.mp h.ordered).2, ?_⟩
        intro v
        have hclass := h.stable v
        by_cases hv : value a = v
        · rw [List.filter_cons_of_pos (by simp [hv]),
            List.filter_cons_of_pos (by simp [hv])] at hclass
          exact (List.cons.inj hclass).2
        · rw [List.filter_cons_of_neg (by simp [hv]),
            List.filter_cons_of_neg (by simp [hv])] at hclass
          exact hclass
      rw [ih htail (List.pairwise_cons.mp hpool).2]

/-- **There is one ranking.** -/
theorem RankedBy.unique (antisymm : ∀ v w, before v w → before w v → v = w) {ranked' : List α}
    (h : RankedBy before value pool ranked) (h' : RankedBy before value pool ranked') :
    ranked' = ranked := by
  have hranked : RankedBy before value ranked ranked' := by
    refine ⟨h'.ordered, ?_⟩
    intro v
    rw [h'.stable, h.stable]
  exact hranked.eq_of_ordered antisymm h.ordered

/-- **Sorting by value ranks.** -/
theorem rankedBy_mergeSort (le : Int → Int → Bool)
    (trans : ∀ a b c, le a b = true → le b c = true → le a c = true)
    (total : ∀ a b, (le a b || le b a) = true) (value : α → Int) (pool : List α) :
    RankedBy (fun a b => le a b = true) value pool
      (pool.mergeSort fun a b => le (value a) (value b)) := by
  have htrans : ∀ a b c : α, le (value a) (value b) = true → le (value b) (value c) = true →
      le (value a) (value c) = true := fun a b c => trans (value a) (value b) (value c)
  have htotal : ∀ a b : α, (le (value a) (value b) || le (value b) (value a)) = true :=
    fun a b => total (value a) (value b)
  refine ⟨List.pairwise_mergeSort htrans htotal pool, fun v => ?_⟩
  have hrefl : le v v = true := by simpa using total v v
  -- the elements of one value are in order as they come, and so the sorted list keeps them so
  have hclass : (pool.filter fun a => value a = v).Pairwise
      fun a b => le (value a) (value b) = true := by
    refine List.pairwise_of_forall_mem_list fun a ha b hb => ?_
    have hav : value a = v := by simpa using (List.mem_filter.mp ha).2
    have hbv : value b = v := by simpa using (List.mem_filter.mp hb).2
    rw [hav, hbv]
    exact hrefl
  have hsub := (List.sublist_mergeSort htrans htotal hclass List.filter_sublist).filter
    (fun a => value a = v)
  rw [List.filter_filter] at hsub
  simp only [Bool.and_self] at hsub
  refine (hsub.eq_of_length ?_).symm
  exact ((List.mergeSort_perm pool _).filter _).length_eq.symm

end RankedBy

/-! ## 2. The dice of an outcome -/

theorem rankedBy_dice (pool : List Die) (keep : Option Keep) (modifier : Int) :
    RankedBy (fun a b => a ≤ b) Die.value pool (Outcome.ofDice pool keep modifier).dice := by
  have h := rankedBy_mergeSort (fun a b => decide (a ≤ b))
    (by simp only [decide_eq_true_eq]; omega)
    (by simp only [Bool.or_eq_true, decide_eq_true_eq]; omega) Die.value pool
  simp only [decide_eq_true_eq] at h
  exact h

/-! ## 3. The ranking of a keep -/

/-- One value is at least as good as another, in this direction. -/
def Direction.Prefers : Direction → Int → Int → Prop
  | high, a, b => b ≤ a
  | low, a, b => a ≤ b

theorem Direction.noWorse_iff (d : Direction) (a b : Int) :
    d.noWorse a b = true ↔ d.Prefers a b := by
  cases d <;> simp [noWorse, Prefers]

theorem Direction.Prefers.trans {d : Direction} {a b c : Int} (hab : d.Prefers a b)
    (hbc : d.Prefers b c) : d.Prefers a c := by
  cases d with
  | high => exact Int.le_trans hbc hab
  | low => exact Int.le_trans hab hbc

theorem Direction.Prefers.antisymm {d : Direction} {a b : Int} (hab : d.Prefers a b)
    (hba : d.Prefers b a) : a = b := by
  cases d with
  | high => exact Int.le_antisymm hba hab
  | low => exact Int.le_antisymm hab hba

theorem Direction.prefers_total (d : Direction) (a b : Int) : d.Prefers a b ∨ d.Prefers b a := by
  cases d with
  | high => exact Int.le_total b a
  | low => exact Int.le_total a b

namespace Keep

variable {α : Type} (k : Keep) (value : α → Int) (pool : List α)

/-- The pool from the best down. -/
def ranking : List α := pool.mergeSort fun a b => k.direction.noWorse (value a) (value b)

/-- The elements that are not selected. -/
def leftOver : List α := (k.ranking value pool).drop k.count

theorem rankedBy_ranking : RankedBy k.direction.Prefers value pool (k.ranking value pool) := by
  have h := rankedBy_mergeSort k.direction.noWorse ?_ ?_ value pool
  · simp only [Direction.noWorse_iff] at h
    exact h
  · intro a b c hab hbc
    rw [Direction.noWorse_iff] at hab hbc ⊢
    exact hab.trans hbc
  · intro a b
    rw [Bool.or_eq_true, Direction.noWorse_iff, Direction.noWorse_iff]
    exact k.direction.prefers_total a b

theorem select_append_leftOver :
    k.select value pool ++ k.leftOver value pool = k.ranking value pool :=
  List.take_append_drop k.count (k.ranking value pool)

theorem select_append_leftOver_perm :
    (k.select value pool ++ k.leftOver value pool).Perm pool := by
  rw [select_append_leftOver]
  exact (k.rankedBy_ranking value pool).perm

/-- What is selected comes from the best down, and nothing that is left over is better. -/
theorem pairwise_select_and_leftOver :
    (k.select value pool).Pairwise (fun a b => k.direction.Prefers (value a) (value b)) ∧
    ∀ a ∈ k.select value pool, ∀ b ∈ k.leftOver value pool,
      k.direction.Prefers (value a) (value b) := by
  have hordered := (k.rankedBy_ranking value pool).ordered
  rw [← select_append_leftOver, List.pairwise_append] at hordered
  exact ⟨hordered.1, hordered.2.2⟩

end Keep

end Dice
