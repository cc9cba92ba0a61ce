/-
# What a roll can come to

Each die that counts shows at least one and at most the number of sides, so a total lies between
bounds.  There are no gaps: every integer between the bounds is the total of some throw.

Faces with a given sum are easy to find for the dice that count.  The other dice get the face that is
worst for the keep, so that it takes none of them.  A die shows a given face whatever the threshold
is if the source gives this face twice: if the first one is thrown again, the second one stands.

* `total_throw_between`: the bounds;
* `exists_faces_of_sum`, `exists_values_of_sum`: faces for the dice that count, and for all dice;
* `exists_script_of_values`: a script that has given faces come up;
* `totals_eq_interval`: **the possible totals are an interval of integers**, and the expected total
  is between its ends.
-/
import Dice.Proofs.Expectation.Average
import Dice.Proofs.Pool.Sorted

namespace Dice

open Expectation (countedDice countedDice_le exactMean exactTotal)
open scoped BigOperators

/-! ## 1. Bounds -/

namespace Roll

variable {r : Roll} {source : Source}

theorem length_kept_throw (r : Roll) (source : Source) (calls : Nat) :
    (r.throw source calls).1.kept.length = countedDice r := by
  obtain ⟨drawn, rolled, -, -, hlength, hranked⟩ := scan_throw r source calls
  have hdice : (r.throw source calls).1.dice.length = r.number :=
    hranked.perm.length_eq.trans hlength
  have hkeep : (r.throw source calls).1.keep = r.keep := rfl
  unfold Outcome.kept countedDice
  rw [hkeep]
  cases r.keep with
  | none => exact hdice
  | some k =>
    dsimp only
    rw [Keep.length_select, hdice]

/-- **The bounds of a total.**  Each of the dice that count shows a face. -/
theorem total_throw_between (hsource : source.InRange) (calls : Nat) :
    countedDice r + r.modifier.getD 0 ≤ (r.throw source calls).1.total ∧
    (r.throw source calls).1.total ≤ countedDice r * r.sides + r.modifier.getD 0 := by
  have hface : ∀ d ∈ (r.throw source calls).1.kept, 1 ≤ d.value ∧ d.value ≤ r.sides := by
    intro d hd
    exact integers_of_mem_throw hsource calls (Outcome.mem_of_mem_kept hd) d.value
      d.value_mem_integers
  have hsum := Outcome.sumValues_between hface
  have htotal : (r.throw source calls).1.total
      = Outcome.sumValues (r.throw source calls).1.kept + r.modifier.getD 0 := rfl
  rw [length_kept_throw] at hsum
  rw [htotal]
  omega

end Roll

/-! ## 2. Faces with a given sum -/

/-- **So many faces with a given sum.**  The first one is as low as the others allow. -/
theorem exists_faces_of_sum {sides : Nat} (hpos : 0 < sides) (count : Nat) {t : Int}
    (hlow : count ≤ t) (hhigh : t ≤ count * sides) :
    ∃ faces : List Int, faces.length = count ∧ (∀ f ∈ faces, 1 ≤ f ∧ f ≤ sides) ∧
      faces.sum = t := by
  induction count generalizing t with
  | zero =>
    refine ⟨[], rfl, by simp, ?_⟩
    rw [List.sum_nil]
    omega
  | succ n ih =>
    have hothers : (n : Int) ≤ n * sides := by exact_mod_cast Nat.le_mul_of_pos_right n hpos
    rw [Nat.cast_add, Nat.cast_one, add_mul, one_mul] at hhigh
    -- what is left is no more than the other dice can show, and no less
    obtain ⟨faces, hlength, hfaces, hsum⟩ :=
      ih (t := t - max 1 (t - n * sides)) (by omega) (by omega)
    refine ⟨max 1 (t - n * sides) :: faces, ?_, ?_, ?_⟩
    · rw [List.length_cons, hlength]
    · exact List.forall_mem_cons.mpr ⟨by omega, hfaces⟩
    · rw [List.sum_cons, hsum]
      omega

/-- The face that a keep in this direction takes last. -/
def Direction.worstFace : Direction → (sides : Nat) → Int
  | high, _ => 1
  | low, sides => sides

theorem Direction.prefers_worstFace (d : Direction) {sides : Nat} {face : Int}
    (h : 1 ≤ face ∧ face ≤ sides) : d.Prefers face (d.worstFace sides) := by
  cases d with
  | high => exact h.1
  | low => exact h.2

theorem Direction.worstFace_between (d : Direction) {sides : Nat} (hpos : 0 < sides) :
    1 ≤ d.worstFace sides ∧ d.worstFace sides ≤ sides := by
  cases d with
  | high =>
    rw [worstFace]
    omega
  | low =>
    rw [worstFace]
    omega

namespace Roll

/-- **Faces for all dice of a roll**, with a given sum of those that count. -/
theorem exists_values_of_sum (r : Roll) {t : Int} (hlow : countedDice r ≤ t)
    (hhigh : t ≤ countedDice r * r.sides) :
    ∃ values : List Int, values.length = r.number ∧ (∀ v ∈ values, 1 ≤ v ∧ v ≤ r.sides) ∧
      keptSum r.keep id values = t := by
  obtain ⟨faces, hlength, hfaces, hsum⟩ := exists_faces_of_sum r.sides_pos _ hlow hhigh
  have hle : faces.length ≤ r.number := hlength ▸ countedDice_le r
  unfold countedDice at hlength
  cases hk : r.keep with
  | none =>
    rw [hk] at hlength
    refine ⟨faces, hlength, hfaces, ?_⟩
    rw [keptSum, List.map_id, hsum]
  | some k =>
    rw [hk] at hlength
    let rest := List.replicate (r.number - faces.length) (k.direction.worstFace r.sides)
    have hall : (faces ++ rest).length = r.number := by
      rw [List.length_append, List.length_replicate]
      omega
    refine ⟨faces ++ rest, hall, ?_, ?_⟩
    · intro v hv
      rcases List.mem_append.mp hv with hv | hv
      · exact hfaces v hv
      · rw [List.eq_of_mem_replicate hv]
        exact k.direction.worstFace_between r.sides_pos
    · rw [keptSum_append, List.map_id, hsum]
      · intro a ha b hb
        rw [List.eq_of_mem_replicate hb]
        exact k.direction.prefers_worstFace (hfaces a ha)
      · rw [hall]
        exact hlength

/-! ## 3. Scripts for given faces -/

variable {r : Roll}

/-- Two equal faces make a die that counts for this face, whether it is rolled again or not. -/
theorem value_dieOf_twice (r : Roll) (i : Fin r.sides) : (r.dieOf (i, i)).value = face i := by
  unfold dieOf
  split <;> rfl

theorem face_between {sides : Nat} (i : Fin sides) : 1 ≤ face i ∧ face i ≤ sides := by
  have hlt := i.isLt
  simp only [face]
  omega

theorem value_dieOf_between (p : r.Pair) :
    1 ≤ (r.dieOf p).value ∧ (r.dieOf p).value ≤ r.sides := by
  unfold dieOf
  split
  · exact face_between p.2
  · exact face_between p.1

theorem exists_face_eq {sides : Nat} {v : Int} (h : 1 ≤ v ∧ v ≤ sides) :
    ∃ i : Fin sides, face i = v :=
  ⟨⟨(v - 1).toNat, by omega⟩, by simp only [face]; omega⟩

/-- **A script for given faces.** -/
theorem exists_script_of_values {values : List Int} (hlength : values.length = r.number)
    (hfaces : ∀ v ∈ values, 1 ≤ v ∧ v ≤ r.sides) :
    ∃ σ : r.Script, (r.scriptDice σ).map Die.value = values := by
  have hface : ∀ i : Fin r.number, ∃ p : Fin r.sides, face p = values[i] := by
    intro i
    exact exists_face_eq (hfaces _ (List.getElem_mem _))
  choose p hp using hface
  refine ⟨fun i => (p i, p i), List.ext_getElem (by simp [hlength]) ?_⟩
  intro i _ _
  simp only [List.getElem_map, scriptDice, List.getElem_ofFn, value_dieOf_twice, hp]
  rfl

end Roll

/-! ## 4. The totals of a roll -/

/-- A source that starts over after so many calls. -/
def Source.delayed (source : Source) (calls : Nat) : Source := fun i s => source (i - calls) s

theorem Source.inRange_delayed {source : Source} (h : source.InRange) (calls : Nat) :
    (source.delayed calls).InRange :=
  fun i s hs => h (i - calls) s hs

theorem Source.after_delayed (source : Source) (calls : Nat) :
    (source.delayed calls).after calls = source := by
  funext i s
  rw [after, delayed, Nat.add_sub_cancel_left]

namespace Roll

theorem throw_delayed (r : Roll) (source : Source) (calls : Nat) :
    (r.throw (source.delayed calls) calls).1 = (r.throw source 0).1 := by
  have h := r.throw_after (source.delayed calls) calls 0
  rw [Nat.add_zero, Source.after_delayed] at h
  rw [h]

/-- **Every total between the bounds** comes up. -/
theorem exists_throw_of_total (r : Roll) (calls : Nat) {t : Int}
    (hlow : countedDice r + r.modifier.getD 0 ≤ t)
    (hhigh : t ≤ countedDice r * r.sides + r.modifier.getD 0) :
    ∃ source : Source, source.InRange ∧ (r.throw source calls).1.total = t := by
  obtain ⟨values, hlength, hfaces, hsum⟩ := r.exists_values_of_sum
    (t := t - r.modifier.getD 0) (by omega) (by omega)
  obtain ⟨σ, hσ⟩ := exists_script_of_values hlength hfaces
  refine ⟨(r.scriptSource σ).delayed calls,
    Source.inRange_delayed (inRange_scriptSource r σ) calls, ?_⟩
  have hkept : keptSum r.keep Die.value (r.scriptDice σ) = keptSum r.keep id values :=
    keptSum_of_perm r.keep (by rw [hσ, List.map_id])
  rw [throw_delayed, throw_script, Outcome.total_ofDice, hkept, hsum]
  omega

end Roll

namespace Expectation

/-- The mean of a die is between its faces. -/
theorem exactMean_between (r : Roll) :
    1 ≤ exactMean r.sides r.reroll ∧ exactMean r.sides r.reroll ≤ r.sides := by
  rw [← expect_dieOf]
  constructor
  · calc (1 : ℚ) = 𝔼 _p : r.Pair, 1 := (Fintype.expect_const 1).symm
      _ ≤ 𝔼 p : r.Pair, ((r.dieOf p).value : ℚ) := Finset.expect_le_expect fun p _ => by
        exact_mod_cast (Roll.value_dieOf_between p).1
  · calc 𝔼 p : r.Pair, ((r.dieOf p).value : ℚ)
        ≤ 𝔼 _p : r.Pair, (r.sides : ℚ) := Finset.expect_le_expect fun p _ => by
          exact_mod_cast (Roll.value_dieOf_between p).2
      _ = r.sides := Fintype.expect_const _

theorem exactTotal_between (r : Roll) :
    countedDice r + (r.modifier.getD 0 : ℚ) ≤ exactTotal r ∧
    exactTotal r ≤ countedDice r * r.sides + (r.modifier.getD 0 : ℚ) := by
  obtain ⟨hlow, hhigh⟩ := exactMean_between r
  have hcounted : (0 : ℚ) ≤ countedDice r := Nat.cast_nonneg _
  rw [exactTotal]
  refine ⟨add_le_add_left (le_mul_of_one_le_left hcounted hlow) _, add_le_add_left ?_ _⟩
  rw [mul_comm]
  exact mul_le_mul_of_nonneg_left hhigh hcounted

end Expectation

/-- **The possible totals are exactly an interval.**  With `k` dice that count, a roll can come to
all integers from `k` to `k` times the number of sides, the modifier added to both, and to no
others, whatever the threshold and the keep are and whatever calls have been made before.  The
expected total is between the same ends. -/
theorem Roll.totals_eq_interval (r : Roll) (calls : Nat) :
    (∀ t : Int, (∃ source : Source, source.InRange ∧ (r.throw source calls).1.total = t) ↔
      countedDice r + r.modifier.getD 0 ≤ t ∧ t ≤ countedDice r * r.sides + r.modifier.getD 0) ∧
    countedDice r + (r.modifier.getD 0 : ℚ) ≤ exactTotal r ∧
    exactTotal r ≤ countedDice r * r.sides + (r.modifier.getD 0 : ℚ) := by
  refine ⟨?_, Expectation.exactTotal_between r⟩
  intro t
  constructor
  · rintro ⟨source, hsource, rfl⟩
    exact total_throw_between hsource calls
  · rintro ⟨hlow, hhigh⟩
    exact r.exists_throw_of_total calls hlow hhigh

end Dice
