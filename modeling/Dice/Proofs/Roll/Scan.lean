/-
# How a roll reads its answers

A roll makes calls for one size of die, and goes through the answers from left to right.  How many
answers a die takes depends on the first of them, so where a die starts depends on all dice before
it.  `Scan` says which dice a list of answers makes; it takes no account of calls or of counting.

* `scan_throwDie`, `scan_throwDice`: one die, and many, are what scanning the answers makes of them;
* `Scan.length_answers`, `Scan.of_mem_kept`, `Scan.of_mem_rerolled`: what follows for the number of
  answers and for each die;
* `throw_congr`, `throw_after`: no other answers matter, nor how many calls were made before;
* `integers_of_mem_throw`: what the dice of an outcome show are faces;
* `throw_scans`: all of this for the outcome of a roll, whose dice are in order.
-/
import Dice.Roll.Throw
import Dice.Proofs.Pool.Ranking

namespace Dice

/-- A die that was rolled again. -/
def Die.isRerolled : Die → Bool
  | .kept _ => false
  | .rerolled _ _ => true

theorem Die.value_mem_integers (d : Die) : d.value ∈ d.integers := by
  cases d with
  | kept face => exact List.mem_singleton_self face
  | rerolled first second => exact List.mem_cons_of_mem first (List.mem_singleton_self second)

namespace Source

/-- The answers to so many calls for one size of die. -/
def answers (source : Source) (sides calls count : Nat) : List Int :=
  (List.range' calls count).map fun i => source i sides

@[simp] theorem length_answers (source : Source) (sides calls count : Nat) :
    (source.answers sides calls count).length = count := by
  simp [answers]

theorem answers_succ (source : Source) (sides calls count : Nat) :
    source.answers sides calls (count + 1)
      = source calls sides :: source.answers sides (calls + 1) count := by
  simp [answers, List.range'_succ]

theorem inRange_of_mem_answers {source : Source} (hsource : source.InRange) {sides : Nat}
    (hsides : 0 < sides) {calls count : Nat} {face : Int}
    (h : face ∈ source.answers sides calls count) : 1 ≤ face ∧ face ≤ sides := by
  obtain ⟨i, -, rfl⟩ := List.mem_map.mp h
  exact hsource i sides hsides

/-- A source that gives one face to one call, and another face to all others. -/
def twoFaces (sides calls : Nat) (first second : Int) : Source := fun i s =>
  if s = sides then if i = calls then first else second else 1

theorem inRange_twoFaces {sides calls : Nat} {first second : Int}
    (hfirst : 1 ≤ first ∧ first ≤ sides) (hsecond : 1 ≤ second ∧ second ≤ sides) :
    (twoFaces sides calls first second).InRange := by
  intro i s hs
  unfold twoFaces
  split
  · rename_i heq
    subst heq
    split
    · exact hfirst
    · exact hsecond
  · omega

/-- A source after so many calls. -/
def after (source : Source) (calls : Nat) : Source := fun i s => source (calls + i) s

theorem inRange_after {source : Source} (h : source.InRange) (calls : Nat) :
    (source.after calls).InRange :=
  fun i s hs => h (calls + i) s hs

end Source

namespace Roll

/-! ## 1. Scanning -/

/-- **What answers make.**  A die takes one answer; exactly if there is a threshold and the answer
is at or below it, it takes the very next answer too, whatever that is. -/
inductive Scan (reroll : Option Int) : List Int → List Die → Prop
  | done : Scan reroll [] []
  | kept {face : Int} {answers : List Int} {dice : List Die} :
      (∀ t, reroll = some t → t < face) → Scan reroll answers dice →
      Scan reroll (face :: answers) (.kept face :: dice)
  | rerolled {t first second : Int} {answers : List Int} {dice : List Die} :
      reroll = some t → first ≤ t → Scan reroll answers dice →
      Scan reroll (first :: second :: answers) (.rerolled first second :: dice)

namespace Scan

variable {reroll : Option Int} {answers : List Int} {dice : List Die}

/-- Each die takes an answer, and each one that was rolled again takes another. -/
theorem length_answers (h : Scan reroll answers dice) :
    answers.length = dice.length + dice.countP Die.isRerolled := by
  induction h with
  | done => rfl
  | kept hface hrest ih =>
    rw [List.length_cons, List.length_cons, ih, List.countP_cons_of_neg (by simp [Die.isRerolled])]
    omega
  | rerolled ht hfirst hrest ih =>
    rw [List.length_cons, List.length_cons, List.length_cons, ih,
      List.countP_cons_of_pos (by simp [Die.isRerolled])]
    omega

/-- A face that was kept is an answer above the threshold. -/
theorem of_mem_kept (h : Scan reroll answers dice) {face : Int} (hmem : .kept face ∈ dice) :
    face ∈ answers ∧ ∀ t, reroll = some t → t < face := by
  induction h with
  | done => cases hmem
  | kept hface hrest ih =>
    rcases List.mem_cons.mp hmem with heq | hmem
    · cases heq
      exact ⟨List.mem_cons_self, hface⟩
    · exact (ih hmem).imp_left (List.mem_cons_of_mem _)
  | rerolled ht hfirst hrest ih =>
    rcases List.mem_cons.mp hmem with heq | hmem
    · cases heq
    · exact (ih hmem).imp_left fun h => List.mem_cons_of_mem _ (List.mem_cons_of_mem _ h)

/-- A die that was rolled again has two answers, and the first is at or below the threshold. -/
theorem of_mem_rerolled (h : Scan reroll answers dice) {first second : Int}
    (hmem : .rerolled first second ∈ dice) :
    first ∈ answers ∧ second ∈ answers ∧ ∃ t, reroll = some t ∧ first ≤ t := by
  induction h with
  | done => cases hmem
  | kept hface hrest ih =>
    rcases List.mem_cons.mp hmem with heq | hmem
    · cases heq
    · obtain ⟨hfirst, hsecond, ht⟩ := ih hmem
      exact ⟨List.mem_cons_of_mem _ hfirst, List.mem_cons_of_mem _ hsecond, ht⟩
  | rerolled ht hfirst hrest ih =>
    rcases List.mem_cons.mp hmem with heq | hmem
    · cases heq
      exact ⟨List.mem_cons_self, List.mem_cons_of_mem _ List.mem_cons_self, _, ht, hfirst⟩
    · obtain ⟨hfirst', hsecond', ht'⟩ := ih hmem
      exact ⟨List.mem_cons_of_mem _ (List.mem_cons_of_mem _ hfirst'),
        List.mem_cons_of_mem _ (List.mem_cons_of_mem _ hsecond'), ht'⟩

end Scan

/-! ## 2. Throwing -/

section Throw

variable (r : Roll) (source : Source)

theorem isRerolled_iff {r : Roll} {face : Int} :
    r.isRerolled face = true ↔ ∃ t, r.reroll = some t ∧ face ≤ t := by
  unfold isRerolled
  cases r.reroll <;> simp

theorem isRerolled_eq_false_iff {r : Roll} {face : Int} :
    r.isRerolled face = false ↔ ∀ t, r.reroll = some t → t < face := by
  unfold isRerolled
  cases r.reroll <;> simp

/-- **One die**, and whatever dice the answers after its own make. -/
theorem scan_throwDie (i : Nat) :
    ∃ drawn, (r.throwDie source i).2 = i + drawn ∧
      ∀ {count : Nat} {dice : List Die},
        Scan r.reroll (source.answers r.sides (i + drawn) count) dice →
        Scan r.reroll (source.answers r.sides i (drawn + count))
          ((r.throwDie source i).1 :: dice) := by
  cases h : r.isRerolled (source i r.sides) with
  | false =>
    rw [throwDie_kept h]
    refine ⟨1, rfl, fun {count} {dice} hrest => ?_⟩
    rw [Nat.add_comm 1 count, Source.answers_succ]
    exact Scan.kept (isRerolled_eq_false_iff.mp h) hrest
  | true =>
    obtain ⟨t, ht, hle⟩ := isRerolled_iff.mp h
    rw [throwDie_rerolled h]
    refine ⟨2, rfl, fun {count} {dice} hrest => ?_⟩
    rw [Nat.add_comm 2 count, Source.answers_succ, Source.answers_succ]
    exact Scan.rerolled ht hle hrest

/-- **Many dice.** -/
theorem scan_throwDice :
    ∀ n i, ∃ drawn, (r.throwDice source n i).2 = i + drawn ∧
      Scan r.reroll (source.answers r.sides i drawn) (r.throwDice source n i).1
  | 0, i => ⟨0, rfl, Scan.done⟩
  | n + 1, i => by
    obtain ⟨first, hfirst, hscan⟩ := scan_throwDie r source i
    obtain ⟨others, hothers, hrest⟩ := scan_throwDice n (i + first)
    refine ⟨first + others, ?_, ?_⟩
    · simp only [throwDice, hfirst, hothers, Nat.add_assoc]
    · simp only [throwDice, hfirst]
      exact hscan hrest

end Throw

/-! ## 3. Which answers matter -/

section Congr

variable {r : Roll} {source source' : Source}

theorem throwDie_congr {i : Nat}
    (h : ∀ j, i ≤ j → j < (r.throwDie source i).2 → source' j r.sides = source j r.sides) :
    r.throwDie source' i = r.throwDie source i := by
  cases hfirst : r.isRerolled (source i r.sides) with
  | false =>
    rw [throwDie_kept hfirst] at h ⊢
    have hi : source' i r.sides = source i r.sides := h i (Nat.le_refl i) (Nat.lt_succ_self i)
    rw [throwDie_kept (by rw [hi, hfirst]), hi]
  | true =>
    rw [throwDie_rerolled hfirst] at h ⊢
    have hi : source' i r.sides = source i r.sides := h i (Nat.le_refl i) (by omega)
    have hnext : source' (i + 1) r.sides = source (i + 1) r.sides :=
      h (i + 1) (Nat.le_succ i) (Nat.lt_succ_self (i + 1))
    rw [throwDie_rerolled (by rw [hi, hfirst]), hi, hnext]

theorem throwDice_congr :
    ∀ n i, (∀ j, i ≤ j → j < (r.throwDice source n i).2 → source' j r.sides = source j r.sides) →
      r.throwDice source' n i = r.throwDice source n i
  | 0, _, _ => rfl
  | n + 1, i, h => by
    obtain ⟨first, hfirst, -⟩ := scan_throwDie r source i
    obtain ⟨others, hothers, -⟩ := scan_throwDice r source n (r.throwDie source i).2
    have hend : (r.throwDice source (n + 1) i).2
        = (r.throwDice source n (r.throwDie source i).2).2 := rfl
    rw [hend] at h
    have hdie : r.throwDie source' i = r.throwDie source i :=
      throwDie_congr fun j hj hlt => h j hj (by omega)
    have hdice := throwDice_congr n (r.throwDie source i).2
      fun j hj hlt => h j (by omega) hlt
    simp only [throwDice, hdie, hdice]

/-- **No answer counts but those to the calls that are made**, and they are calls for one size of
die. -/
theorem throw_congr {calls : Nat}
    (h : ∀ j, calls ≤ j → j < (r.throw source calls).2 → source' j r.sides = source j r.sides) :
    r.throw source' calls = r.throw source calls := by
  have hdice : r.throwDice source' r.number calls = r.throwDice source r.number calls :=
    throwDice_congr r.number calls h
  unfold throw
  rw [hdice]

end Congr

/-! ## 4. A source continued -/

section After

variable (r : Roll) (source : Source) (calls : Nat)

theorem throwDie_after (i : Nat) :
    r.throwDie source (calls + i)
      = ((r.throwDie (source.after calls) i).1, calls + (r.throwDie (source.after calls) i).2) := by
  have hface : source (calls + i) r.sides = source.after calls i r.sides := rfl
  cases h : r.isRerolled (source (calls + i) r.sides) with
  | false =>
    rw [throwDie_kept h, throwDie_kept (hface ▸ h), hface]
    rfl
  | true =>
    rw [throwDie_rerolled h, throwDie_rerolled (hface ▸ h), hface]
    rfl

theorem throwDice_after (n : Nat) (i : Nat) :
    r.throwDice source n (calls + i)
      = ((r.throwDice (source.after calls) n i).1,
          calls + (r.throwDice (source.after calls) n i).2) := by
  induction n generalizing i with
  | zero => rfl
  | succ n ih => simp only [throwDice, throwDie_after, ih]

theorem throw_after (i : Nat) :
    r.throw source (calls + i)
      = ((r.throw (source.after calls) i).1, calls + (r.throw (source.after calls) i).2) := by
  simp only [throw, throwDice_after]

end After

/-! ## 5. The outcome of a roll -/

theorem scan_throw (r : Roll) (source : Source) (calls : Nat) :
    ∃ drawn rolled, (r.throw source calls).2 = calls + drawn ∧
      Scan r.reroll (source.answers r.sides calls drawn) rolled ∧ rolled.length = r.number ∧
      RankedBy (fun a b => a ≤ b) Die.value rolled (r.throw source calls).1.dice := by
  obtain ⟨drawn, hdrawn, hscan⟩ := scan_throwDice r source r.number calls
  exact ⟨drawn, (r.throwDice source r.number calls).1, hdrawn, hscan,
    r.length_throwDice source r.number calls, rankedBy_dice _ _ _⟩

/-- The integers that a thrown die shows are faces. -/
theorem integers_of_mem_throw {r : Roll} {source : Source} (hsource : source.InRange)
    (calls : Nat) {d : Die} (hd : d ∈ (r.throw source calls).1.dice) :
    ∀ n ∈ d.integers, 1 ≤ n ∧ n ≤ r.sides := by
  obtain ⟨drawn, rolled, -, hscan, -, hranked⟩ := scan_throw r source calls
  have hface : ∀ n ∈ source.answers r.sides calls drawn, 1 ≤ n ∧ n ≤ r.sides :=
    fun n => Source.inRange_of_mem_answers hsource r.sides_pos
  have hmem := hranked.perm.mem_iff.mp hd
  intro n hn
  cases d with
  | kept face =>
    rw [List.mem_singleton.mp hn]
    exact hface face (hscan.of_mem_kept hmem).1
  | rerolled first second =>
    obtain ⟨hfirst, hsecond, -⟩ := hscan.of_mem_rerolled hmem
    rcases List.mem_cons.mp hn with rfl | hn
    · exact hface _ hfirst
    · rw [List.mem_singleton.mp hn]
      exact hface second hsecond

/-- The face that replaces another is not looked at: any face can be one. -/
theorem exists_mem_throw_rerolled {r : Roll} {t first second : Int} (ht : r.reroll = some t)
    (hlow : first ≤ t) (hfirst : 1 ≤ first ∧ first ≤ r.sides)
    (hsecond : 1 ≤ second ∧ second ≤ r.sides) (hnumber : 0 < r.number) (calls : Nat) :
    ∃ source : Source, source.InRange ∧
      .rerolled first second ∈ (r.throw source calls).1.dice := by
  refine ⟨Source.twoFaces r.sides calls first second, Source.inRange_twoFaces hfirst hsecond, ?_⟩
  obtain ⟨n, hn⟩ := Nat.exists_eq_add_one.mpr hnumber
  have hface : Source.twoFaces r.sides calls first second calls r.sides = first := by
    simp [Source.twoFaces]
  have hnext : Source.twoFaces r.sides calls first second (calls + 1) r.sides = second := by
    simp [Source.twoFaces]
  have hdie := throwDie_rerolled (r := r) (i := calls)
    (isRerolled_iff.mpr ⟨t, ht, hface.symm ▸ hlow⟩)
  rw [hface, hnext] at hdie
  refine ((Outcome.perm_dice _ _ _).mem_iff).mpr ?_
  rw [hn]
  simp only [throwDice, hdie]
  exact List.mem_cons_self

/-- **How a roll is thrown.**  The source answers with faces.

The answers to the calls that are made, scanned from left to right, make the rolled dice, as many as
the roll asks for; and the dice of the outcome are these dice by value, dice of one value in the
order in which they were rolled.  No other answers matter, and none for another size of die.

So there are as many dice as the roll asks for, and as many calls as dice and dice that were rolled
again.  A face that was kept is one of the die, above the threshold.  A face that was rolled again
is one of the die, at or below the threshold; the face in its place is one of the die, and there is
none that it could not be. -/
theorem throw_scans (r : Roll) {source : Source} (hsource : source.InRange) (calls : Nat) :
    (∃ drawn rolled, (r.throw source calls).2 = calls + drawn ∧
      Scan r.reroll (source.answers r.sides calls drawn) rolled ∧ rolled.length = r.number ∧
      RankedBy (fun a b => a ≤ b) Die.value rolled (r.throw source calls).1.dice) ∧
    (∀ source' : Source,
      (∀ i, calls ≤ i → i < (r.throw source calls).2 → source' i r.sides = source i r.sides) →
      r.throw source' calls = r.throw source calls) ∧
    (r.throw source calls).1.dice.length = r.number ∧
    (r.throw source calls).2
      = calls + (r.number + (r.throw source calls).1.dice.countP Die.isRerolled) ∧
    (∀ face : Int, .kept face ∈ (r.throw source calls).1.dice →
      (1 ≤ face ∧ face ≤ r.sides) ∧ ∀ t, r.reroll = some t → t < face) ∧
    (∀ first second : Int, .rerolled first second ∈ (r.throw source calls).1.dice →
      (1 ≤ first ∧ first ≤ r.sides) ∧ (∃ t, r.reroll = some t ∧ first ≤ t) ∧
        1 ≤ second ∧ second ≤ r.sides) ∧
    ∀ t first second : Int, r.reroll = some t → first ≤ t → (1 ≤ first ∧ first ≤ r.sides) →
      (1 ≤ second ∧ second ≤ r.sides) → 0 < r.number →
      ∃ source' : Source, source'.InRange ∧
        .rerolled first second ∈ (r.throw source' calls).1.dice := by
  obtain ⟨drawn, rolled, hdrawn, hscan, hlength, hranked⟩ := scan_throw r source calls
  have hperm := hranked.perm
  have hface : ∀ face ∈ source.answers r.sides calls drawn, 1 ≤ face ∧ face ≤ r.sides :=
    fun face => Source.inRange_of_mem_answers hsource r.sides_pos
  refine ⟨⟨drawn, rolled, hdrawn, hscan, hlength, hranked⟩, fun source' h => throw_congr h,
    hperm.length_eq.trans hlength, ?_, fun face hmem => ?_, fun first second hmem => ?_, ?_⟩
  · have hcount := hscan.length_answers
    rw [Source.length_answers, hlength, ← hperm.countP_eq] at hcount
    rw [hdrawn, hcount]
  · obtain ⟨hanswer, habove⟩ := hscan.of_mem_kept (hperm.mem_iff.mp hmem)
    exact ⟨hface face hanswer, habove⟩
  · obtain ⟨hfirst, hsecond, hlow⟩ := hscan.of_mem_rerolled (hperm.mem_iff.mp hmem)
    exact ⟨hface first hfirst, hlow, hface second hsecond⟩
  · intro t first second ht hlow hfirst hsecond hnumber
    exact exists_mem_throw_rerolled ht hlow hfirst hsecond hnumber calls

/-- The first of three dice is rolled again and shows a face that would be, too. -/
theorem throw_scans_oneAgain :
    (Source.ofScript #[1, 0, 5, 3]).InRange ∧
    ∃ rolled, Scan (some 2) [2, 1, 6, 4] rolled ∧ rolled.length = 3 ∧
      RankedBy (fun a b => a ≤ b) Die.value rolled
        ((⟨6, 3, some 2, none, none, by decide⟩ : Roll).throw
          (.ofScript #[1, 0, 5, 3]) 0).1.dice := by
  have hsource := Source.inRange_ofScript #[1, 0, 5, 3]
  obtain ⟨⟨drawn, rolled, hdrawn, hscan, hlength, hranked⟩, -⟩ :=
    throw_scans ⟨6, 3, some 2, none, none, by decide⟩ hsource 0
  have hfour : drawn = 4 := by
    rw [Nat.zero_add] at hdrawn
    exact hdrawn.symm
  subst hfour
  exact ⟨hsource, rolled, hscan, hlength, hranked⟩

end Roll
end Dice
