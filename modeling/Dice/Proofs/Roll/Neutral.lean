/-
# Parts of a roll that make no difference

A threshold below the first face has no die thrown again, and one from the last face on has all of
them thrown again.  A modifier of zero adds nothing, and a keep of all dice leaves none out.  Rolls
that differ in such parts only are different rolls, and so are their notations (`Replaced.text_ne`).
Nothing else tells them apart.

* `Replaced`: one such part in the place of another;
* `plain`: the roll with the simplest part in each place.  A replacement does not change it
  (`Replaced.plain_eq`);
* `throwDice_plain`, `total_throw_plain`, `ofRoll_plain`: throwing a roll, and expecting something
  of it, looks at no more than the plain roll;
* `replaced_neutral`: so **any number of replacements leaves everything as it was**, the notation
  apart.
-/
import Mathlib.Logic.Relation
import Dice.Proofs.Expectation.Average
import Dice.Proofs.Numeral.Digits
import Dice.Proofs.Pool.Sorted

namespace Dice

open Expectation (countedDice noThreshold worth worthSum meanFace exactMean exactTotal)

/-- The text of an outcome is made of its total, its dice and its modifier, and whether it can be
written depends on them alone. -/
theorem Outcome.written_congr {o o' : Outcome} (htotal : o.total = o'.total)
    (hdice : o.dice = o'.dice) (hmodifier : o.modifier = o'.modifier) :
    o.text = o'.text ∧ o.written = o'.written := by
  have htext : o.text = o'.text := by
    unfold text
    rw [htotal, hdice, hmodifier]
  refine ⟨htext, ?_⟩
  unfold written integers
  rw [htext, htotal, hdice, hmodifier]

namespace Roll

/-! ## 1. Replacements -/

/-- **A part of a roll in the place of another one**, where neither makes a difference that the
other does not make. -/
inductive Replaced : Roll → Roll → Prop
  /-- No face is as low as the threshold. -/
  | rerollNone (r : Roll) {t : Int} (h : t ≤ 0) :
      Replaced { r with reroll := none } { r with reroll := some t }
  /-- All faces are as low as the threshold. -/
  | rerollAll (r : Roll) {t : Int} (h : r.sides < t) :
      Replaced { r with reroll := some r.sides } { r with reroll := some t }
  /-- The modifier adds nothing. -/
  | addNothing (r : Roll) : Replaced { r with modifier := none } { r with modifier := some 0 }
  /-- The keep asks for as many dice as there are, or for more. -/
  | keepAll (r : Roll) {k : Keep} (h : r.number ≤ k.count) :
      Replaced { r with keep := none } { r with keep := some k }
  /-- All dice are kept, from whichever end. -/
  | keepFromEitherEnd (r : Roll) {n : Nat} (h : r.number ≤ n) :
      Replaced { r with keep := some ⟨.high, n⟩ } { r with keep := some ⟨.low, n⟩ }

/-- The simplest threshold for dice of so many sides. -/
def plainReroll (sides : Nat) : Option Int → Option Int
  | none => none
  | some t => if t ≤ 0 then none else some (min t sides)

/-- The simplest keep for so many dice. -/
def plainKeep (number : Nat) : Option Keep → Option Keep
  | none => none
  | some k => if number ≤ k.count then none else some k

/-- The simplest modifier. -/
def plainModifier : Option Int → Option Int
  | none => none
  | some n => if n = 0 then none else some n

/-- **The plain roll**, with the simplest part in each place. -/
def plain (r : Roll) : Roll :=
  { r with
    reroll := plainReroll r.sides r.reroll
    keep := plainKeep r.number r.keep
    modifier := plainModifier r.modifier }

/-- A replacement does not change the plain roll. -/
theorem Replaced.plain_eq {r r' : Roll} (h : Replaced r r') : r.plain = r'.plain := by
  cases h with
  | rerollNone r ht => simp [plain, plainReroll, ht]
  | @rerollAll r t ht =>
    have hsides := r.sides_pos
    have hlast : min t (r.sides : Int) = r.sides := by omega
    have hlow : ¬t ≤ 0 := by omega
    have hzero : ¬r.sides = 0 := by omega
    simp [plain, plainReroll, hlast, hlow, hzero]
  | addNothing r => simp [plain, plainModifier]
  | keepAll r hk => simp [plain, plainKeep, hk]
  | keepFromEitherEnd r hn => simp [plain, plainKeep, hn]

/-- A replacement changes the notation: the part is written, and it is written as it is. -/
theorem Replaced.text_ne {r r' : Roll} (h : Replaced r r') : r.text ≠ r'.text := by
  intro htext
  have hchars : r.chars = r'.chars := String.ofList_injective htext
  unfold chars at hchars
  -- what stands before the part and behind it is the same in both notations
  cases h with
  | @rerollNone r t ht =>
    have hpart : [] = 'r' :: Numeral.intText t :=
      List.append_cancel_left (List.append_cancel_right (List.append_cancel_right hchars))
    cases hpart
  | @rerollAll r t ht =>
    have hpart : 'r' :: Numeral.intText r.sides = 'r' :: Numeral.intText t :=
      List.append_cancel_left (List.append_cancel_right (List.append_cancel_right hchars))
    have hlast := Numeral.intText_injective (List.cons.inj hpart).2
    omega
  | addNothing r =>
    have hpart : [] = Numeral.signedText 0 := List.append_cancel_left hchars
    cases hpart
  | @keepAll r k hk =>
    have hpart : [] = k.chars := List.append_cancel_left (List.append_cancel_right hchars)
    cases hpart
  | @keepFromEitherEnd r n hn =>
    have hpart : 'h' :: Numeral.natText n = 'l' :: Numeral.natText n :=
      List.append_cancel_left (List.append_cancel_right hchars)
    exact absurd (List.cons.inj hpart).1 (by decide)

/-! ## 2. Thresholds -/

/-- A face is thrown again if it is at or below the threshold, where none is as good as zero. -/
theorem isRerolled_eq_decide (r : Roll) {face : Int} (hface : 1 ≤ face) :
    r.isRerolled face = decide (face ≤ r.reroll.getD noThreshold) := by
  unfold isRerolled
  cases r.reroll with
  | none =>
    have hhigh : ¬face ≤ noThreshold := by
      unfold noThreshold
      omega
    simp [hhigh]
  | some t => rfl

/-- **The simplest threshold has the same faces thrown again.** -/
theorem le_plainReroll_iff {sides : Nat} (reroll : Option Int) {face : Int} (hlow : 1 ≤ face)
    (hhigh : face ≤ sides) :
    face ≤ (plainReroll sides reroll).getD noThreshold ↔ face ≤ reroll.getD noThreshold := by
  unfold plainReroll
  cases reroll with
  | none => rfl
  | some t =>
    by_cases ht : t ≤ 0
    · have hleft : ¬face ≤ noThreshold := by
        unfold noThreshold
        omega
      have hright : ¬face ≤ t := by omega
      simp [ht, hleft, hright]
    · simp [ht, hhigh]

theorem isRerolled_plain (r : Roll) {face : Int} (hlow : 1 ≤ face) (hhigh : face ≤ r.sides) :
    r.plain.isRerolled face = r.isRerolled face := by
  rw [isRerolled_eq_decide r.plain hlow, isRerolled_eq_decide r hlow]
  exact decide_eq_decide.mpr (le_plainReroll_iff r.reroll hlow hhigh)

/-! ## 3. Throwing -/

section Throw

variable (r : Roll) {source : Source}

theorem throwDie_plain (hsource : source.InRange) (i : Nat) :
    r.plain.throwDie source i = r.throwDie source i := by
  obtain ⟨hlow, hhigh⟩ := hsource i r.sides r.sides_pos
  have hsides : r.plain.sides = r.sides := rfl
  have hagain := isRerolled_plain r hlow hhigh
  simp only [throwDie, hsides, hagain]

theorem throwDice_plain (hsource : source.InRange) (n i : Nat) :
    r.plain.throwDice source n i = r.throwDice source n i := by
  induction n generalizing i with
  | zero => rfl
  | succ n ih => simp only [throwDice, throwDie_plain r hsource, ih]

/-- The dice of a throw, and how many calls it takes, are those of the plain roll. -/
theorem dice_throw_plain (hsource : source.InRange) (calls : Nat) :
    (r.plain.throw source calls).1.dice = (r.throw source calls).1.dice ∧
    (r.plain.throw source calls).2 = (r.throw source calls).2 := by
  have hdice := throwDice_plain r hsource r.number calls
  have hnumber : r.plain.number = r.number := rfl
  constructor
  · simp only [throw, Outcome.ofDice, hnumber, hdice]
  · simp only [throw, hnumber, hdice]

/-- **A keep of all dice keeps what no keep keeps.** -/
theorem keptSum_plainKeep {pool : List Die} {number : Nat} (hpool : pool.length = number)
    (keep : Option Keep) :
    keptSum (plainKeep number keep) Die.value pool = keptSum keep Die.value pool := by
  unfold plainKeep
  cases keep with
  | none => rfl
  | some k =>
    by_cases hk : number ≤ k.count
    · have hlength : pool.length = min k.count (pool ++ []).length := by
        rw [List.append_nil]
        omega
      have hsum : keptSum (some k) Die.value (pool ++ []) = (pool.map Die.value).sum :=
        keptSum_append (by simp) hlength
      rw [List.append_nil] at hsum
      simp only [if_pos hk]
      rw [hsum, keptSum]
    · simp only [if_neg hk]

theorem getD_plainModifier (modifier : Option Int) :
    (plainModifier modifier).getD 0 = modifier.getD 0 := by
  unfold plainModifier
  cases modifier with
  | none => rfl
  | some n => by_cases hn : n = 0 <;> simp [hn]

/-- The total of a throw is that of the plain roll. -/
theorem total_throw_plain (hsource : source.InRange) (calls : Nat) :
    (r.plain.throw source calls).1.total = (r.throw source calls).1.total := by
  have hdice := throwDice_plain r hsource r.number calls
  have hlength := r.length_throwDice source r.number calls
  have hplain : (r.plain.throw source calls).1
      = .ofDice (r.plain.throwDice source r.number calls).1 (plainKeep r.number r.keep)
          ((plainModifier r.modifier).getD 0) := rfl
  have hown : (r.throw source calls).1
      = .ofDice (r.throwDice source r.number calls).1 r.keep (r.modifier.getD 0) := rfl
  rw [hplain, hown, Outcome.total_ofDice, Outcome.total_ofDice, hdice, keptSum_plainKeep hlength,
    getD_plainModifier]

/-- The text of a throw is that of the plain roll. -/
theorem text_throw_plain (hsource : source.InRange) (calls : Nat) :
    (r.plain.throw source calls).1.text = (r.throw source calls).1.text ∧
    (r.plain.throw source calls).1.written = (r.throw source calls).1.written :=
  Outcome.written_congr (total_throw_plain r hsource calls) (dice_throw_plain r hsource calls).1
    (getD_plainModifier r.modifier)

end Throw

/-! ## 4. Expectations -/

/-- A sum over faces depends on which of them are at or below the threshold. -/
theorem worthSum_congr (round : Rat → Rat) (average : Rat) {threshold threshold' : Int}
    {sides : Nat}
    (h : ∀ face : Int, 1 ≤ face → face ≤ sides → (face ≤ threshold ↔ face ≤ threshold')) :
    worthSum round average threshold sides = worthSum round average threshold' sides := by
  induction sides with
  | zero => rfl
  | succ n ih =>
    have hlast := h (n + 1 : Nat) (by omega) (by omega)
    have hothers := ih (fun face hlow hhigh => h face hlow (by omega))
    have hworth : worth average threshold (n + 1) = worth average threshold' (n + 1) := by
      unfold worth
      simp only [hlast]
    rw [Expectation.worthSum_succ, Expectation.worthSum_succ, hothers, hworth]

section Mean

variable {sides : Nat} (reroll : Option Int)

theorem worthSum_plainReroll (round : Rat → Rat) (average : Rat) :
    worthSum round average ((plainReroll sides reroll).getD noThreshold) sides
      = worthSum round average (reroll.getD noThreshold) sides :=
  worthSum_congr round average fun _ => le_plainReroll_iff reroll

theorem exactMean_plainReroll :
    exactMean sides (plainReroll sides reroll) = exactMean sides reroll := by
  unfold exactMean
  rw [worthSum_plainReroll]

theorem meanFace_plainReroll (hpos : 0 < sides) :
    meanFace sides (plainReroll sides reroll) = meanFace sides reroll := by
  have hfirst : (plainReroll sides reroll).getD noThreshold < 1 ↔ reroll.getD noThreshold < 1 := by
    have hone : 1 ≤ (plainReroll sides reroll).getD noThreshold ↔ 1 ≤ reroll.getD noThreshold :=
      le_plainReroll_iff reroll (by omega) (by omega)
    omega
  simp only [meanFace, hfirst, Int.toNat_natCast, worthSum_plainReroll]

end Mean

theorem countedDice_plain (r : Roll) : countedDice r.plain = countedDice r := by
  unfold countedDice plain plainKeep
  cases r.keep with
  | none => rfl
  | some k =>
    by_cases hk : r.number ≤ k.count
    · simp [hk]
    · simp [hk]

/-- **The expected total is that of the plain roll**, as it is shown and in exact arithmetic. -/
theorem ofRoll_plain (r : Roll) :
    Expectation.ofRoll r.plain = Expectation.ofRoll r ∧ exactTotal r.plain = exactTotal r := by
  have hcounted := countedDice_plain r
  have hmodifier : r.plain.modifier.getD 0 = r.modifier.getD 0 := getD_plainModifier r.modifier
  have hmean : meanFace r.plain.sides r.plain.reroll = meanFace r.sides r.reroll :=
    meanFace_plainReroll r.reroll r.sides_pos
  have hexact : exactMean r.plain.sides r.plain.reroll = exactMean r.sides r.reroll :=
    exactMean_plainReroll r.reroll
  constructor
  · unfold Expectation.ofRoll
    rw [hmean, hcounted, hmodifier]
  · unfold exactTotal
    rw [hexact, hcounted, hmodifier]

/-! ## 5. Many replacements -/

/-- Any number of replacements does not change the plain roll. -/
theorem plain_eq_of_eqvGen {r r' : Roll} (h : Relation.EqvGen Replaced r r') :
    r.plain = r'.plain := by
  induction h with
  | rel _ _ h => exact h.plain_eq
  | refl _ => rfl
  | symm _ _ _ ih => exact ih.symm
  | trans _ _ _ _ _ ih ih' => exact ih.trans ih'

/-- **Parts that make no difference.**  One roll comes from another by replacements, in any number
and in either direction: of an absent threshold by one below the first face, of the last face as a
threshold by a higher one, of an absent modifier by zero, and of an absent keep by one of all dice
or more, from either end.

Then all sources that answer with faces make the same of both: the same dice, the same total, the
same text, and as many calls.  The expected total is the same, too.  Yet each replacement makes
another roll with another notation. -/
theorem replaced_neutral :
    (∀ r r' : Roll, Relation.EqvGen Replaced r r' →
      (∀ source : Source, source.InRange → ∀ calls,
        (r.throw source calls).1.dice = (r'.throw source calls).1.dice ∧
        (r.throw source calls).1.total = (r'.throw source calls).1.total ∧
        (r.throw source calls).1.text = (r'.throw source calls).1.text ∧
        (r.throw source calls).1.written = (r'.throw source calls).1.written ∧
        (r.throw source calls).2 = (r'.throw source calls).2) ∧
      Expectation.ofRoll r = Expectation.ofRoll r' ∧ exactTotal r = exactTotal r') ∧
    ∀ r r' : Roll, Replaced r r' → r ≠ r' ∧ r.text ≠ r'.text := by
  constructor
  · intro r r' h
    have hplain := plain_eq_of_eqvGen h
    refine ⟨fun source hsource calls => ?_, ?_, ?_⟩
    · obtain ⟨hdice, hcalls⟩ := dice_throw_plain r hsource calls
      obtain ⟨hdice', hcalls'⟩ := dice_throw_plain r' hsource calls
      obtain ⟨htext, hwritten⟩ := text_throw_plain r hsource calls
      obtain ⟨htext', hwritten'⟩ := text_throw_plain r' hsource calls
      have htotal := total_throw_plain r hsource calls
      have htotal' := total_throw_plain r' hsource calls
      rw [← hdice, ← hcalls, ← htext, ← hwritten, ← htotal, hplain]
      exact ⟨hdice', htotal', htext', hwritten', hcalls'⟩
    · rw [← (ofRoll_plain r).1, ← (ofRoll_plain r').1, hplain]
    · rw [← (ofRoll_plain r).2, ← (ofRoll_plain r').2, hplain]
  · intro r r' h
    have htext := h.text_ne
    refine ⟨?_, htext⟩
    rintro rfl
    exact htext rfl

/-- Three dice that are all thrown again, with and without parts that make no difference. -/
theorem replaced_neutral_allAgain :
    let plainly : Roll := ⟨6, 3, some 6, none, none, by decide⟩
    let higher : Roll := ⟨6, 3, some 9, none, none, by decide⟩
    let fully : Roll := ⟨6, 3, some 9, some ⟨.low, 5⟩, some 0, by decide⟩
    Replaced plainly higher ∧ plainly.text ≠ higher.text ∧
    Relation.EqvGen Replaced plainly fully ∧ (Source.ofScript #[1, 0, 5, 3]).InRange ∧
    (plainly.throw (.ofScript #[1, 0, 5, 3]) 0).1.text
      = (fully.throw (.ofScript #[1, 0, 5, 3]) 0).1.text ∧
    Expectation.ofRoll plainly = Expectation.ofRoll fully := by
  intro plainly higher fully
  obtain ⟨hsame, hdiffer⟩ := replaced_neutral
  have hhigher : Replaced plainly higher := Replaced.rerollAll plainly (t := 9) (by decide)
  have hkept : Replaced higher { higher with keep := some ⟨.low, 5⟩ } :=
    Replaced.keepAll higher (by decide)
  have hadded : Replaced { higher with keep := some ⟨.low, 5⟩ } fully :=
    Replaced.addNothing { higher with keep := some ⟨.low, 5⟩ }
  have hfully : Relation.EqvGen Replaced plainly fully :=
    .trans _ _ _ (.rel _ _ hhigher) (.trans _ _ _ (.rel _ _ hkept) (.rel _ _ hadded))
  have hsource := Source.inRange_ofScript #[1, 0, 5, 3]
  obtain ⟨hthrow, hexpected, -⟩ := hsame plainly fully hfully
  obtain ⟨-, -, htext, -⟩ := hthrow _ hsource 0
  exact ⟨hhigher, (hdiffer plainly higher hhigher).2, hfully, hsource, htext, hexpected⟩

end Roll
end Dice
