/-
# Nothing goes wrong in an evaluation

To evaluate tokens is to find the rolls that they stand for, to throw them and to report on them.
The rolls of a macro are copied on the way, for which the maker of rolls is asked; and each integer
in the report is written, for which it must not be too long.  `Dice.Report` asks this only where
the answer can be no: a `Roll` is a roll by its type, and notation holds what notation can hold.

Here is the evaluation that asks every time.  What it meets first ends it.

* `resolveGuarded_eq`: no copy is refused, so tokens stand for what they stand for;
* `textGuarded_throwAll`: within the limits of tokens no integer of a line is too long, so the
  report is the report;
* `roll_never_fails`: **tokens of a session that stand for rolls are evaluated without fail**, and
  no expected total on the way is large.
-/
import Dice.Proofs.Macro.Lawful
import Dice.Proofs.Notation.Guards
import Dice.Proofs.Report.Written

namespace Dice

/-! ## 1. Rolls that are copied -/

/-- A copy of a roll, by the maker of rolls. -/
def Roll.copy (r : Roll) : Except Roll.Refusal Roll :=
  make r.sides r.number r.reroll r.keep r.modifier

theorem Roll.copy_eq (r : Roll) : r.copy = .ok r :=
  Notation.make_natCast r.sides_pos r.number r.reroll r.keep r.modifier

namespace Macros

/-- Copies several rolls. -/
def copyAll : List Roll → Except Notation.Stop (List Roll)
  | [] => .ok []
  | r :: rs => do
    let r' ← r.copy.mapError .rollGuard
    let rs' ← copyAll rs
    .ok (r' :: rs')

/-- The rolls that a token stands for.  Those of a macro are copied, and notation is read with all
guards. -/
def expandGuarded (m : Macros) (token : String) : Except Notation.Stop (List Roll) :=
  match m.find? token with
  | some rolls => copyAll rolls
  | none => (Notation.parseGuarded token).map fun r => [r]

/-- The rolls that several tokens stand for. -/
def resolveGuarded (m : Macros) : List String → Except Notation.Stop (List Roll)
  | [] => .ok []
  | t :: ts => do
    let rolls ← m.expandGuarded t
    let others ← m.resolveGuarded ts
    .ok (rolls ++ others)

theorem copyAll_eq : ∀ rolls : List Roll, copyAll rolls = .ok rolls
  | [] => rfl
  | r :: rolls => by
    rw [copyAll, r.copy_eq, copyAll_eq rolls]
    rfl

theorem expandGuarded_eq (m : Macros) (token : String) :
    m.expandGuarded token = (m.expand token).result.mapError .token := by
  unfold expandGuarded expand
  cases m.find? token with
  | some rolls => exact copyAll_eq rolls
  | none =>
    dsimp only
    rw [Notation.parseGuarded_eq, Notation.parseLogged]
    cases Notation.parse token with
    | error e => rfl
    | ok r => rfl

/-- **No copy is refused**, and no guard of the notation strikes. -/
theorem resolveGuarded_eq (m : Macros) :
    ∀ tokens : List String, m.resolveGuarded tokens = (m.resolve tokens).result.mapError .token
  | [] => rfl
  | t :: ts => by
    rw [resolveGuarded, expandGuarded_eq, resolveGuarded_eq m ts, result_resolve_cons]
    cases (m.expand t).result with
    | error e => rfl
    | ok rolls =>
      cases (m.resolve ts).result with
      | error e => rfl
      | ok others => rfl

end Macros

/-! ## 2. Integers that are written -/

/-- The integers that the notation of a roll shows, up to their signs. -/
def Roll.integers (r : Roll) : List Int :=
  r.number :: r.sides ::
    (r.reroll.toList ++ (r.keep.toList.map fun k => (k.count : Int)) ++ r.modifier.toList)

/-- The notation of a roll, if all its integers are short enough. -/
def Roll.written (r : Roll) : Except Numeral.WriteError String :=
  if r.integers.all Numeral.fits then .ok r.text else .error .tooManyDigits

/-- A number as it is shown, if it is not an integer that is too long. -/
def Shown.written : Shown → Except Numeral.WriteError String
  | whole n => Numeral.written n
  | n => .ok n.text

/-- The notation of a roll within the limits can be written. -/
theorem Roll.written_of_inLimits {r : Roll} (h : r.InLimits) : r.written = .ok r.text := by
  have hnumber := h.number
  have hsides := h.sides
  refine if_pos (List.all_eq_true.mpr fun n hn => ?_)
  refine Numeral.fits_of_lt (k := 10) (by decide) (by decide) ?_
  simp only [integers, List.mem_cons, List.mem_append, List.mem_map, Option.mem_toList] at hn
  rcases hn with rfl | rfl | (hn | ⟨k, hk, rfl⟩) | hn
  · omega
  · omega
  · have := h.reroll n hn
    omega
  · have := h.keep k hk
    omega
  · have := h.modifier n hn
    omega

/-- A number that is not large can be written as it is shown. -/
theorem Shown.written_ofBinary64 {x : Binary64} (h : |x.value| < 2 ^ 43) :
    (ofBinary64 x).written = .ok (ofBinary64 x).text := by
  cases x with
  | finite q =>
    unfold ofBinary64
    dsimp only
    split
    · rename_i hden
      have hwhole : (q.num : ℚ) = q := Rat.den_eq_one_iff q |>.mp hden
      have hnum : |q.num| < 2 ^ 43 := by
        rw [Binary64.value, ← hwhole] at h
        exact_mod_cast h
      have hfits : Numeral.fits q.num = true := by
        obtain ⟨hlow, hhigh⟩ := abs_lt.mp hnum
        exact Numeral.fits_of_lt (k := 13) (by decide) (by decide) (by omega)
      exact if_pos hfits
    · rfl
  | negZero => rfl
  | infinite negative => rfl
  | nan => rfl

namespace Report

/-! ## 3. The report -/

/-- The line for one roll.  After the expected total, the integers in the line are looked at as they
come. -/
def lineGuarded (r : Roll) (o : Outcome) : Except Refusal String := do
  let expected ← (Expectation.ofRoll r).mapError .noExpectation
  let roll ← r.written.mapError .notWritten
  let outcome ← o.written.mapError .notWritten
  let mean ← (Shown.ofBinary64 expected).written.mapError .notWritten
  .ok (roll ++ ": " ++ outcome ++ " (Expected: " ++ mean ++ ")")

/-- The lines for rolls and their outcomes. -/
def rollLinesGuarded : List Roll → List Outcome → Except Refusal (List String)
  | r :: rs, o :: os => do
    let l ← lineGuarded r o
    let ls ← rollLinesGuarded rs os
    .ok (l :: ls)
  | _, _ => .ok []

/-- The whole report. -/
def textGuarded (rs : List Roll) (os : List Outcome) : Except Refusal String := do
  let ls ← rollLinesGuarded rs os
  let totals ← totalLines os
  .ok ("\n".intercalate (ls ++ totals))

variable {source : Source}

/-- **No integer of a line is too long**, if the roll is within the limits. -/
theorem lineGuarded_throw {r : Roll} (h : r.InLimits) (hsource : source.InRange) (calls : Nat) :
    lineGuarded r (r.throw source calls).1 = line r (r.throw source calls).1 := by
  obtain ⟨x, hx, -, hsmall⟩ := Expectation.exists_ofRoll h
  unfold lineGuarded line
  rw [hx, Roll.written_of_inLimits h, Roll.written_throw h hsource calls]
  simp only [Except.mapError, bind, Except.bind, Shown.written_ofBinary64 hsmall]

theorem rollLinesGuarded_throwAll (hsource : source.InRange) :
    ∀ {rolls : List Roll} (calls : Nat), (∀ r ∈ rolls, r.InLimits) →
      rollLinesGuarded rolls (Roll.throwAll source rolls calls).1
        = rollLines rolls (Roll.throwAll source rolls calls).1
  | [], _, _ => rfl
  | r :: rolls, calls, h => by
    have hline := lineGuarded_throw (h r List.mem_cons_self) hsource calls
    have hothers := rollLinesGuarded_throwAll hsource (r.throw source calls).2
      fun r' hr' => h r' (List.mem_cons_of_mem r hr')
    simp only [Roll.throwAll, rollLinesGuarded, rollLines, hline, hothers]

/-- **The report is the report.** -/
theorem textGuarded_throwAll {rolls : List Roll} (h : ∀ r ∈ rolls, r.InLimits)
    (hsource : source.InRange) (calls : Nat) :
    textGuarded rolls (Roll.throwAll source rolls calls).1
      = text rolls (Roll.throwAll source rolls calls).1 := by
  unfold textGuarded text
  rw [rollLinesGuarded_throwAll hsource calls h]

/-- A batch that is not beyond all measure has a report. -/
theorem exists_text {rolls : List Roll} (h : ∀ r ∈ rolls, r.InLimits) (hsource : source.InRange)
    (calls : Nat) (hlength : rolls.length ≤ 10 ^ 4287) :
    ∃ text, Report.text rolls (Roll.throwAll source rolls calls).1 = .ok text := by
  cases htext : text rolls (Roll.throwAll source rolls calls).1 with
  | ok text => exact ⟨text, rfl⟩
  | error e =>
    obtain ⟨-, hfits⟩ := (text_eq_error_iff h hsource).mp htext
    have hlong := length_of_not_fits h hsource hfits (k := 4287) (by decide)
    exact absurd hlength (Nat.not_le.mpr hlong)

/-- Ten rolls are not beyond all measure. -/
theorem not_lt_of_le_ten {n : Nat} (h : n ≤ 10) : ¬10 ^ 4287 < n := fun hlong =>
  absurd ((Nat.le_self_pow (by decide) 10).trans_lt hlong) (Nat.not_lt.mpr h)

end Report

/-! ## 4. Sessions -/

namespace Session

/-- Rolling in a session: the report on what the tokens stand for, or why they stand for nothing. -/
theorem perform_roll {s : Session} {number : Nat} {t : Macros.Table}
    (ht : s.table? number = some t) (files : Files) (tokens : List String) (source : Source) :
    (s.perform files (.roll number tokens source)).2.result
      = match (t.macros.resolve tokens).result with
        | .ok rolls => report rolls source
        | .error e => .failed (.badToken e) := by
  obtain ⟨place, hplace, hplaced⟩ := Option.bind_eq_some_iff.mp ht
  simp only [perform, withTable, hplace, hplaced]
  cases (t.macros.resolve tokens).result with
  | ok rolls => rfl
  | error e => rfl

/-- **Rolling never fails.**  The tables of a session go back to the empty table, the one of the
core macros or the standard one, and some tokens stand for rolls in one of them; the source answers
with faces.

Then every guard on the way lets the tokens pass, and each roll in its copy.  Each roll has an
expected total, which is finite and below `2 ^ 43`.  Each line of the report has integers that can
be written.  And the report is there, as the session answers it, unless there are more than
`10 ^ 4287` rolls, which no machine holds; only then their sum could be too long. -/
theorem roll_never_fails {s : Session} (hs : s.Rooted) {number : Nat} {t : Macros.Table}
    (ht : s.table? number = some t) {tokens : List String} {rolls : List Roll}
    (hrolls : (t.macros.resolve tokens).result = .ok rolls) {source : Source}
    (hsource : source.InRange) (files : Files) :
    let thrown := Roll.throwAll source rolls 0
    t.macros.resolveGuarded tokens = .ok rolls ∧
    (∀ r ∈ rolls, r.copy = .ok r) ∧
    (∀ r ∈ rolls, ∃ x, Expectation.ofRoll r = .ok x ∧ x.IsFinite ∧ |x.value| < 2 ^ 43) ∧
    (∃ lines, Report.rollLinesGuarded rolls thrown.1 = .ok lines) ∧
    ((∃ text, Report.textGuarded rolls thrown.1 = .ok text ∧
      (s.perform files (.roll number tokens source)).2.result = .report text thrown.2) ∨
      10 ^ 4287 < rolls.length) := by
  intro thrown
  have hlimits : ∀ r ∈ rolls, r.InLimits := (hs.lawful_table ht).inLimits_of_resolve hrolls
  refine ⟨?_, fun r _ => r.copy_eq, fun r hr => Expectation.exists_ofRoll (hlimits r hr), ?_, ?_⟩
  · rw [Macros.resolveGuarded_eq, hrolls]
    rfl
  · rw [Report.rollLinesGuarded_throwAll hsource 0 hlimits]
    exact Report.exists_rollLines hsource 0 hlimits
  · refine (Nat.lt_or_ge (10 ^ 4287) rolls.length).symm.imp_left fun hlength => ?_
    obtain ⟨text, htext⟩ := Report.exists_text hlimits hsource 0 hlength
    refine ⟨text, (Report.textGuarded_throwAll hlimits hsource 0).trans htext, ?_⟩
    rw [perform_roll ht, hrolls]
    simp only [report, htext]
    rfl

/-- A macro of two rolls, and a roll with all its parts. -/
theorem roll_never_fails_campaign :
    (campaignMacros.resolve ["hit", "4D6r1h3-2"]).result
      = .ok [attack, advantage, ⟨6, 4, some 1, some ⟨.high, 3⟩, some (-2), by decide⟩] ∧
    ∃ text, (campaignSession.perform Folder.empty.read
      (.roll 1 ["hit", "4D6r1h3-2"] (.ofScript #[0, 5, 3]))).2.result = .report text 9 := by
  have hrolls : (campaignMacros.resolve ["hit", "4D6r1h3-2"]).result
      = .ok [attack, advantage, ⟨6, 4, some 1, some ⟨.high, 3⟩, some (-2), by decide⟩] := rfl
  obtain ⟨-, -, -, -, ⟨text, -, htext⟩ | hlong⟩ :=
    roll_never_fails rooted_campaignSession table?_campaignSession hrolls
      (Source.inRange_ofScript #[0, 5, 3]) Folder.empty.read
  · exact ⟨hrolls, text, htext⟩
  · exact absurd hlong (Report.not_lt_of_le_ten (by decide))

end Session
end Dice
