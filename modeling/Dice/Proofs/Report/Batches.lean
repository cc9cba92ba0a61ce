/-
# Two batches as one

Tokens that stand one after the other can be evaluated at once, or in two batches.  The second batch
then goes on with the source where the first one stopped, and how far that is depends on the faces
that were drawn.

* `throwAll_after`, `throwAll_append`: throwing goes on with a continued source;
* `Macros.result_resolve_append`: what tokens stand for is put together, and the first error counts;
* `text_append`: a report on two batches has the lines of both reports for their rolls, and one more
  for the sum of all;
* `batches_compose`: **the evaluation of two batches at once**, as a session answers it.
-/
import Mathlib.Data.List.Permutation
import Dice.Proofs.Report.Evaluation

namespace Dice

/-! ## 1. Rolls -/

namespace Roll

variable (source : Source) (calls : Nat)

/-- **Throwing goes on** with what the source has left. -/
theorem throwAll_after (rs : List Roll) (i : Nat) :
    throwAll source rs (calls + i)
      = ((throwAll (source.after calls) rs i).1,
          calls + (throwAll (source.after calls) rs i).2) := by
  induction rs generalizing i with
  | nil => rfl
  | cons r rs ih => simp only [throwAll, throw_after, ih]

/-- Rolls in two parts. -/
theorem throwAll_append (rs rs' : List Roll) :
    throwAll source (rs ++ rs') calls
      = ((throwAll source rs calls).1 ++ (throwAll source rs' (throwAll source rs calls).2).1,
          (throwAll source rs' (throwAll source rs calls).2).2) := by
  induction rs generalizing calls with
  | nil => rfl
  | cons r rs ih => simp only [List.cons_append, throwAll, ih]

end Roll

/-! ## 2. Tokens -/

namespace Macros

/-- **Tokens in two parts.**  The error of the first part comes before that of the second. -/
theorem result_resolve_append (m : Macros) (xs ys : List String) :
    (m.resolve (xs ++ ys)).result = (do
      let part ← (m.resolve xs).result
      let others ← (m.resolve ys).result
      .ok (part ++ others)) := by
  induction xs with
  | nil =>
    rw [List.nil_append, resolve]
    cases (m.resolve ys).result <;> rfl
  | cons x xs ih =>
    rw [List.cons_append, result_resolve_cons, ih, result_resolve_cons]
    cases (m.expand x).result with
    | error e => rfl
    | ok rolls =>
      cases (m.resolve xs).result with
      | error e => rfl
      | ok others =>
        cases (m.resolve ys).result with
        | error e => rfl
        | ok second => exact congrArg Except.ok (List.append_assoc rolls others second).symm

theorem resolve_append_eq_error_iff {m : Macros} {xs ys : List String} {e : Notation.Error} :
    (m.resolve (xs ++ ys)).result = .error e ↔
      (m.resolve xs).result = .error e ∨
        (∃ rolls, (m.resolve xs).result = .ok rolls) ∧ (m.resolve ys).result = .error e := by
  rw [result_resolve_append]
  cases (m.resolve xs).result with
  | error e' => simp [bind, Except.bind]
  | ok first =>
    cases (m.resolve ys).result with
    | error e' => simp [bind, Except.bind]
    | ok second => simp [bind, Except.bind]

end Macros

/-! ## 3. Reports -/

theorem Outcome.sumTotals_append (os os' : List Outcome) :
    sumTotals (os ++ os') = sumTotals os + sumTotals os' := by
  induction os with
  | nil => exact (Int.zero_add (sumTotals os')).symm
  | cons o os ih =>
    have hsum : sumTotals (o :: (os ++ os')) = o.total + sumTotals (os ++ os') := rfl
    rw [List.cons_append, hsum, ih, ← Int.add_assoc]
    rfl

namespace Report

variable {rs rs' : List Roll} {os os' : List Outcome}

theorem rollLines_append {ls ls' : List String} (hlength : rs.length = os.length)
    (h : rollLines rs os = .ok ls) (h' : rollLines rs' os' = .ok ls') :
    rollLines (rs ++ rs') (os ++ os') = .ok (ls ++ ls') := by
  rw [rollLines_eq_ok_iff] at h h' ⊢
  rw [List.zip_append hlength, List.map_append, List.map_append, h, h']

/-- The lines for the rolls are the first ones of a report. -/
theorem take_splitOn_text {t : String} (hrs : rs ≠ []) (hlength : rs.length = os.length)
    (h : text rs os = .ok t) :
    ∃ ls, rollLines rs os = .ok ls ∧
      (t.toList.splitOn '\n').take rs.length = ls.map String.toList := by
  have hos : os ≠ [] := fun hnil => hrs (List.length_eq_zero_iff.mp (by rw [hlength, hnil]; rfl))
  obtain ⟨ls, hls, hsplit⟩ := splitOn_text hrs hos h
  refine ⟨ls, hls, ?_⟩
  rw [hsplit]
  refine List.take_left' ?_
  rw [List.length_map, length_rollLines hls, ← hlength, Nat.min_self]

/-- **A report on two batches** has the lines of both for their rolls, and a line for the sum of
all. -/
theorem text_append {first second whole : String} (hrs : rs ≠ []) (hrs' : rs' ≠ [])
    (hlength : rs.length = os.length) (hlength' : rs'.length = os'.length)
    (hfirst : text rs os = .ok first) (hsecond : text rs' os' = .ok second)
    (hwhole : text (rs ++ rs') (os ++ os') = .ok whole) :
    whole.toList.splitOn '\n'
      = (first.toList.splitOn '\n').take rs.length ++ (second.toList.splitOn '\n').take rs'.length
        ++ ["Total: ".toList
          ++ Numeral.intText (Outcome.sumTotals os + Outcome.sumTotals os')] := by
  have hne : rs ++ rs' ≠ [] := List.append_ne_nil_of_left_ne_nil hrs rs'
  have hlengths : (rs ++ rs').length = (os ++ os').length := by
    rw [List.length_append, List.length_append, hlength, hlength']
  have hmany : 1 < (os ++ os').length := by
    have hpos := List.length_pos_iff.mpr hrs
    have hpos' := List.length_pos_iff.mpr hrs'
    rw [List.length_append]
    omega
  have hos : os ++ os' ≠ [] := List.length_pos_iff.mp (Nat.zero_lt_of_lt hmany)
  obtain ⟨ls, hls, htake⟩ := take_splitOn_text hrs hlength hfirst
  obtain ⟨ls', hls', htake'⟩ := take_splitOn_text hrs' hlength' hsecond
  obtain ⟨lines, hlines, hsplit⟩ := splitOn_text hne hos hwhole
  rw [rollLines_append hlength hls hls'] at hlines
  cases hlines
  rw [hsplit, htake, htake', List.map_append, totalLine?, if_pos hmany, Outcome.sumTotals_append]
  simp [Numeral.text]

end Report

/-! ## 4. Sessions -/

namespace Session

/-- Tokens that stand for rolls within the limits are reported on, unless there are too many. -/
theorem perform_roll_eq_report {s : Session} {number : Nat} {t : Macros.Table}
    (ht : s.table? number = some t) {tokens : List String} {rolls : List Roll}
    (hrolls : (t.macros.resolve tokens).result = .ok rolls) (hlimits : ∀ r ∈ rolls, r.InLimits)
    {source : Source} (hsource : source.InRange) (hlength : rolls.length ≤ 10 ^ 4287)
    (files : Files) :
    ∃ text, Report.text rolls (Roll.throwAll source rolls 0).1 = .ok text ∧
      (s.perform files (.roll number tokens source)).2.result
        = .report text (Roll.throwAll source rolls 0).2 := by
  obtain ⟨text, htext⟩ := Report.exists_text hlimits hsource 0 hlength
  refine ⟨text, htext, ?_⟩
  rw [perform_roll ht, hrolls]
  simp only [report, htext]

/-- **Batches compose.**  The tables of a session go back to the empty table, the one of the core
macros or the standard one; tokens are looked up in one of them, and the source answers with faces.

Tokens `xs` followed by tokens `ys` fail with the error of `xs`, and with that of `ys` if `xs` stand
for rolls; if both do, the whole stands for the rolls of `xs` and those of `ys`.

If there are tokens of both kinds, both batches and the whole are reported on, where `ys` go on with
the source after the draws for `xs`.  Then the whole takes the draws of both; its report has, first,
the lines of both reports that are about rolls, and at the end the sum of all totals.  This leaves
out batches of more than `10 ^ 4287` rolls, which no machine holds. -/
theorem batches_compose {s : Session} (hs : s.Rooted) {number : Nat} {t : Macros.Table}
    (ht : s.table? number = some t) (xs ys : List String) {source : Source}
    (hsource : source.InRange) (files : Files) :
    (∀ e, (t.macros.resolve (xs ++ ys)).result = .error e ↔
      (t.macros.resolve xs).result = .error e ∨
        (∃ rolls, (t.macros.resolve xs).result = .ok rolls) ∧
          (t.macros.resolve ys).result = .error e) ∧
    ∀ first second, (t.macros.resolve xs).result = .ok first →
      (t.macros.resolve ys).result = .ok second →
      (t.macros.resolve (xs ++ ys)).result = .ok (first ++ second) ∧
      (xs ≠ [] → ys ≠ [] →
        let thrown := Roll.throwAll source first 0
        let continued := source.after thrown.2
        let thrown' := Roll.throwAll continued second 0
        (∃ text text' whole,
          (s.perform files (.roll number xs source)).2.result = .report text thrown.2 ∧
          (s.perform files (.roll number ys continued)).2.result = .report text' thrown'.2 ∧
          (s.perform files (.roll number (xs ++ ys) source)).2.result
            = .report whole (thrown.2 + thrown'.2) ∧
          whole.toList.splitOn '\n'
            = (text.toList.splitOn '\n').take first.length
              ++ (text'.toList.splitOn '\n').take second.length
              ++ ["Total: ".toList ++ Numeral.intText
                (Outcome.sumTotals thrown.1 + Outcome.sumTotals thrown'.1)]) ∨
        10 ^ 4287 < (first ++ second).length) := by
  refine ⟨fun e => Macros.resolve_append_eq_error_iff, fun first second hfirst hsecond => ?_⟩
  have hlawful := hs.lawful_table ht
  have hwhole : (t.macros.resolve (xs ++ ys)).result = .ok (first ++ second) := by
    rw [Macros.result_resolve_append, hfirst, hsecond]
    rfl
  refine ⟨hwhole, fun hxs hys => ?_⟩
  intro thrown continued thrown'
  refine (Nat.lt_or_ge (10 ^ 4287) (first ++ second).length).symm.imp_left fun hlength => ?_
  have hparts : first.length ≤ 10 ^ 4287 ∧ second.length ≤ 10 ^ 4287 := by
    rw [ge_iff_le, List.length_append] at hlength
    exact ⟨(Nat.le_add_right _ _).trans hlength, (Nat.le_add_left _ _).trans hlength⟩
  have hthrown : Roll.throwAll source (first ++ second) 0
      = (thrown.1 ++ thrown'.1, thrown.2 + thrown'.2) := by
    have hafter := Roll.throwAll_after source thrown.2 second 0
    rw [Nat.add_zero] at hafter
    rw [Roll.throwAll_append, hafter]
  obtain ⟨text, htext, hanswer⟩ := perform_roll_eq_report ht hfirst
    (hlawful.inLimits_of_resolve hfirst) hsource hparts.1 files
  obtain ⟨text', htext', hanswer'⟩ := perform_roll_eq_report ht hsecond
    (hlawful.inLimits_of_resolve hsecond) (Source.inRange_after hsource thrown.2) hparts.2 files
  obtain ⟨whole, htextWhole, hanswerWhole⟩ := perform_roll_eq_report ht hwhole
    (hlawful.inLimits_of_resolve hwhole) hsource hlength files
  rw [hthrown] at htextWhole hanswerWhole
  refine ⟨text, text', whole, hanswer, hanswer', hanswerWhole, ?_⟩
  exact Report.text_append (hlawful.resolve hxs hfirst).ne_nil (hlawful.resolve hys hsecond).ne_nil
    (Roll.length_throwAll source first 0).symm (Roll.length_throwAll continued second 0).symm
    htext htext' htextWhole

/-- A macro of two rolls, and a roll of four dice of which two are rolled again: three draws and six
make nine. -/
theorem batches_compose_campaign :
    campaignSession.Rooted ∧ (Source.ofScript #[0, 5, 3]).InRange ∧
    ∃ text text' whole,
      (campaignSession.perform Folder.empty.read
        (.roll 1 ["hit"] (.ofScript #[0, 5, 3]))).2.result = .report text 3 ∧
      (campaignSession.perform Folder.empty.read
        (.roll 1 ["4D6r1h3-2"] (Source.after (.ofScript #[0, 5, 3]) 3))).2.result
          = .report text' 6 ∧
      (campaignSession.perform Folder.empty.read
        (.roll 1 ["hit", "4D6r1h3-2"] (.ofScript #[0, 5, 3]))).2.result = .report whole 9 ∧
      whole.toList.splitOn '\n'
        = (text.toList.splitOn '\n').take 2 ++ (text'.toList.splitOn '\n').take 1
          ++ ["Total: 26".toList] := by
  have hsource := Source.inRange_ofScript #[0, 5, 3]
  have hfirst : (campaignMacros.resolve ["hit"]).result = .ok [attack, advantage] := rfl
  have hsecond : (campaignMacros.resolve ["4D6r1h3-2"]).result
      = .ok [⟨6, 4, some 1, some ⟨.high, 3⟩, some (-2), by decide⟩] := rfl
  have hfirstThrown : (Roll.throwAll (.ofScript #[0, 5, 3]) [attack, advantage] 0).1
      = [.ofDice [.kept 1] none 5, .ofDice [.kept 6, .kept 4] (some ⟨.high, 1⟩) 0] := rfl
  have hsecondThrown : (Roll.throwAll (Source.after (.ofScript #[0, 5, 3]) 3)
        [⟨6, 4, some 1, some ⟨.high, 3⟩, some (-2), by decide⟩] 0).1
      = [.ofDice [.rerolled 1 6, .kept 4, .rerolled 1 6, .kept 4] (some ⟨.high, 3⟩) (-2)] := rfl
  have htotal : Outcome.sumTotals
        (Roll.throwAll (.ofScript #[0, 5, 3]) [attack, advantage] 0).1
      + Outcome.sumTotals (Roll.throwAll (Source.after (.ofScript #[0, 5, 3]) 3)
          [⟨6, 4, some 1, some ⟨.high, 3⟩, some (-2), by decide⟩] 0).1 = 26 := by
    rw [hfirstThrown, hsecondThrown]
    cbv
  obtain ⟨-, -, hbatches⟩ := (batches_compose rooted_campaignSession table?_campaignSession
    ["hit"] ["4D6r1h3-2"] hsource Folder.empty.read).imp_right fun h => h _ _ hfirst hsecond
  refine ⟨rooted_campaignSession, hsource, ?_⟩
  rcases hbatches (List.cons_ne_nil _ _) (List.cons_ne_nil _ _) with hreports | hlong
  · obtain ⟨text, text', whole, htext, htext', hwhole, hlines⟩ := hreports
    refine ⟨text, text', whole, htext, htext', hwhole, hlines.trans ?_⟩
    rw [show (Roll.throwAll (.ofScript #[0, 5, 3]) [attack, advantage] 0).2 = 3 from rfl, htotal]
    rfl
  · exact absurd hlong (Report.not_lt_of_le_ten (by decide))

end Session
end Dice
