/-
# The lines of a report

A report is text, and the lines in it are found where it ends them.  This takes that no line ends
one by itself: what the program composes of numbers and notation is printable.

* `rollLines_eq_ok_iff`, `text_eq_ok_iff`: what lines and reports are made of;
* `plainEnd_line`: **a line of a report is one line**, whatever the roll and the outcome are;
* `splitOn_text`: so a report on some rolls, cut at its line ends, gives its lines back.
-/
import Dice.Proofs.Notation.RoundTrip
import Dice.Proofs.Text.Printable
import Dice.Report

namespace Dice

open Dice.Notation

open Text

/-! ## 1. Numbers and notation -/

namespace Numeral

theorem IsDigits.printable {cs : List Char} (h : IsDigits cs) : Printable cs := by
  intro c hc
  have hdigit := toNat_of_isDigit (h c hc)
  exact isPrintable_of_ascii (by omega) (by omega)

theorem printable_natText (n : Nat) : Printable (natText n) := (isDigits_natText n).printable

theorem printable_intText (n : Int) : Printable (intText n) := by
  cases n with
  | ofNat n => exact printable_natText n
  | negSucc n => exact printable_cons.mpr ⟨by decide, printable_natText (n + 1)⟩

theorem intText_ne_nil (n : Int) : intText n ≠ [] := by
  cases n with
  | ofNat n => exact natText_ne_nil n
  | negSucc n => exact List.cons_ne_nil _ _

/-- An integer has the characters of the notation only. -/
theorem notMem_intText {c : Char} (hc : isFormChar c = false) (n : Int) : c ∉ intText n := by
  intro h
  have hform := Roll.isFormChar_of_mem_intText h
  rw [hc] at hform
  cases hform

theorem printable_text (n : Int) : Printable (text n).toList := by
  rw [text, String.toList_ofList]
  exact printable_intText n

theorem plainEnd_text (n : Int) : PlainEnd (text n) := by
  refine plainEnd_of_notMem (printable_text n) ?_ ?_
  · rw [text, String.toList_ofList]
    exact intText_ne_nil n
  · rw [text, String.toList_ofList]
    exact notMem_intText (by decide) n

end Numeral

theorem Roll.printable_chars (r : Roll) : Printable r.chars := by
  intro c hc
  obtain ⟨hlow, hhigh⟩ := toNat_of_isFormChar (r.isFormChar_of_mem_chars c hc)
  exact isPrintable_of_ascii (by omega) (by omega)

theorem Die.printable_chars (d : Die) : Printable d.chars := by
  cases d with
  | kept face => exact Numeral.printable_intText face
  | rerolled first second => simp [chars, Numeral.printable_intText, isPrintable]

/-! ## 2. Numbers as they are shown -/

theorem Binary64.isDigits_lastDigits : ∀ places n : Nat, Numeral.IsDigits (lastDigits places n)
  | 0, _ => Numeral.isDigits_nil
  | places + 1, n => by
    intro c hc
    rcases List.mem_append.mp hc with hc | hc
    · exact isDigits_lastDigits places (n / 10) c hc
    · rw [List.mem_singleton.mp hc, Nat.isDigit_digitChar, decide_eq_true_eq]
      exact Nat.mod_lt n (by decide)

theorem Binary64.printable_magnitudeText (q : Rat) : Printable (magnitudeText q) := by
  rw [magnitudeText, pointText, printable_append, printable_cons]
  refine ⟨Numeral.printable_natText _, by decide, ?_⟩
  split
  · simp [isPrintable]
  · exact (isDigits_lastDigits _ _).printable

theorem Shown.printable_signed {cs : List Char} (negative : Bool) (h : Printable cs) :
    Printable (signed negative cs) := by
  cases negative with
  | false => exact h
  | true => exact printable_cons.mpr ⟨by decide, h⟩

theorem Shown.printable_text (n : Shown) : Printable n.text.toList := by
  cases n with
  | whole n => exact Numeral.printable_text n
  | decimal negative q =>
    rw [text, String.toList_ofList]
    exact printable_signed negative (Binary64.printable_magnitudeText q)
  | infinite negative =>
    rw [text, String.toList_ofList]
    exact printable_signed negative (by simp [isPrintable])
  | nan => simp [text, isPrintable]

/-! ## 3. Outcomes -/

/-- Dice in a list, without the parentheses around it. -/
def Die.listChars (ds : List Die) : List Char := [',', ' '].intercalate (ds.map chars)

theorem Die.printable_listChars (ds : List Die) : Printable (listChars ds) := by
  refine forall_mem_intercalate (by simp [isPrintable]) fun cs hcs => ?_
  obtain ⟨d, -, rfl⟩ := List.mem_map.mp hcs
  exact d.printable_chars

theorem Outcome.printable_modifierText (m : Int) : Printable (modifierText m).toList := by
  unfold modifierText
  split
  · simp [Numeral.printable_text, isPrintable]
  · split
    · simp [Numeral.printable_text, isPrintable]
    · simp

theorem Outcome.toList_text (o : Outcome) :
    o.text.toList = Numeral.intText o.total ++ [' ', '('] ++ Die.listChars o.dice ++ [')']
      ++ (modifierText o.modifier).toList := by
  have hchars : String.toList ∘ Die.text = Die.chars :=
    funext fun d => (congrArg String.toList rfl).trans String.toList_ofList
  simp [text, Numeral.text, Die.listChars, String.toList_intercalate, hchars]

theorem Outcome.printable_text (o : Outcome) : Printable o.text.toList := by
  rw [toList_text]
  simp [Numeral.printable_intText, Die.printable_listChars, printable_modifierText, isPrintable]

/-! ## 4. Lines -/

namespace Report

/-- **What a line is made of.** -/
theorem line_eq_ok_iff {r : Roll} {o : Outcome} {l : String} :
    line r o = .ok l ↔
      ∃ x, Expectation.ofRoll r = .ok x ∧ o.integers.all Numeral.fits = true ∧
        l = r.text ++ ": " ++ o.text ++ " (Expected: " ++ (Shown.ofBinary64 x).text ++ ")" := by
  unfold line Outcome.written
  cases Expectation.ofRoll r with
  | error e => simp [bind, Except.bind, Except.mapError]
  | ok x =>
    cases o.integers.all Numeral.fits <;>
      simp [bind, Except.bind, Except.mapError, eq_comm]

/-- **A line of a report is one line**, which ends in a parenthesis. -/
theorem plainEnd_line {r : Roll} {o : Outcome} {l : String} (h : line r o = .ok l) :
    PlainEnd l := by
  obtain ⟨x, -, -, rfl⟩ := line_eq_ok_iff.mp h
  have hlast : PlainEnd ")" := plainEnd_of_notMem (by simp [isPrintable]) (by simp) (by simp)
  refine hlast.append ?_
  simp [Roll.text, r.printable_chars, o.printable_text, Shown.printable_text, isPrintable]

/-- There are lines if each roll has its line with its outcome. -/
theorem rollLines_eq_ok_iff : ∀ {rs : List Roll} {os : List Outcome} {ls : List String},
    rollLines rs os = .ok ls ↔ (rs.zip os).map (fun p => line p.1 p.2) = ls.map .ok
  | [], os, ls => by simp [rollLines, eq_comm]
  | r :: rs, [], ls => by simp [rollLines, eq_comm]
  | r :: rs, o :: os, ls => by
    have hrest : ∀ ls', rollLines rs os = .ok ls' ↔
        (rs.zip os).map (fun p => line p.1 p.2) = ls'.map .ok := fun _ => rollLines_eq_ok_iff
    rw [rollLines, List.zip_cons_cons, List.map_cons]
    constructor
    · intro h
      cases hline : line r o with
      | error e =>
        rw [hline] at h
        cases h
      | ok l =>
        cases hothers : rollLines rs os with
        | error e =>
          rw [hline, hothers] at h
          cases h
        | ok ls' =>
          rw [hline, hothers] at h
          cases h
          rw [List.map_cons, (hrest ls').mp hothers]
    · intro h
      obtain ⟨l, ls', rfl, hline, hothers⟩ := List.map_eq_cons_iff.mp h.symm
      rw [← hline, (hrest ls').mpr hothers.symm]
      rfl

theorem length_rollLines {rs : List Roll} {os : List Outcome} {ls : List String}
    (h : rollLines rs os = .ok ls) : ls.length = min rs.length os.length := by
  have hlength := congrArg List.length (rollLines_eq_ok_iff.mp h)
  rw [List.length_map, List.length_map, List.length_zip] at hlength
  exact hlength.symm

theorem plainEnd_rollLines {rs : List Roll} {os : List Outcome} {ls : List String}
    (h : rollLines rs os = .ok ls) : ∀ l ∈ ls, PlainEnd l := by
  intro l hl
  have hok : Except.ok l ∈ ls.map (Except.ok (ε := Refusal)) := List.mem_map_of_mem hl
  rw [← rollLines_eq_ok_iff.mp h] at hok
  obtain ⟨p, -, hline⟩ := List.mem_map.mp hok
  exact plainEnd_line hline

/-! ## 5. The last line, and the report -/

/-- The line for the sum of several totals; one total, or none, needs no such line. -/
def totalLine? (os : List Outcome) : List String :=
  if 1 < os.length then ["Total: " ++ Numeral.text (Outcome.sumTotals os)] else []

/-- The last line is refused if the sum is too long. -/
theorem totalLines_eq (os : List Outcome) :
    totalLines os
      = if 1 < os.length ∧ Numeral.fits (Outcome.sumTotals os) = false then
          .error (.notWritten .tooManyDigits)
        else .ok (totalLine? os) := by
  match os with
  | [] => rfl
  | [o] => rfl
  | o :: o' :: os =>
    rw [totalLines, Numeral.written, totalLine?]
    cases Numeral.fits (Outcome.sumTotals (o :: o' :: os)) with
    | true => simp [bind, Except.bind, Except.mapError]
    | false => simp [bind, Except.bind, Except.mapError]

/-- **What a report is made of.** -/
theorem text_eq_ok_iff {rs : List Roll} {os : List Outcome} {t : String} :
    text rs os = .ok t ↔
      ∃ ls, rollLines rs os = .ok ls ∧
        (1 < os.length → Numeral.fits (Outcome.sumTotals os) = true) ∧
        "\n".intercalate (ls ++ totalLine? os) = t := by
  unfold text
  rw [totalLines_eq]
  cases rollLines rs os with
  | error e => simp [bind, Except.bind]
  | ok ls =>
    by_cases hlong : 1 < os.length ∧ Numeral.fits (Outcome.sumTotals os) = false
    · simp [hlong, bind, Except.bind]
    · have hfits : 1 < os.length → Numeral.fits (Outcome.sumTotals os) = true := by
        simpa using hlong
      rw [if_neg hlong]
      simp only [bind, Except.bind, Except.ok.injEq, exists_eq_left']
      exact (and_iff_right hfits).symm

theorem plainEnd_totalLine? (os : List Outcome) : ∀ l ∈ totalLine? os, PlainEnd l := by
  intro l hl
  unfold totalLine? at hl
  split at hl
  · rw [List.mem_singleton.mp hl]
    exact (Numeral.plainEnd_text _).append (by simp [isPrintable])
  · cases hl

/-- **A report is cut into its lines** where the text ends a line. -/
theorem splitOn_text {rs : List Roll} {os : List Outcome} {t : String} (hrs : rs ≠ [])
    (hos : os ≠ []) (h : text rs os = .ok t) :
    ∃ ls, rollLines rs os = .ok ls ∧
      t.toList.splitOn '\n' = ls.map String.toList ++ (totalLine? os).map String.toList := by
  obtain ⟨ls, hls, -, rfl⟩ := text_eq_ok_iff.mp h
  refine ⟨ls, hls, ?_⟩
  have hne : ls ≠ [] := by
    intro hnil
    have hlength := length_rollLines hls
    have hrolls := List.length_pos_iff.mpr hrs
    have houtcomes := List.length_pos_iff.mpr hos
    rw [hnil, List.length_nil] at hlength
    omega
  rw [String.toList_intercalate, ← List.map_append]
  refine List.splitOn_intercalate '\n' (fun cs hcs => ?_) (by simp [hne])
  obtain ⟨l, hl, rfl⟩ := List.mem_map.mp hcs
  rcases List.mem_append.mp hl with hl | hl
  · exact (plainEnd_rollLines hls l hl).1.newline_notMem
  · exact (plainEnd_totalLine? os l hl).1.newline_notMem

end Report
end Dice
