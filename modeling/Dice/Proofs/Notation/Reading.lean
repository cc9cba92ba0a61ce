/-
# Which tokens are read, and what is wrong with the others

A token is read in lower case, whichever way of writing in lower case is taken (`LowerCase`).

* `parse_eq_ok_iff_spells`: a token is read as a roll exactly if it is spelled by parts of the
  grammar whose numbers are in range, and the roll is what these parts denote;
* `parse_eq_error_iff`: every other token fails in one of three ways, which follow from the parts
  that spell it, and a bad number is the one that the first failing check is about.
-/
import Dice.Proofs.Notation.Check
import Dice.Proofs.Notation.Guards
import Dice.Proofs.Notation.LowerCase

namespace Dice.Notation

open Dice.Numeral

/-! ## 1. Spelling -/

/-- The parts are lawful, and the text is what they write. -/
def Parts.Spells (p : Parts) (cs : List Char) : Prop := p.Lawful ∧ p.chars = cs

/-- A text is spelled by one collection of parts at most. -/
theorem Parts.Spells.unique {p q : Parts} {cs : List Char} (hp : p.Spells cs)
    (hq : q.Spells cs) : p = q :=
  Parts.eq_of_chars_eq hp.1 hq.1 (hp.2.trans hq.2.symm)

/-- The scanner finds what spells the lower case of a token. -/
theorem scan_lower_iff (l : LowerCase) (token : String) {p : Parts} :
    Parts.scan (token.toList.map Char.toLower) = some p ↔ p.Spells (l.text token.toList) := by
  rw [Parts.scan_eq_some_iff, Parts.Spells, l.lawful_text_iff]

/-! ## 2. The three ways in which reading goes on -/

variable {l : LowerCase} {token : String} {p : Parts}

theorem parse_of_not_spells (h : ∀ p : Parts, ¬p.Spells (l.text token.toList)) :
    parse token = .error (.malformed token) := by
  have hs : Parts.scan (token.toList.map Char.toLower) = none := by
    cases hs : Parts.scan (token.toList.map Char.toLower) with
    | none => rfl
    | some p => exact absurd ((scan_lower_iff l token).mp hs) (h p)
  simp only [parse, hs]

theorem parse_of_no_sides (hp : p.Spells (l.text token.toList)) (hs : p.sides = []) :
    parse token = .error (.missingDie token) := by
  simp only [parse, (scan_lower_iff l token).mpr hp, hs, List.isEmpty_nil, if_true]

theorem parse_of_sides (hp : p.Spells (l.text token.toList)) (hs : p.sides ≠ []) :
    parse token = p.toRoll := by
  have hne : p.sides.isEmpty = false := List.isEmpty_eq_false_iff.mpr hs
  simp only [parse, (scan_lower_iff l token).mpr hp, hne, Bool.false_eq_true, if_false]

/-- **The three ways.**  Nothing spells the token, or something without sides, or something with
sides. -/
theorem parse_cases (l : LowerCase) (token : String) :
    (∀ p : Parts, ¬p.Spells (l.text token.toList)) ∧ parse token = .error (.malformed token) ∨
    (∃ p : Parts, p.Spells (l.text token.toList) ∧ p.sides = [] ∧
      parse token = .error (.missingDie token)) ∨
    ∃ p : Parts, p.Spells (l.text token.toList) ∧ p.sides ≠ [] ∧ parse token = p.toRoll := by
  by_cases h : ∃ p : Parts, p.Spells (l.text token.toList)
  · obtain ⟨p, hp⟩ := h
    by_cases hs : p.sides = []
    · exact Or.inr (Or.inl ⟨p, hp, hs, parse_of_no_sides hp hs⟩)
    · exact Or.inr (Or.inr ⟨p, hp, hs, parse_of_sides hp hs⟩)
  · have hn : ∀ p : Parts, ¬p.Spells (l.text token.toList) := fun p hp => h ⟨p, hp⟩
    exact Or.inl ⟨hn, parse_of_not_spells hn⟩

/-! ## 3. What is read -/

/-- **The grammar of tokens and their meaning.**  A token is read as a roll exactly if its lower
case is spelled by parts with sides in which every number is short enough and in range; the roll
is then what these parts denote.  No text is spelled in two ways. -/
theorem parse_eq_ok_iff_spells (l : LowerCase) (token : String) :
    (∀ r, parse token = .ok r ↔
      ∃ p : Parts, p.Spells (l.text token.toList) ∧ p.sides ≠ [] ∧ p.InRange ∧ p.Denotes r) ∧
    ∀ p q : Parts, p.Spells (l.text token.toList) → q.Spells (l.text token.toList) → p = q := by
  refine ⟨fun r => ⟨fun h => ?_, ?_⟩, fun p q hp hq => hp.unique hq⟩
  · obtain ⟨-, he⟩ | ⟨p, -, -, he⟩ | ⟨p, hp, hs, he⟩ := parse_cases l token
    · rw [he] at h
      cases h
    · rw [he] at h
      cases h
    · rw [he, Parts.toRoll_eq_ok_iff hp.1 hs] at h
      exact ⟨p, hp, hs, Parts.firstFailing_checks_eq_none_iff.mp h.1, h.2⟩
  · rintro ⟨p, hp, hs, hin, hr⟩
    rw [parse_of_sides hp hs, Parts.toRoll_eq_ok_iff hp.1 hs]
    exact ⟨Parts.firstFailing_checks_eq_none_iff.mpr hin, hr⟩

/-- Leading zeros count as digits only, and a written zero is not an absent part. -/
example : parse "04D006R1h3-0" = .ok ⟨6, 4, some 1, some ⟨.high, 3⟩, some 0, by decide⟩ := by rfl

/-! ## 4. What is wrong -/

/-- An error in the numbers is that of the first failing check, which is about a number. -/
theorem Parts.toRoll_eq_error_iff_split {e : Error} (hp : p.Lawful) (hs : p.sides ≠ []) :
    p.toRoll = .error e ↔
      ∃ before c after, p.checks = before ++ c :: after ∧ (∀ b ∈ before, b.passes = true) ∧
        c.passes = false ∧ .badNumber c.component (String.ofList c.text) c.reason = e := by
  rw [Parts.toRoll_eq_error_iff hp hs]
  constructor
  · rintro ⟨c, hc, rfl⟩
    obtain ⟨before, after, hcs, hb, hf⟩ := firstFailing_eq_some_iff.mp hc
    exact ⟨before, c, after, hcs, hb, hf, rfl⟩
  · rintro ⟨before, c, after, hcs, hb, hf, rfl⟩
    exact ⟨c, firstFailing_eq_some_iff.mpr ⟨before, after, hcs, hb, hf⟩, rfl⟩

theorem Parts.exists_badNumber {e : Error} (hp : p.Lawful) (hs : p.sides ≠ [])
    (h : p.toRoll = .error e) : ∃ component text reason, e = .badNumber component text reason := by
  obtain ⟨-, c, -, -, -, -, rfl⟩ := (Parts.toRoll_eq_error_iff_split hp hs).mp h
  exact ⟨c.component, String.ofList c.text, c.reason, rfl⟩

theorem parse_error_cases {e : Error} (h : parse token = .error e) :
    e = .malformed token ∨ e = .missingDie token ∨
      ∃ component text reason, e = .badNumber component text reason := by
  obtain ⟨-, he⟩ | ⟨p, -, -, he⟩ | ⟨p, hp, hs, he⟩ := parse_cases .asciiOnly token
  · rw [he] at h
    cases h
    exact Or.inl rfl
  · rw [he] at h
    cases h
    exact Or.inr (Or.inl rfl)
  · rw [he] at h
    exact Or.inr (Or.inr (Parts.exists_badNumber hp.1 hs h))

theorem parse_eq_malformed_iff (l : LowerCase) :
    parse token = .error (.malformed token) ↔ ∀ p : Parts, ¬p.Spells (l.text token.toList) := by
  refine ⟨fun h => ?_, parse_of_not_spells⟩
  obtain ⟨hn, -⟩ | ⟨p, -, -, he⟩ | ⟨p, hp, hs, he⟩ := parse_cases l token
  · exact hn
  · rw [he] at h
    cases h
  · rw [he] at h
    obtain ⟨_, _, _, hb⟩ := Parts.exists_badNumber hp.1 hs h
    cases hb

theorem parse_eq_missingDie_iff (l : LowerCase) :
    parse token = .error (.missingDie token) ↔
      ∃ p : Parts, p.Spells (l.text token.toList) ∧ p.sides = [] := by
  constructor
  · intro h
    obtain ⟨-, he⟩ | ⟨p, hp, hs, -⟩ | ⟨p, hp, hs, he⟩ := parse_cases l token
    · rw [he] at h
      cases h
    · exact ⟨p, hp, hs⟩
    · rw [he] at h
      obtain ⟨_, _, _, hb⟩ := Parts.exists_badNumber hp.1 hs h
      cases hb
  · rintro ⟨p, hp, hs⟩
    exact parse_of_no_sides hp hs

theorem parse_eq_badNumber_iff (l : LowerCase) {component text : String} {reason : Reason} :
    parse token = .error (.badNumber component text reason) ↔
      ∃ p : Parts, p.Spells (l.text token.toList) ∧ p.sides ≠ [] ∧
        ∃ before c after, p.checks = before ++ c :: after ∧ (∀ b ∈ before, b.passes = true) ∧
          c.passes = false ∧
          .badNumber c.component (String.ofList c.text) c.reason
            = Error.badNumber component text reason := by
  constructor
  · intro h
    obtain ⟨-, he⟩ | ⟨p, -, -, he⟩ | ⟨p, hp, hs, he⟩ := parse_cases l token
    · rw [he] at h
      cases h
    · rw [he] at h
      cases h
    · rw [he] at h
      exact ⟨p, hp, hs, (Parts.toRoll_eq_error_iff_split hp.1 hs).mp h⟩
  · rintro ⟨p, hp, hs, hc⟩
    rw [parse_of_sides hp hs]
    exact (Parts.toRoll_eq_error_iff_split hp.1 hs).mpr hc

/-- **Every way in which a token fails.**  It is malformed, and reported as it was given, exactly
if nothing spells it; it has no die exactly if it is spelled without sides, whatever its other
parts are; and a number is bad exactly if the token is spelled with sides and that number is the
one of the first failing check.  There is no other error, and no guard behind the checks ever
strikes. -/
theorem parse_eq_error_iff (l : LowerCase) (token : String) :
    (∀ e, parse token = .error e → e = .malformed token ∨ e = .missingDie token ∨
      ∃ component text reason, e = .badNumber component text reason) ∧
    (parse token = .error (.malformed token) ↔
      ∀ p : Parts, ¬p.Spells (l.text token.toList)) ∧
    (parse token = .error (.missingDie token) ↔
      ∃ p : Parts, p.Spells (l.text token.toList) ∧ p.sides = []) ∧
    (∀ component text reason, parse token = .error (.badNumber component text reason) ↔
      ∃ p : Parts, p.Spells (l.text token.toList) ∧ p.sides ≠ [] ∧
        ∃ before c after, p.checks = before ++ c :: after ∧ (∀ b ∈ before, b.passes = true) ∧
          c.passes = false ∧
          .badNumber c.component (String.ofList c.text) c.reason
            = Error.badNumber component text reason) ∧
    parseGuarded token = (parse token).mapError .token :=
  ⟨fun _ => parse_error_cases, parse_eq_malformed_iff l, parse_eq_missingDie_iff l,
    fun _ _ _ => parse_eq_badNumber_iff l, parseGuarded_eq token⟩

/-- Of several bad numbers the sides are told first, and the limit on the number of dice last. -/
example : parse "5000d0r4294967296" = .error (.badNumber "die size" "0" .zeroSides) ∧
    parse "5000d6r4294967296" = .error (.badNumber "reroll" "4294967296" .outOfRange) := by
  exact ⟨rfl, rfl⟩

end Dice.Notation
