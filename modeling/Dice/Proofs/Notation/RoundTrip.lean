/-
# Writing a roll and reading it again

The notation of a roll is spelled by its own parts (`Roll.parts`), unless its reroll threshold is
negative: then a minus sign stands where a digit has to, and nothing spells the text.  So what comes
back is settled by the ranges of the numbers alone.

* `parse_text_iff`: a roll is read back from its notation exactly if all its numbers are within
  the limits of tokens, and otherwise nothing is read;
* for rolls that were themselves read from a token this is always so.

Numbers may have any length here.  The digits are compared only through their values.
-/
import Dice.Proofs.Notation.Reading

namespace Dice

open Dice.Numeral Dice.Notation

namespace Roll

/-! ## 1. Limits -/

/-- Every number of the roll is one that a token can have. -/
structure InLimits (r : Roll) : Prop where
  number : r.number ≤ 1000
  sides : r.sides ≤ 2 ^ 32 - 1
  reroll : ∀ n, r.reroll = some n → 0 ≤ n ∧ n ≤ 2 ^ 32 - 1
  keep : ∀ k, r.keep = some k → k.count ≤ 2 ^ 32 - 1
  modifier : ∀ n, r.modifier = some n → -2 ^ 31 ≤ n ∧ n ≤ 2 ^ 31 - 1

/-- So is what the roll adds if nothing is said. -/
theorem InLimits.modifier_getD {r : Roll} (h : r.InLimits) :
    -2 ^ 31 ≤ r.modifier.getD 0 ∧ r.modifier.getD 0 ≤ 2 ^ 31 - 1 := by
  cases hm : r.modifier with
  | none => decide
  | some n => exact h.modifier n hm

/-- What is denoted by parts in range is within the limits. -/
theorem inLimits_of_denotes {p : Parts} {r : Roll} (hin : p.InRange) (hr : p.Denotes r) :
    r.InLimits where
  number := by
    have h := hin.number.2
    rw [hr.number, Parts.count]
    split
    · decide
    · exact h
  sides := hr.sides ▸ hin.sides.2.2
  reroll := fun n hn => by
    rw [hr.reroll] at hn
    obtain ⟨ds, hd, rfl⟩ := Option.map_eq_some_iff.mp hn
    have := (hin.reroll ds hd).2
    omega
  keep := fun k hk => by
    rw [hr.keep] at hk
    obtain ⟨⟨d, ds⟩, hd, rfl⟩ := Option.map_eq_some_iff.mp hk
    exact (hin.keep d ds hd).2
  modifier := fun n hn => by
    rw [hr.modifier] at hn
    obtain ⟨⟨s, ds⟩, hd, rfl⟩ := Option.map_eq_some_iff.mp hn
    exact (hin.modifier s ds hd).2

/-! ## 2. The parts of a roll -/

/-- The sign of an integer. -/
def signChar (n : Int) : Char := if n < 0 then '-' else '+'

/-- A roll in parts.  The threshold is written without its sign. -/
def parts (r : Roll) : Parts where
  number := r.numberChars
  sides := natText r.sides
  reroll := r.reroll.map fun n => natText n.toNat
  keep := r.keep.map fun k => (k.direction, natText k.count)
  modifier := r.modifier.map fun n => (signChar n, natText n.natAbs)

theorem isRun_natText (n : Nat) : IsRun (natText n) := ⟨natText_ne_nil n, isDigits_natText n⟩

theorem isDigits_numberChars (r : Roll) : IsDigits r.numberChars := by
  unfold numberChars
  split
  · exact isDigits_nil
  · exact isDigits_natText _

theorem intText_of_nonneg {n : Int} (h : 0 ≤ n) : intText n = natText n.toNat := by
  cases n with
  | ofNat n => rfl
  | negSucc n => omega

theorem intText_of_neg {n : Int} (h : n < 0) : intText n = '-' :: natText n.natAbs := by
  cases n with
  | ofNat n =>
    have : (0 : Int) ≤ .ofNat n := Int.natCast_nonneg n
    omega
  | negSucc n => rfl

theorem signedText_eq (n : Int) : signedText n = signChar n :: natText n.natAbs := by
  unfold signedText signChar
  split
  · rename_i h
    exact intText_of_neg h
  · rename_i h
    rw [intText_of_nonneg (by omega), show n.toNat = n.natAbs by omega]

/-- The sign and the digits of an integer denote it. -/
theorem signedValue_signChar (n : Int) : signedValue (signChar n) (natText n.natAbs) = n := by
  rw [signedValue, value_natText, signed, signChar]
  by_cases h : n < 0
  · rw [if_pos h, if_pos (beq_self_eq_true '-')]
    omega
  · rw [if_neg h, if_neg (by decide)]
    omega

/-- The parts of every roll are lawful. -/
theorem lawful_parts (r : Roll) : r.parts.Lawful where
  number := r.isDigits_numberChars
  sides := isDigits_natText _
  reroll := fun ds hd => by
    obtain ⟨n, -, rfl⟩ := Option.map_eq_some_iff.mp hd
    exact isRun_natText _
  keep := fun d ds hd => by
    obtain ⟨k, -, hk⟩ := Option.map_eq_some_iff.mp hd
    cases hk
    exact isRun_natText _
  modifier := fun s ds hd => by
    obtain ⟨n, -, hn⟩ := Option.map_eq_some_iff.mp hd
    cases hn
    refine ⟨?_, isRun_natText _⟩
    unfold signChar
    split
    · exact Or.inr rfl
    · exact Or.inl rfl

/-- **The parts of a roll write its notation**, unless its threshold is negative. -/
theorem chars_parts {r : Roll} (h : ∀ n, r.reroll = some n → 0 ≤ n) : r.parts.chars = r.chars := by
  have hr : r.parts.rerollChars = r.rerollChars := by
    cases hn : r.reroll with
    | none => simp only [Parts.rerollChars, rerollChars, parts, hn, Option.map_none, markedChars]
    | some n =>
      simp only [Parts.rerollChars, rerollChars, parts, hn, Option.map_some, markedChars,
        intText_of_nonneg (h n hn)]
  have hk : r.parts.keepChars = r.keepChars := by
    unfold Parts.keepChars keepChars parts
    cases r.keep <;> rfl
  have hm : r.parts.modifierChars = r.modifierChars := by
    cases hn : r.modifier with
    | none => simp only [Parts.modifierChars, modifierChars, parts, hn, Option.map_none, markedChars]
    | some n =>
      simp only [Parts.modifierChars, modifierChars, parts, hn, Option.map_some, markedChars,
        signedText_eq]
      rfl
  rw [Parts.chars, hr, hk, hm, chars]
  simp only [parts, List.append_assoc, List.cons_append]

/-- The parts of a roll denote it, unless its threshold is negative. -/
theorem denotes_parts {r : Roll} (h : ∀ n, r.reroll = some n → 0 ≤ n) : r.parts.Denotes r where
  sides := (value_natText r.sides).symm
  number := by
    unfold Parts.count parts numberChars
    by_cases h1 : r.number = 1
    · simp [h1]
    · simp [h1, natText_ne_nil]
  reroll := by
    cases hn : r.reroll with
    | none => simp [parts, hn]
    | some n =>
      have := h n hn
      simp only [parts, hn, Option.map_some, value_natText]
      rw [Int.toNat_of_nonneg this]
  keep := by
    cases hk : r.keep with
    | none => simp [parts, hk]
    | some k => simp [parts, hk]
  modifier := by
    cases hm : r.modifier with
    | none => simp [parts, hm]
    | some n => simp [parts, hm, signedValue_signChar]

/-- A number within the limits has few digits. -/
theorem length_natText_le_of_lt {n : Nat} (h : n ≤ 2 ^ 32 - 1) : (natText n).length ≤ 4300 := by
  have := length_natText_le (n := n) (k := 10) (by decide) (by omega)
  omega

/-- **The parts of a roll are in range exactly if the roll is within the limits.** -/
theorem inRange_parts {r : Roll} (h : r.InLimits) : r.parts.InRange where
  number := by
    have hn := h.number
    simp only [parts, numberChars]
    split
    · decide
    · rw [value_natText]
      exact ⟨length_natText_le_of_lt (by omega), hn⟩
  sides := by
    have hpos := r.sides_pos
    simp only [parts, value_natText]
    exact ⟨length_natText_le_of_lt h.sides, hpos, h.sides⟩
  reroll := fun ds hd => by
    obtain ⟨n, hn, rfl⟩ := Option.map_eq_some_iff.mp hd
    have := h.reroll n hn
    rw [value_natText]
    exact ⟨length_natText_le_of_lt (by omega), by omega⟩
  keep := fun d ds hd => by
    obtain ⟨k, hk, heq⟩ := Option.map_eq_some_iff.mp hd
    cases heq
    rw [value_natText]
    exact ⟨length_natText_le_of_lt (h.keep k hk), h.keep k hk⟩
  modifier := fun s ds hd => by
    obtain ⟨n, hn, heq⟩ := Option.map_eq_some_iff.mp hd
    cases heq
    have := h.modifier n hn
    rw [signedValue_signChar]
    exact ⟨length_natText_le_of_lt (by omega), this⟩

/-! ## 3. What is read from the notation of a roll -/

theorem isFormChar_of_mem_intText {n : Int} {c : Char} (h : c ∈ intText n) :
    isFormChar c = true := by
  by_cases hn : n < 0
  · rw [intText_of_neg hn] at h
    rcases List.mem_cons.mp h with rfl | h
    · rfl
    · exact isFormChar_of_isDigit (isDigits_natText _ c h)
  · rw [intText_of_nonneg (by omega)] at h
    exact isFormChar_of_isDigit (isDigits_natText _ c h)

/-- The notation of a roll is in lower case. -/
theorem isFormChar_of_mem_chars (r : Roll) : ∀ c ∈ r.chars, isFormChar c = true := by
  have hd : ∀ n, ∀ c ∈ natText n, isFormChar c = true := fun n c hc =>
    isFormChar_of_isDigit (isDigits_natText n c hc)
  intro c hc
  simp only [chars, List.mem_append, List.mem_cons] at hc
  rcases hc with (((hc | rfl | hc) | hc) | hc) | hc
  · exact isFormChar_of_isDigit (r.isDigits_numberChars c hc)
  · rfl
  · exact hd _ c hc
  · unfold rerollChars at hc
    split at hc
    · cases hc
    · rcases List.mem_cons.mp hc with rfl | hc
      · rfl
      · exact isFormChar_of_mem_intText hc
  · unfold keepChars Keep.chars at hc
    split at hc
    · cases hc
    · rename_i k _
      rcases List.mem_cons.mp hc with rfl | hc
      · cases k.direction <;> rfl
      · exact hd _ c hc
  · unfold modifierChars at hc
    split at hc
    · cases hc
    · rename_i n _
      rw [signedText_eq] at hc
      rcases List.mem_cons.mp hc with rfl | hc
      · unfold signChar
        split <;> rfl
      · exact hd _ c hc

theorem map_toLower_chars (r : Roll) : r.chars.map Char.toLower = r.chars := by
  rw [List.map_congr_left fun c hc => toLower_of_isFormChar (r.isFormChar_of_mem_chars c hc)]
  exact List.map_id' r.chars

/-- A negative threshold cannot be read: no digit follows the mark of the reroll. -/
theorem scan_chars_of_neg {r : Roll} {n : Int} (hr : r.reroll = some n) (hn : n < 0) :
    Parts.scan r.chars = none := by
  have hd : ∀ cs, NoDigit ('-' :: cs) := fun cs => noDigit_cons (by decide)
  have hnd : ∀ cs, NoDigit ('r' :: cs) := fun cs => noDigit_cons (by decide)
  have hc : r.chars = r.numberChars ++ 'd' :: (natText r.sides ++
      ('r' :: '-' :: (natText n.natAbs ++ (r.keepChars ++ r.modifierChars)))) := by
    simp only [chars, rerollChars, hr, intText_of_neg hn, List.append_assoc, List.cons_append]
  have hf : ∀ cs, markedPart rerollMark ('r' :: '-' :: cs) = none := fun cs =>
    markedPart_fault (a := ()) rfl (hd cs)
  rw [hc, Parts.scan_append r.isDigits_numberChars (isDigits_natText _) (hnd _),
    Parts.scanMarked, hf]
  rfl

/-- Without a negative threshold a roll is spelled by its parts. -/
theorem spells_parts {r : Roll} (h : ∀ n, r.reroll = some n → 0 ≤ n) :
    r.parts.Spells (LowerCase.asciiOnly.text r.text.toList) := by
  refine ⟨r.lawful_parts, ?_⟩
  rw [LowerCase.text_asciiOnly, text, String.toList_ofList, map_toLower_chars, chars_parts h]

/-- **A roll within the limits is read back.** -/
theorem parse_text_of_inLimits {r : Roll} (h : r.InLimits) : parse r.text = .ok r := by
  have hr : ∀ n, r.reroll = some n → 0 ≤ n := fun n hn => (h.reroll n hn).1
  have hs : r.parts.sides ≠ [] := natText_ne_nil _
  rw [parse_of_sides (spells_parts hr) hs, Parts.toRoll_eq_ok_iff r.lawful_parts hs]
  exact ⟨Parts.firstFailing_checks_eq_none_iff.mpr (inRange_parts h), denotes_parts hr⟩

/-- What is read from the notation of a roll is that roll, and it is within the limits. -/
theorem eq_of_parse_text {r r' : Roll} (h : parse r.text = .ok r') : r' = r ∧ r.InLimits := by
  by_cases hr : ∀ n, r.reroll = some n → 0 ≤ n
  · have hs : r.parts.sides ≠ [] := natText_ne_nil _
    rw [parse_of_sides (spells_parts hr) hs, Parts.toRoll_eq_ok_iff r.lawful_parts hs] at h
    have hin := Parts.firstFailing_checks_eq_none_iff.mp h.1
    exact ⟨h.2.unique (denotes_parts hr), inLimits_of_denotes hin (denotes_parts hr)⟩
  · obtain ⟨n, hn⟩ := Classical.not_forall.mp hr
    obtain ⟨hn, hneg⟩ := Classical.not_imp.mp hn
    have hscan := scan_chars_of_neg hn (Int.not_le.mp hneg)
    rw [parse, text, String.toList_ofList, map_toLower_chars, hscan] at h
    cases h

/-- A roll that was read is within the limits. -/
theorem inLimits_of_parse {token : String} {r : Roll} (h : parse token = .ok r) :
    r.InLimits := by
  obtain ⟨-, he⟩ | ⟨p, -, -, he⟩ | ⟨p, hp, hs, he⟩ := parse_cases .asciiOnly token
  · rw [he] at h
    cases h
  · rw [he] at h
    cases h
  · rw [he, Parts.toRoll_eq_ok_iff hp.1 hs] at h
    exact inLimits_of_denotes (Parts.firstFailing_checks_eq_none_iff.mp h.1) h.2

/-- **The notation round trip.**  A roll is read back from its notation exactly if it is within the
limits of tokens.  For every other roll reading fails, so no other roll is ever read.  And whatever
was read from a token is read again from its notation. -/
theorem parse_text_iff :
    (∀ r : Roll, (parse r.text = .ok r ↔ r.InLimits) ∧
      (¬r.InLimits → ∃ e, parse r.text = .error e)) ∧
    ∀ (token : String) (r : Roll), parse token = .ok r → parse r.text = .ok r := by
  refine ⟨fun r => ⟨⟨fun h => (eq_of_parse_text h).2, parse_text_of_inLimits⟩, fun hn => ?_⟩,
    fun token r h => parse_text_of_inLimits (inLimits_of_parse h)⟩
  cases h : parse r.text with
  | error e => exact ⟨e, rfl⟩
  | ok r' => exact absurd (eq_of_parse_text h).2 hn

end Roll
end Dice
