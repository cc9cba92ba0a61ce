/-
# Which texts are read as numbers

A number in a token is read between two bounds.  What is read, what is out of range and what is no
number at all follows from the literals of integers (`IsLiteralOf`), and so does the reason that an
error gives.

* `readsLiterals_readBetween`: all of it for any two bounds (`ReadsLiterals`);
* `isPadding_eq_true_iff`: the white space around a literal, in ASCII and beyond;
* `numbers_read_as_literals`: **the two kinds of numbers**, unsigned and signed.

Not all white space may stand around a number (`separator_not_stripped`): the four information
separators are not stripped from it, whatever script its digits are of.
-/
import Dice.Notation.Number
import Dice.Proofs.Numeral.Literal

namespace Dice.Notation

open Dice.Numeral

/-! ## 1. Between two bounds -/

section Between

variable {lo hi n : Int} {component text : String}

theorem readBetween_of_literal (h : IsLiteralOf isPadding text.toList n) :
    readBetween lo hi component text =
      if lo ≤ n ∧ n ≤ hi then .ok n else .error (.badNumber component text .outOfRange) := by
  rw [readBetween, read?_eq_some_iff_literal.mpr h]

theorem readBetween_of_no_literal (h : ∀ n, ¬IsLiteralOf isPadding text.toList n) :
    readBetween lo hi component text = .error (.badNumber component text .notANumeral) := by
  have hnone : read? text.toList = none :=
    Option.eq_none_iff_forall_ne_some.mpr fun n hn => h n (read?_eq_some_iff_literal.mp hn)
  rw [readBetween, hnone]

/-- **The two ways.**  A text is a literal of an integer, or it is no literal at all. -/
theorem readBetween_cases (lo hi : Int) (component text : String) :
    (∃ n, IsLiteralOf isPadding text.toList n ∧ readBetween lo hi component text =
      if lo ≤ n ∧ n ≤ hi then .ok n else .error (.badNumber component text .outOfRange)) ∨
    (∀ n, ¬IsLiteralOf isPadding text.toList n) ∧
      readBetween lo hi component text = .error (.badNumber component text .notANumeral) := by
  by_cases h : ∃ n, IsLiteralOf isPadding text.toList n
  · obtain ⟨n, hn⟩ := h
    exact .inl ⟨n, hn, readBetween_of_literal hn⟩
  · exact .inr ⟨not_exists.mp h, readBetween_of_no_literal (not_exists.mp h)⟩

theorem readBetween_eq_ok_iff :
    readBetween lo hi component text = .ok n ↔
      IsLiteralOf isPadding text.toList n ∧ lo ≤ n ∧ n ≤ hi := by
  constructor
  · intro h
    obtain ⟨m, hm, hread⟩ | ⟨-, hread⟩ := readBetween_cases lo hi component text
    · rw [hread] at h
      split_ifs at h with hin
      cases h
      exact ⟨hm, hin⟩
    · rw [hread] at h
      cases h
  · rintro ⟨hn, hin⟩
    rw [readBetween_of_literal hn, if_pos hin]

/-- Reading fails on a literal that is out of range, and on everything that is no literal. -/
theorem readBetween_eq_error_iff {e : Error} :
    readBetween lo hi component text = .error e ↔
      (e = .badNumber component text .outOfRange ∧
        ∃ n, IsLiteralOf isPadding text.toList n ∧ ¬(lo ≤ n ∧ n ≤ hi)) ∨
      (e = .badNumber component text .notANumeral ∧
        ∀ n, ¬IsLiteralOf isPadding text.toList n) := by
  constructor
  · intro h
    obtain ⟨m, hm, hread⟩ | ⟨hnone, hread⟩ := readBetween_cases lo hi component text
    · rw [hread] at h
      split_ifs at h with hin
      cases h
      exact .inl ⟨rfl, m, hm, hin⟩
    · rw [hread] at h
      cases h
      exact .inr ⟨rfl, hnone⟩
  · rintro (⟨rfl, n, hn, hout⟩ | ⟨rfl, hnone⟩)
    · rw [readBetween_of_literal hn, if_neg hout]
    · exact readBetween_of_no_literal hnone

end Between

/-! ## 2. What a reader of numbers has to do -/

/-- The words by which a reason is known.  No other reason has the same. -/
theorem words_eq_outOfRange_iff {reason : Reason} :
    reason.words = some "out of range" ↔ reason = .outOfRange := by
  cases reason <;> decide

theorem words_eq_none_iff {reason : Reason} : reason.words = none ↔ reason = .notANumeral := by
  cases reason <;> decide

/-- **How numbers between two bounds are read.**  A text is read as the integer of which it is a
literal, if that is in range.  Otherwise the error holds what was read, and its reason is that the
integer is out of range, or there is no reason if there is no integer.  An integer in range that is
written with leading zeroes is read back. -/
structure ReadsLiterals (lo hi : Int) (read : String → String → Except Error Int) : Prop where
  ok_iff : ∀ component text n, read component text = .ok n ↔
    IsLiteralOf isPadding text.toList n ∧ lo ≤ n ∧ n ≤ hi
  error_iff : ∀ component text e, read component text = .error e ↔
    ∃ reason, e = .badNumber component text reason ∧
      ((reason.words = some "out of range" ∧
          ∃ n, IsLiteralOf isPadding text.toList n ∧ ¬(lo ≤ n ∧ n ≤ hi)) ∨
        (reason.words = none ∧ ∀ n, ¬IsLiteralOf isPadding text.toList n))
  zeroPadded : ∀ component zeroes n, lo ≤ n → n ≤ hi →
    zeroes + (natText n.natAbs).length ≤ maxDigits →
      read component (String.ofList (Numeral.zeroPadded zeroes n)) = .ok n

theorem readsLiterals_readBetween (lo hi : Int) : ReadsLiterals lo hi (readBetween lo hi) where
  ok_iff _ _ _ := readBetween_eq_ok_iff
  error_iff component text e := by
    simp only [readBetween_eq_error_iff, words_eq_outOfRange_iff, words_eq_none_iff]
    constructor
    · rintro (⟨he, hout⟩ | ⟨he, hnone⟩)
      · exact ⟨.outOfRange, he, .inl ⟨rfl, hout⟩⟩
      · exact ⟨.notANumeral, he, .inr ⟨rfl, hnone⟩⟩
    · rintro ⟨reason, he, ⟨rfl, hout⟩ | ⟨rfl, hnone⟩⟩
      · exact .inl ⟨he, hout⟩
      · exact .inr ⟨he, hnone⟩
  zeroPadded component zeroes n hlo hhi hlen := by
    rw [readBetween, String.toList_ofList, read?_zeroPadded hlen]
    exact if_pos ⟨hlo, hhi⟩

/-- An unsigned number as an integer. -/
theorem map_readUnsigned (component text : String) :
    (readUnsigned component text).map (fun n : Nat => (n : Int))
      = readBetween 0 maxUnsigned component text := by
  cases h : readBetween 0 maxUnsigned component text with
  | error e => rw [readUnsigned, h]; rfl
  | ok n =>
    have hn : (n.toNat : Int) = n := Int.toNat_of_nonneg (readBetween_eq_ok_iff.mp h).2.1
    rw [readUnsigned, h]
    exact congrArg Except.ok hn

/-! ## 3. White space -/

/-- The white space in ASCII. -/
def asciiBlanks : List Char := [' ', '\t', '\n', '\x0b', '\x0c', '\r']

/-- **The white space around a number.**  In ASCII these are six characters, and beyond it is
white space as everywhere. -/
theorem isPadding_eq_true_iff (c : Char) :
    isPadding c = true ↔ if c.toNat < 128 then c ∈ asciiBlanks else Text.isBlank c = true := by
  split_ifs with h
  · have hascii : ∀ n < 128, isPadding (Char.ofNat n) = true ↔ Char.ofNat n ∈ asciiBlanks := by
      decide +kernel
    have hc := hascii c.toNat h
    rwa [Char.ofNat_toNat] at hc
  · have hseparator : ¬c.toNat ≤ 0x1f := by omega
    simp [isPadding, hseparator]

/-! ## 4. Unsigned and signed numbers -/

/-- **Which texts are read as numbers.**  A text is read as an unsigned or a signed number exactly
if it is a literal of an integer in range.  The reason in an error tells a literal out of range from
what is no literal.  An integer in range is read back behind any leading zeroes for which there is
room.  Around a literal there may be six characters of ASCII, and beyond ASCII all white space. -/
theorem numbers_read_as_literals :
    ReadsLiterals 0 (2 ^ 32 - 1) (fun component text =>
      (readUnsigned component text).map fun n : Nat => (n : Int)) ∧
    ReadsLiterals (-2 ^ 31) (2 ^ 31 - 1) readSigned ∧
    ∀ c : Char, isPadding c = true ↔
      if c.toNat < 128 then c ∈ asciiBlanks else Text.isBlank c = true := by
  refine ⟨?_, readsLiterals_readBetween _ _, isPadding_eq_true_iff⟩
  have hread : (fun component text => (readUnsigned component text).map fun n : Nat => (n : Int))
      = readBetween 0 (2 ^ 32 - 1) := by
    funext component text
    exact map_readUnsigned component text
  rw [hread]
  exact readsLiterals_readBetween _ _

/-- A sign, underscores and digits of two scripts are read; two underscores are not. -/
example : readUnsigned "reroll" " -0_0\n" = .ok 0 ∧ readSigned "modifier" "+1\u0662_3" = .ok 123 ∧
    readUnsigned "reroll" "1__0" = .error (.badNumber "reroll" "1__0" .notANumeral) :=
  ⟨rfl, rfl, rfl⟩

/-- **An information separator is not stripped**, not even from a digit beyond ASCII, although it
is white space in front of a literal of three. -/
theorem separator_not_stripped :
    ("\x1c\u0663".toList.all fun c => c.toNat < 128) = false ∧
    IsLiteralOf Text.isBlank "\x1c\u0663".toList 3 ∧
    readUnsigned "die size" "\x1c\u0663"
      = .error (.badNumber "die size" "\x1c\u0663" .notANumeral) := by
  have hdigit : Text.IsDigitWorth '\u0663' 3 := ⟨by decide, 0x660, by decide, by decide⟩
  refine ⟨by decide, ⟨⟨['\x1c'], .absent, ['\u0663'], [3], [], ?_, ?_, .last hdigit⟩, ?_⟩, rfl⟩
  · exact List.forall_mem_singleton.mpr (by decide)
  · exact fun c hc => absurd hc List.not_mem_nil
  · exact ⟨rfl, Nat.le_of_ble_eq_true rfl, rfl⟩

end Dice.Notation
