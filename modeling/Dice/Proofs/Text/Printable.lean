/-
# Printable texts

A text of printable characters has no controls and no line breaks, whoever takes them for such.  And
whatever a text in quotes quotes, it is printable.

* `Printable.notMem_lineBreaks`: **what is printable is on one line**;
* `printable_quote`: **a text in quotes is printable**;
* `PlainEnd`: what makes a plain line of any printable text that it is put behind.
-/
import Dice.Text.Quoted
import Dice.Text.Printable

namespace Dice.Text

/-! ## 1. Printable characters -/

@[simp] theorem printable_nil : Printable [] := fun _ h => absurd h List.not_mem_nil

@[simp] theorem printable_cons {c : Char} {cs : List Char} :
    Printable (c :: cs) ↔ isPrintable c = true ∧ Printable cs :=
  List.forall_mem_cons

@[simp] theorem printable_append {cs ds : List Char} :
    Printable (cs ++ ds) ↔ Printable cs ∧ Printable ds :=
  List.forall_mem_append

/-- What is in ASCII behind the controls is printable. -/
theorem isPrintable_of_ascii {c : Char} (hlow : 0x20 ≤ c.toNat) (hhigh : c.toNat < 0x7f) :
    isPrintable c = true := by
  simp [isPrintable, hlow, hhigh]

/-- A character that is printable is no control character. -/
theorem toNat_of_isPrintable {c : Char} (h : isPrintable c = true) : 0x20 ≤ c.toNat := by
  refine Nat.le_of_not_lt fun hlt => ?_
  have hfirst : (0x0, 0x1f) ∈ unprintableRanges := List.mem_cons_self
  have hrange : inRanges unprintableRanges c = true := by
    refine List.any_eq_true.mpr ⟨(0x0, 0x1f), hfirst, ?_⟩
    simp only [Bool.and_eq_true, decide_eq_true_eq]
    omega
  rw [isPrintable, hrange, Bool.not_true, Bool.or_false, Bool.and_eq_true, decide_eq_true_eq] at h
  omega

theorem Printable.newline_notMem {cs : List Char} (h : Printable cs) : '\n' ∉ cs :=
  fun hmem => absurd (toNat_of_isPrintable (h _ hmem)) (by decide)

/-! ## 2. Line breaks -/

/-- The characters at which one reader of texts or another ends a line: line feed, vertical tab,
form feed and carriage return, the separators of files, groups and records, the next line control,
and the separators of lines and paragraphs. -/
def lineBreaks : List Char :=
  [0x0a, 0x0b, 0x0c, 0x0d, 0x1c, 0x1d, 0x1e, 0x85, 0x2028, 0x2029].map Char.ofNat

theorem isPrintable_of_mem_lineBreaks : ∀ b ∈ lineBreaks, isPrintable b = false :=
  List.forall_mem_map.mpr (by decide +kernel)

/-- **What is printable has no line breaks.** -/
theorem Printable.notMem_lineBreaks {cs : List Char} (h : Printable cs) {b : Char}
    (hb : b ∈ lineBreaks) : b ∉ cs := by
  intro hmem
  have hprintable := h b hmem
  rw [isPrintable_of_mem_lineBreaks b hb] at hprintable
  cases hprintable

/-! ## 3. Texts in quotes -/

theorem printable_hexDigits : ∀ width n : Nat, Printable (hexDigits width n)
  | 0, _ => printable_nil
  | w + 1, n => by
    have hdigit : ∀ d < 16, isPrintable (Nat.digitChar d) = true := by decide
    rw [hexDigits, printable_append, printable_cons]
    exact ⟨printable_hexDigits w (n / 16), hdigit _ (Nat.mod_lt n (by decide)), printable_nil⟩

theorem printable_codePointEscape (n : Nat) : Printable (codePointEscape n) := by
  have hletter : ∀ c ∈ ['x', 'u', 'U'], isPrintable c = true := by simp [isPrintable]
  unfold codePointEscape
  split
  · simp [printable_hexDigits, hletter]
  · split
    · simp [printable_hexDigits, hletter]
    · simp [printable_hexDigits, hletter]

/-- A character between quotes: marks and backslashes are escaped, and so is what is not
printable. -/
theorem printable_quotedChar {mark : Char} (hmark : isPrintable mark = true) (c : Char) :
    Printable (quotedChar mark c) := by
  have hplain : ∀ d ∈ ['\\', 't', 'n', 'r'], isPrintable d = true := by simp [isPrintable]
  unfold quotedChar
  split
  · rename_i hescaped
    have hc : isPrintable c = true := by
      rcases Bool.or_eq_true _ _ ▸ hescaped with h | h
      · exact of_decide_eq_true h ▸ hmark
      · exact of_decide_eq_true h ▸ by decide
    simp [hc, hplain]
  · split
    · simp [hplain]
    · split
      · simp [hplain]
      · split
        · simp [hplain]
        · split
          · rename_i hprintable
            simp [hprintable]
          · simp [printable_codePointEscape, hplain]

/-- **A text in quotes is printable**, whatever it quotes. -/
theorem printable_quote (s : String) : Printable (quote s).toList := by
  have hmark : isPrintable (quoteMark s.toList) = true := by
    unfold quoteMark
    split
    · decide
    · decide
  have hinside : Printable (s.toList.flatMap (quotedChar (quoteMark s.toList))) := by
    intro c hc
    obtain ⟨d, -, hc⟩ := List.mem_flatMap.mp hc
    exact printable_quotedChar hmark d c hc
  simp [quote, hmark, hinside]

/-! ## 4. Plain lines -/

/-- A printable text that ends in a character other than the space. -/
def PlainEnd (text : String) : Prop :=
  Printable text.toList ∧ ∃ c, text.toList.getLast? = some c ∧ c ≠ ' '

theorem PlainEnd.plainLine {text : String} (h : PlainEnd text) : PlainLine text := by
  obtain ⟨hprintable, c, hlast, hc⟩ := h
  refine ⟨hprintable, fun hspace => hc ?_⟩
  exact Option.some.inj (hlast.symm.trans hspace)

/-- **Behind a printable text** it makes a plain line. -/
theorem PlainEnd.append {text : String} (h : PlainEnd text) {front : String}
    (hfront : Printable front.toList) : PlainEnd (front ++ text) := by
  obtain ⟨hprintable, c, hlast, hc⟩ := h
  refine ⟨?_, c, ?_, hc⟩
  · rw [String.toList_append]
    exact printable_append.mpr ⟨hfront, hprintable⟩
  · rw [String.toList_append, List.getLast?_append, hlast, Option.some_or]

theorem plainEnd_of_notMem {text : String} (hprintable : Printable text.toList)
    (hne : text.toList ≠ []) (hspace : ' ' ∉ text.toList) : PlainEnd text := by
  refine ⟨hprintable, _, List.getLast?_eq_some_getLast hne, fun hlast => hspace ?_⟩
  exact hlast ▸ List.getLast_mem hne

theorem plainEnd_quote (s : String) : PlainEnd (quote s) := by
  refine ⟨printable_quote s, quoteMark s.toList, ?_, ?_⟩
  · rw [quote, String.toList_ofList]
    exact List.getLast?_concat
  · unfold quoteMark
    split <;> decide

end Dice.Text
