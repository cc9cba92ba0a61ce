/-
# White space, stripping and words

A character is blank when it is white space in the sense of Unicode's bidirectional and
space-separator classes: the controls U+0009 to U+000D and U+001C to U+001F, the space, the next
line control, the no-break and ideographic spaces, the typographic spaces and the two separators.

* `strip` removes what is blank at both ends of a text and nothing in between;
* `words` cuts a text at its runs of blank characters.  No word is empty (`words_ne_nil`), and the
  words on the two sides of a blank have nothing to do with each other (`words_append_blank`).
-/
namespace Dice.Text

/-! ## 1. Sets of characters as ranges of code points -/

/-- Membership in a table of closed ranges of code points. -/
def inRanges (table : List (Nat × Nat)) (c : Char) : Bool :=
  table.any fun r => r.1 ≤ c.toNat && c.toNat ≤ r.2

/-- The white space characters, as closed ranges of code points. -/
def blankRanges : List (Nat × Nat) :=
  [(0x09, 0x0d), (0x1c, 0x20), (0x85, 0x85), (0xa0, 0xa0), (0x1680, 0x1680), (0x2000, 0x200a),
   (0x2028, 0x2029), (0x202f, 0x202f), (0x205f, 0x205f), (0x3000, 0x3000)]

/-- White space, of which a space, a tab and a line end are the usual ones. -/
def isBlank (c : Char) : Bool := inRanges blankRanges c

/-! ## 2. Stripping -/

/-- Drops from both ends the characters that satisfy `p`. -/
def stripBy (p : Char → Bool) (cs : List Char) : List Char :=
  ((cs.dropWhile p).reverse.dropWhile p).reverse

/-- Drops the white space at both ends. -/
def strip (cs : List Char) : List Char := stripBy isBlank cs

@[simp] theorem stripBy_nil (p : Char → Bool) : stripBy p [] = [] := rfl

/-! ## 3. Words -/

/-- A text cut at its blanks: the characters before the first blank, and the words after it. -/
structure Cut where
  head : List Char
  words : List (List Char)
  deriving Repr, DecidableEq

/-- All words of a cut text: its head is one of them unless it is empty. -/
def Cut.all (t : Cut) : List (List Char) :=
  if t.head.isEmpty then t.words else t.head :: t.words

/-- Puts a character in front of a cut text. -/
def Cut.push (c : Char) (t : Cut) : Cut :=
  if isBlank c then ⟨[], t.all⟩ else ⟨c :: t.head, t.words⟩

/-- Cuts a text at its blanks. -/
def cut : List Char → Cut
  | [] => ⟨[], []⟩
  | c :: cs => (cut cs).push c

/-- The maximal runs of characters that are not blank, in order. -/
def words (cs : List Char) : List (List Char) := (cut cs).all

theorem Cut.mem_all {t : Cut} {w : List Char} (h : w ∈ t.all) :
    w ∈ t.words ∨ (w = t.head ∧ w ≠ []) := by
  unfold Cut.all at h
  split at h
  · exact Or.inl h
  · rename_i ht
    rcases List.mem_cons.mp h with rfl | h
    · exact Or.inr ⟨rfl, fun e => ht (by simp [e])⟩
    · exact Or.inl h

theorem ne_nil_of_mem_cut {w : List Char} : ∀ {cs : List Char}, w ∈ (cut cs).words → w ≠ []
  | [], h => by simp [cut] at h
  | c :: cs, h => by
    unfold cut Cut.push at h
    split at h
    · rcases Cut.mem_all h with h | ⟨-, h⟩
      · exact ne_nil_of_mem_cut h
      · exact h
    · exact ne_nil_of_mem_cut h

/-- A blank ends the word before it. -/
theorem cut_append_blank {c : Char} (hc : isBlank c = true) (y : List Char) :
    ∀ x, cut (x ++ c :: y) = ⟨(cut x).head, (cut x).words ++ words y⟩
  | [] => by simp [cut, Cut.push, hc, words]
  | a :: x => by
    by_cases ha : isBlank a
    · by_cases hx : (cut x).head = [] <;>
        simp [cut, Cut.push, Cut.all, ha, hx, cut_append_blank hc y x]
    · simp [cut, Cut.push, ha, cut_append_blank hc y x]

/-- **Words split at a blank.** -/
theorem words_append_blank {c : Char} (hc : isBlank c = true) (x y : List Char) :
    words (x ++ c :: y) = words x ++ words y := by
  by_cases hx : (cut x).head = [] <;>
    simp [words, Cut.all, hx, cut_append_blank hc y x]

/-- No word is empty. -/
theorem words_ne_nil {cs w : List Char} (h : w ∈ words cs) : w ≠ [] := by
  rcases Cut.mem_all h with h | ⟨-, h⟩
  · exact ne_nil_of_mem_cut h
  · exact h

end Dice.Text
