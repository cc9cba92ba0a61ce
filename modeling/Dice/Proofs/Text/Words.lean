/-
# What words are made of

A word has no white space in it, and a text without white space is one word.  Stripping a text
leaves nothing blank at its ends, so what a stripped text starts with is what its first word starts
with.

* `noBlank_of_mem_words`: no word has white space in it;
* `words_intercalate`: words written with a blank between each two of them are found again;
* `head?_of_words_strip`: where the first word of a stripped text starts;
* `words_strip`: stripping takes no word away.
-/
import Dice.Text.Blank
import Mathlib.Data.List.DropRight

namespace Dice.Text

/-! ## 1. Words -/

/-- What is printed in ASCII is not white space. -/
theorem isBlank_eq_false {c : Char} (h1 : 0x21 ≤ c.toNat) (h2 : c.toNat ≤ 0x7e) :
    isBlank c = false := by
  simp only [isBlank, inRanges, blankRanges, List.any_cons, List.any_nil, Bool.or_false,
    Bool.or_eq_false_iff, Bool.and_eq_false_iff, decide_eq_false_iff_not]
  omega

/-- A text without white space. -/
def NoBlank (cs : List Char) : Prop := ∀ c ∈ cs, isBlank c = false

theorem noBlank_cons_iff {c : Char} {cs : List Char} :
    NoBlank (c :: cs) ↔ isBlank c = false ∧ NoBlank cs :=
  List.forall_mem_cons

/-- Neither the open word of a cut nor the words after it have white space in them. -/
theorem noBlank_cut : ∀ cs : List Char, NoBlank (cut cs).head ∧ ∀ w ∈ (cut cs).words, NoBlank w
  | [] => ⟨fun _ h => (List.not_mem_nil h).elim, fun _ h => (List.not_mem_nil h).elim⟩
  | c :: cs => by
    obtain ⟨hhead, hwords⟩ := noBlank_cut cs
    unfold cut Cut.push
    split
    · refine ⟨fun _ h => (List.not_mem_nil h).elim, fun w hw => ?_⟩
      rcases Cut.mem_all hw with hw | ⟨rfl, -⟩
      · exact hwords w hw
      · exact hhead
    · rename_i hc
      exact ⟨noBlank_cons_iff.mpr ⟨Bool.eq_false_iff.mpr hc, hhead⟩, hwords⟩

theorem noBlank_of_mem_words {cs w : List Char} (h : w ∈ words cs) : NoBlank w := by
  rcases Cut.mem_all h with h | ⟨rfl, -⟩
  · exact (noBlank_cut cs).2 w h
  · exact (noBlank_cut cs).1

/-- A text that does not start with white space starts with its first word. -/
theorem words_cons {c : Char} (hc : isBlank c = false) (cs : List Char) :
    words (c :: cs) = (c :: (cut cs).head) :: (cut cs).words := by
  simp [words, cut, Cut.push, Cut.all, hc]

/-- White space in front makes no word. -/
theorem words_cons_blank {c : Char} (hc : isBlank c = true) (cs : List Char) :
    words (c :: cs) = words cs :=
  words_append_blank hc [] cs

theorem cut_of_noBlank : ∀ {w : List Char}, NoBlank w → cut w = ⟨w, []⟩
  | [], _ => rfl
  | c :: w, h => by
    obtain ⟨hc, hw⟩ := noBlank_cons_iff.mp h
    simp [cut, cut_of_noBlank hw, Cut.push, hc]

/-- A text without white space is one word. -/
theorem words_of_noBlank {w : List Char} (hne : w ≠ []) (h : NoBlank w) : words w = [w] := by
  simp [words, cut_of_noBlank h, Cut.all, hne]

/-- **Words that are written in a row** are found again. -/
theorem words_intercalate {c : Char} (hc : isBlank c = true) :
    ∀ {ws : List (List Char)}, (∀ w ∈ ws, w ≠ [] ∧ NoBlank w) → words ([c].intercalate ws) = ws
  | [], _ => rfl
  | [w], h => by
    obtain ⟨hne, hw⟩ := h w List.mem_cons_self
    rw [List.intercalate_singleton, words_of_noBlank hne hw]
  | w :: w' :: ws, h => by
    obtain ⟨hne, hw⟩ := h w List.mem_cons_self
    have hothers := words_intercalate hc fun v hv => h v (List.mem_cons_of_mem w hv)
    rw [List.intercalate_cons_cons, List.append_assoc, List.singleton_append,
      words_append_blank hc, words_of_noBlank hne hw, hothers, List.singleton_append]

/-- What is true of all characters of a separator and of the texts between which it stands. -/
theorem forall_mem_intercalate {P : Char → Prop} {sep : List Char} (hsep : ∀ c ∈ sep, P c) :
    ∀ {ls : List (List Char)}, (∀ l ∈ ls, ∀ c ∈ l, P c) → ∀ c ∈ sep.intercalate ls, P c
  | [], _ => fun c hc => absurd hc List.not_mem_nil
  | [l], h => by
    rw [List.intercalate_singleton]
    exact h l List.mem_cons_self
  | l :: l' :: ls, h => by
    rw [List.intercalate_cons_cons, List.forall_mem_append, List.forall_mem_append]
    exact ⟨⟨h l List.mem_cons_self, hsep⟩,
      forall_mem_intercalate hsep fun k hk => h k (List.mem_cons_of_mem l hk)⟩

/-! ## 2. Stripping -/

theorem strip_eq_rdropWhile (cs : List Char) :
    strip cs = (cs.dropWhile isBlank).rdropWhile isBlank := rfl

/-- A stripped text does not start with white space. -/
theorem isBlank_of_head?_strip {cs : List Char} {c : Char} (h : (strip cs).head? = some c) :
    isBlank c = false := by
  rw [strip_eq_rdropWhile] at h
  obtain ⟨rest, hrest⟩ := List.rdropWhile_prefix isBlank (cs.dropWhile isBlank)
  have hhead : (cs.dropWhile isBlank).head? = some c := by
    rw [← hrest, List.head?_append, h, Option.some_or]
  have hnot := List.head?_dropWhile_not isBlank cs
  rw [hhead] at hnot
  exact hnot

/-- The first word of a stripped text starts where the text does. -/
theorem head?_of_words_strip {cs w : List Char} {ws : List (List Char)}
    (h : words (strip cs) = w :: ws) : w.head? = (strip cs).head? := by
  cases hs : strip cs with
  | nil =>
    rw [hs] at h
    cases h
  | cons c rest =>
    have hc : isBlank c = false := isBlank_of_head?_strip (by rw [hs]; rfl)
    rw [hs, words_cons hc] at h
    cases h
    rfl

theorem words_dropWhile : ∀ cs : List Char, words (cs.dropWhile isBlank) = words cs
  | [] => rfl
  | c :: cs => by
    by_cases hc : isBlank c = true
    · rw [List.dropWhile_cons_of_pos hc, words_dropWhile cs, words_cons_blank hc]
    · rw [List.dropWhile_cons_of_neg hc]

theorem words_rdropWhile (cs : List Char) : words (cs.rdropWhile isBlank) = words cs := by
  induction cs using List.reverseRecOn with
  | nil => rfl
  | append_singleton cs c ih =>
    by_cases hc : isBlank c = true
    · rw [List.rdropWhile_concat_pos isBlank cs c hc, ih, words_append_blank hc]
      exact (List.append_nil (words cs)).symm
    · rw [List.rdropWhile_concat_neg isBlank cs c hc]

/-- Stripping a text takes none of its words away. -/
theorem words_strip (cs : List Char) : words (strip cs) = words cs := by
  rw [strip_eq_rdropWhile, words_rdropWhile, words_dropWhile]

/-- A stripped text has a word in it, unless there is nothing left of it. -/
theorem words_strip_eq_nil_iff {cs : List Char} : words (strip cs) = [] ↔ strip cs = [] := by
  cases hs : strip cs with
  | nil => simp [words, cut, Cut.all]
  | cons c rest =>
    have hc : isBlank c = false := isBlank_of_head?_strip (by rw [hs]; rfl)
    simp [words_cons hc]

end Dice.Text
