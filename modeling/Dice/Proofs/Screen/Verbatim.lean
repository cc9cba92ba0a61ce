/-
# The screen shows plain lines as they are

The screen leaves out control characters and fills up tabs.  A plain line has neither, so the screen
is one of the consoles that can be relied on (`verbatim_screen`).
-/
import Dice.Proofs.Text.Printable
import Dice.Proofs.Text.Words
import Dice.Screen.Console

namespace Dice

open Text

namespace Screen

/-- A text without tabs has none to fill up. -/
theorem expandTabs_eq_self {cs : List Char} (h : '\t' ∉ cs) (before : List Char) :
    expandTabs before cs = cs := by
  induction cs generalizing before with
  | nil => rfl
  | cons c cs ih =>
    rw [List.mem_cons, not_or] at h
    rw [expandTabs, if_neg (Ne.symm h.1)]
    split
    · rw [ih h.2]
    · rw [ih h.2]

theorem isDropped_eq_false {c : Char} (h : 0x20 ≤ c.toNat) : isDropped c = false := by
  simp only [isDropped, List.contains_eq_mem, decide_eq_false_iff_not, List.mem_cons,
    List.not_mem_nil, or_false]
  omega

/-- Lines without control characters are shown as they are. -/
theorem shown_eq {text : String} (h : ∀ c ∈ text.toList, c = '\n' ∨ 0x20 ≤ c.toNat) :
    shown text = text ++ "\n" := by
  have hkeep : ∀ c ∈ text.toList, (!isDropped c) = true := by
    intro c hc
    rcases h c hc with rfl | hc
    · decide
    · rw [isDropped_eq_false hc]
      rfl
  have htab : '\t' ∉ text.toList := by
    intro hmem
    rcases h '\t' hmem with heq | hle
    · exact absurd heq (by decide)
    · exact absurd hle (by decide)
  rw [shown, List.filter_eq_self.mpr hkeep, expandTabs_eq_self htab]
  refine String.toList_inj.mp ?_
  rw [String.toList_ofList, String.toList_append]
  rfl

end Screen

/-- **The screen shows plain lines as they are.** -/
theorem verbatim_screen : screen.Verbatim where
  shown_lines := by
    intro lines hlines
    refine Screen.shown_eq ?_
    rw [String.toList_intercalate]
    refine forall_mem_intercalate (by simp) fun cs hcs c hc => Or.inr ?_
    obtain ⟨line, hline, rfl⟩ := List.mem_map.mp hcs
    exact toNat_of_isPrintable ((hlines line hline).printable c hc)

end Dice
