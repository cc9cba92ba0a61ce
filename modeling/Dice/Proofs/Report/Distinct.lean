/-
# Outcomes that are written alike

The text of an outcome says which dice were rolled, what they came to and what was added.  Each
part ends at a character that is in none of the parts before it, so the text is cut in one way only,
whatever the integers in it are and however many dice there are.

* `Die.chars_injective`, `Die.listChars_injective`: dice, and lists of dice, are told apart;
* `Outcome.modifierText_injective`: so are modifiers, although zero is not shown;
* `Outcome.text_identifies_rolled`: **outcomes that are written alike** are those that agree in
  their dice, their modifier and their total.
-/
import Dice.Proofs.Report.ReadBack

namespace Dice

open Text
open scoped List

/-! ## 1. Dice -/

namespace Die

/-- **No two dice are written alike**: there is an arrow just if the first face was replaced. -/
theorem chars_injective : Function.Injective chars := by
  have hequals : ∀ n : Int, '=' ∉ Numeral.intText n := Numeral.notMem_intText (by decide)
  have harrow : ∀ face first second : Int, (kept face).chars ≠ (rerolled first second).chars := by
    intro face first second h
    refine hequals face ?_
    rw [show Numeral.intText face = (kept face).chars from rfl, h]
    simp [chars]
  intro d e h
  cases d with
  | kept face =>
    cases e with
    | kept face' => exact congrArg kept (Numeral.intText_injective h)
    | rerolled first second => exact absurd h (harrow face first second)
  | rerolled first second =>
    cases e with
    | kept face' => exact absurd h.symm (harrow face' first second)
    | rerolled first' second' =>
      have hfaces : Numeral.intText first ++ ['=', '>'] ++ Numeral.intText second
          = Numeral.intText first' ++ ['=', '>'] ++ Numeral.intText second' := by
        simpa [chars] using h
      obtain ⟨hfirst, hsecond⟩ := append_inj_of_notMem (hequals first) (hequals first') hfaces
      rw [Numeral.intText_injective hfirst, Numeral.intText_injective hsecond]

/-- **No two lists of dice are written alike.** -/
theorem listChars_injective : Function.Injective listChars := by
  intro ds es h
  cases ds with
  | nil =>
    cases es with
    | nil => rfl
    | cons e es => exact absurd h.symm (listChars_cons_ne_nil e es)
  | cons d ds =>
    cases es with
    | nil => exact absurd h (listChars_cons_ne_nil d ds)
    | cons e es =>
      have hsplit := congrArg (List.splitOn ',') h
      rw [splitOn_listChars, splitOn_listChars] at hsplit
      obtain ⟨hfirst, hothers⟩ := List.cons.inj hsplit
      have hblank : Function.Injective fun d : Die => ' ' :: d.chars :=
        fun d e heq => chars_injective (List.cons.inj heq).2
      rw [chars_injective hfirst, List.map_injective_iff.mpr hblank hothers]

end Die

/-! ## 2. Outcomes -/

namespace Outcome

/-- A modifier that is shown is a sign and a number between blanks. -/
theorem toList_modifierText (m : Int) :
    (modifierText m).toList
      = if m = 0 then [] else ' ' :: Roll.signChar m :: ' ' :: Numeral.natText m.natAbs := by
  unfold modifierText Roll.signChar Numeral.text
  rcases Int.lt_trichotomy m 0 with hneg | rfl | hpos
  · rw [if_neg (by omega), if_pos hneg, if_neg (by omega), if_pos hneg,
      Roll.intText_of_nonneg (by omega), show (-m).toNat = m.natAbs by omega]
    simp
  · rfl
  · rw [if_pos hpos, if_neg (by omega), if_neg (by omega), Roll.intText_of_nonneg (by omega),
      show m.toNat = m.natAbs by omega]
    simp

theorem modifierText_injective : Function.Injective modifierText := by
  intro m n h
  have hlists := congrArg String.toList h
  rw [toList_modifierText, toList_modifierText] at hlists
  split at hlists
  · rename_i hm
    split at hlists
    · rename_i hn
      rw [hm, hn]
    · cases hlists
  · split at hlists
    · cases hlists
    · obtain ⟨hsign, hdigits⟩ := List.cons.inj (List.cons.inj hlists).2
      rw [← Roll.signedValue_signChar m, ← Roll.signedValue_signChar n, hsign,
        (List.cons.inj hdigits).2]

/-- **What an outcome is written from** can be told from its text. -/
theorem text_eq_text_iff {a b : Outcome} :
    a.text = b.text ↔ a.dice = b.dice ∧ a.modifier = b.modifier ∧ a.total = b.total := by
  constructor
  · intro h
    have hblank : ∀ n : Int, ' ' ∉ Numeral.intText n := Numeral.notMem_intText (by decide)
    have hclose : ∀ ds, ')' ∉ Die.listChars ds := Die.notMem_listChars (by decide) (by decide)
    have hcut : ∀ o : Outcome, o.text.toList = Numeral.intText o.total ++ [' ', '('] ++
        (Die.listChars o.dice ++ [')'] ++ (modifierText o.modifier).toList) := by
      intro o
      simp only [toList_text, List.append_assoc]
    have hlists := congrArg String.toList h
    rw [hcut, hcut] at hlists
    obtain ⟨htotal, hlists⟩ := append_inj_of_notMem (hblank _) (hblank _) hlists
    obtain ⟨hdice, hmodifier⟩ := append_inj_of_notMem (hclose _) (hclose _) hlists
    exact ⟨Die.listChars_injective hdice, modifierText_injective (String.toList_inj.mp hmodifier),
      Numeral.intText_injective htotal⟩
  · rintro ⟨hdice, hmodifier, htotal⟩
    rw [text, text, hdice, hmodifier, htotal]

/-- **The text of an outcome identifies what was rolled.**  Outcomes of any dice, with any keeps and
modifiers, have the same text exactly if they list the same dice in the same order, each with its
first face if that was replaced, and agree in their modifier and their total.  In particular they
were made from the same dice, up to the order in which these were rolled. -/
theorem text_identifies_rolled :
    (∀ a b : Outcome,
      a.text = b.text ↔ a.dice = b.dice ∧ a.modifier = b.modifier ∧ a.total = b.total) ∧
    ∀ (pool pool' : List Die) (keep keep' : Option Keep) (m m' : Int),
      (ofDice pool keep m).text = (ofDice pool' keep' m').text → pool.Perm pool' ∧ m = m' := by
  refine ⟨fun a b => text_eq_text_iff, fun pool pool' keep keep' m m' h => ?_⟩
  obtain ⟨hdice, hmodifier, -⟩ := text_eq_text_iff.mp h
  refine ⟨?_, hmodifier⟩
  calc pool ~ (ofDice pool keep m).dice := (perm_dice pool keep m).symm
    _ = (ofDice pool' keep' m').dice := hdice
    _ ~ pool' := perm_dice pool' keep' m'

end Outcome
end Dice
