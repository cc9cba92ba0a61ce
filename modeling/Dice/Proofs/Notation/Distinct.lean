/-
# Rolls that are written alike

The notation of a roll says everything about it.  This holds for all rolls and not only for those
that a token can write: a threshold may be negative, no number has a limit, and so it cannot be told
from what is read as a token.

A text is taken apart from the left.  Digits go on as long as there are any, and a part that may be
absent is told by its mark, with which nothing after it starts.  So the places of the cuts do not
depend on what the parts say, nor on whether they are written without leading zeroes.

* `digits_append_inj`: digits end where a text goes on without one;
* `OptionalPart.append_inj`: a part that may be absent ends there, too;
* `Fields.eq_of_chars_eq`: a text is cut in one way at most;
* `Roll.text_identifies`: **no two rolls are written alike**, and no character of a part is taken
  for one of its neighbour.
-/
import Dice.Proofs.Notation.RoundTrip

namespace Dice

open Dice.Numeral Dice.Notation

namespace Notation

/-! ## 1. Where digits end -/

variable {ds es xs ys : List Char}

/-- **Digits end** where a text goes on without one. -/
theorem digits_append_inj (hd : IsDigits ds) (he : IsDigits es) (hx : NoDigit xs) (hy : NoDigit ys)
    (h : ds ++ xs = es ++ ys) : ds = es ∧ xs = ys := by
  have htake := congrArg (List.takeWhile Char.isDigit) h
  have hdrop := congrArg (List.dropWhile Char.isDigit) h
  rw [takeWhile_digits_append hd hx, takeWhile_digits_append he hy] at htake
  rw [dropWhile_digits_append hd hx, dropWhile_digits_append he hy] at hdrop
  exact ⟨htake, hdrop⟩

/-- A run of digits, behind a minus sign if there may be one. -/
inductive SignedRun (signed : Bool) : List Char → Prop
  | plain {ds : List Char} : IsRun ds → SignedRun signed ds
  | negative {ds : List Char} : signed = true → IsRun ds → SignedRun signed ('-' :: ds)

/-- A minus sign starts no run of digits. -/
theorem IsRun.append_ne_minus (hd : IsRun ds) : ds ++ xs ≠ '-' :: ys := by
  obtain ⟨c, cs, rfl⟩ := List.exists_cons_of_ne_nil hd.1
  intro h
  exact ne_of_isDigit hd.2.head (by decide) (List.cons.inj h).1

/-- A minus sign belongs to the digits after it, and they end where the text goes on. -/
theorem SignedRun.append_inj {signed : Bool} {cs ds : List Char} (hc : SignedRun signed cs)
    (hd : SignedRun signed ds) (hx : NoDigit xs) (hy : NoDigit ys) (h : cs ++ xs = ds ++ ys) :
    cs = ds ∧ xs = ys := by
  cases hc with
  | plain hc =>
    cases hd with
    | plain hd => exact digits_append_inj hc.2 hd.2 hx hy h
    | negative hsigned hd => exact absurd h hc.append_ne_minus
  | negative hsigned hc =>
    cases hd with
    | plain hd => exact absurd h.symm hd.append_ne_minus
    | negative hsigned' hd =>
      obtain ⟨rfl, rfl⟩ := digits_append_inj hc.2 hd.2 hx hy (List.cons.inj h).2
      exact ⟨rfl, rfl⟩

/-! ## 2. Parts that may be absent -/

/-- A part that may be absent, and otherwise is a number behind one of its marks. -/
inductive OptionalPart (marks : List Char) (signed : Bool) : List Char → Prop
  | absent : OptionalPart marks signed []
  | present {mark : Char} {cs : List Char} :
      mark ∈ marks → SignedRun signed cs → OptionalPart marks signed (mark :: cs)

/-- A text that does not start with any of some characters. -/
def StartsWithout (marks cs : List Char) : Prop := ∀ c ∈ marks, cs.head? ≠ some c

variable {marks others : List Char} {signed : Bool} {cs : List Char}

theorem startsWithout_nil (marks : List Char) : StartsWithout marks [] := fun _ _ => nofun

/-- What stands in front of a text starts with its own marks or is not there. -/
theorem OptionalPart.startsWithout (hc : OptionalPart marks signed cs)
    (hothers : ∀ c ∈ others, c ∉ marks) (hx : StartsWithout others xs) :
    StartsWithout others (cs ++ xs) := by
  intro c hmem
  cases hc with
  | absent => exact hx c hmem
  | @present mark cs hmark hcs =>
    intro h
    cases h
    exact hothers c hmem hmark

theorem OptionalPart.noDigit (hc : OptionalPart marks signed cs)
    (hmarks : ∀ c ∈ marks, c.isDigit = false) (hx : NoDigit xs) : NoDigit (cs ++ xs) := by
  cases hc with
  | absent => exact hx
  | present hmark hcs => exact noDigit_cons (hmarks _ hmark)

/-- **A part that may be absent ends** where a text goes on with neither a digit nor one of its
marks. -/
theorem OptionalPart.append_inj {ds : List Char} (hc : OptionalPart marks signed cs)
    (hd : OptionalPart marks signed ds) (hx : NoDigit xs) (hy : NoDigit ys)
    (hx' : StartsWithout marks xs) (hy' : StartsWithout marks ys) (h : cs ++ xs = ds ++ ys) :
    cs = ds ∧ xs = ys := by
  cases hc with
  | absent =>
    cases hd with
    | absent => exact ⟨rfl, h⟩
    | present hmark hd => exact absurd (congrArg List.head? h) (hx' _ hmark)
  | present hmark hc =>
    cases hd with
    | absent => exact absurd (congrArg List.head? h.symm) (hy' _ hmark)
    | present hmark' hd =>
      obtain ⟨rfl, hrest⟩ := List.cons.inj h
      obtain ⟨rfl, rfl⟩ := hc.append_inj hd hx hy hrest
      exact ⟨rfl, rfl⟩

/-! ## 3. All parts of a text -/

/-- A text in five parts, marks and signs included. -/
structure Fields where
  number : List Char
  sides : List Char
  reroll : List Char
  keep : List Char
  modifier : List Char
  deriving DecidableEq

namespace Fields

/-- The text, with the letter between the first two of its parts. -/
def chars (f : Fields) : List Char :=
  f.number ++ 'd' :: (f.sides ++ (f.reroll ++ (f.keep ++ f.modifier)))

/-- Each part is of its own form.  Only the threshold of a reroll may have a minus sign behind its
mark; those of a modifier are marks themselves. -/
structure Lawful (f : Fields) : Prop where
  number : IsDigits f.number
  sides : IsDigits f.sides
  reroll : OptionalPart ['r'] true f.reroll
  keep : OptionalPart ['h', 'l'] false f.keep
  modifier : OptionalPart ['+', '-'] false f.modifier

variable {f g : Fields}

theorem Lawful.noDigit_modifier (hf : f.Lawful) : NoDigit f.modifier := by
  have hnil : NoDigit [] := nofun
  have h := hf.modifier.noDigit (by simp) hnil
  rwa [List.append_nil] at h

theorem Lawful.noDigit_keep (hf : f.Lawful) : NoDigit (f.keep ++ f.modifier) :=
  hf.keep.noDigit (by simp) hf.noDigit_modifier

theorem Lawful.noDigit_reroll (hf : f.Lawful) : NoDigit (f.reroll ++ (f.keep ++ f.modifier)) :=
  hf.reroll.noDigit (by simp) hf.noDigit_keep

/-- A modifier does not start as a keep does, or as a reroll does. -/
theorem Lawful.startsWithout_modifier {others : List Char} (hf : f.Lawful)
    (hothers : ∀ c ∈ others, c ∉ ['+', '-']) : StartsWithout others f.modifier := by
  have h := hf.modifier.startsWithout hothers (startsWithout_nil others)
  rwa [List.append_nil] at h

/-- What comes after a reroll does not start as it does. -/
theorem Lawful.startsWithout_keep (hf : f.Lawful) :
    StartsWithout ['r'] (f.keep ++ f.modifier) :=
  hf.keep.startsWithout (by simp) (hf.startsWithout_modifier (by simp))

/-- **A text is cut in one way at most.** -/
theorem eq_of_chars_eq (hf : f.Lawful) (hg : g.Lawful) (h : f.chars = g.chars) : f = g := by
  have hletter : ∀ cs, NoDigit ('d' :: cs) := fun cs => noDigit_cons (by decide)
  obtain ⟨hnumber, h⟩ := digits_append_inj hf.number hg.number (hletter _) (hletter _) h
  obtain ⟨hsides, h⟩ := digits_append_inj hf.sides hg.sides hf.noDigit_reroll hg.noDigit_reroll
    (List.cons.inj h).2
  obtain ⟨hreroll, h⟩ := hf.reroll.append_inj hg.reroll hf.noDigit_keep hg.noDigit_keep
    hf.startsWithout_keep hg.startsWithout_keep h
  obtain ⟨hkeep, hmodifier⟩ := hf.keep.append_inj hg.keep hf.noDigit_modifier hg.noDigit_modifier
    (hf.startsWithout_modifier (by simp)) (hg.startsWithout_modifier (by simp)) h
  cases f
  cases g
  simp only at hnumber hsides hreroll hkeep hmodifier
  rw [hnumber, hsides, hreroll, hkeep, hmodifier]

end Fields
end Notation

namespace Roll

/-! ## 4. The parts of a notation -/

/-- The notation of a roll in its five parts. -/
def fields (r : Roll) : Fields :=
  ⟨r.numberChars, natText r.sides, r.rerollChars, r.keepChars, r.modifierChars⟩

theorem chars_fields (r : Roll) : r.fields.chars = r.chars := by
  simp only [Fields.chars, fields, chars, List.append_assoc, List.cons_append]

theorem signedRun_intText (n : Int) : SignedRun true (intText n) := by
  cases n with
  | ofNat n => exact .plain (isRun_natText n)
  | negSucc n => exact .negative rfl (isRun_natText (n + 1))

theorem lawful_fields (r : Roll) : r.fields.Lawful where
  number := r.isDigits_numberChars
  sides := isDigits_natText r.sides
  reroll := by
    change OptionalPart ['r'] true r.rerollChars
    unfold rerollChars
    cases r.reroll with
    | none => exact .absent
    | some n => exact .present List.mem_cons_self (signedRun_intText n)
  keep := by
    change OptionalPart ['h', 'l'] false r.keepChars
    unfold keepChars
    cases r.keep with
    | none => exact .absent
    | some k =>
      refine .present ?_ (.plain (isRun_natText k.count))
      cases k.direction <;> decide
  modifier := by
    change OptionalPart ['+', '-'] false r.modifierChars
    unfold modifierChars
    cases r.modifier with
    | none => exact .absent
    | some n =>
      dsimp only
      rw [signedText_eq]
      refine .present ?_ (.plain (isRun_natText n.natAbs))
      unfold signChar
      split <;> decide

/-! ## 5. What the parts say -/

variable {a b : Roll}

theorem number_eq_of_numberChars (h : a.numberChars = b.numberChars) : a.number = b.number := by
  unfold numberChars at h
  split at h
  · rename_i ha
    split at h
    · rename_i hb
      rw [ha, hb]
    · exact absurd h.symm (natText_ne_nil b.number)
  · split at h
    · exact absurd h (natText_ne_nil a.number)
    · exact natText_injective h

/-- If nothing but what is absent is written as nothing, and no two things are written alike, what
is written says what it is. -/
theorem option_eq_of_elim {α : Type} {write : α → List Char} (hne : ∀ x, write x ≠ [])
    (hinj : Function.Injective write) : ∀ {p q : Option α},
      p.elim [] write = q.elim [] write → p = q
  | none, none, _ => rfl
  | none, some y, h => absurd h.symm (hne y)
  | some x, none, h => absurd h (hne x)
  | some _, some _, h => congrArg some (hinj h)

theorem reroll_eq_of_rerollChars (h : a.rerollChars = b.rerollChars) : a.reroll = b.reroll := by
  have helim : ∀ r : Roll, r.rerollChars = r.reroll.elim [] fun n => 'r' :: intText n := by
    intro r
    unfold rerollChars
    cases r.reroll <;> rfl
  rw [helim, helim] at h
  refine option_eq_of_elim (fun _ => List.cons_ne_nil _ _) (fun m n heq => ?_) h
  exact intText_injective (List.cons.inj heq).2

theorem keep_eq_of_keepChars (h : a.keepChars = b.keepChars) : a.keep = b.keep := by
  have helim : ∀ r : Roll, r.keepChars = r.keep.elim [] Keep.chars := by
    intro r
    unfold keepChars
    cases r.keep <;> rfl
  rw [helim, helim] at h
  refine option_eq_of_elim (fun _ => List.cons_ne_nil _ _) (fun k l heq => ?_) h
  obtain ⟨hletter, hcount⟩ := List.cons.inj heq
  have hdirection : k.direction = l.direction := by
    have hk := Direction.ofLetter?_letter k.direction
    rw [hletter, Direction.ofLetter?_letter] at hk
    exact (Option.some.inj hk).symm
  cases k
  cases l
  rw [Keep.mk.injEq]
  exact ⟨hdirection, natText_injective hcount⟩

theorem modifier_eq_of_modifierChars (h : a.modifierChars = b.modifierChars) :
    a.modifier = b.modifier := by
  have helim : ∀ r : Roll, r.modifierChars = r.modifier.elim [] signedText := by
    intro r
    unfold modifierChars
    cases r.modifier <;> rfl
  have hcons : ∀ n, signedText n = signChar n :: natText n.natAbs := signedText_eq
  rw [helim, helim] at h
  refine option_eq_of_elim (fun n => hcons n ▸ List.cons_ne_nil _ _) (fun m n heq => ?_) h
  rw [hcons, hcons] at heq
  obtain ⟨hsign, hdigits⟩ := List.cons.inj heq
  rw [← signedValue_signChar m, ← signedValue_signChar n, hsign, hdigits]

/-- **The parts of its notation say what a roll is.** -/
theorem fields_injective : Function.Injective fields := by
  intro a b h
  obtain ⟨hnumber, hsides, hreroll, hkeep, hmodifier⟩ := Fields.mk.inj h
  have hnumber := number_eq_of_numberChars hnumber
  have hsides := natText_injective hsides
  have hreroll := reroll_eq_of_rerollChars hreroll
  have hkeep := keep_eq_of_keepChars hkeep
  have hmodifier := modifier_eq_of_modifierChars hmodifier
  cases a
  cases b
  simp only at hnumber hsides hreroll hkeep hmodifier
  simp only [hnumber, hsides, hreroll, hkeep, hmodifier]

/-- Rolls that are written alike are equal. -/
theorem text_injective : Function.Injective text := by
  intro a b h
  have hchars : a.fields.chars = b.fields.chars := by
    rw [chars_fields, chars_fields]
    exact String.ofList_injective h
  exact fields_injective (Fields.eq_of_chars_eq a.lawful_fields b.lawful_fields hchars)

/-- **Notation identifies the roll.**  Two rolls have the same text exactly if they are equal,
whatever their integers are.  So a part that is absent is not written like one that is zero.  And
however a text is cut into parts of the right form, with leading zeroes or without, if it is the
notation of a roll then these are the parts of that roll: no sign and no digit of one of them
belongs to another. -/
theorem text_identifies :
    (∀ a b : Roll, a.text = b.text ↔ a = b) ∧
    (∀ r : Roll,
      { r with reroll := none }.text ≠ { r with reroll := some 0 }.text ∧
      (∀ d, { r with keep := none }.text ≠ { r with keep := some ⟨d, 0⟩ }.text) ∧
      { r with modifier := none }.text ≠ { r with modifier := some 0 }.text) ∧
    ∀ (r : Roll) (f : Fields), f.Lawful → String.ofList f.chars = r.text → f = r.fields := by
  refine ⟨fun a b => text_injective.eq_iff, fun r => ⟨fun h => ?_, fun d h => ?_, fun h => ?_⟩,
    fun r f hf h => ?_⟩
  · cases congrArg reroll (text_injective h)
  · cases congrArg keep (text_injective h)
  · cases congrArg modifier (text_injective h)
  · refine Fields.eq_of_chars_eq hf r.lawful_fields ?_
    rw [chars_fields]
    exact String.ofList_injective h

/-- A threshold with a sign, and a modifier without a keep before it. -/
example : (Roll.mk 6 1 (some (-3)) none (some (-4)) (by decide)).fields
    = ⟨[], ['6'], ['r', '-', '3'], [], ['-', '4']⟩ := by
  decide

end Roll
end Dice
