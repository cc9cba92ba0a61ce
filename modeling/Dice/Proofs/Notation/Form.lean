/-
# The form of a token, declaratively

`Parts.scan` walks along a token.  Here the same form is written down as a grammar: some parts are
`Lawful` if each of them is a run of digits where one has to stand, and `Parts.chars` writes parts
one after the other behind their marks.

* `Parts.scan_eq_some_iff`: the scanner finds exactly the lawful parts that the text is made of;
* `Parts.eq_of_chars_eq`: a text is made of lawful parts in one way at most.

Both rest on one exact description of what is found behind a mark (`markedPart_eq_some_iff`), for
which it matters only where the rest of the text starts.
-/
import Dice.Notation.Token
import Dice.Proofs.Numeral.Digits

namespace Dice.Notation

open Dice.Numeral

/-! ## 1. The grammar -/

/-- At least one ASCII digit, and nothing else. -/
def IsRun (cs : List Char) : Prop := cs ≠ [] ∧ IsDigits cs

/-- A part as it is written: its mark and the digits after it.  An absent part writes nothing. -/
def markedChars {α : Type} (mark : α → Char) : Option (α × List Char) → List Char
  | none => []
  | some (a, ds) => mark a :: ds

namespace Parts

/-- The reroll as it is written. -/
def rerollChars (p : Parts) : List Char :=
  markedChars (fun _ : Unit => 'r') (p.reroll.map fun ds => ((), ds))

/-- The keep as it is written. -/
def keepChars (p : Parts) : List Char := markedChars Direction.letter p.keep

/-- The modifier as it is written. -/
def modifierChars (p : Parts) : List Char := markedChars id p.modifier

/-- A token as its parts write it. -/
def chars (p : Parts) : List Char :=
  p.number ++ 'd' :: (p.sides ++ (p.rerollChars ++ (p.keepChars ++ p.modifierChars)))

/-- Digits where digits have to stand.  The number and the sides may be empty. -/
structure Lawful (p : Parts) : Prop where
  number : IsDigits p.number
  sides : IsDigits p.sides
  reroll : ∀ ds, p.reroll = some ds → IsRun ds
  keep : ∀ d ds, p.keep = some (d, ds) → IsRun ds
  modifier : ∀ s ds, p.modifier = some (s, ds) → (s = '+' ∨ s = '-') ∧ IsRun ds

end Parts

/-! ## 2. Where a text starts -/

/-- A text that does not start with a digit. -/
def NoDigit (cs : List Char) : Prop := ∀ c, cs.head? = some c → c.isDigit = false

/-- A text that does not start with a mark. -/
def Unmarked {α : Type} (mark : Char → Option α) (cs : List Char) : Prop :=
  ∀ c, cs.head? = some c → mark c = none

theorem noDigit_cons {c : Char} {cs : List Char} (h : c.isDigit = false) : NoDigit (c :: cs) := by
  intro d hd
  cases hd
  exact h

theorem unmarked_cons {α : Type} {mark : Char → Option α} {c : Char} {cs : List Char}
    (h : mark c = none) : Unmarked mark (c :: cs) := by
  intro d hd
  cases hd
  exact h

theorem noDigit_dropWhile (cs : List Char) : NoDigit (cs.dropWhile Char.isDigit) := by
  intro c hc
  have := List.head?_dropWhile_not Char.isDigit cs
  rw [hc] at this
  exact this

theorem takeWhile_of_noDigit {cs : List Char} (h : NoDigit cs) :
    cs.takeWhile Char.isDigit = [] := by
  cases cs with
  | nil => rfl
  | cons c cs => exact List.takeWhile_cons_of_neg (by simp [h c rfl])

theorem dropWhile_of_noDigit {cs : List Char} (h : NoDigit cs) :
    cs.dropWhile Char.isDigit = cs := by
  cases cs with
  | nil => rfl
  | cons c cs => exact List.dropWhile_cons_of_neg (by simp [h c rfl])

/-- Digits are taken up to where they end. -/
theorem takeWhile_digits_append {ds rest : List Char} (hd : IsDigits ds) (hr : NoDigit rest) :
    (ds ++ rest).takeWhile Char.isDigit = ds := by
  rw [List.takeWhile_append_of_pos hd, takeWhile_of_noDigit hr, List.append_nil]

/-- ...and what follows them is left. -/
theorem dropWhile_digits_append {ds rest : List Char} (hd : IsDigits ds) (hr : NoDigit rest) :
    (ds ++ rest).dropWhile Char.isDigit = rest := by
  rw [List.dropWhile_append_of_pos hd, dropWhile_of_noDigit hr]

theorem isDigits_takeWhile (cs : List Char) : IsDigits (cs.takeWhile Char.isDigit) := by
  induction cs with
  | nil => exact isDigits_nil
  | cons c cs ih =>
    by_cases hc : c.isDigit = true
    · rw [List.takeWhile_cons_of_pos hc]
      intro d hd
      rcases List.mem_cons.mp hd with rfl | hd
      · exact hc
      · exact ih d hd
    · rw [List.takeWhile_cons_of_neg hc]
      exact isDigits_nil

/-! ## 3. A part behind a mark -/

section Marked

variable {α : Type} {mark : Char → Option α}

/-- `MarkedPart mark cs part rest`: the text `cs` starts with the part, and the rest is left. -/
inductive MarkedPart (mark : Char → Option α) :
    List Char → Option (α × List Char) → List Char → Prop
  | absent {cs : List Char} : Unmarked mark cs → MarkedPart mark cs none cs
  | present {c : Char} {a : α} {ds rest : List Char} :
      mark c = some a → IsRun ds → NoDigit rest →
        MarkedPart mark (c :: (ds ++ rest)) (some (a, ds)) rest

theorem markedPart_absent {cs : List Char} (h : Unmarked mark cs) :
    markedPart mark cs = some (none, cs) := by
  cases cs with
  | nil => rfl
  | cons c cs => simp only [markedPart, h c rfl]

theorem markedPart_present {c : Char} {a : α} {ds rest : List Char} (hc : mark c = some a)
    (hd : IsRun ds) (hr : NoDigit rest) :
    markedPart mark (c :: (ds ++ rest)) = some (some (a, ds), rest) := by
  have hne : ds.isEmpty = false := List.isEmpty_eq_false_iff.mpr hd.1
  simp only [markedPart, hc, takeWhile_digits_append hd.2 hr, dropWhile_digits_append hd.2 hr, hne,
    Bool.false_eq_true, if_false]

/-- A mark without a digit behind it is a fault. -/
theorem markedPart_fault {c : Char} {a : α} {rest : List Char} (hc : mark c = some a)
    (hr : NoDigit rest) : markedPart mark (c :: rest) = none := by
  simp only [markedPart, hc, takeWhile_of_noDigit hr, List.isEmpty_nil, if_true]

/-- **What is found behind a mark**, exactly. -/
theorem markedPart_eq_some_iff {cs : List Char} {part : Option (α × List Char)}
    {rest : List Char} :
    markedPart mark cs = some (part, rest) ↔ MarkedPart mark cs part rest := by
  constructor
  · intro h
    cases cs with
    | nil =>
      cases h
      exact .absent fun _ h => nomatch h
    | cons c cs =>
      cases hc : mark c with
      | none =>
        simp only [markedPart, hc, Option.some.injEq, Prod.mk.injEq] at h
        obtain ⟨rfl, rfl⟩ := h
        exact .absent (unmarked_cons hc)
      | some a =>
        simp only [markedPart, hc] at h
        split at h
        · cases h
        · rename_i hne
          simp only [Option.some.injEq, Prod.mk.injEq] at h
          obtain ⟨rfl, rfl⟩ := h
          have hrun : IsRun (cs.takeWhile Char.isDigit) :=
            ⟨fun e => hne (by rw [e]; rfl), isDigits_takeWhile cs⟩
          have := MarkedPart.present hc hrun (noDigit_dropWhile cs)
          rwa [List.takeWhile_append_dropWhile] at this
  · intro h
    cases h with
    | absent hu => exact markedPart_absent hu
    | present hc hd hr => exact markedPart_present hc hd hr

/-- A found part and the rest make up the text. -/
theorem MarkedPart.eq_append {cs rest : List Char} {part : Option (α × List Char)}
    (h : MarkedPart mark cs part rest) (letter : α → Char)
    (hl : ∀ {c a}, mark c = some a → c = letter a) : cs = markedChars letter part ++ rest := by
  cases h with
  | absent _ => rfl
  | present hc _ _ =>
    rw [hl hc]
    rfl

/-- A found part has digits. -/
theorem MarkedPart.isRun {cs rest : List Char} {part : Option (α × List Char)}
    (h : MarkedPart mark cs part rest) {a : α} {ds : List Char} (hp : part = some (a, ds)) :
    IsRun ds := by
  cases h with
  | absent _ => cases hp
  | present _ hd _ =>
    cases hp
    exact hd

/-- A part that is written before a rest is found there, unless the rest could be taken for more
of it. -/
theorem MarkedPart.of_markedChars (letter : α → Char) (hl : ∀ a, mark (letter a) = some a)
    {part : Option (α × List Char)} {rest : List Char}
    (hd : ∀ a ds, part = some (a, ds) → IsRun ds) (hn : NoDigit rest) (hu : Unmarked mark rest) :
    MarkedPart mark (markedChars letter part ++ rest) part rest := by
  cases part with
  | none => exact .absent hu
  | some x => exact .present (hl x.1) (hd x.1 x.2 rfl) hn

/-- What is written starts with the mark of the part or with the rest. -/
theorem head?_markedChars_append {letter : α → Char} {part : Option (α × List Char)}
    {rest : List Char} {c : Char} (h : (markedChars letter part ++ rest).head? = some c) :
    (∃ a ds, part = some (a, ds) ∧ c = letter a) ∨ rest.head? = some c := by
  cases part with
  | none => exact Or.inr h
  | some x =>
    cases h
    exact Or.inl ⟨x.1, x.2, rfl, rfl⟩

end Marked

/-! ## 4. The marks -/

theorem eq_of_rerollMark {c : Char} {u : Unit} (h : rerollMark c = some u) : c = 'r' := by
  unfold rerollMark at h
  split at h
  · assumption
  · cases h

theorem eq_of_ofLetter? {c : Char} {d : Direction} (h : Direction.ofLetter? c = some d) :
    c = d.letter := by
  unfold Direction.ofLetter? at h
  split at h
  · cases h
    rfl
  · cases h
    rfl
  · cases h

theorem eq_of_signMark {c s : Char} (h : signMark c = some s) : c = s := by
  unfold signMark at h
  split at h
  · cases h
    rfl
  · cases h

theorem signMark_eq_some_iff {s : Char} : signMark s = some s ↔ s = '+' ∨ s = '-' := by
  unfold signMark
  split
  · rename_i h
    simpa using h
  · rename_i h
    simpa using h

namespace Parts

/-- A modifier starts with a sign. -/
theorem head?_modifierChars {p : Parts} (hp : p.Lawful) {c : Char}
    (h : p.modifierChars.head? = some c) : c = '+' ∨ c = '-' := by
  rw [← List.append_nil p.modifierChars] at h
  obtain ⟨s, ds, hm, hc⟩ | h := head?_markedChars_append h
  · rw [hc]
    exact (hp.modifier s ds hm).1
  · cases h

/-- What follows a reroll starts with the letter of a direction or with a sign. -/
theorem head?_keepChars {p : Parts} (hp : p.Lawful) {c : Char}
    (h : (p.keepChars ++ p.modifierChars).head? = some c) :
    c = 'h' ∨ c = 'l' ∨ c = '+' ∨ c = '-' := by
  obtain ⟨d, ds, -, rfl⟩ | h := head?_markedChars_append h
  · cases d
    · exact Or.inl rfl
    · exact Or.inr (Or.inl rfl)
  · exact Or.inr (Or.inr (head?_modifierChars hp h))

/-- What follows the sides starts with one of the marks. -/
theorem head?_rerollChars {p : Parts} (hp : p.Lawful) {c : Char}
    (h : (p.rerollChars ++ (p.keepChars ++ p.modifierChars)).head? = some c) :
    c = 'r' ∨ c = 'h' ∨ c = 'l' ∨ c = '+' ∨ c = '-' := by
  obtain ⟨u, ds, -, rfl⟩ | h := head?_markedChars_append h
  · exact Or.inl rfl
  · exact Or.inr (head?_keepChars hp h)

/-! ## 5. The scanner and the grammar -/

/-- What the scanner does after the digits of the sides. -/
def scanMarked (number sides cs : List Char) : Option Parts := do
  let (reroll, rest) ← markedPart rerollMark cs
  let (keep, rest) ← markedPart Direction.ofLetter? rest
  let (modifier, rest) ← markedPart signMark rest
  if rest.isEmpty then some ⟨number, sides, reroll.map Prod.snd, keep, modifier⟩ else none

/-- The scanner passes over the number, the `d` and the sides. -/
theorem scan_append {number sides cs : List Char} (hn : IsDigits number) (hs : IsDigits sides)
    (hr : NoDigit cs) :
    scan (number ++ 'd' :: (sides ++ cs)) = scanMarked number sides cs := by
  have hd : NoDigit ('d' :: (sides ++ cs)) := noDigit_cons (by decide)
  simp only [scan, takeWhile_digits_append hn hd, dropWhile_digits_append hn hd,
    Option.bind_eq_bind, Option.bind_some, takeWhile_digits_append hs hr,
    dropWhile_digits_append hs hr, scanMarked]

/-- A text that is scanned has a `d` after its first digits. -/
theorem exists_of_scan {cs : List Char} {p : Parts} (h : scan cs = some p) :
    ∃ number sides rest, cs = number ++ 'd' :: (sides ++ rest) ∧ IsDigits number ∧
      IsDigits sides ∧ NoDigit rest := by
  cases hd : cs.dropWhile Char.isDigit with
  | nil => simp [scan, hd] at h
  | cons c rest =>
    by_cases hc : c = 'd'
    · subst hc
      refine ⟨cs.takeWhile Char.isDigit, rest.takeWhile Char.isDigit,
        rest.dropWhile Char.isDigit, ?_, isDigits_takeWhile _, isDigits_takeWhile _,
        noDigit_dropWhile _⟩
      rw [List.takeWhile_append_dropWhile, ← hd, List.takeWhile_append_dropWhile]
    · simp [scan, hd, hc] at h

/-- The scanner finds the three parts behind the sides one after the other, and nothing else. -/
theorem scanMarked_eq_some {number sides cs : List Char} {p : Parts}
    (h : scanMarked number sides cs = some p) :
    ∃ reroll rest keep rest' modifier, MarkedPart rerollMark cs reroll rest ∧
      MarkedPart Direction.ofLetter? rest keep rest' ∧ MarkedPart signMark rest' modifier [] ∧
      p = ⟨number, sides, reroll.map Prod.snd, keep, modifier⟩ := by
  simp only [scanMarked, Option.bind_eq_bind, Option.bind_eq_some_iff] at h
  obtain ⟨⟨reroll, rest⟩, h1, ⟨keep, rest'⟩, h2, ⟨modifier, rest''⟩, h3, h⟩ := h
  split at h
  · rename_i he
    cases List.isEmpty_iff.mp he
    cases h
    exact ⟨reroll, rest, keep, rest', modifier, markedPart_eq_some_iff.mp h1,
      markedPart_eq_some_iff.mp h2, markedPart_eq_some_iff.mp h3, rfl⟩
  · cases h

/-- The scanner finds lawful parts that write the text. -/
theorem lawful_of_scan {cs : List Char} {p : Parts} (h : scan cs = some p) :
    p.Lawful ∧ p.chars = cs := by
  obtain ⟨number, sides, rest₀, rfl, hn, hs, hr⟩ := exists_of_scan h
  rw [scan_append hn hs hr] at h
  obtain ⟨reroll, rest, keep, rest', modifier, h1, h2, h3, rfl⟩ := scanMarked_eq_some h
  have e1 := h1.eq_append (fun _ => 'r') eq_of_rerollMark
  have e2 := h2.eq_append Direction.letter eq_of_ofLetter?
  have e3 := h3.eq_append id eq_of_signMark
  refine ⟨⟨hn, hs, ?_, ?_, ?_⟩, ?_⟩
  · intro ds hd
    obtain ⟨x, hx, rfl⟩ := Option.map_eq_some_iff.mp hd
    exact h1.isRun hx
  · intro d ds hd
    exact h2.isRun hd
  · rintro s ds rfl
    cases h3 with
    | present hc hd _ =>
      have hcs := eq_of_signMark hc
      exact ⟨signMark_eq_some_iff.mp (hcs ▸ hc), hd⟩
  · have e0 : rerollChars ⟨number, sides, reroll.map Prod.snd, keep, modifier⟩
        = markedChars (fun _ : Unit => 'r') reroll := by
      cases reroll <;> rfl
    rw [List.append_nil] at e3
    simp only [chars, e0, keepChars, modifierChars]
    rw [e1, e2, e3]

/-- The scanner finds lawful parts wherever they are written. -/
theorem scan_chars {p : Parts} (hp : p.Lawful) : scan p.chars = some p := by
  -- what follows a part can be taken neither for more digits of it nor for the part itself
  have n1 : NoDigit (p.rerollChars ++ (p.keepChars ++ p.modifierChars)) := by
    intro c hc
    rcases head?_rerollChars hp hc with rfl | rfl | rfl | rfl | rfl <;> rfl
  have n2 : NoDigit (p.keepChars ++ p.modifierChars) := by
    intro c hc
    rcases head?_keepChars hp hc with rfl | rfl | rfl | rfl <;> rfl
  have n3 : NoDigit p.modifierChars := by
    intro c hc
    rcases head?_modifierChars hp hc with rfl | rfl <;> rfl
  have u2 : Unmarked rerollMark (p.keepChars ++ p.modifierChars) := by
    intro c hc
    rcases head?_keepChars hp hc with rfl | rfl | rfl | rfl <;> rfl
  have u3 : Unmarked Direction.ofLetter? p.modifierChars := by
    intro c hc
    rcases head?_modifierChars hp hc with rfl | rfl <;> rfl
  have m1 : MarkedPart rerollMark (p.rerollChars ++ (p.keepChars ++ p.modifierChars))
      (p.reroll.map fun ds => ((), ds)) (p.keepChars ++ p.modifierChars) := by
    refine .of_markedChars (fun _ => 'r') (fun _ => rfl) (fun u ds hd => ?_) n2 u2
    obtain ⟨es, he, heq⟩ := Option.map_eq_some_iff.mp hd
    cases heq
    exact hp.reroll _ he
  have m2 : MarkedPart Direction.ofLetter? (p.keepChars ++ p.modifierChars) p.keep
      p.modifierChars :=
    .of_markedChars Direction.letter Direction.ofLetter?_letter hp.keep n3 u3
  have m3 : MarkedPart signMark (p.modifierChars ++ []) p.modifier [] := by
    cases hm : p.modifier with
    | none =>
      rw [modifierChars, hm]
      exact .absent fun _ h => nomatch h
    | some x =>
      obtain ⟨hs, hd⟩ := hp.modifier x.1 x.2 hm
      rw [modifierChars, hm]
      exact .present (signMark_eq_some_iff.mpr hs) hd fun _ h => nomatch h
  rw [List.append_nil] at m3
  have e1 : (p.reroll.map fun ds => ((), ds)).map Prod.snd = p.reroll := by
    cases p.reroll <;> rfl
  rw [chars, scan_append hp.number hp.sides n1, scanMarked]
  simp only [markedPart_eq_some_iff.mpr m1, markedPart_eq_some_iff.mpr m2,
    markedPart_eq_some_iff.mpr m3, Option.bind_eq_bind, Option.bind_some, List.isEmpty_nil,
    if_true, e1]

/-- **The scanner finds exactly the lawful parts of a text.** -/
theorem scan_eq_some_iff {cs : List Char} {p : Parts} :
    scan cs = some p ↔ p.Lawful ∧ p.chars = cs := by
  constructor
  · exact lawful_of_scan
  · rintro ⟨hp, rfl⟩
    exact scan_chars hp

/-- **A text is made of lawful parts in one way at most.** -/
theorem eq_of_chars_eq {p q : Parts} (hp : p.Lawful) (hq : q.Lawful) (h : p.chars = q.chars) :
    p = q := by
  have hs := scan_chars hp
  rw [h, scan_chars hq] at hs
  cases hs
  rfl

end Parts
end Dice.Notation
