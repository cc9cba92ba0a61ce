/-
# The checks on the numbers of a token

Between the form of a token and the roll it writes stand a number of checks, spread over the
readers of the parts.  Here they are one list in the order in which they are made
(`Parts.checks`), each with the error it leads to, and reading is shown to go through that list:

* `Parts.toRoll_eq_error_iff`: reading fails with the error of the first check that does not pass;
* `Parts.toRoll_eq_ok_iff`: if all pass, it gives the roll that the parts denote;
* `Parts.firstFailing_checks_eq_none_iff`: all pass exactly if every number is in its range.

`Makes checks x P` is the specification of a reader `x`: it makes these checks in this order, and
if they pass its result satisfies `P`.  Readers that follow one another make the checks of both
(`Makes.bind`).
-/
import Dice.Proofs.Notation.Form

namespace Dice.Notation

open Dice.Numeral

/-! ## 1. Lists of checks -/

/-- A check on a number: what the number stands for, its text, what is wrong if the check fails,
and whether it passes. -/
structure Check where
  component : String
  text : List Char
  reason : Reason
  passes : Bool
  deriving DecidableEq

/-- The error that a failing check leads to. -/
def Check.error (c : Check) : Error := .badNumber c.component (String.ofList c.text) c.reason

/-- The first check of a list that does not pass. -/
def firstFailing (cs : List Check) : Option Check := cs.find? fun c => !c.passes

/-- A failing check is the first one exactly if all checks before it pass. -/
theorem firstFailing_eq_some_iff {cs : List Check} {c : Check} :
    firstFailing cs = some c ↔
      ∃ before after, cs = before ++ c :: after ∧ (∀ b ∈ before, b.passes = true) ∧
        c.passes = false := by
  rw [firstFailing, List.find?_eq_some_iff_append]
  constructor
  · rintro ⟨hc, before, after, hcs, hb⟩
    exact ⟨before, after, hcs, by simpa using hb, by simpa using hc⟩
  · rintro ⟨before, after, hcs, hb, hc⟩
    exact ⟨by simpa using hc, before, after, hcs, by simpa using hb⟩

theorem firstFailing_eq_none_iff {cs : List Check} :
    firstFailing cs = none ↔ ∀ c ∈ cs, c.passes = true := by
  simp [firstFailing]

theorem firstFailing_append (cs ds : List Check) :
    firstFailing (cs ++ ds) = (firstFailing cs).or (firstFailing ds) := List.find?_append

section Makes

variable {α β : Type}

/-- The reader `x` makes these checks in this order; if all of them pass it has a result, which
satisfies `P`. -/
def Makes (cs : List Check) (x : Except Error α) (P : α → Prop) : Prop :=
  match firstFailing cs with
  | some c => x = .error c.error
  | none => ∃ a, x = .ok a ∧ P a

theorem Makes.ok {a : α} {P : α → Prop} (h : P a) : Makes [] (.ok a) P := ⟨a, rfl, h⟩

/-- One reader after the other. -/
theorem Makes.bind {cs ds : List Check} {x : Except Error α} {f : α → Except Error β}
    {P : α → Prop} {Q : β → Prop} (hx : Makes cs x P) (hf : ∀ a, P a → Makes ds (f a) Q) :
    Makes (cs ++ ds) (x >>= f) Q := by
  unfold Makes at hx ⊢
  rw [firstFailing_append]
  cases hc : firstFailing cs with
  | some c =>
    rw [hc] at hx
    change x = _ at hx
    subst hx
    rfl
  | none =>
    rw [hc] at hx
    obtain ⟨a, rfl, ha⟩ := hx
    exact hf a ha

/-- A check, and a reader if it passes. -/
theorem Makes.cons {c : Check} {ds : List Check} {x : Except Error β} {Q : β → Prop}
    (hp : c.passes = true → Makes ds x Q) (hf : c.passes = false → x = .error c.error) :
    Makes (c :: ds) x Q := by
  cases hc : c.passes with
  | true =>
    have h := hp hc
    unfold Makes at h ⊢
    rwa [show firstFailing (c :: ds) = firstFailing ds from
      List.find?_cons_of_neg (by simp [hc])]
  | false =>
    have h := hf hc
    unfold Makes
    rwa [show firstFailing (c :: ds) = some c from List.find?_cons_of_pos (by simp [hc])]

/-- A last step that cannot fail. -/
theorem Makes.map {cs : List Check} {x : Except Error α} {f : α → β} {P : α → Prop}
    {Q : β → Prop} (hx : Makes cs x P) (hf : ∀ a, P a → Q (f a)) : Makes cs (x.map f) Q := by
  unfold Makes at hx ⊢
  cases hc : firstFailing cs with
  | some c =>
    rw [hc] at hx
    change x = _ at hx
    subst hx
    rfl
  | none =>
    rw [hc] at hx
    obtain ⟨a, rfl, ha⟩ := hx
    exact ⟨f a, rfl, hf a ha⟩

/-- What a reader makes says when it fails and with what. -/
theorem Makes.eq_error_iff {cs : List Check} {x : Except Error α} {P : α → Prop}
    (h : Makes cs x P) {e : Error} : x = .error e ↔ ∃ c, firstFailing cs = some c ∧ c.error = e := by
  unfold Makes at h
  cases hc : firstFailing cs with
  | some c =>
    rw [hc] at h
    change x = _ at h
    simp [h]
  | none =>
    rw [hc] at h
    obtain ⟨a, rfl, -⟩ := h
    simp

/-- ...and when it has which result, if what its result satisfies says so. -/
theorem Makes.eq_ok_iff {cs : List Check} {x : Except Error α} {P : α → Prop}
    (h : Makes cs x P) (hu : ∀ a b, P a → P b → a = b) {a : α} :
    x = .ok a ↔ firstFailing cs = none ∧ P a := by
  unfold Makes at h
  cases hc : firstFailing cs with
  | some c =>
    rw [hc] at h
    change x = _ at h
    simp [h]
  | none =>
    rw [hc] at h
    obtain ⟨b, rfl, hb⟩ := h
    constructor
    · intro hab
      cases hab
      exact ⟨rfl, hb⟩
    · rintro ⟨-, ha⟩
      rw [hu b a hb ha]

end Makes

/-! ## 2. The checks on one number -/

/-- The checks on a numeral: it may not be too long, and its value has to be in range. -/
def numeralChecks (component : String) (text : List Char) (digits : Nat) (inRange : Bool) :
    List Check :=
  [⟨component, text, .notANumeral, digits ≤ maxDigits⟩, ⟨component, text, .outOfRange, inRange⟩]

/-- The checks on an unsigned number. -/
def unsignedChecks (component : String) (ds : List Char) : List Check :=
  numeralChecks component ds ds.length (value ds ≤ maxUnsigned)

/-- The integer that a sign and a run of digits denote. -/
def signedValue (sign : Char) (ds : List Char) : Int := signed (sign == '-') (value ds)

/-- The checks on a modifier. -/
def modifierChecks (sign : Char) (ds : List Char) : List Check :=
  numeralChecks "modifier" (sign :: ds) ds.length
    (-(maxSigned : Int) - 1 ≤ signedValue sign ds ∧ signedValue sign ds ≤ maxSigned)

/-- Reading between two bounds, for a text that is a numeral of so many digits. -/
theorem makes_readBetween (lo hi : Int) {n : Int} {digits : Nat} {cs : List Char}
    (component : String) (h : read? cs = if digits ≤ maxDigits then some n else none) :
    Makes (numeralChecks component cs digits (lo ≤ n ∧ n ≤ hi))
      (readBetween lo hi component (String.ofList cs)) (· = n) := by
  refine .cons (fun hlen => .cons (fun hn => ?_) fun hn => ?_) fun hlen => ?_
  · have hread : read? cs = some n := by simpa [of_decide_eq_true hlen] using h
    simp only [readBetween, String.toList_ofList, hread, of_decide_eq_true hn, and_self, if_true]
    exact .ok rfl
  · have hread : read? cs = some n := by simpa [of_decide_eq_true hlen] using h
    simp only [readBetween, String.toList_ofList, hread, of_decide_eq_false hn, if_false]
    rfl
  · have hread : read? cs = none := by simpa [of_decide_eq_false hlen] using h
    simp only [readBetween, String.toList_ofList, hread]
    rfl

/-- An unsigned number is read as the value of its digits. -/
theorem makes_readUnsigned {ds : List Char} (component : String) (h : IsRun ds) :
    Makes (unsignedChecks component ds) (readUnsigned component (String.ofList ds))
      (· = value ds) := by
  have hr := makes_readBetween 0 maxUnsigned component (read?_digits h.1 h.2)
  have hb : decide ((0 : Int) ≤ value ds ∧ (value ds : Int) ≤ maxUnsigned)
      = decide (value ds ≤ maxUnsigned) := by
    congr 1
    simp
  rw [hb] at hr
  refine hr.map ?_
  rintro n rfl
  rfl

/-- A modifier is read as the integer that its sign and its digits denote. -/
theorem makes_readSigned {s : Char} {ds : List Char} (hs : s = '+' ∨ s = '-') (h : IsRun ds) :
    Makes (modifierChecks s ds) (readSigned "modifier" (String.ofList (s :: ds)))
      (· = signedValue s ds) :=
  makes_readBetween _ _ "modifier" (read?_sign hs h.1 h.2)

/-! ## 3. The checks on the parts of a token -/

namespace Parts

/-- The number of dice that some parts ask for: one, unless they give a number. -/
def count (p : Parts) : Nat := if p.number.isEmpty then 1 else value p.number

/-- The checks on the number of dice, if there is a number. -/
def numberChecks (p : Parts) : List Check :=
  if p.number.isEmpty then [] else unsignedChecks "number of dice" p.number

/-- **The checks on the parts of a token, in the order in which they are made.**  The sides come
first; the limit on the number of dice, which was looked at before, comes last. -/
def checks (p : Parts) : List Check :=
  unsignedChecks "die size" p.sides ++
    ⟨"die size", p.sides, .zeroSides, 0 < value p.sides⟩ ::
      (p.numberChecks ++
        (p.reroll.elim [] (unsignedChecks "reroll") ++
          (p.keep.elim [] (fun k => unsignedChecks keepComponent k.2) ++
            (p.modifier.elim [] (fun m => modifierChecks m.1 m.2) ++
              [⟨"number of dice", p.number, .tooManyDice, p.count ≤ maxDice⟩]))))

/-- The roll that some parts write: the values of the digits, part by part.  An absent number is
one; every other absent part is absent from the roll, and only such a part is. -/
structure Denotes (p : Parts) (r : Roll) : Prop where
  sides : r.sides = value p.sides
  number : r.number = p.count
  reroll : r.reroll = p.reroll.map fun ds => (value ds : Int)
  keep : r.keep = p.keep.map fun k => ⟨k.1, value k.2⟩
  modifier : r.modifier = p.modifier.map fun m => signedValue m.1 m.2

theorem Denotes.unique {p : Parts} {r r' : Roll} (h : p.Denotes r) (h' : p.Denotes r') :
    r = r' := by
  cases r
  cases r'
  obtain ⟨rfl, rfl, rfl, rfl, rfl⟩ := h
  obtain ⟨h1, h2, h3, h4, h5⟩ := h'
  simp only at h1 h2 h3 h4 h5
  simp only [h1, h2, h3, h4, h5]

theorem makes_readNumber {p : Parts} (hp : p.Lawful) :
    Makes p.numberChecks (readNumber p.number) (· = p.count) := by
  unfold numberChecks readNumber count
  split
  · exact .ok rfl
  · rename_i hne
    exact makes_readUnsigned "number of dice" ⟨fun e => hne (by rw [e]; rfl), hp.number⟩

theorem makes_readReroll {p : Parts} (hp : p.Lawful) :
    Makes (p.reroll.elim [] (unsignedChecks "reroll")) (readUnsigned? "reroll" p.reroll)
      (· = p.reroll.map fun ds => (value ds : Int)) := by
  cases h : p.reroll with
  | none => exact .ok rfl
  | some ds =>
    simp only [Option.elim_some, readUnsigned?, Option.map_some]
    exact (makes_readUnsigned "reroll" (hp.reroll ds h)).map fun n hn => by rw [hn]

theorem makes_readKeep {p : Parts} (hp : p.Lawful) :
    Makes (p.keep.elim [] fun k => unsignedChecks keepComponent k.2) (readKeep? p.keep)
      (· = p.keep.map fun k => ⟨k.1, value k.2⟩) := by
  cases h : p.keep with
  | none => exact .ok rfl
  | some k =>
    simp only [Option.elim_some, readKeep?, Option.map_some]
    exact (makes_readUnsigned keepComponent (hp.keep k.1 k.2 h)).map fun n hn => by rw [hn]

theorem makes_readModifier {p : Parts} (hp : p.Lawful) :
    Makes (p.modifier.elim [] fun m => modifierChecks m.1 m.2) (readModifier? p.modifier)
      (· = p.modifier.map fun m => signedValue m.1 m.2) := by
  cases h : p.modifier with
  | none => exact .ok rfl
  | some m =>
    obtain ⟨hs, hr⟩ := hp.modifier m.1 m.2 h
    simp only [Option.elim_some, readModifier?, Option.map_some]
    exact (makes_readSigned hs hr).map fun n hn => by rw [hn]

/-- **Reading makes all these checks in this order**, and gives the roll that the parts denote. -/
theorem makes_toRoll {p : Parts} (hp : p.Lawful) (hs : p.sides ≠ []) :
    Makes p.checks p.toRoll p.Denotes := by
  refine .bind (makes_readUnsigned "die size" ⟨hs, hp.sides⟩) ?_
  rintro sides rfl
  refine .cons (fun hpos => ?_) fun hpos => ?_
  · have hpos : 0 < value p.sides := of_decide_eq_true hpos
    rw [dif_pos hpos]
    refine .bind (makes_readNumber hp) fun number hn => ?_
    refine .bind (makes_readReroll hp) fun reroll hr => ?_
    refine .bind (makes_readKeep hp) fun keep hk => ?_
    refine .bind (makes_readModifier hp) fun modifier hm => ?_
    subst hn
    refine .cons (fun hmax => ?_) fun hmax => ?_
    · rw [if_pos (of_decide_eq_true hmax)]
      exact .ok ⟨rfl, rfl, hr, hk, hm⟩
    · rw [if_neg (of_decide_eq_false hmax)]
      rfl
  · rw [dif_neg (of_decide_eq_false hpos)]
    rfl

/-- Reading fails with the error of the first check that does not pass. -/
theorem toRoll_eq_error_iff {p : Parts} (hp : p.Lawful) (hs : p.sides ≠ []) {e : Error} :
    p.toRoll = .error e ↔ ∃ c, firstFailing p.checks = some c ∧ c.error = e :=
  (makes_toRoll hp hs).eq_error_iff

/-- Reading gives a roll exactly if all checks pass, and then the one that the parts denote. -/
theorem toRoll_eq_ok_iff {p : Parts} (hp : p.Lawful) (hs : p.sides ≠ []) {r : Roll} :
    p.toRoll = .ok r ↔ firstFailing p.checks = none ∧ p.Denotes r :=
  (makes_toRoll hp hs).eq_ok_iff fun _ _ => Denotes.unique

/-! ## 4. The ranges of the numbers -/

/-- Every number of the parts is short enough and in its range. -/
structure InRange (p : Parts) : Prop where
  number : p.number.length ≤ 4300 ∧ value p.number ≤ 1000
  sides : p.sides.length ≤ 4300 ∧ 1 ≤ value p.sides ∧ value p.sides ≤ 2 ^ 32 - 1
  reroll : ∀ ds, p.reroll = some ds → ds.length ≤ 4300 ∧ value ds ≤ 2 ^ 32 - 1
  keep : ∀ d ds, p.keep = some (d, ds) → ds.length ≤ 4300 ∧ value ds ≤ 2 ^ 32 - 1
  modifier : ∀ s ds, p.modifier = some (s, ds) →
    ds.length ≤ 4300 ∧ -2 ^ 31 ≤ signedValue s ds ∧ signedValue s ds ≤ 2 ^ 31 - 1

theorem forall_unsignedChecks_iff {component : String} {ds : List Char} :
    (∀ c ∈ unsignedChecks component ds, c.passes = true) ↔
      ds.length ≤ 4300 ∧ value ds ≤ 2 ^ 32 - 1 := by
  have hlist : (∀ c ∈ unsignedChecks component ds, c.passes = true) ↔
      ds.length ≤ maxDigits ∧ value ds ≤ maxUnsigned := by
    simp [unsignedChecks, numeralChecks]
  exact hlist

theorem forall_modifierChecks_iff {s : Char} {ds : List Char} :
    (∀ c ∈ modifierChecks s ds, c.passes = true) ↔
      ds.length ≤ 4300 ∧ -2 ^ 31 ≤ signedValue s ds ∧ signedValue s ds ≤ 2 ^ 31 - 1 := by
  have hlist : (∀ c ∈ modifierChecks s ds, c.passes = true) ↔
      ds.length ≤ maxDigits ∧ -(maxSigned : Int) - 1 ≤ signedValue s ds ∧
        signedValue s ds ≤ maxSigned := by
    simp [modifierChecks, numeralChecks]
  exact hlist

/-- The two checks on the number of dice, the range and the limit, come to one. -/
theorem forall_numberChecks_iff {p : Parts} :
    (∀ c ∈ p.numberChecks, c.passes = true) ∧ p.count ≤ maxDice ↔
      p.number.length ≤ 4300 ∧ value p.number ≤ 1000 := by
  unfold numberChecks count maxDice
  split
  · rename_i hn
    rw [List.isEmpty_iff.mp hn]
    simp [value]
  · rw [forall_unsignedChecks_iff]
    omega

theorem forall_mem_elim_iff {α : Type} {f : α → List Check} {o : Option α} {P : Check → Prop} :
    (∀ c ∈ o.elim [] f, P c) ↔ ∀ a, o = some a → ∀ c ∈ f a, P c := by
  cases o with
  | none => simp
  | some a => simp

/-- **All checks pass exactly if every number is in its range.** -/
theorem firstFailing_checks_eq_none_iff {p : Parts} :
    firstFailing p.checks = none ↔ p.InRange := by
  rw [firstFailing_eq_none_iff]
  simp only [checks, List.forall_mem_append, List.forall_mem_cons,
    forall_mem_elim_iff, forall_unsignedChecks_iff, forall_modifierChecks_iff,
    decide_eq_true_eq]
  constructor
  · rintro ⟨⟨hs1, hs2⟩, hpos, hn, hr, hk, hm, hmax, -⟩
    exact ⟨forall_numberChecks_iff.mp ⟨hn, hmax⟩, ⟨hs1, hpos, hs2⟩, hr,
      fun d ds h => hk (d, ds) h, fun s ds h => hm (s, ds) h⟩
  · rintro ⟨hn, ⟨hs1, hpos, hs2⟩, hr, hk, hm⟩
    obtain ⟨hn, hmax⟩ := forall_numberChecks_iff.mpr hn
    exact ⟨⟨hs1, hs2⟩, hpos, hn, hr, fun k h => hk k.1 k.2 h, fun m h => hm m.1 m.2 h, hmax,
      fun _ h => nomatch h⟩

end Parts
end Dice.Notation
