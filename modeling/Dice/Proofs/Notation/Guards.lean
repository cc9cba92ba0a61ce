/-
# No guard behind the checks ever strikes

The pieces of a roll guard themselves.  A keep asks for a known direction by name and for a count
that is not negative (`Keep.make?`), and a roll asks for sides and for a number of dice that is not
negative (`Roll.make`).  When a token is read these questions have been settled before, which the
reader of tokens knows by its types.

Here is the reader that takes nothing for granted: it handles plain integers and directions by
name, and asks every guard on its way.  A run of it may `Stop` for more reasons than a bad token,
but never does:

* `parseGuarded_eq`: it ends as the reader of tokens does, with the same roll or the same error.

The two are run side by side (`Agree`): every step of the one has an integer where the other has a
natural number, and nothing else sets them apart.
-/
import Dice.Notation.Token

namespace Dice.Notation

/-! ## 1. Reading with all guards -/

/-- Why reading with all guards stops: for an error in the token, or because a guard strikes. -/
inductive Stop
  | token (e : Error)
  | keepGuard
  | rollGuard (r : Roll.Refusal)
  deriving DecidableEq

/-- An unsigned number as a plain integer. -/
def unsignedGuarded (component : String) (cs : List Char) : Except Stop Int :=
  (readBetween 0 maxUnsigned component (String.ofList cs)).mapError .token

/-- A keep, if its guards let it pass. -/
def makeKeepGuarded (direction : String) (count : Int) : Except Stop Keep :=
  match Keep.make? direction count with
  | some k => .ok k
  | none => .error .keepGuard

/-- Reads a keep.  After the number, each direction is looked for by its name. -/
def readKeepGuarded (direction : String) (cs : List Char) : Except Stop Keep := do
  let n ← unsignedGuarded keepComponent cs
  if direction = "h" then makeKeepGuarded "h" n
  else if direction = "l" then makeKeepGuarded "l" n
  else .error (.token (.unknownDirection direction))

/-- A part that may be absent. -/
def optionalGuarded {α β : Type} (read : α → Except Stop β) : Option α → Except Stop (Option β)
  | none => .ok none
  | some a => (read a).map some

namespace Parts

/-- The number of dice as a plain integer. -/
def numberGuarded (p : Parts) : Except Stop Int :=
  if p.number.isEmpty then .ok 1 else unsignedGuarded "number of dice" p.number

/-- The roll that some parts write, made by the maker of rolls. -/
def toRollGuarded (p : Parts) : Except Stop Roll := do
  let sides ← unsignedGuarded "die size" p.sides
  if sides = 0 then
    .error (.token (.badNumber "die size" (String.ofList p.sides) .zeroSides))
  else
    let number ← p.numberGuarded
    let reroll ← optionalGuarded (unsignedGuarded "reroll") p.reroll
    let keep ← optionalGuarded (fun k => readKeepGuarded (String.ofList [k.1.letter]) k.2) p.keep
    let modifier ← optionalGuarded
      (fun m => (readSigned "modifier" (String.ofList (m.1 :: m.2))).mapError .token) p.modifier
    if (maxDice : Int) < number then
      .error (.token (.badNumber "number of dice" (String.ofList p.number) .tooManyDice))
    else (Roll.make sides number reroll keep modifier).mapError .rollGuard

end Parts

/-- Reads a token, with all guards. -/
def parseGuarded (token : String) : Except Stop Roll :=
  match Parts.scan (token.toList.map Char.toLower) with
  | none => .error (.token (.malformed token))
  | some p => if p.sides.isEmpty then .error (.token (.missingDie token)) else p.toRollGuarded

/-! ## 2. Two readers side by side -/

section Agree

variable {α β γ δ : Type} {R : α → β → Prop} {S : γ → δ → Prop}

/-- A reader and a guarded one agree: both fail with one error in the token, or both succeed with
related results. -/
inductive Agree (R : α → β → Prop) : Except Error α → Except Stop β → Prop
  | ok {a : α} {b : β} : R a b → Agree R (.ok a) (.ok b)
  | error (e : Error) : Agree R (.error e) (.error (.token e))

theorem Agree.bind {x : Except Error α} {y : Except Stop β} {f : α → Except Error γ}
    {g : β → Except Stop δ} (hxy : Agree R x y) (hfg : ∀ a b, R a b → Agree S (f a) (g b)) :
    Agree S (x >>= f) (y >>= g) := by
  cases hxy with
  | ok hab => exact hfg _ _ hab
  | error e => exact .error e

theorem Agree.map {x : Except Error α} {y : Except Stop β} {f : α → γ} {g : β → δ}
    (hxy : Agree R x y) (hfg : ∀ a b, R a b → S (f a) (g b)) : Agree S (x.map f) (y.map g) := by
  cases hxy with
  | ok hab => exact .ok (hfg _ _ hab)
  | error e => exact .error e

/-- If related results are equal, agreement is equality up to the kind of error. -/
theorem Agree.eq_mapError {x : Except Error α} {y : Except Stop α} (h : Agree Eq x y) :
    y = x.mapError .token := by
  cases h with
  | ok hab =>
    rw [hab]
    rfl
  | error e => rfl

theorem agree_mapError (x : Except Error α) : Agree Eq x (x.mapError .token) := by
  cases x with
  | ok a => exact .ok rfl
  | error e => exact .error e

end Agree

/-! ## 3. Step by step -/

/-- What is read between two bounds lies between them. -/
theorem le_of_readBetween {lo hi n : Int} {component text : String}
    (h : readBetween lo hi component text = .ok n) : lo ≤ n ∧ n ≤ hi := by
  unfold readBetween at h
  split at h
  · cases h
  · split at h
    · rename_i hn
      cases h
      exact hn
    · cases h

/-- An unsigned number is the same as an integer. -/
theorem agree_unsigned (component : String) (cs : List Char) :
    Agree (fun (a : Nat) (b : Int) => b = a) (readUnsigned component (String.ofList cs))
      (unsignedGuarded component cs) := by
  unfold readUnsigned unsignedGuarded
  cases h : readBetween 0 maxUnsigned component (String.ofList cs) with
  | error e => exact .error e
  | ok n =>
    have hn := (le_of_readBetween h).1
    exact .ok (Int.toNat_of_nonneg hn).symm

/-- A direction is known by its letter. -/
theorem ofText?_letter (d : Direction) :
    Direction.ofText? (String.ofList [d.letter]) = some d := by
  cases d <;> rfl

/-- The guards of a keep let every direction by its letter and every count pass. -/
theorem makeKeepGuarded_letter (d : Direction) (n : Nat) :
    makeKeepGuarded (String.ofList [d.letter]) n = .ok ⟨d, n⟩ := by
  have hn : ¬((n : Int) < 0) := by omega
  have hmake : Keep.make? (String.ofList [d.letter]) n = some ⟨d, n⟩ := by
    rw [Keep.make?, ofText?_letter]
    exact if_neg hn
  rw [makeKeepGuarded, hmake]

/-- The guards of a roll let sides that are not zero and every number of dice pass. -/
theorem make_natCast {sides : Nat} (hpos : 0 < sides) (number : Nat) (reroll : Option Int)
    (keep : Option Keep) (modifier : Option Int) :
    Roll.make sides number reroll keep modifier
      = .ok ⟨sides, number, reroll, keep, modifier, hpos⟩ := by
  have hsides : (0 : Int) < sides := by omega
  have hnumber : (0 : Int) ≤ number := by omega
  rw [Roll.make, dif_pos hsides, if_pos hnumber]
  rfl

/-- Looking for each direction by name is looking for any. -/
theorem agree_keep (direction : String) (cs : List Char) :
    Agree Eq (readKeep direction (String.ofList cs)) (readKeepGuarded direction cs) := by
  refine (agree_unsigned keepComponent cs).bind ?_
  rintro n _ rfl
  unfold Direction.ofText?
  by_cases hh : direction = "h"
  · subst hh
    rw [if_pos rfl, if_pos rfl]
    rw [show makeKeepGuarded "h" n = .ok ⟨.high, n⟩ from makeKeepGuarded_letter .high n]
    exact .ok rfl
  · by_cases hl : direction = "l"
    · subst hl
      rw [if_neg hh, if_pos rfl, if_neg hh, if_pos rfl]
      rw [show makeKeepGuarded "l" n = .ok ⟨.low, n⟩ from makeKeepGuarded_letter .low n]
      exact .ok rfl
    · rw [if_neg hh, if_neg hl, if_neg hh, if_neg hl]
      exact .error _

/-- A keep that the scanner has found is read by the letter of its direction, which is known. -/
theorem readKeep?_some (d : Direction) (cs : List Char) :
    readKeep? (some (d, cs))
      = (readKeep (String.ofList [d.letter]) (String.ofList cs)).map some := by
  simp only [readKeep?, readKeep]
  cases readUnsigned keepComponent (String.ofList cs) with
  | error e => rfl
  | ok n =>
    rw [ofText?_letter]
    rfl

namespace Parts

theorem agree_number (p : Parts) :
    Agree (fun (a : Nat) (b : Int) => b = a) (readNumber p.number) p.numberGuarded := by
  unfold readNumber numberGuarded
  split
  · exact .ok rfl
  · exact agree_unsigned _ _

theorem agree_reroll (p : Parts) :
    Agree Eq (readUnsigned? "reroll" p.reroll)
      (optionalGuarded (unsignedGuarded "reroll") p.reroll) := by
  cases p.reroll with
  | none => exact .ok rfl
  | some ds => exact (agree_unsigned "reroll" ds).map fun a b h => congrArg some h.symm

theorem agree_readKeep (p : Parts) :
    Agree Eq (readKeep? p.keep)
      (optionalGuarded (fun k => readKeepGuarded (String.ofList [k.1.letter]) k.2) p.keep) := by
  cases p.keep with
  | none => exact .ok rfl
  | some k =>
    rw [readKeep?_some]
    exact (agree_keep _ _).map fun a b h => congrArg some h

theorem agree_modifier (p : Parts) :
    Agree Eq (readModifier? p.modifier)
      (optionalGuarded
        (fun m => (readSigned "modifier" (String.ofList (m.1 :: m.2))).mapError .token)
        p.modifier) := by
  cases p.modifier with
  | none => exact .ok rfl
  | some m => exact (agree_mapError _).map fun a b h => congrArg some h

/-- **No guard strikes after the checks.** -/
theorem agree_toRoll (p : Parts) : Agree Eq p.toRoll p.toRollGuarded := by
  refine (agree_unsigned "die size" p.sides).bind ?_
  rintro sides _ rfl
  by_cases hpos : 0 < sides
  · have hne : ¬((sides : Int) = 0) := by omega
    rw [dif_pos hpos, if_neg hne]
    refine p.agree_number.bind ?_
    rintro number _ rfl
    refine p.agree_reroll.bind ?_
    rintro reroll _ rfl
    refine p.agree_readKeep.bind ?_
    rintro keep _ rfl
    refine p.agree_modifier.bind ?_
    rintro modifier _ rfl
    by_cases hmax : number ≤ maxDice
    · have hle : ¬((maxDice : Int) < number) := by omega
      rw [if_pos hmax, if_neg hle, make_natCast hpos]
      exact .ok rfl
    · have hlt : (maxDice : Int) < number := by omega
      rw [if_neg hmax, if_pos hlt]
      exact .error _
  · have hz : (sides : Int) = 0 := by omega
    rw [dif_neg hpos, if_pos hz]
    exact .error _

end Parts

theorem agree_parse (token : String) : Agree Eq (parse token) (parseGuarded token) := by
  unfold parse parseGuarded
  cases Parts.scan (token.toList.map Char.toLower) with
  | none => exact .error _
  | some p =>
    by_cases hs : p.sides.isEmpty = true
    · simp only [hs, if_true]
      exact .error _
    · simp only [hs]
      exact p.agree_toRoll

/-- **Reading with all guards is reading**: it stops only for an error in the token. -/
theorem parseGuarded_eq (token : String) : parseGuarded token = (parse token).mapError .token :=
  (agree_parse token).eq_mapError

end Dice.Notation
