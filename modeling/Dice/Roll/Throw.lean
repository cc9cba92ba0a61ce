/-
# Throwing dice

Faces come from a source.  A source answers its calls one after the other; call number `i` for a
die with `s` sides gets `source i s`, so a run of throws is known by the number of calls before it
and hands on the number of calls after it.

A die takes one answer.  If that is at or below the reroll threshold the die takes the very next
answer too, and that one stands whatever it is.

* `Roll.throwDie_kept`, `Roll.throwDie_rerolled`: how many answers a die takes;
* `Roll.length_throwDice`: a roll comes to as many dice as it asks for.
-/
import Dice.Roll.Basic
import Dice.Outcome

namespace Dice

/-- Answers by the number of the call and the number of sides. -/
abbrev Source := Nat → Nat → Int

namespace Source

/-- A source whose answers are faces of the dice that are thrown. -/
def InRange (source : Source) : Prop := ∀ i s, 0 < s → 1 ≤ source i s ∧ source i s ≤ s

/-- A source that goes through a script again and again.  An entry counts round the faces of the
die, from the first one; an empty script always gives the first face. -/
def ofScript (script : Array Int) : Source := fun i s =>
  1 + (script[i % script.size]?.getD 0) % (s : Int)

/-- A scripted source throws faces only. -/
theorem inRange_ofScript (script : Array Int) : (ofScript script).InRange := by
  intro i s hs
  have hpos : (0 : Int) < s := by omega
  have h0 := Int.emod_nonneg (script[i % script.size]?.getD 0) (b := (s : Int)) (by omega)
  have h1 := Int.emod_lt_of_pos (script[i % script.size]?.getD 0) hpos
  simp only [ofScript]
  omega

end Source

namespace Roll

/-- Whether a first face is thrown again. -/
def isRerolled (r : Roll) (face : Int) : Bool :=
  match r.reroll with
  | none => false
  | some t => face ≤ t

/-- Throws one die, and counts the calls. -/
def throwDie (r : Roll) (source : Source) (calls : Nat) : Die × Nat :=
  let first := source calls r.sides
  if r.isRerolled first then (.rerolled first (source (calls + 1) r.sides), calls + 2)
  else (.kept first, calls + 1)

/-- Throws so many dice, one after the other. -/
def throwDice (r : Roll) (source : Source) : (number calls : Nat) → List Die × Nat
  | 0, calls => ([], calls)
  | n + 1, calls =>
    let (d, calls) := r.throwDie source calls
    let (ds, calls) := r.throwDice source n calls
    (d :: ds, calls)

/-- Throws the dice of a roll.  An absent modifier adds nothing. -/
def throw (r : Roll) (source : Source) (calls : Nat) : Outcome × Nat :=
  let (ds, calls) := r.throwDice source r.number calls
  (.ofDice ds r.keep (r.modifier.getD 0), calls)

/-- Throws several rolls, one after the other. -/
def throwAll (source : Source) : List Roll → (calls : Nat) → List Outcome × Nat
  | [], calls => ([], calls)
  | r :: rs, calls =>
    let (o, calls) := r.throw source calls
    let (os, calls) := throwAll source rs calls
    (o :: os, calls)

theorem throwDie_kept {r : Roll} {source : Source} {i : Nat}
    (h : r.isRerolled (source i r.sides) = false) :
    r.throwDie source i = (.kept (source i r.sides), i + 1) := by
  simp [throwDie, h]

theorem throwDie_rerolled {r : Roll} {source : Source} {i : Nat}
    (h : r.isRerolled (source i r.sides) = true) :
    r.throwDie source i
      = (.rerolled (source i r.sides) (source (i + 1) r.sides), i + 2) := by
  simp [throwDie, h]

@[simp] theorem length_throwDice (r : Roll) (source : Source) :
    ∀ n i, (r.throwDice source n i).1.length = n
  | 0, _ => rfl
  | n + 1, i => by
    simp [throwDice, length_throwDice r source n]

@[simp] theorem length_throwAll (source : Source) :
    ∀ rs i, (throwAll source rs i).1.length = rs.length
  | [], _ => rfl
  | _ :: rs, _ => by
    simp [throwAll, length_throwAll source rs]

end Roll
end Dice
