/-
# Throws by script

A script gives every die of a roll two faces beforehand: the one that it shows, and the one that
takes its place if it is thrown again.  A source that goes by a script answers with the first face
of each die, and with the second right after it where the die asks for one.

* `throwDice_of_answers`: answers in this order make the dice that the pairs of faces stand for;
* `throw_script`: so a roll comes to the dice of its script, and the source gives nothing but faces
  (`inRange_scriptSource`).
-/
import Dice.Proofs.Roll.Scan

namespace Dice

/-- A face of a die, where the number of faces before it is given. -/
def face {sides : Nat} (i : Fin sides) : Int := i + 1

namespace Source

/-- The answers of a scripted source, as long as its entries last and none of them goes round the
faces of the die. -/
theorem answers_ofScript {entries : List Int} {sides : Nat}
    (h : ∀ e ∈ entries, 0 ≤ e ∧ e < sides) :
    (ofScript entries.toArray).answers sides 0 entries.length = entries.map (· + 1) := by
  refine List.ext_getElem (by simp) fun i hi _ => ?_
  rw [length_answers] at hi
  obtain ⟨h0, h1⟩ := h entries[i] (List.getElem_mem hi)
  have hentry : (entries.toArray[(0 + i) % entries.toArray.size]?.getD 0) = entries[i] := by
    rw [Nat.zero_add, List.size_toArray, Nat.mod_eq_of_lt hi]
    simp [hi]
  simp only [answers, List.getElem_map, List.getElem_range', Nat.one_mul, ofScript, hentry,
    Int.emod_eq_of_lt h0 h1]
  exact Int.add_comm 1 entries[i]

end Source

namespace Roll

/-- Two faces of a die of the roll: the first one, and the one to replace it. -/
abbrev Pair (r : Roll) : Type := Fin r.sides × Fin r.sides

/-- **A script of a roll** has a pair of faces for each die. -/
abbrev Script (r : Roll) : Type := Fin r.number → r.Pair

/-- The die that a pair of faces makes.  The second face counts if the first is thrown again. -/
def dieOf (r : Roll) (p : r.Pair) : Die :=
  if r.isRerolled (face p.1) then .rerolled (face p.1) (face p.2) else .kept (face p.1)

/-- What a die takes of a pair of faces. -/
def entriesOf (r : Roll) (p : r.Pair) : List Int :=
  if r.isRerolled (face p.1) then [(p.1 : Int), (p.2 : Int)] else [(p.1 : Int)]

/-- The source that goes by a script. -/
def scriptSource (r : Roll) (σ : r.Script) : Source :=
  .ofScript ((List.ofFn σ).flatMap r.entriesOf).toArray

theorem inRange_scriptSource (r : Roll) (σ : r.Script) : (r.scriptSource σ).InRange :=
  Source.inRange_ofScript _

variable {r : Roll} {source : Source}

theorem entry_of_mem_entriesOf {p : r.Pair} {e : Int} (h : e ∈ r.entriesOf p) :
    0 ≤ e ∧ e < r.sides := by
  have hfirst := p.1.isLt
  have hsecond := p.2.isLt
  unfold entriesOf at h
  split at h
  · simp only [List.mem_cons, List.not_mem_nil, or_false] at h
    omega
  · rw [List.mem_singleton] at h
    omega

/-- **Answers in the order of the dice** make the dice of their pairs. -/
theorem throwDice_of_answers :
    ∀ (ps : List r.Pair) (i : Nat),
      source.answers r.sides i (ps.flatMap r.entriesOf).length
        = (ps.flatMap r.entriesOf).map (· + 1) →
      (r.throwDice source ps.length i).1 = ps.map r.dieOf
  | [], _, _ => rfl
  | p :: ps, i, h => by
    rw [List.flatMap_cons] at h
    cases hrerolled : r.isRerolled (face p.1) with
    | false =>
      have hentries : r.entriesOf p = [(p.1 : Int)] := by simp [entriesOf, hrerolled]
      rw [hentries, List.singleton_append, List.length_cons, Source.answers_succ,
        List.map_cons, List.cons.injEq] at h
      obtain ⟨hfirst, hrest⟩ := h
      have hface : source i r.sides = face p.1 := hfirst
      have hdie := throwDie_kept (hface ▸ hrerolled)
      have hothers := throwDice_of_answers ps (i + 1) hrest
      simp [throwDice, hdie, hothers, dieOf, hrerolled, hface]
    | true =>
      have hentries : r.entriesOf p = [(p.1 : Int), (p.2 : Int)] := by
        simp [entriesOf, hrerolled]
      rw [hentries, List.cons_append, List.singleton_append, List.length_cons, List.length_cons,
        Source.answers_succ, Source.answers_succ, List.map_cons, List.map_cons, List.cons.injEq,
        List.cons.injEq] at h
      obtain ⟨hfirst, hsecond, hrest⟩ := h
      have hface : source i r.sides = face p.1 := hfirst
      have hnext : source (i + 1) r.sides = face p.2 := hsecond
      have hdie := throwDie_rerolled (hface ▸ hrerolled)
      have hothers := throwDice_of_answers ps (i + 2) hrest
      simp [throwDice, hdie, hothers, dieOf, hrerolled, hface, hnext]

/-- The dice of a script. -/
def scriptDice (r : Roll) (σ : r.Script) : List Die := List.ofFn fun i => r.dieOf (σ i)

@[simp] theorem length_scriptDice (r : Roll) (σ : r.Script) :
    (r.scriptDice σ).length = r.number :=
  List.length_ofFn

/-- **A roll by script** comes to the dice of the script. -/
theorem throw_script (r : Roll) (σ : r.Script) :
    (r.throw (r.scriptSource σ) 0).1
      = Outcome.ofDice (r.scriptDice σ) r.keep (r.modifier.getD 0) := by
  have hanswers : (r.scriptSource σ).answers r.sides 0 ((List.ofFn σ).flatMap r.entriesOf).length
      = ((List.ofFn σ).flatMap r.entriesOf).map (· + 1) := by
    refine Source.answers_ofScript fun e he => ?_
    obtain ⟨p, -, hp⟩ := List.mem_flatMap.mp he
    exact entry_of_mem_entriesOf hp
  have hdice := throwDice_of_answers (List.ofFn σ) 0 hanswers
  rw [List.length_ofFn, List.map_ofFn] at hdice
  unfold throw
  dsimp only
  rw [hdice]
  rfl

end Roll
end Dice
