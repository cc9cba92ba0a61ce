/-
# What a run of a session can do to its tables

A session is reached by operations in any order, on tables old and new, with files that may be
others at each of them.

* `perform_effect`: all that one operation can do to a session (`Effect`);
* `Reachable.sound`: in every reachable session each table has its macros at an address that has
  been given.  One operation preserves this (`sound_perform`);
* `loaded_or_unchanged`: **loading is all or nothing.**  Either all lines count, or, whatever goes
  wrong and wherever in the lines or in the file, every number of the session means the very table
  it meant before.
-/
import Dice.Macro.Session
import Dice.Proofs.Macro.Staging

namespace Dice

/-- An operation that loads: the number of its table, and what is to become of that table. -/
def Operation.load? (files : Files) :
    Operation → Option (Nat × (Macros.Table → Logged (Except LoadError Macros.Table)))
  | extend number source lines => some (number, fun t => t.extend source lines)
  | extendFrom number path => some (number, fun t => t.extendFrom files path)
  | _ => none

namespace Session

open Macros (Store)

/-! ## 1. Reachable sessions -/

/-- The sessions that operations lead to. -/
inductive Reachable : Session → Prop
  | start : Reachable start
  | perform {s : Session} (files : Files) (op : Operation) :
      Reachable s → Reachable (s.perform files op).1

theorem Reachable.run (files : Files) :
    ∀ (ops : List Operation) {s : Session}, Reachable s → Reachable (s.run files ops).1
  | [], _, h => h
  | op :: ops, _, h => Reachable.run files ops (h.perform files op)

/-! ## 2. What one operation does -/

/-- **All that an operation can do to a session.**  It looks at tables and changes nothing, makes a
table, sets a flag, or attempts to load. -/
inductive Effect (files : Files) (s : Session) : Operation → Session → Prop
  | looked {op : Operation} : Effect files s op s
  | standard : Effect files s .newStandard s.addStandard
  | made {macros : Macros} : Effect files s (.new macros) (s.add (Macros.Table.ofMacros macros))
  | copied {number : Nat} {t : Macros.Table} :
      s.table? number = some t → Effect files s (.copy number) (s.add t.copy)
  | froze {number place : Nat} {frozen : Bool} :
      s.meanings[number]? = some place →
      Effect files s (.freeze number frozen) { s with store := s.store.setFrozen place frozen }
  | loaded {op : Operation} {number place : Nat} {t : Macros.Table}
      {f : Macros.Table → Logged (Except LoadError Macros.Table)}
      {attempt : Store × Logged (Option LoadError)} :
      op.load? files = some (number, f) → s.meanings[number]? = some place →
      s.store.table? place = some t → Store.Attempt s.store place t (f t) attempt →
      Effect files s op { s with store := attempt.1 }

theorem table?_of_place {s : Session} {number place : Nat} {t : Macros.Table}
    (hplace : s.meanings[number]? = some place) (ht : s.store.table? place = some t) :
    s.table? number = some t :=
  Option.bind_eq_some_iff.mpr ⟨place, hplace, ht⟩

/-- An operation on the table of a number finds no table, or goes on with the place of the table
and with what it holds. -/
theorem withTable_elim {P : Session × Logged Answer → Prop} {s : Session} {number : Nat}
    {k : Nat → Macros.Table → Session × Logged Answer}
    (hnone : P (s, ⟨[], .failed .noTable⟩))
    (hk : ∀ place t, s.meanings[number]? = some place → s.store.table? place = some t →
      P (k place t)) : P (s.withTable number k) := by
  unfold withTable
  split
  · exact hnone
  · rename_i place hplace
    split
    · exact hnone
    · rename_i t ht
      exact hk place t hplace ht

/-- The memory after an attempt is the one that the attempt left. -/
theorem afterLoad_fst (s : Session) (number : Nat) (attempt : Store × Logged (Option LoadError)) :
    (s.afterLoad number attempt).1 = { s with store := attempt.1 } :=
  withTable_elim (P := fun r => r.1 = { s with store := attempt.1 }) rfl fun _ _ _ _ => rfl

/-- An operation on the table of a number that leaves the session as it is. -/
theorem withTable_fst_of_look {s : Session} {number : Nat}
    {k : Nat → Macros.Table → Session × Logged Answer} (hk : ∀ place t, (k place t).1 = s) :
    (s.withTable number k).1 = s :=
  withTable_elim (P := fun r => r.1 = s) rfl fun place t _ _ => hk place t

theorem perform_effect (files : Files) (s : Session) (op : Operation) :
    Effect files s op (s.perform files op).1 := by
  have hlook : ∀ {s'}, s' = s → Effect files s op s' := fun h => h ▸ Effect.looked
  cases op with
  | newStandard => exact Effect.standard
  | new macros => exact Effect.made
  | copy number =>
    refine withTable_elim (P := fun r => Effect files s (.copy number) r.1) Effect.looked ?_
    intro place t hplace ht
    exact Effect.copied (table?_of_place hplace ht)
  | freeze number frozen =>
    refine withTable_elim (P := fun r => Effect files s (.freeze number frozen) r.1)
      Effect.looked ?_
    intro place t hplace _
    exact Effect.froze hplace
  | extend number source lines =>
    refine withTable_elim (P := fun r => Effect files s (.extend number source lines) r.1)
      Effect.looked ?_
    intro place t hplace ht
    rw [afterLoad_fst]
    exact Effect.loaded rfl hplace ht (Store.attempt_load s.store place t source ⟨lines, true⟩)
  | extendFrom number path =>
    refine withTable_elim (P := fun r => Effect files s (.extendFrom number path) r.1)
      Effect.looked ?_
    intro place t hplace ht
    rw [afterLoad_fst]
    exact Effect.loaded rfl hplace ht (Store.attempt_loadFile s.store place t files path)
  | names number => exact hlook (withTable_fst_of_look fun _ _ => rfl)
  | rollsOf number name =>
    refine hlook (withTable_fst_of_look fun _ t => ?_)
    split <;> rfl
  | contains number name => exact hlook (withTable_fst_of_look fun _ _ => rfl)
  | expand number token => exact hlook (withTable_fst_of_look fun _ _ => rfl)
  | resolve number tokens => exact hlook (withTable_fst_of_look fun _ _ => rfl)
  | roll number tokens source =>
    refine hlook (withTable_fst_of_look fun _ t => ?_)
    dsimp only
    split <;> rfl

/-! ## 3. Every reachable memory is sound -/

theorem sound_addStandard {s : Session} (hs : s.store.Sound) : s.addStandard.store.Sound := by
  unfold addStandard
  split
  · exact hs
  · exact hs.add standardTable

/-- **One operation.** -/
theorem sound_perform (files : Files) {s : Session} (hs : s.store.Sound) (op : Operation) :
    (s.perform files op).1.store.Sound := by
  have heffect := perform_effect files s op
  generalize (s.perform files op).1 = s' at heffect
  cases heffect with
  | looked => exact hs
  | standard => exact sound_addStandard hs
  | made => exact hs.add _
  | copied => exact hs.add _
  | froze => exact hs.setFrozen _ _
  | loaded _ _ _ hattempt => exact hattempt.sound hs

/-- **Every run.** -/
theorem Reachable.sound {s : Session} (h : Reachable s) : s.store.Sound := by
  induction h with
  | start => exact Store.sound_start
  | perform files op _ ih => exact sound_perform files ih op

/-! ## 4. All or nothing -/

/-- A load into a table that is there is an attempt on that table, which is then looked up again. -/
theorem perform_of_load? {files : Files} {s : Session} {op : Operation} {number place : Nat}
    {t : Macros.Table} {f : Macros.Table → Logged (Except LoadError Macros.Table)}
    (hop : op.load? files = some (number, f)) (hplace : s.meanings[number]? = some place)
    (ht : s.store.table? place = some t) :
    ∃ attempt, Store.Attempt s.store place t (f t) attempt ∧
      s.perform files op = s.afterLoad number attempt := by
  cases op with
  | extend number' source lines =>
    cases hop
    refine ⟨_, Store.attempt_load s.store place t source ⟨lines, true⟩, ?_⟩
    simp only [perform, withTable, hplace, ht]
  | extendFrom number' path =>
    cases hop
    refine ⟨_, Store.attempt_loadFile s.store place t files path, ?_⟩
    simp only [perform, withTable, hplace, ht]
  | _ => cases hop

/-- The answer to an attempt: the error, if there is one, and the table as it is looked up again. -/
theorem afterLoad_snd {s : Session} {number place : Nat}
    {attempt : Store × Logged (Option LoadError)} {t : Macros.Table}
    (hplace : s.meanings[number]? = some place) (ht : attempt.1.table? place = some t) :
    (s.afterLoad number attempt).2 = ⟨attempt.2.records, .extended attempt.2.result t⟩ := by
  simp only [afterLoad, withTable, answer, hplace, ht]

/-- **Loading is all or nothing.**  An operation is to load into a table of a reachable session.
Either it answers that the lines were added, and the table is the one with all of them; or it
answers with an error, and then every number means the same table as before, with the same names,
rolls and flag.  Which of the two it is, the function on tables says. -/
theorem loaded_or_unchanged {s : Session} (hs : s.Reachable) {files : Files} {op : Operation}
    {number : Nat} {f : Macros.Table → Logged (Except LoadError Macros.Table)} {t : Macros.Table}
    (hop : op.load? files = some (number, f)) (ht : s.table? number = some t) :
    (∃ t', (f t).result = .ok t' ∧ (s.perform files op).2.result = .extended none t' ∧
      (s.perform files op).1.table? number = some t') ∨
    ∃ e, (f t).result = .error e ∧ (s.perform files op).2.result = .extended (some e) t ∧
      ∀ other, (s.perform files op).1.table? other = s.table? other := by
  obtain ⟨place, hplace, hplaced⟩ := Option.bind_eq_some_iff.mp ht
  obtain ⟨attempt, hattempt, heq⟩ := perform_of_load? hop hplace hplaced
  rw [heq, afterLoad_fst]
  cases hresult : (f t).result with
  | ok t' =>
    obtain ⟨htold, htables⟩ := hattempt.table?_of_ok hs.sound hplaced hresult
    have hnew : attempt.1.table? place = some t' := by rw [htables, if_pos rfl]
    refine Or.inl ⟨t', rfl, ?_, table?_of_place hplace hnew⟩
    rw [afterLoad_snd hplace hnew, htold]
  | error e =>
    obtain ⟨htold, hsame⟩ := hattempt.table?_of_error hs.sound hresult
    refine Or.inr ⟨e, rfl, ?_, fun other => ?_⟩
    · rw [afterLoad_snd hplace ((hsame place).trans hplaced), htold]
    · exact congrArg (Option.bind s.meanings[other]?) (funext hsame)

/-- A macro to be defined again. -/
def hitMacros : Macros := Macros.ofList [("hit", [advantage])]

/-- A fault in the third line, after lines that define `hit` again and use it. -/
theorem unchanged_by_faulty_third_line :
    ∃ e, ((start.perform Folder.empty.read (.new hitMacros)).1.perform Folder.empty.read
        (.extend 0 "<macros>" ["hit d20+5", "crit hit 4d6", "bad"])).2.result
          = .extended (some e) ⟨hitMacros, false⟩ ∧
      ∀ other, ((start.perform Folder.empty.read (.new hitMacros)).1.perform Folder.empty.read
          (.extend 0 "<macros>" ["hit d20+5", "crit hit 4d6", "bad"])).1.table? other
        = (start.perform Folder.empty.read (.new hitMacros)).1.table? other := by
  have hop : (Operation.extend 0 "<macros>" ["hit d20+5", "crit hit 4d6", "bad"]).load?
      Folder.empty.read
        = some (0, fun t => t.extend "<macros>" ["hit d20+5", "crit hit 4d6", "bad"]) := rfl
  have ht : (start.perform Folder.empty.read (.new hitMacros)).1.table? 0
      = some ⟨hitMacros, false⟩ := rfl
  have hfault : (Macros.Table.extend ⟨hitMacros, false⟩ "<macros>"
      ["hit d20+5", "crit hit 4d6", "bad"]).result
        = .error (.definition ⟨"<macros>", 3, .noRolls "bad"⟩) := rfl
  obtain ⟨t', ht', -⟩ | ⟨e, -, h⟩ :=
    loaded_or_unchanged (Reachable.start.perform Folder.empty.read (.new hitMacros)) hop ht
  · rw [hfault] at ht'
    cases ht'
  · exact ⟨e, h⟩

end Session
end Dice
