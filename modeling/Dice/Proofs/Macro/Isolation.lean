/-
# Tables do not touch each other

Tables are objects, and several numbers may mean the same one.  A run does operations in any order
on any of them, with files that may be others each time.  What becomes of a table is then a matter
of the operations that were on this table, and of nothing else that happened in between.

* `table?_doStep`: one operation changes the table that it is on, as `Operation.onTable` says, and
  no other;
* `table?_after`: so a run makes of a table what the operations on it make of it, one after the
  other (`stepsOn`);
* `loadsInto_of_macros_ne`, `setsFlag_of_frozen_ne`: what it takes to change macros, and a flag;
* `standardIntact_after`: the standard table stays as it was made unless somebody thaws it;
* `tables_isolated`: **all of this for any run.**
-/
import Dice.Proofs.Macro.Keeping

namespace Dice

/-! ## 1. What an operation is on -/

/-- The number of the table that an operation is on, if it is on one. -/
def Operation.number? : Operation → Option Nat
  | newStandard | new _ => none
  | copy number | freeze number _ | extend number _ _ | extendFrom number _ | names number
  | rollsOf number _ | contains number _ | expand number _ | resolve number _
  | roll number _ _ => some number

/-- What an operation makes of the table that it is on. -/
def Operation.onTable (files : Files) (op : Operation) (t : Macros.Table) : Macros.Table :=
  match op with
  | freeze _ frozen => { t with frozen := frozen }
  | extend _ source lines => t.after (t.extend source lines).result
  | extendFrom _ path => t.after (t.extendFrom files path).result
  | _ => t

/-- **One step of a run**: an operation, with the files as they are when it is done. -/
structure Step where
  files : Files
  operation : Operation

/-- What a step makes of the table that it is on. -/
def Step.onTable (t : Macros.Table) (step : Step) : Macros.Table :=
  step.operation.onTable step.files t

namespace Operation

variable {files : Files} {op : Operation} {number : Nat} {t : Macros.Table}
  {f : Macros.Table → Logged (Except LoadError Macros.Table)}

theorem number?_of_load? (h : op.load? files = some (number, f)) : op.number? = some number := by
  cases op with
  | extend n source lines =>
    cases h
    rfl
  | extendFrom n path =>
    cases h
    rfl
  | _ => cases h

theorem onTable_of_load? (h : op.load? files = some (number, f)) :
    op.onTable files t = t.after (f t).result := by
  cases op with
  | extend n source lines =>
    cases h
    rfl
  | extendFrom n path =>
    cases h
    rfl
  | _ => cases h

end Operation

/-! ## 2. What loads leave of a table -/

namespace Macros.Table

variable {t t' : Table}

/-- Only a table that is not frozen can be extended, and then it is not frozen either. -/
theorem frozen_of_extendBy {source : String} {reading : Text.Reading}
    (h : (t.extendBy source reading).result = .ok t') : t.frozen = false ∧ t'.frozen = false := by
  unfold extendBy at h
  split at h
  · cases h
  · rename_i hfrozen
    have hnot : t.frozen = false := Bool.eq_false_iff.mpr hfrozen
    dsimp only at h
    split at h
    · cases h
    · split at h
      · cases h
        exact ⟨hnot, hnot⟩
      · cases h

theorem frozen_of_load? {files : Files} {op : Operation} {number : Nat}
    {f : Table → Logged (Except LoadError Table)} (hop : op.load? files = some (number, f))
    (h : (f t).result = .ok t') : t.frozen = false ∧ t'.frozen = false := by
  cases op with
  | extend n source lines =>
    cases hop
    exact frozen_of_extendBy h
  | extendFrom n path =>
    cases hop
    dsimp only at h
    unfold extendFrom at h
    split at h
    · cases h
    · exact frozen_of_extendBy h
  | _ => cases hop

/-- **A frozen table refuses** what is to be loaded into it. -/
theorem exists_error_of_frozen {files : Files} {op : Operation} {number : Nat}
    {f : Table → Logged (Except LoadError Table)} (hop : op.load? files = some (number, f))
    (hfrozen : t.frozen = true) : ∃ e, (f t).result = .error e := by
  cases hresult : (f t).result with
  | error e => exact ⟨e, rfl⟩
  | ok t' =>
    obtain ⟨hnot, -⟩ := frozen_of_load? hop hresult
    rw [hfrozen] at hnot
    cases hnot

/-- An attempt to load does not touch the flag. -/
theorem frozen_after {files : Files} {op : Operation} {number : Nat}
    {f : Table → Logged (Except LoadError Table)} (hop : op.load? files = some (number, f)) :
    (t.after (f t).result).frozen = t.frozen := by
  cases hresult : (f t).result with
  | error e => rfl
  | ok t' =>
    obtain ⟨hold, hnew⟩ := frozen_of_load? hop hresult
    exact hnew.trans hold.symm

end Macros.Table

namespace Session

/-! ## 3. One step -/

/-- The place of the table that an operation is on. -/
def target? (s : Session) (op : Operation) : Option Nat :=
  op.number?.bind fun number => s.meanings[number]?

/-- The session after one step. -/
def doStep (s : Session) (step : Step) : Session := (s.perform step.files step.operation).1

theorem Reachable.doStep {s : Session} (hs : s.Reachable) (step : Step) :
    (s.doStep step).Reachable :=
  hs.perform step.files step.operation

section Step

variable {s : Session} {files : Files} {op : Operation} {place number : Nat} {t : Macros.Table}
  {f : Macros.Table → Logged (Except LoadError Macros.Table)}

theorem withTable_of_none {k : Nat → Macros.Table → Session × Logged Answer}
    (h : s.table? number = none) : s.withTable number k = (s, ⟨[], .failed .noTable⟩) := by
  unfold withTable
  cases hplace : s.meanings[number]? with
  | none => rfl
  | some place =>
    have hplaced : s.store.table? place = none := by
      rw [table?, hplace] at h
      exact h
    simp only [hplaced]

/-- An operation on a number without a table does nothing. -/
theorem perform_of_no_table (hop : op.number? = some number) (h : s.table? number = none) :
    (s.perform files op).1 = s := by
  cases op with
  | newStandard => cases hop
  | new macros => cases hop
  | _ =>
    cases hop
    exact congrArg Prod.fst (withTable_of_none h)

/-- A number without a table does not mean a place that has one. -/
theorem meanings_ne_of_no_table (h : s.table? number = none)
    (ht : s.store.table? place = some t) : s.meanings[number]? ≠ some place := by
  intro hplace
  rw [table?_of_place hplace ht] at h
  cases h

/-- Operations that neither set a flag nor load keep all tables. -/
theorem keeps_perform (hs : s.Reachable) (hfreeze : ∀ n frozen, op ≠ .freeze n frozen)
    (hload : op.load? files = none) : s.Keeps (s.perform files op).1 := by
  have heffect := perform_effect files s op
  generalize (s.perform files op).1 = s' at heffect
  cases heffect with
  | looked => exact ⟨fun _ _ h => h, List.prefix_rfl, fun _ h => h⟩
  | standard => exact keeps_addStandard hs.sound
  | made => exact keeps_add hs.sound _
  | copied ht => exact keeps_add hs.sound _
  | froze hplace => exact absurd rfl (hfreeze _ _)
  | loaded hop _ _ _ =>
    rw [hload] at hop
    cases hop

/-- Setting a flag. -/
theorem table?_perform_freeze (ht : s.store.table? place = some t) (frozen : Bool) :
    (s.perform files (.freeze number frozen)).1.store.table? place
      = some (if s.meanings[number]? = some place then { t with frozen := frozen } else t) := by
  cases htable : s.table? number with
  | none => rw [perform_of_no_table rfl htable, if_neg (meanings_ne_of_no_table htable ht), ht]
  | some u =>
    obtain ⟨other, hother, hu⟩ := Option.bind_eq_some_iff.mp htable
    simp only [perform, withTable, hother, hu, Macros.Store.table?_setFrozen, ht, Option.map_some,
      Option.some.injEq, eq_comm]

/-- Loading. -/
theorem table?_perform_load (hs : s.Reachable) (ht : s.store.table? place = some t)
    (hop : op.load? files = some (number, f)) :
    (s.perform files op).1.store.table? place
      = some (if s.meanings[number]? = some place then t.after (f t).result else t) := by
  cases htable : s.table? number with
  | none =>
    have hnumber := Operation.number?_of_load? hop
    rw [perform_of_no_table hnumber htable, if_neg (meanings_ne_of_no_table htable ht), ht]
  | some u =>
    obtain ⟨other, hother, hu⟩ := Option.bind_eq_some_iff.mp htable
    obtain ⟨-, -, htables⟩ := perform_load hs hop hother hu
    rw [htables, hother]
    by_cases heq : place = other
    · subst heq
      rw [ht] at hu
      cases hu
      rw [if_pos rfl, if_pos rfl]
    · have hne : ¬some other = some place := fun h => heq (Option.some.inj h).symm
      rw [if_neg heq, if_neg hne, ht]

end Step

section Steps

variable {s : Session} {place : Nat} {t t' : Macros.Table}

/-- **One step** changes the table that it is on, and no other. -/
theorem table?_doStep (hs : s.Reachable) (ht : s.store.table? place = some t) (step : Step) :
    (s.doStep step).store.table? place
      = some (if s.target? step.operation = some place then step.onTable t else t) := by
  obtain ⟨files, op⟩ := step
  cases op with
  | freeze number frozen => exact table?_perform_freeze ht frozen
  | extend number source lines =>
    exact table?_perform_load (f := fun t => t.extend source lines) hs ht rfl
  | extendFrom number path =>
    exact table?_perform_load (f := fun t => t.extendFrom files path) hs ht rfl
  | _ =>
    -- whether it is on this table or not, there is nothing that it makes of it
    refine Eq.trans ?_ (congrArg some (ite_self t).symm)
    change (s.perform files _).1.store.table? place = some t
    refine (keeps_perform hs ?_ ?_).tables place t ht
    · intro n frozen hfreeze
      cases hfreeze
    · rfl

/-- A number keeps its meaning in a step. -/
theorem meanings_doStep (hs : s.Reachable) (step : Step) :
    s.meanings <+: (s.doStep step).meanings := by
  obtain ⟨files, op⟩ := step
  have heffect : Effect files s op (s.doStep ⟨files, op⟩) := perform_effect files s op
  generalize s.doStep ⟨files, op⟩ = s' at heffect
  cases heffect with
  | looked => exact List.prefix_rfl
  | standard => exact (keeps_addStandard hs.sound).meanings
  | made => exact List.prefix_append _ _
  | copied ht => exact List.prefix_append _ _
  | froze hplace => exact List.prefix_rfl
  | loaded hop hplace ht hattempt => exact List.prefix_rfl

/-- Only a request can change which table is the standard one. -/
theorem shared_doStep {step : Step} (hop : step.operation ≠ .newStandard) :
    (s.doStep step).shared = s.shared := by
  obtain ⟨files, op⟩ := step
  have heffect : Effect files s op (s.doStep ⟨files, op⟩) := perform_effect files s op
  generalize s.doStep ⟨files, op⟩ = s' at heffect
  cases heffect with
  | standard => exact absurd rfl hop
  | looked => rfl
  | made => rfl
  | copied ht => rfl
  | froze hplace => rfl
  | loaded hop hplace ht hattempt => rfl

/-- A step that loads into the table at a place, and succeeds. -/
def LoadsInto (s : Session) (step : Step) (place : Nat) : Prop :=
  ∃ number f, step.operation.load? step.files = some (number, f) ∧
    s.meanings[number]? = some place ∧
    (s.perform step.files step.operation).2.result.Tells none

/-- A step that sets the flag of the table at a place. -/
def SetsFlag (s : Session) (step : Step) (place : Nat) : Prop :=
  ∃ number frozen, step.operation = .freeze number frozen ∧ s.meanings[number]? = some place

theorem target?_eq_some_iff {op : Operation} :
    s.target? op = some place ↔
      ∃ number, op.number? = some number ∧ s.meanings[number]? = some place :=
  Option.bind_eq_some_iff

/-- **What it takes to change macros.** -/
theorem loadsInto_of_macros_ne (hs : s.Reachable) (ht : s.store.table? place = some t)
    {step : Step} (ht' : (s.doStep step).store.table? place = some t')
    (hne : t'.macros ≠ t.macros) : s.LoadsInto step place := by
  rw [table?_doStep hs ht step, Option.some.injEq] at ht'
  subst ht'
  by_cases htarget : s.target? step.operation = some place
  · rw [if_pos htarget] at hne
    obtain ⟨number, hnumber, hplace⟩ := target?_eq_some_iff.mp htarget
    cases hload : step.operation.load? step.files with
    | none =>
      obtain ⟨files, op⟩ := step
      cases op with
      | extend n source lines => cases hload
      | extendFrom n path => cases hload
      | _ => exact absurd rfl hne
    | some load =>
      obtain ⟨n, f⟩ := load
      have hn := Operation.number?_of_load? hload
      rw [hnumber] at hn
      cases hn
      refine ⟨number, f, hload, hplace, ?_⟩
      obtain ⟨htold, -, -⟩ := perform_load hs hload hplace ht
      rw [htold]
      rw [Step.onTable, Operation.onTable_of_load? hload] at hne
      cases hresult : (f t).result with
      | ok t'' => exact Answer.tells_extended_iff.mpr rfl
      | error e =>
        rw [hresult] at hne
        exact absurd rfl hne
  · rw [if_neg htarget] at hne
    exact absurd rfl hne

/-- **What it takes to change a flag.** -/
theorem setsFlag_of_frozen_ne (hs : s.Reachable) (ht : s.store.table? place = some t)
    {step : Step} (ht' : (s.doStep step).store.table? place = some t')
    (hne : t'.frozen ≠ t.frozen) : s.SetsFlag step place := by
  rw [table?_doStep hs ht step, Option.some.injEq] at ht'
  subst ht'
  by_cases htarget : s.target? step.operation = some place
  · rw [if_pos htarget] at hne
    obtain ⟨number, hnumber, hplace⟩ := target?_eq_some_iff.mp htarget
    cases hload : step.operation.load? step.files with
    | some load =>
      obtain ⟨n, f⟩ := load
      rw [Step.onTable, Operation.onTable_of_load? hload] at hne
      exact absurd (Macros.Table.frozen_after hload) hne
    | none =>
      obtain ⟨files, op⟩ := step
      cases op with
      | freeze n frozen =>
        cases hnumber
        exact ⟨number, frozen, rfl, hplace⟩
      | extend n source lines => cases hload
      | extendFrom n path => cases hload
      | _ => exact absurd rfl hne
  · rw [if_neg htarget] at hne
    exact absurd rfl hne

end Steps

/-! ## 4. Runs -/

/-- The session after several steps. -/
def after (s : Session) (steps : List Step) : Session := steps.foldl doStep s

/-- The steps of a run that are on the table at a place, in their order. -/
def stepsOn (place : Nat) : Session → List Step → List Step
  | _, [] => []
  | s, step :: steps =>
    let others := stepsOn place (s.doStep step) steps
    if s.target? step.operation = some place then step :: others else others

section Runs

variable {s : Session} {place : Nat} {t : Macros.Table}

theorem after_cons (s : Session) (step : Step) (steps : List Step) :
    s.after (step :: steps) = (s.doStep step).after steps := rfl

theorem Reachable.after (hs : s.Reachable) (steps : List Step) : (s.after steps).Reachable := by
  induction steps generalizing s with
  | nil => exact hs
  | cons step steps ih => exact ih (hs.doStep step)

/-- **A run** makes of a table what the steps on this table make of it, one after the other. -/
theorem table?_after (hs : s.Reachable) (ht : s.store.table? place = some t) (steps : List Step) :
    (s.after steps).store.table? place = some ((stepsOn place s steps).foldl Step.onTable t) := by
  induction steps generalizing s t with
  | nil => exact ht
  | cons step steps ih =>
    have hstep := table?_doStep hs ht step
    rw [after_cons, ih (hs.doStep step) hstep, stepsOn]
    by_cases htarget : s.target? step.operation = some place
    · simp [htarget]
    · simp [htarget]

theorem meanings_after (hs : s.Reachable) (steps : List Step) :
    s.meanings <+: (s.after steps).meanings := by
  induction steps generalizing s with
  | nil => exact List.prefix_rfl
  | cons step steps ih => exact (meanings_doStep hs step).trans (ih (hs.doStep step))

theorem place_after (hs : s.Reachable) {number : Nat} (hplace : s.meanings[number]? = some place)
    (steps : List Step) : (s.after steps).meanings[number]? = some place :=
  place_of_prefix (meanings_after hs steps) hplace

/-- **What is not the same at the end of a run** was changed by a step of it. -/
theorem exists_step_of_ne {α : Type} {view : Macros.Table → α} {P : Session → Step → Prop}
    (hstep : ∀ {s : Session} {t t' : Macros.Table} {step : Step}, s.Reachable →
      s.store.table? place = some t → (s.doStep step).store.table? place = some t' →
      view t' ≠ view t → P s step) :
    ∀ {steps : List Step} {s : Session} {t t' : Macros.Table}, s.Reachable →
      s.store.table? place = some t → (s.after steps).store.table? place = some t' →
      view t' ≠ view t →
      ∃ before step rest, steps = before ++ step :: rest ∧ P (s.after before) step
  | [], s, t, t', _, ht, ht', hne => by
    have heq := ht.symm.trans ht'
    cases heq
    exact absurd rfl hne
  | step :: steps, s, t, t', hs, ht, ht', hne => by
    obtain ⟨u, hnext⟩ : ∃ u, (s.doStep step).store.table? place = some u :=
      ⟨_, table?_doStep hs ht step⟩
    by_cases hsame : view u = view t
    · rw [← hsame] at hne
      obtain ⟨before, other, rest, rfl, hother⟩ :=
        exists_step_of_ne hstep (hs.doStep step) hnext ht' hne
      exact ⟨step :: before, other, rest, rfl, hother⟩
    · exact ⟨[], step, steps, rfl, hstep hs ht hnext hsame⟩

end Runs

/-! ## 5. The standard table -/

/-- A step that takes back the flag of the standard table. -/
def Thaws (s : Session) (step : Step) : Prop :=
  ∃ number place, step.operation = .freeze number false ∧ s.meanings[number]? = some place ∧
    s.shared = some place

/-- No step of a run takes back the flag of the standard table. -/
def NeverThaws (s : Session) (steps : List Step) : Prop :=
  ∀ before step rest, steps = before ++ step :: rest → ¬(s.after before).Thaws step

theorem NeverThaws.of_cons {s : Session} {step : Step} {steps : List Step}
    (h : s.NeverThaws (step :: steps)) : ¬s.Thaws step ∧ (s.doStep step).NeverThaws steps := by
  refine ⟨h [] step steps rfl, fun before other rest heq => ?_⟩
  exact h (step :: before) other rest (by rw [heq, List.cons_append])

theorem neverThaws_of_forall {s : Session} {steps : List Step}
    (h : ∀ step ∈ steps, ∀ number, step.operation ≠ .freeze number false) :
    s.NeverThaws steps := by
  rintro before step rest rfl ⟨number, place, hop, -⟩
  exact h step (by simp) number hop

/-- A frozen table stays as it is, whatever is done to it, unless its flag is taken back. -/
theorem onTable_of_frozen {files : Files} {op : Operation} {t : Macros.Table}
    (hfrozen : t.frozen = true) (hop : ∀ number, op ≠ .freeze number false) :
    op.onTable files t = t := by
  cases hload : op.load? files with
  | some load =>
    obtain ⟨number, f⟩ := load
    obtain ⟨e, he⟩ := Macros.Table.exists_error_of_frozen hload hfrozen
    rw [Operation.onTable_of_load? hload, he]
    rfl
  | none =>
    cases op with
    | freeze number frozen =>
      cases frozen with
      | false => exact absurd rfl (hop number)
      | true =>
        obtain ⟨macros, frozen⟩ := t
        cases hfrozen
        rfl
    | extend number source lines => cases hload
    | extendFrom number path => cases hload
    | _ => rfl

section Standard

variable {s : Session}

theorem standardIntact_doStep (hs : s.Reachable) (hintact : s.StandardIntact) {step : Step}
    (hthaw : ¬s.Thaws step) : (s.doStep step).StandardIntact := by
  by_cases hop : step.operation = .newStandard
  · obtain ⟨files, op⟩ := step
    cases hop
    exact (addStandard_intact hs.sound hintact).1
  · intro place hplace
    rw [shared_doStep hop] at hplace
    have ht := hintact place hplace
    rw [table?_doStep hs ht step]
    by_cases htarget : s.target? step.operation = some place
    · obtain ⟨number, hnumber, hmeaning⟩ := target?_eq_some_iff.mp htarget
      rw [if_pos htarget, Step.onTable, onTable_of_frozen rfl]
      intro n hfreeze
      rw [hfreeze] at hnumber
      cases hnumber
      exact hthaw ⟨number, place, hfreeze, hmeaning, hplace⟩
    · rw [if_neg htarget]

/-- **The standard table stays as it was made**, unless its flag is taken back. -/
theorem standardIntact_after {steps : List Step} (hs : s.Reachable) (hintact : s.StandardIntact)
    (hthaws : s.NeverThaws steps) : (s.after steps).StandardIntact := by
  induction steps generalizing s with
  | nil => exact hintact
  | cons step steps ih =>
    obtain ⟨hstep, hsteps⟩ := hthaws.of_cons
    exact ih (hs.doStep step) (standardIntact_doStep hs hintact hstep) hsteps

/-- All requests are for one table. -/
theorem exists_shared_addStandard (s : Session) :
    ∃ place, s.addStandard.shared = some place ∧ s.addStandard.meanings[s.size]? = some place ∧
      ∀ other, s.shared = some other → other = place := by
  cases hshared : s.shared with
  | some i =>
    simp only [addStandard, hshared]
    refine ⟨i, rfl, List.getElem?_concat_length, fun other hother => ?_⟩
    exact (Option.some.inj hother).symm
  | none =>
    simp only [addStandard, hshared]
    refine ⟨_, rfl, List.getElem?_concat_length, fun other hother => ?_⟩
    cases hother

/-- The standard table has the core macros, and what its definitions add to them. -/
theorem extend_coreMacros : ((Macros.Table.ofMacros coreMacros).extend "macros"
    standardDefinitions).result = .ok ⟨standardTable.macros, false⟩ := rfl

end Standard

/-! ## 6. Isolation -/

/-- A copy has a place of its own, where it has the macros and no flag. -/
theorem exists_place_copy {s : Session} (hs : s.Reachable) {number : Nat} {t : Macros.Table}
    (ht : s.table? number = some t) (files : Files) :
    let s' := s.doStep ⟨files, .copy number⟩
    ∃ original copied, original ≠ copied ∧
      s'.meanings[number]? = some original ∧ s'.meanings[s.size]? = some copied ∧
      s'.store.table? original = some t ∧ s'.store.table? copied = some ⟨t.macros, false⟩ := by
  intro s'
  have hcopy : s' = s.add t.copy := congrArg Prod.fst (perform_copy ht files)
  have hkeeps := keeps_add hs.sound t.copy
  obtain ⟨original, hplace, hplaced⟩ := Option.bind_eq_some_iff.mp ht
  rw [hcopy]
  refine ⟨original, s.store.holders.length, ne_next_of_table? hplaced, hkeeps.place hplace,
    List.getElem?_concat_length, hkeeps.tables original t hplaced, ?_⟩
  exact (Macros.Store.table?_add hs.sound t.copy _).trans (if_pos rfl)

theorem table?_number_after {s : Session} (hs : s.Reachable) {number place : Nat}
    {t : Macros.Table} (hplace : s.meanings[number]? = some place)
    (ht : s.store.table? place = some t) (steps : List Step) :
    (s.after steps).table? number = some ((stepsOn place s steps).foldl Step.onTable t) :=
  table?_of_place (place_after hs hplace steps) (table?_after hs ht steps)

/-- **Tables do not touch each other.**  A run has come to a session, and goes on by further steps.

A table is at the end what the steps on it have made of it, and all else that was done does not
matter.  Its macros are as they were unless some step was to load into this very table and
succeeded, and its flag is as it was unless some step was to set it.  Numbers mean the tables that
they meant.  Nothing can be loaded into a frozen table.

A copy is a further table with the same macros, which is not frozen.  From then on the original is
what the steps on the original make of it, and the copy is what the steps on the copy make of it.

All requests for the standard table are for one table.  As long as its flag is not taken back, each
of them gets the core macros with what the standard definitions add to them.  What the first of them
records on the way, which a session leaves out, is not told of here. -/
theorem tables_isolated (earlier steps : List Step) :
    let s := start.after earlier
    let s' := s.after steps
    (∀ place t, s.store.table? place = some t → ∃ t', s'.store.table? place = some t' ∧
      t' = (stepsOn place s steps).foldl Step.onTable t ∧
      (t'.macros ≠ t.macros → ∃ before step rest, steps = before ++ step :: rest ∧
        (s.after before).LoadsInto step place) ∧
      (t'.frozen ≠ t.frozen → ∃ before step rest, steps = before ++ step :: rest ∧
        (s.after before).SetsFlag step place)) ∧
    (∀ number place : Nat, s.meanings[number]? = some place →
      s'.meanings[number]? = some place) ∧
    (∀ (step : Step) number f t, step.operation.load? step.files = some (number, f) →
      s.table? number = some t → t.frozen = true →
      ∃ e, (s.perform step.files step.operation).2.result = .extended (some e) t) ∧
    (∀ files number t, s.table? number = some t →
      let copying := s.doStep ⟨files, .copy number⟩
      ∃ original copied, original ≠ copied ∧
        copying.meanings[number]? = some original ∧ copying.meanings[s.size]? = some copied ∧
        copying.store.table? original = some t ∧
        copying.store.table? copied = some ⟨t.macros, false⟩ ∧
        (copying.after steps).table? number
          = some ((stepsOn original copying steps).foldl Step.onTable t) ∧
        (copying.after steps).table? s.size
          = some ((stepsOn copied copying steps).foldl Step.onTable ⟨t.macros, false⟩)) ∧
    (∃ place, s.addStandard.shared = some place ∧ s.addStandard.meanings[s.size]? = some place ∧
      ∀ other, s.shared = some other → other = place) ∧
    (start.NeverThaws earlier → s.StandardIntact ∧ ∀ files,
      (s.perform files .newStandard).1 = s.addStandard ∧
      (s.perform files .newStandard).2.result = .made s.size standardTable) ∧
    ((Macros.Table.ofMacros coreMacros).extend "macros" standardDefinitions).result
      = .ok ⟨standardTable.macros, false⟩ := by
  intro s s'
  have hs : s.Reachable := Reachable.start.after earlier
  refine ⟨fun place t ht => ?_, fun number place hplace => place_after hs hplace steps,
    fun step number f t hop ht hfrozen => ?_, fun files number t ht => ?_,
    exists_shared_addStandard s, fun hthaws => ?_, extend_coreMacros⟩
  · have hend := table?_after hs ht steps
    refine ⟨_, hend, rfl, fun hne => ?_, fun hne => ?_⟩
    · exact exists_step_of_ne (fun h ht ht' => loadsInto_of_macros_ne h ht ht') hs ht hend hne
    · exact exists_step_of_ne (fun h ht ht' => setsFlag_of_frozen_ne h ht ht') hs ht hend hne
  · obtain ⟨e, he⟩ := Macros.Table.exists_error_of_frozen hop hfrozen
    rcases loaded_or_unchanged hs hop ht with ⟨t', ht', -⟩ | ⟨e', -, htold, -⟩
    · rw [he] at ht'
      cases ht'
    · exact ⟨e', htold⟩
  · intro copying
    obtain ⟨original, copied, hne, hnumber, hsize, horiginal, hcopied⟩ :=
      exists_place_copy hs ht files
    have hreach : copying.Reachable := hs.doStep ⟨files, .copy number⟩
    exact ⟨original, copied, hne, hnumber, hsize, horiginal, hcopied,
      table?_number_after hreach hnumber horiginal steps,
      table?_number_after hreach hsize hcopied steps⟩
  · have hintact := standardIntact_after Reachable.start (fun _ h => nomatch h) hthaws
    obtain ⟨-, htable, -⟩ := addStandard_intact hs.sound hintact
    exact ⟨hintact, fun files => ⟨rfl, by simp only [perform, htable]⟩⟩

/-- A macro is loaded into a copy of the standard table, and in vain into the standard table. -/
def copyAndLoad : List Step :=
  [.newStandard, .copy 0, .extend 1 "campaign" ["hit d20+5"],
    .extend 0 "campaign" ["hit d20+5"], .freeze 1 true].map fun op => ⟨Folder.empty.read, op⟩

/-- Whoever asks for the standard table after that does not see the new macro. -/
theorem tables_isolated_copyAndLoad :
    start.NeverThaws copyAndLoad ∧
    ((start.after copyAndLoad).table? 1).map (·.macros.contains "hit") = some true ∧
    ((start.after copyAndLoad).perform Folder.empty.read .newStandard).2.result
      = .made 2 standardTable := by
  have hthaws : start.NeverThaws copyAndLoad := by
    refine neverThaws_of_forall fun step hstep number hop => ?_
    simp only [copyAndLoad, List.map_cons, List.map_nil, List.mem_cons, List.not_mem_nil,
      or_false] at hstep
    rcases hstep with rfl | rfl | rfl | rfl | rfl <;> cases hop
  obtain ⟨-, -, -, -, -, hstandard, -⟩ := tables_isolated copyAndLoad []
  exact ⟨hthaws, rfl, ((hstandard hthaws).2 Folder.empty.read).2⟩

end Session
end Dice
