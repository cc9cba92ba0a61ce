/-
# What a run does to the tables it finds

A run of the command finds the standard table, which others use too, and must not change it.  It
asks for that table, and if it is to load a file it makes a copy and extends the copy.  These steps
are followed here through the memory of a session, and with them all tables that were there before.

* `chosenTable`, `work`: what loading and working come to in a program that has just started;
* `loadMacros_snd`: **loading comes to the same in every session** in which the standard table is as
  it was made, so a run does not depend on what was done before;
* `chosenTable_of_file`: it is the copy of the standard table that is extended.  What a run works
  with is known from this without a look into the memory;
* `tables_of_loadMacros`: **the tables of a run.**  All old tables are kept, the standard one among
  them, and the table that the run works with is there under its number.
-/
import Dice.Command.Work
import Dice.Proofs.Macro.Keeping

namespace Dice

/-! ## 1. Operations in a session -/

namespace Session

/-- What a run does if it loads no file. -/
theorem run_newStandard {s : Session} (hs : s.Reachable) (hintact : s.StandardIntact)
    (files : Files) :
    let made := s.run files [.newStandard]
    s.Keeps made.1 ∧ made.1.StandardIntact ∧ made.1.table? s.size = some standardTable ∧
      made.2 = [⟨[], .made s.size standardTable⟩] := by
  have hkeeps := keeps_addStandard hs.sound
  obtain ⟨hintact', htable, -⟩ := addStandard_intact hs.sound hintact
  refine ⟨hkeeps, hintact', htable, ?_⟩
  simp only [run, perform, htable]

/-- What a run does if it loads a file. -/
theorem run_load {s : Session} (hs : s.Reachable) (hintact : s.StandardIntact) (files : Files)
    (path : String) :
    let made := s.run files [.newStandard, .copy s.size, .extendFrom (s.size + 1) path]
    let extended := standardTable.copy.extendFrom files path
    let after := standardTable.copy.after extended.result
    s.Keeps made.1 ∧ made.1.StandardIntact ∧ made.1.table? s.size = some standardTable ∧
      made.1.table? (s.size + 1) = some after ∧
      made.2 = [⟨[], .made s.size standardTable⟩, ⟨[], .made (s.size + 1) standardTable.copy⟩,
        ⟨extended.records, .extended (Macros.Table.refusal? extended.result) after⟩] := by
  intro made extended after
  obtain ⟨hintact₁, htable₁, hsize₁⟩ := addStandard_intact hs.sound hintact
  have hreach₁ : s.addStandard.Reachable := hs.perform files .newStandard
  have hcopy := perform_copy htable₁ files
  have hreach₂ : (s.addStandard.add standardTable.copy).Reachable := by
    have hreach := hreach₁.perform files (.copy s.size)
    rwa [hcopy] at hreach
  have hkeeps₂ := keeps_add hreach₁.sound standardTable.copy
  have hnew := table?_add hreach₁.sound standardTable.copy
  rw [hsize₁] at hnew
  obtain ⟨place, hplace, hplaced⟩ := Option.bind_eq_some_iff.mp hnew
  -- the copy stands where no table was, not even the standard one
  have hfresh : s.addStandard.store.table? place = none := by
    have hlast : (s.addStandard.add standardTable.copy).meanings[s.size + 1]?
        = some s.addStandard.store.holders.length := by
      rw [← hsize₁]
      exact List.getElem?_concat_length
    rw [hlast] at hplace
    cases hplace
    cases htable : s.addStandard.store.table? s.addStandard.store.holders.length with
    | none => rfl
    | some t => exact absurd rfl (ne_next_of_table? htable)
  have hop : (Operation.extendFrom (s.size + 1) path).load? files
      = some (s.size + 1, fun t => t.extendFrom files path) := rfl
  have hfirst : s.perform files .newStandard
      = (s.addStandard, ⟨[], .made s.size standardTable⟩) := by
    simp only [perform, htable₁]
  obtain ⟨htold, hmeanings, htables⟩ := perform_load hreach₂ hop hplace hplaced
  have hmade : made.1 = ((s.addStandard.add standardTable.copy).perform files
      (.extendFrom (s.size + 1) path)).1 := by
    simp only [made, run, hfirst, hcopy]
  have hkeeps₁ : s.addStandard.Keeps made.1 := by
    rw [hmade]
    exact keeps_load hreach₂ hop hplace hplaced hkeeps₂ hfresh
  refine ⟨(keeps_addStandard hs.sound).trans hkeeps₁, fun i hi => ?_, hkeeps₁.table? htable₁, ?_,
    ?_⟩
  · have hshared : s.addStandard.shared = some i := by
      obtain ⟨attempt, -, heq⟩ := perform_of_load? hop hplace hplaced
      rw [hmade, heq, afterLoad_fst] at hi
      exact hi
    exact hkeeps₁.tables i standardTable (hintact₁ i hshared)
  · rw [hmade]
    exact table?_of_place (hmeanings ▸ hplace) ((htables place).trans (if_pos rfl))
  · simp only [made, run, hfirst, hcopy, htold, hsize₁]
    rfl

end Session

namespace Command

/-! ## 2. Loading the macros -/

theorem wantedFile_eq_some_iff {macroFile : Option String} {path : String} :
    wantedFile macroFile = some path ↔ macroFile = some path ∧ path ≠ "" := by
  simp [wantedFile, Option.filter_eq_some_iff]

/-- What loading comes to in a program that has just started: the table to work with, or why there
is none. -/
def chosenTable (files : Files) (macroFile : Option String) :
    Logged (Except LoadError Macros.Table) :=
  (loadMacros .start files macroFile).2

/-- And what the work comes to with that. -/
def work (o : Options) (files : Files) (source : Source) : Transcript :=
  workWith (chosenTable files o.macroFile) o source

section Load

variable {s : Session} {files : Files} {macroFile : Option String} {path : String}

theorem loadMacros_of_no_file (hs : s.Reachable) (hintact : s.StandardIntact)
    (h : wantedFile macroFile = none) :
    (loadMacros s files macroFile).2 = ⟨[], .ok standardTable⟩ := by
  obtain ⟨-, -, htable, hanswers⟩ := Session.run_newStandard hs hintact files
  simp only [loadMacros, tableOperations, tableNumber, h, htable, hanswers]
  rfl

theorem loadMacros_of_file (hs : s.Reachable) (hintact : s.StandardIntact)
    (h : wantedFile macroFile = some path) :
    (loadMacros s files macroFile).2 = standardTable.copy.extendFrom files path := by
  obtain ⟨-, -, -, htable, hanswers⟩ := Session.run_load hs hintact files path
  simp only [loadMacros, tableOperations, tableNumber, h, htable, hanswers]
  generalize standardTable.copy.extendFrom files path = extended
  obtain ⟨records, result⟩ := extended
  cases result with
  | ok t => simp [Answer.refusal?, Macros.Table.refusal?, Macros.Table.after]
  | error e => simp [Answer.refusal?, Macros.Table.refusal?]

theorem standardIntact_start : Session.start.StandardIntact := fun _ h => nomatch h

theorem chosenTable_of_no_file (h : wantedFile macroFile = none) :
    chosenTable files macroFile = ⟨[], .ok standardTable⟩ :=
  loadMacros_of_no_file .start standardIntact_start h

theorem chosenTable_of_file (h : wantedFile macroFile = some path) :
    chosenTable files macroFile = standardTable.copy.extendFrom files path :=
  loadMacros_of_file .start standardIntact_start h

/-- **Loading comes to the same in every session** in which the standard table is as it was made. -/
theorem loadMacros_snd (hs : s.Reachable) (hintact : s.StandardIntact) :
    (loadMacros s files macroFile).2 = chosenTable files macroFile := by
  cases h : wantedFile macroFile with
  | none => rw [loadMacros_of_no_file hs hintact h, chosenTable_of_no_file h]
  | some path => rw [loadMacros_of_file hs hintact h, chosenTable_of_file h]

/-- **The tables of a run.**  In a session the standard table is as it was made, if it is there.
After loading the macros every number means the table that it meant, the standard table is as it was
made, and the table to work with, if there is one, is there under its number. -/
theorem tables_of_loadMacros (hs : s.Reachable) (hintact : s.StandardIntact) (files : Files)
    (macroFile : Option String) :
    let s' := (loadMacros s files macroFile).1
    s'.Reachable ∧ s'.StandardIntact ∧ s.Keeps s' ∧ s'.table? s.size = some standardTable ∧
      ∀ t, (chosenTable files macroFile).result = .ok t →
        s'.table? (tableNumber s macroFile) = some t := by
  intro s'
  have hreach : s'.Reachable := Session.Reachable.run files (tableOperations s macroFile) hs
  have hmade : s' = (s.run files (tableOperations s macroFile)).1 := rfl
  cases h : wantedFile macroFile with
  | none =>
    obtain ⟨hkeeps, hintact', htable, -⟩ := Session.run_newStandard hs hintact files
    simp only [tableOperations, h] at hmade
    rw [← hmade] at hkeeps hintact' htable
    refine ⟨hreach, hintact', hkeeps, htable, fun t ht => ?_⟩
    rw [chosenTable_of_no_file h] at ht
    cases ht
    simp only [tableNumber, h]
    exact htable
  | some path =>
    obtain ⟨hkeeps, hintact', htable, hloaded, -⟩ := Session.run_load hs hintact files path
    simp only [tableOperations, h] at hmade
    rw [← hmade] at hkeeps hintact' htable hloaded
    refine ⟨hreach, hintact', hkeeps, htable, fun t ht => ?_⟩
    rw [chosenTable_of_file h] at ht
    rw [ht] at hloaded
    simp only [tableNumber, h]
    exact hloaded

end Load

/-! ## 3. Runs in a session -/

/-- **A run in a session** in which the standard table is as it was made comes to what it comes to
in a program that has just started. -/
theorem runIn_snd {s : Session} (hs : s.Reachable) (hintact : s.StandardIntact)
    (arguments : List String) (files : Files) (source : Source) :
    (runIn s arguments files source).2 = run arguments files source := by
  unfold run runIn
  split
  · rfl
  · rfl
  · simp only [loadMacros_snd hs hintact, chosenTable]

theorem runIn_fst_of_work {arguments : List String} {o : Options}
    (h : readArguments arguments = .ok (.work o)) (s : Session) (files : Files) (source : Source) :
    (runIn s arguments files source).1 = (loadMacros s files o.macroFile).1 := by
  unfold runIn
  rw [h]

/-- What a run does beyond its work: it does not keep all records. -/
theorem run_of_work {arguments : List String} {o : Options}
    (h : readArguments arguments = .ok (.work o)) (files : Files) (source : Source) :
    run arguments files source = { work o files source with
      records := recordsFrom (Journal.thresholdFor o.verbose) (work o files source).records } := by
  unfold run runIn
  rw [h]
  rfl

end Command
end Dice
