/-
# How a run of the command ends

A run ends with a status, or it escapes with a failure that the command has no words for.  It is
followed here from one step to the next, so that whatever stops it is seen where it happens.

* `loadFailure_iff`: all ways in which a file can fail to load;
* `course_work`: all that the work can come to (`Course`);
* `lawful_chosenTable`: tokens are looked up in lawful macros, so what is thrown is within the
  limits of tokens, and a batch of it has a report unless its sum is too long;
* `escapes_iff`: **the failures without words** are three: a path with a null character, a file that
  is no text, and such a sum.  All other runs end with a status, and all other failures of a file
  are told.
-/
import Dice.Proofs.Command.Tables
import Dice.Proofs.Macro.Lawful
import Dice.Proofs.Report.Written

namespace Dice.Command

open Macros (addLines)

/-! ## 1. Files that fail to load -/

/-- **All ways in which a file can fail to load** into a copy of the standard table. -/
inductive LoadFailure (files : Files) (path : String) : LoadError → Prop
  | cannotOpen {error : OpenError} :
      files path = .error error → LoadFailure files path (.cannotOpen path error)
  | faulty {octets : List UInt8} {error : DefinitionError} :
      files path = .ok octets →
      (addLines path 1 standardMacros (Text.readLines octets).lines).result = .error error →
      LoadFailure files path (.definition error)
  | undecodable {octets : List UInt8} {m : Macros} :
      files path = .ok octets →
      (addLines path 1 standardMacros (Text.readLines octets).lines).result = .ok m →
      (Text.readLines octets).sound = false → LoadFailure files path .undecodable

theorem extendFrom_result (files : Files) (path : String) :
    (standardTable.copy.extendFrom files path).result
      = match files path with
        | .error error => .error (.cannotOpen path error)
        | .ok octets =>
          match (addLines path 1 standardMacros (Text.readLines octets).lines).result with
          | .error error => .error (.definition error)
          | .ok m =>
            if (Text.readLines octets).sound then .ok (.ofMacros m) else .error .undecodable := by
  have hmacros : standardTable.copy.macros = standardMacros := by
    simp only [Macros.Table.copy, Macros.Table.ofMacros, standardTable]
  have hfrozen : standardTable.copy.frozen = false := rfl
  unfold Macros.Table.extendFrom Macros.Table.extendBy
  cases files path with
  | error error => rfl
  | ok octets =>
    simp only [hmacros, hfrozen, Bool.false_eq_true, if_false]
    cases (addLines path 1 standardMacros (Text.readLines octets).lines).result with
    | error error => rfl
    | ok m => rfl

theorem loadFailure_iff {files : Files} {path : String} {e : LoadError} :
    (standardTable.copy.extendFrom files path).result = .error e ↔ LoadFailure files path e := by
  rw [extendFrom_result]
  constructor
  · intro h
    cases hfile : files path with
    | error error =>
      rw [hfile] at h
      cases h
      exact LoadFailure.cannotOpen hfile
    | ok octets =>
      rw [hfile] at h
      dsimp only at h
      cases hadded : (addLines path 1 standardMacros (Text.readLines octets).lines).result with
      | error error =>
        rw [hadded] at h
        cases h
        exact LoadFailure.faulty hfile hadded
      | ok m =>
        rw [hadded] at h
        dsimp only at h
        split at h
        · cases h
        · rename_i hsound
          cases h
          exact LoadFailure.undecodable hfile hadded (Bool.eq_false_iff.mpr hsound)
  · intro h
    cases h with
    | cannotOpen hfile => rw [hfile]
    | faulty hfile hadded =>
      rw [hfile]
      dsimp only
      rw [hadded]
    | undecodable hfile hadded hsound =>
      rw [hfile]
      dsimp only
      rw [hadded, hsound]
      rfl

/-- There is a failure only if a file is asked for. -/
theorem chosenTable_eq_error_iff {files : Files} {macroFile : Option String} {e : LoadError} :
    (chosenTable files macroFile).result = .error e ↔
      ∃ path, macroFile = some path ∧ path ≠ "" ∧ LoadFailure files path e := by
  have hwanted : (∃ path, macroFile = some path ∧ path ≠ "" ∧ LoadFailure files path e) ↔
      ∃ path, wantedFile macroFile = some path ∧ LoadFailure files path e :=
    exists_congr fun path => by rw [wantedFile_eq_some_iff, and_assoc]
  rw [hwanted]
  cases h : wantedFile macroFile with
  | none =>
    rw [chosenTable_of_no_file h]
    exact ⟨nofun, fun ⟨_, h, _⟩ => nomatch h⟩
  | some path =>
    rw [chosenTable_of_file h, loadFailure_iff]
    simp

/-- **Tokens are looked up in lawful macros.** -/
theorem lawful_chosenTable {files : Files} {macroFile : Option String} {t : Macros.Table}
    (h : (chosenTable files macroFile).result = .ok t) : t.macros.Lawful := by
  have hcopy : standardTable.copy.macros.Lawful := Macros.lawful_standardTable
  cases hfile : wantedFile macroFile with
  | none =>
    rw [chosenTable_of_no_file hfile] at h
    cases h
    exact Macros.lawful_standardTable
  | some path =>
    rw [chosenTable_of_file hfile] at h
    exact Macros.Table.lawful_extendFrom hcopy h

/-! ## 2. The course of the work -/

/-- **All that the work can come to.**  The macros are not loaded; or they are listed; or there is
nothing to roll; or a token stands for nothing; or dice are thrown. -/
inductive Course (o : Options) (files : Files) (source : Source) : Transcript → Prop
  | notLoaded {e : LoadError} {records : List Record} :
      chosenTable files o.macroFile = ⟨records, .error e⟩ →
      Course o files source (loadFailed e records)
  | listed {t : Macros.Table} {records : List Record} :
      chosenTable files o.macroFile = ⟨records, .ok t⟩ → o.listing = true →
      Course o files source ⟨.status 0, listing t, "", "", records, 0⟩
  | idle {t : Macros.Table} {records : List Record} :
      chosenTable files o.macroFile = ⟨records, .ok t⟩ → o.listing = false → o.tokens = [] →
      Course o files source ⟨.status 2, [], "", usage, records, 0⟩
  | unresolved {t : Macros.Table} {records resolving : List Record} {e : Notation.Error} :
      chosenTable files o.macroFile = ⟨records, .ok t⟩ → o.listing = false → o.tokens ≠ [] →
      t.macros.resolve o.tokens = ⟨resolving, .error e⟩ →
      Course o files source ⟨.status 1, [errorText e.message], "", "",
        records ++ resolving ++ [resolveFailedRecord o.tokens], 0⟩
  | rolled {t : Macros.Table} {records resolving : List Record} {rolls : List Roll} :
      chosenTable files o.macroFile = ⟨records, .ok t⟩ → o.listing = false → o.tokens ≠ [] →
      t.macros.resolve o.tokens = ⟨resolving, .ok rolls⟩ →
      Course o files source (rollAndReport rolls source (records ++ resolving))

theorem course_work (o : Options) (files : Files) (source : Source) :
    Course o files source (work o files source) := by
  unfold work workWith
  cases hchosen : chosenTable files o.macroFile with
  | mk records result =>
    cases result with
    | error e => exact Course.notLoaded hchosen
    | ok t =>
      dsimp only
      by_cases hlisting : o.listing = true
      · rw [if_pos hlisting]
        exact Course.listed hchosen hlisting
      · rw [if_neg hlisting]
        have hunlisted : o.listing = false := Bool.eq_false_iff.mpr hlisting
        by_cases htokens : o.tokens = []
        · rw [if_pos (List.isEmpty_iff.mpr htokens)]
          exact Course.idle hchosen hunlisted htokens
        · rw [if_neg (fun h => htokens (List.isEmpty_iff.mp h))]
          cases hresolve : t.macros.resolve o.tokens with
          | mk resolving result =>
            cases result with
            | error e => exact Course.unresolved hchosen hunlisted htokens hresolve
            | ok rolls => exact Course.rolled hchosen hunlisted htokens hresolve

theorem work_of_not_loaded {o : Options} {files : Files} {source : Source} {e : LoadError}
    (h : (chosenTable files o.macroFile).result = .error e) :
    work o files source = loadFailed e (chosenTable files o.macroFile).records := by
  unfold work workWith
  rw [h]

theorem work_of_rolls {o : Options} {files : Files} (source : Source) {t : Macros.Table}
    {rolls : List Roll} (hloaded : (chosenTable files o.macroFile).result = .ok t)
    (hlisting : o.listing = false) (htokens : o.tokens ≠ [])
    (hrolls : (t.macros.resolve o.tokens).result = .ok rolls) :
    ∃ records, work o files source = rollAndReport rolls source records := by
  refine ⟨(chosenTable files o.macroFile).records ++ (t.macros.resolve o.tokens).records, ?_⟩
  unfold work workWith
  simp only [hloaded, hlisting, hrolls, List.isEmpty_iff, htokens, Bool.false_eq_true, if_false]

/-! ## 3. Endings -/

/-- **A failure for which the command has no words**: the path of the macros has a null character;
their file is no text in UTF-8, and the lines before that are in order; or the sum of the batch has
too many digits. -/
inductive Unworded (files : Files) (source : Source) (o : Options) : Escape → Prop
  | nullCharacter {path : String} :
      o.macroFile = some path → path ≠ "" → files path = .error .nullCharacter →
      Unworded files source o (.load (.cannotOpen path .nullCharacter))
  | undecodable {path : String} {octets : List UInt8} {m : Macros} :
      o.macroFile = some path → path ≠ "" → files path = .ok octets →
      (addLines path 1 standardMacros (Text.readLines octets).lines).result = .ok m →
      (Text.readLines octets).sound = false → Unworded files source o (.load .undecodable)
  | sumTooLong {t : Macros.Table} {rolls : List Roll} :
      (chosenTable files o.macroFile).result = .ok t → o.listing = false → o.tokens ≠ [] →
      (t.macros.resolve o.tokens).result = .ok rolls →
      Numeral.fits (Outcome.sumTotals (Roll.throwAll source rolls 0).1) = false →
      Unworded files source o (.noReport (.notWritten .tooManyDigits))

theorem ending_loadFailed {e : LoadError} {records : List Record} :
    (loadFailed e records).ending
      = if isReported e then .status 2 else .escaped (.load e) := by
  unfold loadFailed
  split <;> rfl

theorem ending_rollAndReport {rolls : List Roll} {source : Source} {records : List Record} :
    (rollAndReport rolls source records).ending
      = match Report.text rolls (Roll.throwAll source rolls 0).1 with
        | .ok _ => .status 0
        | .error e => .escaped (.noReport e) := by
  unfold rollAndReport
  dsimp only
  cases Report.text rolls (Roll.throwAll source rolls 0).1 with
  | ok text => rfl
  | error e => rfl

section Endings

variable {files : Files} {source : Source} {o : Options}

/-- A file fails to load without words exactly for the two reasons. -/
theorem unworded_load_iff {e : LoadError} :
    Unworded files source o (.load e) ↔
      (chosenTable files o.macroFile).result = .error e ∧ isReported e = false := by
  rw [chosenTable_eq_error_iff]
  constructor
  · intro h
    cases h with
    | nullCharacter hpath hne hfile =>
      exact ⟨⟨_, hpath, hne, LoadFailure.cannotOpen hfile⟩, rfl⟩
    | undecodable hpath hne hfile hadded hsound =>
      exact ⟨⟨_, hpath, hne, LoadFailure.undecodable hfile hadded hsound⟩, rfl⟩
  · rintro ⟨⟨path, hpath, hne, hfailure⟩, hreported⟩
    cases hfailure with
    | @cannotOpen error hfile =>
      cases error with
      | nullCharacter => exact Unworded.nullCharacter hpath hne hfile
      | _ => cases hreported
    | faulty hfile hadded => cases hreported
    | undecodable hfile hadded hsound =>
      exact Unworded.undecodable hpath hne hfile hadded hsound

/-- The work escapes with a file exactly if the file fails to load without words. -/
theorem ending_work_eq_load_iff {e : LoadError} :
    (work o files source).ending = .escaped (.load e) ↔ Unworded files source o (.load e) := by
  rw [unworded_load_iff]
  constructor
  · intro h
    have hcourse := course_work o files source
    generalize work o files source = t at h hcourse
    cases hcourse with
    | notLoaded hchosen =>
      rw [ending_loadFailed] at h
      split at h
      · cases h
      · rename_i hreported
        cases h
        exact ⟨by rw [hchosen], Bool.eq_false_iff.mpr hreported⟩
    | rolled _ _ _ _ =>
      rw [ending_rollAndReport] at h
      split at h <;> cases h
    | _ => cases h
  · rintro ⟨hchosen, hreported⟩
    rw [work_of_not_loaded hchosen, ending_loadFailed, hreported]
    rfl

/-- The work escapes with a batch exactly if its sum is too long. -/
theorem ending_work_eq_noReport_iff (hsource : source.InRange) {e : Report.Refusal} :
    (work o files source).ending = .escaped (.noReport e) ↔
      Unworded files source o (.noReport e) := by
  constructor
  · intro h
    have hcourse := course_work o files source
    generalize work o files source = t at h hcourse
    cases hcourse with
    | notLoaded _ =>
      rw [ending_loadFailed] at h
      split at h <;> cases h
    | @rolled t' records resolving rolls hchosen hlisting htokens hresolve =>
      have hloaded : (chosenTable files o.macroFile).result = .ok t' := by rw [hchosen]
      have hrolls : (t'.macros.resolve o.tokens).result = .ok rolls := by rw [hresolve]
      have hlimits := (lawful_chosenTable hloaded).inLimits_of_resolve hrolls
      rw [ending_rollAndReport] at h
      split at h
      · cases h
      · rename_i e' htext
        cases h
        obtain ⟨rfl, hfits⟩ := (Report.text_eq_error_iff hlimits hsource).mp htext
        exact Unworded.sumTooLong hloaded hlisting htokens hrolls hfits
    | _ => cases h
  · intro h
    cases h with
    | sumTooLong hloaded hlisting htokens hrolls hfits =>
      have hlimits := (lawful_chosenTable hloaded).inLimits_of_resolve hrolls
      obtain ⟨records, hwork⟩ := work_of_rolls source hloaded hlisting htokens hrolls
      rw [hwork, ending_rollAndReport,
        (Report.text_eq_error_iff hlimits hsource).mpr ⟨rfl, hfits⟩]

/-- **The work escapes exactly with a failure that has no words.** -/
theorem ending_work_eq_escaped_iff (hsource : source.InRange) {f : Escape} :
    (work o files source).ending = .escaped f ↔ Unworded files source o f := by
  cases f with
  | load e => exact ending_work_eq_load_iff
  | noReport e => exact ending_work_eq_noReport_iff hsource

/-- Otherwise the status is zero, one or two. -/
theorem status_work_le {code : Nat} (h : (work o files source).ending = .status code) :
    code ≤ 2 := by
  have hcourse := course_work o files source
  generalize work o files source = t at h hcourse
  cases hcourse with
  | notLoaded hchosen =>
    rw [ending_loadFailed] at h
    split at h
    · cases h
      decide
    · cases h
  | rolled hchosen _ _ _ =>
    rw [ending_rollAndReport] at h
    split at h
    · cases h
      decide
    · cases h
  | _ =>
    cases h
    decide

/-- The command has words for all failures of a file but two. -/
theorem LoadFailure.isReported {path : String} {e : LoadError} (h : LoadFailure files path e)
    (hnull : e ≠ .cannotOpen path .nullCharacter) (htext : e ≠ .undecodable) :
    isReported e = true := by
  cases h with
  | @cannotOpen error hfile =>
    cases error with
    | nullCharacter => exact absurd rfl hnull
    | _ => rfl
  | faulty hfile hadded => rfl
  | undecodable hfile hadded hsound => exact absurd rfl htext

theorem exists_message_of_isReported {e : LoadError} (h : isReported e = true) :
    ∃ message, e.message? = some message := by
  cases e with
  | undecodable => cases h
  | _ => exact ⟨_, rfl⟩

/-- What the command has words for, it tells. -/
theorem work_of_reported {path : String} {e : LoadError} (hpath : o.macroFile = some path)
    (hne : path ≠ "") (hfailure : LoadFailure files path e) (hreported : isReported e = true) :
    ∃ message, e.message? = some message ∧ (work o files source).ending = .status 2 ∧
      (work o files source).echoed = [errorText message] ∧ (work o files source).printed = "" ∧
      (work o files source).err = "" := by
  have hchosen := chosenTable_eq_error_iff.mpr ⟨path, hpath, hne, hfailure⟩
  obtain ⟨message, hmessage⟩ := exists_message_of_isReported hreported
  refine ⟨message, hmessage, ?_⟩
  rw [work_of_not_loaded hchosen, loadFailed, if_pos hreported, hmessage]
  exact ⟨rfl, rfl, rfl, rfl⟩

end Endings

/-! ## 4. Runs -/

/-- Work that is not asked for does not escape. -/
theorem run_cases (arguments : List String) (files : Files) (source : Source) :
    (run arguments files source).ending = .status 2 ∧
      (∀ o, readArguments arguments ≠ .ok (.work o)) ∨
    (run arguments files source).ending = .status 0 ∧
      (∀ o, readArguments arguments ≠ .ok (.work o)) ∨
    ∃ o, readArguments arguments = .ok (.work o) ∧
      (run arguments files source).ending = (work o files source).ending := by
  cases h : readArguments arguments with
  | error e =>
    refine Or.inl ⟨?_, fun o => nofun⟩
    unfold run runIn
    rw [h]
  | ok request =>
    cases request with
    | help =>
      refine Or.inr (Or.inl ⟨?_, fun o => nofun⟩)
      unfold run runIn
      rw [h]
    | work o =>
      refine Or.inr (Or.inr ⟨o, rfl, ?_⟩)
      rw [run_of_work h]

/-- **How a run ends**, if the source answers with faces.  Arguments are texts without lone
surrogates.  With one of those, which a system hands on where an argument is no text, there is one
more failure, that of encoding it: opening a file at such a path fails so, and so can showing it.

A status is at most two.  A run escapes exactly if its work meets one of the failures without words:
a path of macros with a null character, a file of macros that is no text in UTF-8 though the lines
before that are in order, or a batch whose sum has too many digits.  All other failures of a file
are told, after `Error: ` and with status two, and nothing else is said.  And no batch is refused
whose number of rolls is not itself beyond what can be written, give or take thirteen digits. -/
theorem run_ending (arguments : List String) (files : Files) {source : Source}
    (hsource : source.InRange) :
    (∀ code, (run arguments files source).ending = .status code → code ≤ 2) ∧
    (∀ f, (run arguments files source).ending = .escaped f ↔
      ∃ o, readArguments arguments = .ok (.work o) ∧ Unworded files source o f) ∧
    (∀ o path e, readArguments arguments = .ok (.work o) → o.macroFile = some path → path ≠ "" →
      LoadFailure files path e → e ≠ .cannotOpen path .nullCharacter → e ≠ .undecodable →
      ∃ message, e.message? = some message ∧ (run arguments files source).ending = .status 2 ∧
        (run arguments files source).echoed = [errorText message] ∧
        (run arguments files source).printed = "" ∧ (run arguments files source).err = "") ∧
    ∀ o t rolls k, readArguments arguments = .ok (.work o) →
      (chosenTable files o.macroFile).result = .ok t →
      (t.macros.resolve o.tokens).result = .ok rolls → k + 13 ≤ Numeral.maxDigits →
      rolls.length ≤ 10 ^ k → ∀ e, (run arguments files source).ending ≠ .escaped (.noReport e) := by
  refine ⟨fun code h => ?_, fun f => ?_, fun o path e hread hpath hne hfailure hnull htext => ?_,
    fun o t rolls k hread hchosen hresolve hk hlength e h => ?_⟩
  · obtain ⟨hend, -⟩ | ⟨hend, -⟩ | ⟨o, -, hend⟩ := run_cases arguments files source
    · rw [hend] at h
      cases h
      decide
    · rw [hend] at h
      cases h
      decide
    · rw [hend] at h
      exact status_work_le h
  · obtain ⟨hend, hno⟩ | ⟨hend, hno⟩ | ⟨o, hread, hend⟩ := run_cases arguments files source
    · rw [hend]
      exact ⟨nofun, fun ⟨o, ho, _⟩ => absurd ho (hno o)⟩
    · rw [hend]
      exact ⟨nofun, fun ⟨o, ho, _⟩ => absurd ho (hno o)⟩
    · rw [hend, ending_work_eq_escaped_iff hsource, hread]
      simp
  · rw [run_of_work hread]
    exact work_of_reported hpath hne hfailure (hfailure.isReported hnull htext)
  · rw [run_of_work hread, ending_work_eq_escaped_iff hsource] at h
    cases h with
    | @sumTooLong t' rolls' hloaded hunlisted htokens hrolls hfits =>
      rw [hchosen] at hloaded
      cases hloaded
      rw [hresolve] at hrolls
      cases hrolls
      have hlimits := (lawful_chosenTable hchosen).inLimits_of_resolve hresolve
      exact Nat.not_lt.mpr hlength (Report.length_of_not_fits hlimits hsource hfits hk)

/-- One file of macros, and it is no text. -/
def undecodableFile : Files := fun path =>
  if path = "bad.txt" then .ok [0xff] else .error .missing

/-- A run with that file has no status. -/
theorem run_undecodable_escapes :
    (Source.ofScript #[0]).InRange ∧ undecodableFile "bad.txt" = .ok [0xff] ∧
    (run ["-m", "bad.txt", "d6"] undecodableFile (Source.ofScript #[0])).ending
      = .escaped (.load .undecodable) := by
  refine ⟨Source.inRange_ofScript #[0], rfl, ?_⟩
  decide +kernel

/-- The same run, as the rule has it; and with a path that leads nowhere, the error is told. -/
theorem run_ending_undecodable :
    (Source.ofScript #[0]).InRange ∧
    (run ["-m", "bad.txt", "d6"] undecodableFile (Source.ofScript #[0])).ending
      = .escaped (.load .undecodable) ∧
    ∃ message, (LoadError.cannotOpen "none.txt" .missing).message? = some message ∧
      (run ["-m", "none.txt", "d6"] undecodableFile (Source.ofScript #[0])).ending = .status 2 ∧
      (run ["-m", "none.txt", "d6"] undecodableFile (Source.ofScript #[0])).echoed
        = [errorText message] ∧
      (run ["-m", "none.txt", "d6"] undecodableFile (Source.ofScript #[0])).printed = "" ∧
      (run ["-m", "none.txt", "d6"] undecodableFile (Source.ofScript #[0])).err = "" := by
  have hsource := Source.inRange_ofScript #[0]
  have hbad : readArguments ["-m", "bad.txt", "d6"]
      = .ok (.work ⟨some "bad.txt", false, false, ["d6"]⟩) := rfl
  have hnone : readArguments ["-m", "none.txt", "d6"]
      = .ok (.work ⟨some "none.txt", false, false, ["d6"]⟩) := rfl
  have hunworded : Unworded undecodableFile (Source.ofScript #[0])
      ⟨some "bad.txt", false, false, ["d6"]⟩ (.load .undecodable) :=
    Unworded.undecodable rfl (by decide) rfl rfl rfl
  refine ⟨hsource, ?_, ?_⟩
  · exact ((run_ending _ undecodableFile hsource).2.1 _).mpr ⟨_, hbad, hunworded⟩
  · exact (run_ending _ undecodableFile hsource).2.2.1 _ _ _ hnone rfl (by decide)
      (LoadFailure.cannotOpen rfl) (by decide) (by decide)

end Dice.Command
