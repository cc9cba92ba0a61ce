/-
# The five outcomes of a run

A run of the command comes to one of five things, which are looked for in a fixed order: its macros
cannot be loaded; they are listed; there is nothing to roll; a token stands for nothing; or dice are
thrown.  Each has its status and its words, and only the last one draws from the source.  The words
are those that the console is handed; what it shows of them is known if it is a verbatim one.

* `listing_ne_report`: a listing is not mistaken for a report;
* `work_cases`: what the work says, once there is a table;
* `run_outcomes`: **the outcomes of a run, and what it leaves behind.**
-/
import Dice.Proofs.Command.Ending
import Dice.Proofs.Command.Tables
import Dice.Proofs.Command.Verbatim
import Dice.Proofs.Macro.Faults
import Dice.Proofs.Report.ReadBack
import Dice.Proofs.Screen.Verbatim

namespace Dice

namespace Command

open Text

/-! ## 1. Listings and reports -/

/-- A macro is listed as its name, which has no blanks, two blanks and what it stands for. -/
theorem exists_listingLine {e : MacroEntry} (hname : IsMacroName e.1) :
    ∃ before after, ' ' ∉ before ∧ (listingLine e).toList = before ++ ' ' :: ' ' :: after := by
  refine ⟨e.1.toList, (" ".intercalate (e.2.map Roll.text)).toList, fun hmem => ?_, ?_⟩
  · have hblank := hname.noBlank ' ' hmem
    rw [show isBlank ' ' = true by decide] at hblank
    cases hblank
  · simp [listingLine]

/-- In a report the first blank has a number behind it. -/
theorem exists_report {rs : List Roll} {os : List Outcome} {text : String} (hrs : rs ≠ [])
    (hos : os ≠ []) (h : Report.text rs os = .ok text) :
    ∃ before n after, ' ' ∉ before ∧
      text.toList = before ++ ' ' :: (Numeral.intText n ++ after) := by
  obtain ⟨r, rs, rfl⟩ := List.exists_cons_of_ne_nil hrs
  obtain ⟨o, os, rfl⟩ := List.exists_cons_of_ne_nil hos
  obtain ⟨ls, hls, -, rfl⟩ := Report.text_eq_ok_iff.mp h
  rw [Report.rollLines_eq_ok_iff] at hls
  obtain ⟨l, ls, rfl, hl, -⟩ := List.map_eq_cons_iff.mp hls.symm
  obtain ⟨tail, hline⟩ := Report.Line.toList_line hl.symm
  have hnotation : ' ' ∉ r.chars ++ [':'] := by
    intro hmem
    rcases List.mem_append.mp hmem with hmem | hmem
    · exact absurd (r.isFormChar_of_mem_chars ' ' hmem) (by decide)
    · simp at hmem
  -- whatever lines come after it, a report starts with its first line
  obtain ⟨rest, hrest⟩ : l.toList <+: ("\n".intercalate ((l :: ls)
      ++ Report.totalLine? (o :: os))).toList := by
    rw [String.toList_intercalate, List.cons_append, List.map_cons]
    cases (ls ++ Report.totalLine? (o :: os)).map String.toList <;> simp
  refine ⟨r.chars ++ [':'], o.total,
    [' ', '('] ++ (Die.listChars o.dice ++ [')'] ++ tail) ++ rest, hnotation, ?_⟩
  rw [← hrest, hline]
  simp

/-- **A listing is not mistaken for a report.** -/
theorem listing_ne_report {t : Macros.Table} (ht : t.macros.Lawful) {rs : List Roll}
    {os : List Outcome} {text : String} (hrs : rs ≠ []) (hos : os ≠ [])
    (h : Report.text rs os = .ok text) : listing t ≠ [text] := by
  intro heq
  have hmem : text ∈ listing t := heq ▸ List.mem_singleton_self text
  obtain ⟨e, he, rfl⟩ := List.mem_map.mp hmem
  obtain ⟨before, after, hbefore, hlisted⟩ := exists_listingLine (ht.name e he)
  obtain ⟨before', n, after', hbefore', hreported⟩ := exists_report hrs hos h
  have hcut : before ++ [' '] ++ (' ' :: after)
      = before' ++ [' '] ++ (Numeral.intText n ++ after') := by
    rw [List.append_assoc, List.append_assoc]
    exact hlisted.symm.trans hreported
  -- so a blank starts a number, which has no blanks
  have htail : ' ' :: after = Numeral.intText n ++ after' :=
    (append_inj_of_notMem hbefore hbefore' hcut).2
  have hnumber : ' ' ∉ Numeral.intText n := Numeral.notMem_intText (by decide) n
  cases hdigits : Numeral.intText n with
  | nil => exact Numeral.intText_ne_nil n hdigits
  | cons c cs =>
    rw [hdigits] at htail hnumber
    exact hnumber ((List.cons.inj htail).1 ▸ List.mem_cons_self)

/-! ## 2. What the work says -/

/-- The status with which a run ends, and all that it says: the texts that it hands to the console,
with nothing printed past it, and what goes to the stream for errors. -/
def Transcript.Says (result : Transcript) (code : Nat) (echoed : List String) (err : String) :
    Prop :=
  result.ending = .status code ∧ result.echoed = echoed ∧ result.printed = "" ∧ result.err = err

/-- Two sayings of one run agree. -/
theorem Transcript.Says.unique {result : Transcript} {code code' : Nat}
    {echoed echoed' : List String} {err err' : String} (h : result.Says code echoed err)
    (h' : result.Says code' echoed' err') : code = code' ∧ echoed = echoed' ∧ err = err' := by
  obtain ⟨hcode, rfl, -, rfl⟩ := h
  obtain ⟨hcode', rfl, -, rfl⟩ := h'
  rw [hcode] at hcode'
  cases hcode'
  exact ⟨rfl, rfl, rfl⟩

/-- One text on a console. -/
theorem Transcript.Says.outOn {result : Transcript} {code : Nat} {text err : String}
    (h : result.Says code [text] err) (console : Console) :
    result.outOn console = console.shown text := by
  obtain ⟨-, hechoed, hprinted, -⟩ := h
  exact Transcript.outOn_echoing hprinted hechoed console

section Work

variable {o : Options} {files : Files} {source : Source} {t : Macros.Table}

/-- **Once there is a table**, the work comes to one of four things. -/
theorem work_cases (source : Source) (ht : (chosenTable files o.macroFile).result = .ok t) :
    (o.listing = true ∧ (work o files source).Says 0 (listing t) "") ∨
    (o.listing = false ∧ o.tokens = [] ∧ (work o files source).Says 2 [] usage) ∨
    (o.listing = false ∧ o.tokens ≠ [] ∧ ∃ e, t.macros.FirstBad o.tokens e ∧
      (work o files source).Says 1 [errorText e.message] "") ∨
    (o.listing = false ∧ o.tokens ≠ [] ∧ ∃ rolls records,
      (t.macros.resolve o.tokens).result = .ok rolls ∧
      work o files source = rollAndReport rolls source records) := by
  have hcourse := course_work o files source
  generalize work o files source = result at hcourse
  cases hcourse with
  | notLoaded hchosen =>
    rw [hchosen] at ht
    cases ht
  | listed hchosen hlisting =>
    rw [hchosen] at ht
    cases ht
    exact Or.inl ⟨hlisting, rfl, rfl, rfl, rfl⟩
  | idle hchosen hlisting htokens =>
    exact Or.inr (Or.inl ⟨hlisting, htokens, rfl, rfl, rfl, rfl⟩)
  | @unresolved t' records resolving e hchosen hlisting htokens hresolve =>
    rw [hchosen] at ht
    cases ht
    have hbad : t.macros.FirstBad o.tokens e := Macros.resolve_eq_error_iff.mp (by rw [hresolve])
    exact Or.inr (Or.inr (Or.inl ⟨hlisting, htokens, e, hbad, rfl, rfl, rfl, rfl⟩))
  | @rolled t' records resolving rolls hchosen hlisting htokens hresolve =>
    rw [hchosen] at ht
    cases ht
    exact Or.inr (Or.inr (Or.inr ⟨hlisting, htokens, rolls, records ++ resolving,
      by rw [hresolve], rfl⟩))

/-- What is rolled is reported. -/
theorem says_rollAndReport {rolls : List Roll} {text : String} (records : List Record)
    (h : Report.text rolls (Roll.throwAll source rolls 0).1 = .ok text) :
    (rollAndReport rolls source records).Says 0 [text] "" ∧
      (rollAndReport rolls source records).draws = (Roll.throwAll source rolls 0).2 := by
  unfold rollAndReport
  dsimp only
  rw [h]
  exact ⟨⟨rfl, rfl, rfl, rfl⟩, rfl⟩

/-- After a roll nothing but a report is said, and the status is zero. -/
theorem report_of_saying {rolls : List Roll} {records : List Record} {code : Nat}
    {echoed : List String} {err : String}
    (h : (rollAndReport rolls source records).Says code echoed err) :
    code = 0 ∧ ∃ text, Report.text rolls (Roll.throwAll source rolls 0).1 = .ok text ∧
      echoed = [text] := by
  cases htext : Report.text rolls (Roll.throwAll source rolls 0).1 with
  | ok text =>
    obtain ⟨hcode, hechoed, -⟩ := h.unique (says_rollAndReport records htext).1
    exact ⟨hcode, text, rfl, hechoed⟩
  | error e =>
    have hending : (rollAndReport rolls source records).ending = .escaped (.noReport e) := by
      rw [ending_rollAndReport, htext]
    rw [h.1] at hending
    cases hending

theorem says_listing_iff (ht : (chosenTable files o.macroFile).result = .ok t) :
    (work o files source).Says 0 (listing t) "" ↔ o.listing = true := by
  constructor
  · intro h
    rcases work_cases source ht with ⟨hlisting, -⟩ | ⟨-, -, htold⟩ |
      ⟨-, -, e, -, htold⟩ | ⟨-, htokens, rolls, records, hrolls, hwork⟩
    · exact hlisting
    · cases (h.unique htold).1
    · cases (h.unique htold).1
    · -- what is rolled is reported on, and the report is no listing
      have hlawful := lawful_chosenTable ht
      have hne := (hlawful.resolve htokens hrolls).ne_nil
      have houtcomes : (Roll.throwAll source rolls 0).1 ≠ [] := by
        rw [← List.length_pos_iff, Roll.length_throwAll]
        exact List.length_pos_iff.mpr hne
      rw [hwork] at h
      obtain ⟨-, text, htext, hechoed⟩ := report_of_saying h
      exact absurd hechoed (listing_ne_report hlawful hne houtcomes htext)
  · intro hlisting
    rcases work_cases source ht with ⟨-, htold⟩ | ⟨hno, -⟩ | ⟨hno, -⟩ | ⟨hno, -⟩
    · exact htold
    all_goals
      rw [hlisting] at hno
      cases hno

theorem says_usage_iff (ht : (chosenTable files o.macroFile).result = .ok t)
    (hlisting : o.listing = false) :
    (work o files source).Says 2 [] usage ↔ o.tokens = [] := by
  rcases work_cases source ht with ⟨hyes, -⟩ | ⟨-, htokens, htold⟩ |
    ⟨-, htokens, e, -, htold⟩ | ⟨-, htokens, rolls, records, -, hwork⟩
  · rw [hlisting] at hyes
    cases hyes
  · exact ⟨fun _ => htokens, fun _ => htold⟩
  · refine ⟨fun h => ?_, fun h => absurd h htokens⟩
    cases (h.unique htold).1
  · refine ⟨fun h => ?_, fun h => absurd h htokens⟩
    rw [hwork] at h
    cases (report_of_saying h).1

theorem says_of_firstBad (ht : (chosenTable files o.macroFile).result = .ok t)
    (hlisting : o.listing = false) {e : Notation.Error} (hbad : t.macros.FirstBad o.tokens e) :
    (work o files source).Says 1 [errorText e.message] "" := by
  have hresolve := Macros.resolve_eq_error_iff.mpr hbad
  rcases work_cases source ht with ⟨hyes, -⟩ | ⟨-, htokens, -⟩ |
    ⟨-, -, e', hbad', htold⟩ | ⟨-, -, rolls, records, hrolls, -⟩
  · rw [hlisting] at hyes
    cases hyes
  · rw [htokens] at hbad
    exact absurd hbad Macros.not_firstBad_nil
  · have hsame := hresolve.symm.trans (Macros.resolve_eq_error_iff.mpr hbad')
    cases hsame
    exact htold
  · rw [hresolve] at hrolls
    cases hrolls

theorem says_error_iff (ht : (chosenTable files o.macroFile).result = .ok t)
    (hlisting : o.listing = false) :
    (∃ message, (work o files source).Says 1 [errorText message] "") ↔
      ∃ e, t.macros.FirstBad o.tokens e := by
  refine ⟨fun ⟨message, h⟩ => ?_, fun ⟨e, hbad⟩ => ⟨e.message, says_of_firstBad ht hlisting hbad⟩⟩
  rcases work_cases source ht with ⟨hyes, -⟩ | ⟨-, -, htold⟩ |
    ⟨-, -, e, hbad, -⟩ | ⟨-, -, rolls, records, -, hwork⟩
  · rw [hlisting] at hyes
    cases hyes
  · cases (h.unique htold).1
  · exact ⟨e, hbad⟩
  · rw [hwork] at h
    cases (report_of_saying h).1

/-- A file that fails to load is told with the error, if reading it raises nothing else. -/
theorem says_loadFailure {path : String} {e : LoadError} (source : Source)
    (hpath : o.macroFile = some path) (hne : path ≠ "") (hload : LoadFailure files path e)
    (hdecodable : e ≠ .undecodable) (hnull : e ≠ .cannotOpen path .nullCharacter) :
    ∃ message, e.message? = some message ∧
      (work o files source).Says 2 [errorText message] "" :=
  work_of_reported hpath hne hload (hload.isReported hnull hdecodable)

/-- With status two and an error, the macros were not loaded. -/
theorem not_loaded_of_saying {message : String}
    (h : (work o files source).Says 2 [errorText message] "") :
    ∃ path e, o.macroFile = some path ∧ path ≠ "" ∧ LoadFailure files path e := by
  cases hchosen : (chosenTable files o.macroFile).result with
  | error e =>
    obtain ⟨path, hpath, hne, hload⟩ := chosenTable_eq_error_iff.mp hchosen
    exact ⟨path, e, hpath, hne, hload⟩
  | ok t =>
    -- with a table, status two comes with nothing for the console
    rcases work_cases source hchosen with ⟨-, htold⟩ | ⟨-, -, htold⟩ |
      ⟨-, -, e, -, htold⟩ | ⟨-, -, rolls, records, -, hwork⟩
    · cases (h.unique htold).1
    · cases (h.unique htold).2.1
    · cases (h.unique htold).1
    · rw [hwork] at h
      cases (report_of_saying h).1

/-- Tokens of which none is bad are reported on, unless they stand for too many rolls. -/
theorem says_report (ht : (chosenTable files o.macroFile).result = .ok t)
    (hsource : source.InRange) (hlisting : o.listing = false) (htokens : o.tokens ≠ [])
    (hstand : ∀ token ∈ o.tokens, t.macros.Stands token) :
    ∃ rolls, (t.macros.resolve o.tokens).result = .ok rolls ∧
      ((∃ text, Report.text rolls (Roll.throwAll source rolls 0).1 = .ok text ∧
        (work o files source).Says 0 [text] "" ∧
        (work o files source).draws = (Roll.throwAll source rolls 0).2) ∨
      10 ^ 4287 < rolls.length) := by
  obtain ⟨rolls, hrolls⟩ := Macros.exists_resolve hstand
  refine ⟨rolls, hrolls, (Nat.lt_or_ge (10 ^ 4287) rolls.length).symm.imp_left fun hlength => ?_⟩
  have hlimits := (lawful_chosenTable ht).inLimits_of_resolve hrolls
  obtain ⟨text, htext⟩ := Report.exists_text hlimits hsource 0 hlength
  obtain ⟨records, hwork⟩ := work_of_rolls source ht hlisting htokens hrolls
  obtain ⟨htold, hdraws⟩ := says_rollAndReport records htext
  rw [hwork]
  exact ⟨text, htext, htold, hdraws⟩

/-- The work does not roll: the macros are not loaded, or they are listed, or there are no tokens,
or one of them is bad. -/
def RollsNothing (o : Options) (files : Files) : Prop :=
  ∀ t, (chosenTable files o.macroFile).result = .ok t →
    o.listing = true ∨ o.tokens = [] ∨ ∃ e, t.macros.FirstBad o.tokens e

/-- **Without rolls there are no draws**, and the work is the same for every source. -/
theorem work_of_rollsNothing (h : RollsNothing o files) :
    ∃ result : Transcript, result.draws = 0 ∧ ∀ source, work o files source = result := by
  cases ht : (chosenTable files o.macroFile).result with
  | error e =>
    refine ⟨loadFailed e (chosenTable files o.macroFile).records, ?_,
      fun source => work_of_not_loaded ht⟩
    unfold loadFailed
    split <;> rfl
  | ok t =>
    unfold work workWith
    simp only [ht]
    by_cases hlisting : o.listing = true
    · simp only [if_pos hlisting]
      exact ⟨_, rfl, fun _ => rfl⟩
    · simp only [if_neg hlisting]
      by_cases htokens : o.tokens = []
      · simp only [if_pos (List.isEmpty_iff.mpr htokens)]
        exact ⟨_, rfl, fun _ => rfl⟩
      · obtain ⟨e, hbad⟩ := ((h t ht).resolve_left hlisting).resolve_left htokens
        simp only [if_neg fun hempty => htokens (List.isEmpty_iff.mp hempty),
          Macros.resolve_eq_error_iff.mpr hbad]
        exact ⟨_, rfl, fun _ => rfl⟩

end Work

/-! ## 3. Runs -/

section Runs

variable {arguments : List String} {o : Options} {files : Files} {source : Source}

theorem says_run_iff (hread : readArguments arguments = .ok (.work o)) {code : Nat}
    {echoed : List String} {err : String} :
    (run arguments files source).Says code echoed err ↔
      (work o files source).Says code echoed err := by
  rw [run_of_work hread]
  rfl

theorem draws_run (hread : readArguments arguments = .ok (.work o)) :
    (run arguments files source).draws = (work o files source).draws := by
  rw [run_of_work hread]

theorem run_of_rollsNothing (hread : readArguments arguments = .ok (.work o))
    (h : RollsNothing o files) :
    (run arguments files source).draws = 0 ∧
      ∀ source', run arguments files source' = run arguments files source := by
  obtain ⟨result, hdraws, hsame⟩ := work_of_rollsNothing h
  refine ⟨?_, fun source' => ?_⟩
  · rw [run_of_work hread, hsame]
    exact hdraws
  · rw [run_of_work hread, run_of_work hread, hsame, hsame]

end Runs

/-- **The outcomes of a run** whose arguments ask for work, if loading macros fails for no other
reason than a fault in a definition or one of the file system.

* The run ends with status two and an error, and says nothing else, exactly if it is to load a file
  and the file fails to load; the error is that of the file, whatever else is asked for.
* Otherwise it lists its macros, with status zero, exactly if it is asked to.
* Otherwise it says nothing but how it is used, with status two, exactly if there are no tokens.
* Otherwise it ends with status one and an error exactly if there is a bad token, which is neither
  the name of a macro nor notation; the error is that of the first one.  A verbatim console shows it
  word by word.
* Otherwise it reports on what the tokens stand for, with status zero, and a verbatim console shows
  the report as it is.  This takes a source that keeps its contract, which is to answer with faces of
  the die it is asked for; one that does not could answer with numbers that are too long to be
  written.  It also leaves out batches of more than `10 ^ 4287` rolls, which no machine holds.

Only in the last case the source is asked, and before that it makes no difference.

In a session in which the standard table is as it was made, the run comes to the same, whatever was
done before; what is recorded when that table is made, which is for the first run only, is left out.
The run leaves every table as it was, the standard one among them, so that the next run finds it as
this one did; and the table that its tokens are looked up in is there under its number. -/
theorem run_outcomes {arguments : List String} {o : Options}
    (hread : readArguments arguments = .ok (.work o)) {files : Files}
    (hraises : ∀ e, (chosenTable files o.macroFile).result = .error e →
      e ≠ .undecodable ∧ ∀ path, e ≠ .cannotOpen path .nullCharacter)
    (source : Source) :
    let result := run arguments files source
    ((∃ message, result.Says 2 [errorText message] "") ↔
      ∃ path e, o.macroFile = some path ∧ path ≠ "" ∧ LoadFailure files path e) ∧
    (∀ path e, o.macroFile = some path → path ≠ "" → LoadFailure files path e →
      ∃ message, e.message? = some message ∧ result.Says 2 [errorText message] "") ∧
    (∀ t, (chosenTable files o.macroFile).result = .ok t →
      (result.Says 0 (listing t) "" ↔ o.listing = true) ∧
      (o.listing = false → (result.Says 2 [] usage ↔ o.tokens = [])) ∧
      (o.listing = false → o.tokens ≠ [] →
        ((∃ message, result.Says 1 [errorText message] "") ↔ ∃ e, t.macros.FirstBad o.tokens e) ∧
        (∀ e, t.macros.FirstBad o.tokens e → result.Says 1 ["Error: " ++ e.message] "" ∧
          ∀ console : Console, console.Verbatim →
            result.outOn console = "Error: " ++ e.message ++ "\n") ∧
        (source.InRange → (∀ token ∈ o.tokens, t.macros.Stands token) →
          ∃ rolls, (t.macros.resolve o.tokens).result = .ok rolls ∧
            ((∃ text, Report.text rolls (Roll.throwAll source rolls 0).1 = .ok text ∧
              result.Says 0 [text] "" ∧
              (∀ console : Console, console.Verbatim → result.outOn console = text ++ "\n") ∧
              result.draws = (Roll.throwAll source rolls 0).2) ∨
            10 ^ 4287 < rolls.length)))) ∧
    (RollsNothing o files → result.draws = 0 ∧ ∀ source', run arguments files source' = result) ∧
    ∀ s : Session, s.Reachable → s.StandardIntact →
      let ran := runIn s arguments files source
      ran.2 = result ∧ ran.1.Reachable ∧ ran.1.StandardIntact ∧ s.Keeps ran.1 ∧
      ran.1.table? s.size = some standardTable ∧
      ∀ t, (chosenTable files o.macroFile).result = .ok t →
        ran.1.table? (tableNumber s o.macroFile) = some t := by
  intro result
  have hsame : ∀ {code : Nat} {echoed : List String} {err : String},
      result.Says code echoed err ↔ (work o files source).Says code echoed err :=
    says_run_iff hread
  have hfailure : ∀ path e, o.macroFile = some path → path ≠ "" → LoadFailure files path e →
      ∃ message, e.message? = some message ∧ result.Says 2 [errorText message] "" := by
    intro path e hpath hne hload
    obtain ⟨hdecodable, hnull⟩ := hraises e (chosenTable_eq_error_iff.mpr ⟨path, hpath, hne, hload⟩)
    obtain ⟨message, hmessage, htold⟩ :=
      says_loadFailure source hpath hne hload hdecodable (hnull path)
    exact ⟨message, hmessage, hsame.mpr htold⟩
  refine ⟨⟨fun ⟨message, h⟩ => not_loaded_of_saying (hsame.mp h),
      fun ⟨path, e, hpath, hne, hload⟩ => ?_⟩, hfailure,
    fun t ht => ⟨?_, fun hlisting => ?_, fun hlisting htokens => ⟨?_, fun e hbad => ?_, ?_⟩⟩,
    run_of_rollsNothing hread, fun s hs hintact => ?_⟩
  · obtain ⟨message, -, h⟩ := hfailure path e hpath hne hload
    exact ⟨message, h⟩
  · rw [hsame]
    exact says_listing_iff ht
  · rw [hsame]
    exact says_usage_iff ht hlisting
  · simp only [hsame]
    exact says_error_iff ht hlisting
  · have htold : result.Says 1 [errorText e.message] "" :=
      hsame.mpr (says_of_firstBad ht hlisting hbad)
    obtain ⟨_, token, _, _, _, _, hparse⟩ := hbad
    refine ⟨htold, fun console hconsole => ?_⟩
    rw [htold.outOn, hconsole.shown_line (plainLine_errorText (Notation.plainEnd_message hparse))]
    rfl
  · intro hsource hstand
    obtain ⟨rolls, hrolls, hreport⟩ := says_report ht hsource hlisting htokens hstand
    refine ⟨rolls, hrolls, hreport.imp_left fun ⟨text, htext, htold, hdraws⟩ => ?_⟩
    refine ⟨text, htext, hsame.mpr htold, fun console hconsole => ?_,
      (draws_run hread).trans hdraws⟩
    rw [(hsame.mpr htold).outOn, hconsole.shown_report htext]
  · intro ran
    obtain ⟨hreach, hintact', hkeeps, hstandard, hchosen⟩ :=
      tables_of_loadMacros hs hintact files o.macroFile
    have hran : ran.1 = (loadMacros s files o.macroFile).1 := runIn_fst_of_work hread s files source
    rw [hran]
    exact ⟨runIn_snd hs hintact arguments files source, hreach, hintact', hkeeps, hstandard, hchosen⟩

/-- No file is there. -/
def noFiles : Files := fun _ => .error .missing

/-- The second of three tokens is bad, and so is the third; a file that is not there is told before
anything else; and two macros are rolled, as they would be in any session.  On the screen. -/
theorem run_outcomes_standard :
    (run ["adv", "d0", "x2"] noFiles (.ofScript #[0])).Says 1
      ["Error: Failed to parse die size: '0' (zero sides)."] "" ∧
    (run ["adv", "d0", "x2"] noFiles (.ofScript #[0])).outOn screen
      = "Error: Failed to parse die size: '0' (zero sides).\n" ∧
    (run ["adv", "d0", "x2"] noFiles (.ofScript #[0])).draws = 0 ∧
    (∃ message, (LoadError.cannotOpen "none.txt" .missing).message? = some message ∧
      (run ["-m", "none.txt", "--list-macros", "d0"] noFiles (.ofScript #[0])).Says 2
        [errorText message] "") ∧
    (runIn .start ["adv", "dis"] noFiles (.ofScript #[0])).1.table? 0 = some standardTable ∧
    ∃ text, (run ["adv", "dis"] noFiles (.ofScript #[0])).Says 0 [text] "" ∧
      (run ["adv", "dis"] noFiles (.ofScript #[0])).outOn screen = text ++ "\n" ∧
      (run ["adv", "dis"] noFiles (.ofScript #[0])).draws = 4 := by
  have hsource := Source.inRange_ofScript #[0]
  have hread : readArguments ["adv", "d0", "x2"]
      = .ok (.work ⟨none, false, false, ["adv", "d0", "x2"]⟩) := rfl
  have hreadFile : readArguments ["-m", "none.txt", "--list-macros", "d0"]
      = .ok (.work ⟨some "none.txt", true, false, ["d0"]⟩) := rfl
  have hreadMacros : readArguments ["adv", "dis"]
      = .ok (.work ⟨none, false, false, ["adv", "dis"]⟩) := rfl
  have hbad : standardTable.macros.FirstBad ["adv", "d0", "x2"]
      (.badNumber "die size" "0" .zeroSides) := by
    refine ⟨["adv"], "d0", ["x2"], rfl, fun other hother => ?_, rfl, rfl⟩
    rw [List.mem_singleton.mp hother]
    exact Or.inl rfl
  have htable : (chosenTable noFiles none).result = .ok standardTable :=
    congrArg Logged.result (chosenTable_of_no_file rfl)
  have hloaded : ∀ e, (chosenTable noFiles none).result = .error e →
      e ≠ .undecodable ∧ ∀ path, e ≠ .cannotOpen path .nullCharacter :=
    fun e he => nomatch htable.symm.trans he
  -- the file fails to load only because it is missing
  have hraises : ∀ e, (chosenTable noFiles (some "none.txt")).result = .error e →
      e ≠ .undecodable ∧ ∀ path, e ≠ .cannotOpen path .nullCharacter := by
    intro e he
    have hload := chosenTable_eq_error_iff.mpr
      ⟨"none.txt", rfl, by decide, (LoadFailure.cannotOpen rfl : LoadFailure noFiles _ _)⟩
    cases he.symm.trans hload
    exact ⟨nofun, fun path h => by cases h⟩
  obtain ⟨-, -, houtcomes, hnothing, -⟩ := run_outcomes hread hloaded (.ofScript #[0])
  obtain ⟨-, herror, -⟩ := (houtcomes standardTable htable).2.2 rfl nofun
  obtain ⟨htold, hshown⟩ := herror _ hbad
  obtain ⟨-, -, hmacros, -, hsessions⟩ := run_outcomes hreadMacros hloaded (.ofScript #[0])
  obtain ⟨-, -, hreport⟩ := (hmacros standardTable htable).2.2 rfl nofun
  obtain ⟨rolls, hrolls, hreported⟩ := hreport hsource fun token htoken => Or.inl (by
    rcases List.mem_pair.mp htoken with rfl | rfl <;> rfl)
  obtain ⟨-, -, -, -, hstandard, -⟩ := hsessions .start .start standardIntact_start
  refine ⟨htold, hshown screen verbatim_screen, (hnothing fun t ht => ?_).1, ?_, hstandard, ?_⟩
  · cases htable.symm.trans ht
    exact Or.inr (Or.inr ⟨_, hbad⟩)
  · exact (run_outcomes hreadFile hraises (.ofScript #[0])).2.1 _ _ rfl (by decide)
      (LoadFailure.cannotOpen rfl)
  · cases hrolls
    rcases hreported with ⟨text, -, htold, hshown, hdraws⟩ | hlong
    · exact ⟨text, htold, hshown screen verbatim_screen, hdraws⟩
    · exact absurd hlong (Report.not_lt_of_le_ten (by decide))

end Command
end Dice
