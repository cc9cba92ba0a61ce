/-
# Errors on one line

A run that fails says nothing on the console or tells one error.  An error tells what the user wrote
in quotes, where line breaks are escaped, with one exception: an error in a definition starts with
the path of the file as it is.  So the exception is the only way in which an error can come to have
several lines.

* `LoadFailure.words_cases`: the words for a failure of a file, with the path apart;
* `Complaint.words_cases`: what a run has to tell is a plain line, but for that path;
* `run_errors_on_one_line`: **what a failed run tells**, and when it is one line;
* `run_error_on_two_lines`: a run that tells two.
-/
import Dice.Proofs.Command.Outcomes

namespace Dice

open Text

/-! ## 1. The words for errors -/

theorem Text.printable_toDigits (n : Nat) : Printable (Nat.toDigits 10 n) :=
  Numeral.printable_natText n

/-- The words of the system quote the path. -/
theorem OpenError.plainEnd_message (path : String) (e : OpenError) : PlainEnd (e.message path) := by
  cases e with
  | nullCharacter =>
    change PlainEnd "embedded null byte"
    exact ⟨by simp [isPrintable], 'e', by simp, by decide⟩
  | _ =>
    refine (plainEnd_quote path).append ?_
    simp [printable_toDigits, isPrintable]

/-- So do those for a line at fault, but for the tokens in it. -/
theorem DefinitionLine.Faulty.plainEnd_message {m : Macros} {line : String} {fault : Fault}
    (h : Faulty m line fault) : PlainEnd fault.message := by
  cases h with
  | @noRolls name hdef =>
    have hlast : PlainEnd " has no rolls." := ⟨by simp [isPrintable], '.', by simp, by decide⟩
    change PlainEnd ("Macro " ++ quote name ++ " has no rolls.")
    refine hlast.append ?_
    simp [printable_quote, isPrintable]
  | badToken hdef hbad =>
    obtain ⟨before, token, after, -, -, -, hparse⟩ := hbad
    exact Notation.plainEnd_message hparse

namespace Command

/-- **The words for a failure of a file.**  An error in a definition has the path in front; other
failures are plain lines. -/
theorem LoadFailure.words_cases {files : Files} {path words : String} {e : LoadError}
    (h : LoadFailure files path e) (hwords : e.message? = some words) :
    (∃ d rest, e = .definition d ∧ words = path ++ rest ∧ PlainEnd rest) ∨
      (∀ d, e ≠ .definition d) ∧ PlainEnd words := by
  cases h with
  | @cannotOpen error hfile =>
    cases hwords
    exact Or.inr ⟨nofun, error.plainEnd_message path⟩
  | @faulty octets error hfile hadded =>
    cases hwords
    obtain ⟨before, line, after, u, fault, -, -, hfaulty, rfl⟩ :=
      Macros.addLines_eq_error_iff.mp hadded
    refine Or.inl ⟨_, ", line " ++ toString (1 + before.length) ++ ": " ++ fault.message, rfl, ?_,
      hfaulty.plainEnd_message.append ?_⟩
    · simp only [DefinitionError.message, String.append_assoc]
    · simp [printable_toDigits, isPrintable]
  | undecodable hfile hadded hsound => cases hwords

/-! ## 2. What a run has to tell -/

/-- **What a run has to tell**: why its macros fail to load, if there are words for it; or what is
wrong with the first bad one of its tokens. -/
inductive Complaint (files : Files) (o : Options) : String → Prop
  | load {path words : String} {e : LoadError} :
      o.macroFile = some path → path ≠ "" → LoadFailure files path e → isReported e = true →
      e.message? = some words → Complaint files o words
  | token {t : Macros.Table} {e : Notation.Error} :
      (chosenTable files o.macroFile).result = .ok t → o.listing = false →
      t.macros.FirstBad o.tokens e → Complaint files o e.message

/-- The path leads to a file of macros with an error in a definition. -/
def FaultyFile (files : Files) (o : Options) (path : String) : Prop :=
  o.macroFile = some path ∧ path ≠ "" ∧ ∃ d, LoadFailure files path (.definition d)

section Complaints

variable {files : Files} {source : Source} {o : Options} {words : String}

theorem FaultyFile.exists_error {path : String} (h : FaultyFile files o path) :
    ∃ d, (chosenTable files o.macroFile).result = .error (.definition d) := by
  obtain ⟨hpath, hne, d, hfailure⟩ := h
  exact ⟨d, chosenTable_eq_error_iff.mpr ⟨path, hpath, hne, hfailure⟩⟩

/-- **What a run has to tell** is a plain line, but for the path of a file with an error in a
definition. -/
theorem Complaint.words_cases (h : Complaint files o words) :
    (∃ path rest, FaultyFile files o path ∧ words = path ++ rest ∧ PlainEnd rest) ∨
      (∀ path, ¬FaultyFile files o path) ∧ PlainEnd words := by
  cases h with
  | @load path words e hpath hne hfailure hreported hwords =>
    rcases hfailure.words_cases hwords with ⟨d, rest, rfl, hsplit, hrest⟩ | ⟨hnone, hplain⟩
    · exact Or.inl ⟨path, rest, ⟨hpath, hne, d, hfailure⟩, hsplit, hrest⟩
    · refine Or.inr ⟨fun path' hfaulty => ?_, hplain⟩
      obtain ⟨d, hd⟩ := hfaulty.exists_error
      have he := chosenTable_eq_error_iff.mpr ⟨path, hpath, hne, hfailure⟩
      exact hnone d (Except.error.inj (he.symm.trans hd))
  | @token t e hchosen hlisting hbad =>
    obtain ⟨before, token, after, -, -, -, hparse⟩ := hbad
    refine Or.inr ⟨fun path hfaulty => ?_, Notation.plainEnd_message hparse⟩
    obtain ⟨d, hd⟩ := hfaulty.exists_error
    cases hchosen.symm.trans hd

/-- **Line breaks come from the path of a file with an error in a definition**, and from nowhere
else. -/
theorem Complaint.mem_iff (h : Complaint files o words) {b : Char} (hb : b ∈ lineBreaks) :
    b ∈ words.toList ↔ ∃ path, FaultyFile files o path ∧ b ∈ path.toList := by
  rcases h.words_cases with ⟨path, rest, hfaulty, rfl, hrest⟩ | ⟨hnone, hplain⟩
  · rw [String.toList_append, List.mem_append, or_iff_left (hrest.1.notMem_lineBreaks hb)]
    refine ⟨fun hmem => ⟨path, hfaulty, hmem⟩, fun ⟨path', hfaulty', hmem⟩ => ?_⟩
    cases hfaulty.1.symm.trans hfaulty'.1
    exact hmem
  · exact iff_of_false (hplain.1.notMem_lineBreaks hb) fun ⟨path, hfaulty, _⟩ => hnone path hfaulty

theorem Complaint.plainEnd (h : Complaint files o words)
    (hpath : ∀ path, FaultyFile files o path → Printable path.toList) : PlainEnd words := by
  rcases h.words_cases with ⟨path, rest, hfaulty, rfl, hrest⟩ | ⟨-, hplain⟩
  · exact hrest.append (hpath path hfaulty)
  · exact hplain

/-- If the macros are loaded and there are no tokens, there is nothing to tell. -/
theorem not_complaint_of_idle {t : Macros.Table}
    (hchosen : (chosenTable files o.macroFile).result = .ok t) (htokens : o.tokens = []) :
    ¬Complaint files o words := by
  intro h
  cases h with
  | load hpath hne hfailure hreported hwords =>
    have he := chosenTable_eq_error_iff.mpr ⟨_, hpath, hne, hfailure⟩
    rw [hchosen] at he
    cases he
  | token hchosen' hlisting hbad =>
    rw [htokens] at hbad
    exact Macros.not_firstBad_nil hbad

/-- **Work that ends with a failure** tells what it has to tell, or nothing if it has nothing to
tell. -/
theorem work_tells {code : Nat} (hend : (work o files source).ending = .status code)
    (hcode : code ≠ 0) :
    (work o files source).printed = "" ∧
    ((work o files source).echoed = [] ∧ (∀ words, ¬Complaint files o words) ∨
      ∃ words, Complaint files o words ∧ (work o files source).echoed = [errorText words]) := by
  have hcourse := course_work o files source
  generalize work o files source = result at hend hcourse
  cases hcourse with
  | @notLoaded e records hchosen =>
    rw [ending_loadFailed] at hend
    split at hend
    · rename_i hreported
      obtain ⟨path, hpath, hne, hfailure⟩ :=
        chosenTable_eq_error_iff.mp (congrArg Logged.result hchosen)
      obtain ⟨words, hwords⟩ := exists_message_of_isReported hreported
      rw [loadFailed, if_pos hreported, hwords, Option.getD_some]
      exact ⟨rfl, Or.inr ⟨words, .load hpath hne hfailure hreported hwords, rfl⟩⟩
    · cases hend
  | listed hchosen hlisting =>
    cases hend
    exact absurd rfl hcode
  | idle hchosen hlisting htokens =>
    exact ⟨rfl, Or.inl ⟨rfl, fun words =>
      not_complaint_of_idle (congrArg Logged.result hchosen) htokens⟩⟩
  | unresolved hchosen hlisting htokens hresolve =>
    have hbad := Macros.resolve_eq_error_iff.mp (congrArg Logged.result hresolve)
    exact ⟨rfl, Or.inr ⟨_, .token (congrArg Logged.result hchosen) hlisting hbad, rfl⟩⟩
  | rolled hchosen hlisting htokens hresolve =>
    rw [ending_rollAndReport] at hend
    split at hend
    · cases hend
      exact absurd rfl hcode
    · cases hend

end Complaints

/-! ## 3. Runs -/

/-- **What a failed run tells.**  A run ends with a status that is not zero.

Nothing goes past the console.  If the run has nothing to tell, it hands nothing to the console
either.  Otherwise it hands it one text: `Error: ` and a message, which has no line break of any
kind, with one exception: if the error is in a definition, the path of the file of macros is told as
it is, with all its line breaks.  So a verbatim console shows the error on one line, unless there is
such a path and it is not printable. -/
theorem run_errors_on_one_line {arguments : List String} {files : Files} {source : Source}
    {code : Nat} (hend : (run arguments files source).ending = .status code) (hcode : code ≠ 0) :
    (run arguments files source).printed = "" ∧
    (((run arguments files source).echoed = [] ∧
      ∀ o words, readArguments arguments = .ok (.work o) → ¬Complaint files o words) ∨
    ∃ o words, readArguments arguments = .ok (.work o) ∧ Complaint files o words ∧
      (run arguments files source).echoed = ["Error: " ++ words] ∧
      (∀ b ∈ lineBreaks, (b ∈ words.toList ↔
        ∃ path, FaultyFile files o path ∧ b ∈ path.toList)) ∧
      ((∀ path, FaultyFile files o path → Printable path.toList) →
        ∀ console : Console, console.Verbatim →
          (run arguments files source).outOn console = "Error: " ++ words ++ "\n")) := by
  cases hread : readArguments arguments with
  | error e =>
    unfold run runIn
    rw [hread]
    exact ⟨rfl, Or.inl ⟨rfl, fun o words h => nomatch h⟩⟩
  | ok request =>
    cases request with
    | help =>
      unfold run runIn at hend
      rw [hread] at hend
      cases hend
      exact absurd rfl hcode
    | work o =>
      rw [run_of_work hread] at hend ⊢
      obtain ⟨hprinted, ⟨hechoed, hnone⟩ | ⟨words, hcomplaint, hechoed⟩⟩ := work_tells hend hcode
      · refine ⟨hprinted, Or.inl ⟨hechoed, fun o' words h => ?_⟩⟩
        cases h
        exact hnone words
      · refine ⟨hprinted, Or.inr ⟨o, words, rfl, hcomplaint, hechoed,
          fun b hb => hcomplaint.mem_iff hb, fun hpath console hconsole => ?_⟩⟩
        refine (Transcript.outOn_echoing hprinted hechoed console).trans ?_
        exact hconsole.shown_line (plainLine_errorText (hcomplaint.plainEnd hpath))

/-- A line feed in a token is told in quotes, and the error is one line on the screen. -/
theorem run_errors_on_one_line_token :
    (run ["d6", "x\n2"] noFiles (.ofScript #[0])).ending = .status 1 ∧ 1 ≠ 0 ∧
    ∃ words, (run ["d6", "x\n2"] noFiles (.ofScript #[0])).echoed = ["Error: " ++ words] ∧
      (∀ b ∈ lineBreaks, b ∉ words.toList) ∧
      (run ["d6", "x\n2"] noFiles (.ofScript #[0])).outOn screen
        = "Error: " ++ words ++ "\n" := by
  have hread : readArguments ["d6", "x\n2"]
      = .ok (.work ⟨none, false, false, ["d6", "x\n2"]⟩) := rfl
  have hend : (run ["d6", "x\n2"] noFiles (.ofScript #[0])).ending = .status 1 := by
    decide +kernel
  have hbad : standardTable.macros.FirstBad ["d6", "x\n2"] (.malformed "x\n2") := by
    refine ⟨["d6"], "x\n2", [], rfl, fun other hother => ?_, rfl, rfl⟩
    rw [List.mem_singleton.mp hother]
    exact Or.inr ⟨_, rfl⟩
  have htable : (chosenTable noFiles none).result = .ok standardTable :=
    congrArg Logged.result (chosenTable_of_no_file rfl)
  refine ⟨hend, by decide, ?_⟩
  rcases (run_errors_on_one_line hend (by decide)).2 with
    ⟨-, hnone⟩ | ⟨o, words, ho, -, hechoed, hbreaks, hshown⟩
  · exact absurd (.token htable rfl hbad) (hnone _ _ hread)
  · cases hread.symm.trans ho
    have hpath : ∀ path, ¬FaultyFile noFiles ⟨none, false, false, ["d6", "x\n2"]⟩ path :=
      fun path hfaulty => nomatch hfaulty.1
    refine ⟨words, hechoed, fun b hb hmem => ?_,
      hshown (fun path hfaulty => absurd hfaulty (hpath path)) screen verbatim_screen⟩
    obtain ⟨path, hfaulty, -⟩ := (hbreaks b hb).mp hmem
    exact hpath path hfaulty

/-- A file with a line feed in its name, and a name alone on its only line. -/
def lineFeedFile : Files := fun path =>
  if path = "a\nb.txt" then .ok "adv\n".toUTF8.toList else .error .missing

/-- **An error on two lines.**  The path is told as it is, and every verbatim console shows two
lines, the screen among them. -/
theorem run_error_on_two_lines :
    (run ["-m", "a\nb.txt", "d6"] lineFeedFile (.ofScript #[0])).ending = .status 2 ∧
    (run ["-m", "a\nb.txt", "d6"] lineFeedFile (.ofScript #[0])).echoed
      = ["Error: a\nb.txt, line 1: Macro 'adv' has no rolls."] ∧
    (∀ console : Console, console.Verbatim →
      (run ["-m", "a\nb.txt", "d6"] lineFeedFile (.ofScript #[0])).outOn console
        = "Error: a\nb.txt, line 1: Macro 'adv' has no rolls.\n") ∧
    ¬((run ["-m", "a\nb.txt", "d6"] lineFeedFile (.ofScript #[0])).outOn screen = "" ∨
      ∃ message : String, '\n' ∉ message.toList ∧
        (run ["-m", "a\nb.txt", "d6"] lineFeedFile (.ofScript #[0])).outOn screen
          = "Error: " ++ message ++ "\n") := by
  have hechoed : (run ["-m", "a\nb.txt", "d6"] lineFeedFile (.ofScript #[0])).echoed
      = ["Error: a\nb.txt, line 1: Macro 'adv' has no rolls."] := by
    decide +kernel
  have hprinted : (run ["-m", "a\nb.txt", "d6"] lineFeedFile (.ofScript #[0])).printed = "" := by
    decide +kernel
  -- each of the two lines is a plain one
  have hshown : ∀ console : Console, console.Verbatim →
      (run ["-m", "a\nb.txt", "d6"] lineFeedFile (.ofScript #[0])).outOn console
        = "Error: a\nb.txt, line 1: Macro 'adv' has no rolls.\n" := by
    intro console hconsole
    rw [Transcript.outOn_echoing hprinted hechoed]
    refine hconsole.shown_lines ["Error: a", "b.txt, line 1: Macro 'adv' has no rolls."] ?_
    refine List.forall_mem_cons.mpr ⟨?_, List.forall_mem_singleton.mpr ?_⟩
    · exact ⟨by simp [isPrintable], by simp⟩
    · exact ⟨by simp [isPrintable], by simp⟩
  refine ⟨by decide +kernel, hechoed, hshown, ?_⟩
  rw [hshown screen verbatim_screen]
  rintro (hempty | ⟨message, hbreak, hmessage⟩)
  · exact absurd hempty (by decide)
  · -- there are two line feeds, and one of them is the end of the line
    have htwo : "Error: a\nb.txt, line 1: Macro 'adv' has no rolls.\n".toList.count '\n' = 2 := by
      decide
    have hone : ("Error: " ++ message ++ "\n").toList.count '\n' = 1 := by
      rw [String.toList_append, String.toList_append, List.count_append, List.count_append,
        List.count_eq_zero.mpr hbreak]
      decide
    rw [← hmessage, htwo] at hone
    cases hone

end Command
end Dice
