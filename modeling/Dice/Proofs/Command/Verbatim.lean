/-
# What a verbatim console shows

A console that shows plain lines as they are (`Console.Verbatim`) shows a report line by line, and
the error of a token word by word, whatever the token is: what is quoted there has its control
characters escaped.

* `Console.Verbatim.shown_line`, `Console.Verbatim.shown_report`: one line, and a report;
* `Notation.plainEnd_message`: **the error of a token is a plain line**, whatever the token is;
* `Transcript.outOn_echoing`: what is seen of a run that hands one text to the console.
-/
import Dice.Command.Transcript
import Dice.Proofs.Notation.Reading
import Dice.Proofs.Report.Lines

namespace Dice

open Text

/-! ## 1. Errors of tokens -/

namespace Notation

/-- What a number in a token can stand for. -/
def components : List String :=
  ["die size", "number of dice", "reroll", keepComponent, "modifier"]

theorem component_of_mem_numeralChecks {component : String} (h : component ∈ components)
    (text : List Char) (digits : Nat) (inRange : Bool) :
    ∀ c ∈ numeralChecks component text digits inRange, c.component ∈ components := by
  simp [numeralChecks, h]

theorem Parts.component_of_mem_checks (p : Parts) : ∀ c ∈ p.checks, c.component ∈ components := by
  have hunsigned : ∀ component ∈ components, ∀ ds, ∀ c ∈ unsignedChecks component ds,
      c.component ∈ components := fun _ h _ => component_of_mem_numeralChecks h _ _ _
  have hnumber : ∀ c ∈ p.numberChecks, c.component ∈ components := by
    unfold numberChecks
    split
    · exact fun _ hc => absurd hc List.not_mem_nil
    · exact hunsigned _ (by simp [components]) p.number
  simp only [checks, List.forall_mem_append, List.forall_mem_cons, forall_mem_elim_iff]
  refine ⟨hunsigned _ (by simp [components]) p.sides, by simp [components], hnumber,
    fun ds _ => hunsigned _ (by simp [components]) ds,
    fun k _ => hunsigned _ (by simp [components]) k.2,
    fun m _ => component_of_mem_numeralChecks (by simp [components]) _ _ _, by simp [components],
    fun _ hc => absurd hc List.not_mem_nil⟩

theorem Reason.printable_suffix (r : Reason) : Printable r.suffix.toList := by
  cases r with
  | tooManyDice =>
    have hmax : (toString maxDice : String) = "1000" := by decide
    simp [suffix, words, hmax, isPrintable]
  | _ => simp [suffix, words, isPrintable]

/-- **The words for the error of a token** are a plain line, which ends in a full stop. -/
theorem plainEnd_message {token : String} {e : Error} (h : parse token = .error e) :
    PlainEnd e.message := by
  have hlast : PlainEnd "." := plainEnd_of_notMem (by simp [isPrintable]) (by simp) (by simp)
  obtain ⟨-, he⟩ | ⟨p, -, -, he⟩ | ⟨p, hp, hs, he⟩ := parse_cases .asciiOnly token
  · rw [he] at h
    cases h
    change PlainEnd ("Could not parse " ++ quote token ++ ".")
    refine hlast.append ?_
    simp [printable_quote, isPrintable]
  · rw [he] at h
    cases h
    change PlainEnd ("No die specified in " ++ quote token ++ ".")
    refine hlast.append ?_
    simp [printable_quote, isPrintable]
  · rw [he] at h
    obtain ⟨c, hc, rfl⟩ := (Parts.toRoll_eq_error_iff hp.1 hs).mp h
    have hcomponents : ∀ component ∈ components, Printable component.toList := by
      simp [components, keepComponent, isPrintable]
    have hcomponent := hcomponents _
      (p.component_of_mem_checks c (List.mem_of_find?_eq_some hc))
    change PlainEnd ("Failed to parse " ++ c.component ++ ": " ++ quote (String.ofList c.text)
      ++ c.reason.suffix ++ ".")
    refine hlast.append ?_
    simp [hcomponent, printable_quote, Reason.printable_suffix, isPrintable]

end Notation

/-! ## 2. Consoles -/

namespace Command

variable {console : Console}

theorem Console.Verbatim.shown_line (h : console.Verbatim) {line : String}
    (hline : PlainLine line) : console.shown line = line ++ "\n" := by
  have hshown := h.shown_lines [line] (List.forall_mem_singleton.mpr hline)
  rwa [String.intercalate_singleton] at hshown

/-- **A report is shown line by line.** -/
theorem Console.Verbatim.shown_report (h : console.Verbatim) {rs : List Roll} {os : List Outcome}
    {text : String} (htext : Report.text rs os = .ok text) :
    console.shown text = text ++ "\n" := by
  obtain ⟨ls, hls, -, rfl⟩ := Report.text_eq_ok_iff.mp htext
  refine h.shown_lines _ (List.forall_mem_append.mpr ⟨fun l hl => ?_, fun l hl => ?_⟩)
  · exact (Report.plainEnd_rollLines hls l hl).plainLine
  · exact (Report.plainEnd_totalLine? os l hl).plainLine

theorem plainLine_errorText {message : String} (h : PlainEnd message) :
    PlainLine (errorText message) :=
  (h.append (by simp [isPrintable])).plainLine

/-- What is seen of a run that hands one text to the console. -/
theorem Transcript.outOn_echoing {t : Transcript} {text : String} (hprinted : t.printed = "")
    (hechoed : t.echoed = [text]) (console : Console) : t.outOn console = console.shown text := by
  simp [outOn, Console.display, hprinted, hechoed]

end Command
end Dice
