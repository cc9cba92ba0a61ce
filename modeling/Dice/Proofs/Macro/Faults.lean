/-
# The first faulty line

A load goes through its lines from above and stops at the first one that is at fault.  A line may
use what the lines above it define, so whether it is at fault is a matter of all of them.

* `Macros.resolve_eq_error_iff`: tokens fail with the error of the first one that is neither the
  name of a macro nor notation;
* `Macros.addLine_eq_error_iff`: a line fails exactly if it is at fault (`Faulty`), and
  `exists_faulty_iff` says which lines are;
* `Macros.addLines_eq_error_iff`: lines fail exactly if one of them is at fault with what those
  above it have come to, and then with its number and its fault;
* `Session.perform_extend_first_bad_line`: **the error of a load that fails names its first bad
  line.**
-/
import Dice.Proofs.Macro.Loading

namespace Dice

/-! ## 1. The first bad token -/

namespace Macros

variable {m : Macros} {token : String} {tokens : List String} {e : Notation.Error}

/-- A token stands for rolls: it is the name of a macro, or notation. -/
def Stands (m : Macros) (token : String) : Prop :=
  m.contains token = true ∨ ∃ r, Notation.parse token = .ok r

/-- **The first token that stands for nothing**, and what is wrong with it. -/
def FirstBad (m : Macros) (tokens : List String) (e : Notation.Error) : Prop :=
  ∃ before token after, tokens = before ++ token :: after ∧ (∀ other ∈ before, m.Stands other) ∧
    m.contains token = false ∧ Notation.parse token = .error e

theorem expand_eq_error_iff :
    (m.expand token).result = .error e ↔
      m.contains token = false ∧ Notation.parse token = .error e := by
  unfold expand contains Notation.parseLogged
  cases m.find? token with
  | some rolls => simp
  | none => cases Notation.parse token <;> simp [Except.map]

theorem exists_expand_iff : (∃ rolls, (m.expand token).result = .ok rolls) ↔ m.Stands token := by
  unfold expand Stands contains Notation.parseLogged
  cases m.find? token with
  | some rolls => simp
  | none => cases Notation.parse token <;> simp [Except.map]

theorem not_firstBad_nil : ¬m.FirstBad [] e := by
  rintro ⟨before, token, after, htokens, -⟩
  simp at htokens

theorem firstBad_cons_iff :
    m.FirstBad (token :: tokens) e ↔
      (m.contains token = false ∧ Notation.parse token = .error e) ∨
        m.Stands token ∧ m.FirstBad tokens e := by
  constructor
  · rintro ⟨before, bad, after, htokens, hbefore, hbad⟩
    cases before with
    | nil =>
      cases htokens
      exact Or.inl hbad
    | cons first before =>
      cases htokens
      obtain ⟨hfirst, hothers⟩ := List.forall_mem_cons.mp hbefore
      exact Or.inr ⟨hfirst, before, bad, after, rfl, hothers, hbad⟩
  · rintro (hbad | ⟨hfirst, before, bad, after, rfl, hothers, hbad⟩)
    · exact ⟨[], token, tokens, rfl, fun _ h => absurd h List.not_mem_nil, hbad⟩
    · exact ⟨token :: before, bad, after, rfl, List.forall_mem_cons.mpr ⟨hfirst, hothers⟩, hbad⟩

/-- **Tokens fail with the error of the first bad one**, whatever comes after it. -/
theorem resolve_eq_error_iff : (m.resolve tokens).result = .error e ↔ m.FirstBad tokens e := by
  induction tokens with
  | nil => exact ⟨nofun, fun h => absurd h not_firstBad_nil⟩
  | cons token tokens ih =>
    rw [firstBad_cons_iff, ← expand_eq_error_iff, ← exists_expand_iff, ← ih, result_resolve_cons]
    cases (m.expand token).result with
    | error e' => simp [bind, Except.bind]
    | ok part =>
      cases (m.resolve tokens).result with
      | error e' => simp [bind, Except.bind]
      | ok others => simp [bind, Except.bind]

/-- Tokens of which none is bad stand for rolls. -/
theorem exists_resolve (h : ∀ token ∈ tokens, m.Stands token) :
    ∃ rolls, (m.resolve tokens).result = .ok rolls := by
  cases hresult : (m.resolve tokens).result with
  | ok rolls => exact ⟨rolls, rfl⟩
  | error e =>
    obtain ⟨before, token, after, rfl, -, hname, hparse⟩ := resolve_eq_error_iff.mp hresult
    rcases h token (by simp) with hstands | ⟨r, hr⟩
    · rw [hname] at hstands
      cases hstands
    · rw [hparse] at hr
      cases hr

/-- A token that does not stand for rolls is no name, and there is something wrong with it. -/
theorem not_stands_iff :
    ¬m.Stands token ↔ m.contains token = false ∧ ∃ e, Notation.parse token = .error e := by
  unfold Stands
  cases Notation.parse token <;> simp

/-- There is a first bad token as soon as there is a bad one. -/
theorem exists_firstBad_iff :
    (∃ e, m.FirstBad tokens e) ↔ ∃ token ∈ tokens, ¬m.Stands token := by
  induction tokens with
  | nil => simp [not_firstBad_nil]
  | cons token tokens ih =>
    simp only [firstBad_cons_iff, exists_or, exists_and_left, ih, List.mem_cons,
      exists_eq_or_imp, ← not_stands_iff]
    by_cases h : m.Stands token
    · simp [h]
    · simp [h]

end Macros

/-! ## 2. Lines at fault -/

namespace DefinitionLine

variable {m : Macros} {line : String} {fault : Fault}

/-- **A line at fault**, where some macros are known.  Its name stands alone; or its tokens have a
first one that stands for nothing, and the error of that one is the fault. -/
inductive Faulty (m : Macros) (line : String) : Fault → Prop
  | noRolls {name : String} : Defines line name [] → Faulty m line (.noRolls name)
  | badToken {name : String} {tokens : List String} {e : Notation.Error} :
      Defines line name tokens → m.FirstBad tokens e → Faulty m line (.badToken e)

/-- **A bad line**, where some macros are known.  Without the white space at its ends it is not
empty and does not start with `#`; and it is a single word, or one of its words after the first is
neither the name of a macro nor notation. -/
def IsBad (m : Macros) (line : String) : Prop :=
  Text.strip line.toList ≠ [] ∧ (Text.strip line.toList).head? ≠ some '#' ∧
    ∃ name tokens, Defines line name tokens ∧ (tokens = [] ∨ ∃ token ∈ tokens, ¬m.Stands token)

/-- A line with a word in it is not blank. -/
theorem Defines.strip_ne_nil {name : String} {tokens : List String}
    (h : Defines line name tokens) : Text.strip line.toList ≠ [] := by
  intro hnil
  have hwords := h.words
  rw [hnil] at hwords
  cases hwords

/-- The bad lines are those that are at fault. -/
theorem exists_faulty_iff : (∃ fault, Faulty m line fault) ↔ IsBad m line := by
  constructor
  · rintro ⟨fault, hfaulty⟩
    cases hfaulty with
    | noRolls hdef => exact ⟨hdef.strip_ne_nil, hdef.noComment, _, _, hdef, Or.inl rfl⟩
    | badToken hdef hbad =>
      have hnot := Macros.exists_firstBad_iff.mp ⟨_, hbad⟩
      exact ⟨hdef.strip_ne_nil, hdef.noComment, _, _, hdef, Or.inr hnot⟩
  · rintro ⟨-, -, name, tokens, hdef, hbad⟩
    rcases hbad with rfl | hnot
    · exact ⟨_, Faulty.noRolls hdef⟩
    · obtain ⟨e, he⟩ := Macros.exists_firstBad_iff.mpr hnot
      exact ⟨_, Faulty.badToken hdef he⟩

/-- What a fault goes back to: nothing if the name stands alone, and otherwise the error of the
first bad token. -/
theorem Faulty.cause {name : String} {tokens : List String} (h : Faulty m line fault)
    (hdef : Defines line name tokens) :
    (tokens = [] ∧ fault = .noRolls name) ∨
      ∃ e, fault.cause? = some e ∧ fault.message = e.message ∧ m.FirstBad tokens e := by
  cases h with
  | noRolls hdef' =>
    obtain ⟨rfl, rfl⟩ := hdef.unique hdef'
    exact Or.inl ⟨rfl, rfl⟩
  | badToken hdef' hbad =>
    obtain ⟨rfl, rfl⟩ := hdef.unique hdef'
    exact Or.inr ⟨_, rfl, rfl, hbad⟩

end DefinitionLine

namespace Macros

open DefinitionLine (Faulty)

variable {m : Macros} {source line : String}

/-- **One line** fails exactly if it is at fault. -/
theorem addLine_eq_error_iff {fault : Fault} :
    (m.addLine source line).result = .error fault ↔ Faulty m line fault := by
  constructor
  · intro h
    have hadded := added_addLine m source line
    generalize m.addLine source line = added at h hadded
    cases hadded with
    | silent hread => cases h
    | noRolls hdef =>
      cases h
      exact Faulty.noRolls hdef
    | badToken hdef hne hresolve =>
      cases h
      exact Faulty.badToken hdef (resolve_eq_error_iff.mp (by rw [hresolve]))
    | defined hdef hne hresolve => cases h
  · intro h
    cases h with
    | noRolls hdef => simp [addLine, DefinitionLine.read_eq_definition_iff.mpr hdef, define]
    | @badToken name tokens e hdef hbad =>
      have hne : tokens.isEmpty = false := by
        obtain ⟨before, token, after, rfl, -⟩ := hbad
        simp
      simp [addLine, DefinitionLine.read_eq_definition_iff.mpr hdef, define, hne,
        resolve_eq_error_iff.mpr hbad]

/-- **Many lines** fail exactly if one of them is at fault with what the lines above it have come
to.  Its number is told with its fault. -/
theorem addLines_eq_error_iff {d : DefinitionError} :
    ∀ {lines : List String} {k : Nat} {m : Macros},
      (addLines source k m lines).result = .error d ↔
        ∃ before line after u fault, lines = before ++ line :: after ∧
          (addLines source k m before).result = .ok u ∧ Faulty u line fault ∧
          d = ⟨source, k + before.length, fault⟩
  | [], k, m => by
    constructor
    · intro h
      cases h
    · rintro ⟨before, line, after, u, fault, hlines, -⟩
      simp at hlines
  | l :: ls, k, m => by
    constructor
    · intro h
      rw [addLines] at h
      dsimp only at h
      cases hfirst : (m.addLine source l).result with
      | error fault =>
        rw [hfirst] at h
        cases h
        exact ⟨[], l, ls, m, fault, rfl, rfl, addLine_eq_error_iff.mp hfirst, rfl⟩
      | ok m' =>
        rw [hfirst] at h
        obtain ⟨before, line, after, u, fault, rfl, hu, hfaulty, rfl⟩ :=
          addLines_eq_error_iff.mp h
        refine ⟨l :: before, line, after, u, fault, rfl,
          addLines_cons_eq_ok_iff.mpr ⟨m', hfirst, hu⟩, hfaulty, ?_⟩
        rw [List.length_cons, Nat.add_right_comm, Nat.add_assoc]
    · rintro ⟨before, line, after, u, fault, hlines, hu, hfaulty, rfl⟩
      rw [hlines, addLines_append]
      simp only [addMore, hu, addLines, addLine_eq_error_iff.mpr hfaulty]

end Macros

/-! ## 3. Loads -/

namespace Session

open DefinitionLine (Defines Faulty IsBad)

/-- **Line `k` is the first bad one**, as the answers to loads tell: the lines above it can be
loaded, and it is bad in the table that they make. -/
def FirstBadLine (answer : List String → Answer) (lines : List String) (k : Nat) (line : String)
    (u : Macros.Table) : Prop :=
  ∃ before after, lines = before ++ line :: after ∧ k = before.length + 1 ∧
    answer before = .extended none u ∧ IsBad u.macros line

section Load

variable {s : Session} {number : Nat} {t : Macros.Table} (files : Files) {source : String}
  {lines : List String}

/-- A load into a table that is not frozen answers with a table exactly if its lines can be added
to the macros. -/
theorem perform_extend_eq_iff_addLines (hs : s.Reachable) (ht : s.table? number = some t)
    (hfrozen : t.frozen = false) {u : Macros.Table} :
    (s.perform files (.extend number source lines)).2.result = .extended none u ↔
      ∃ m, (Macros.addLines source 1 t.macros lines).result = .ok m ∧
        u = { t with macros := m } := by
  rw [perform_extend_eq_iff files source lines hs ht, Macros.Table.extend_eq_ok_iff,
    and_iff_right hfrozen]

/-- A load into a table that is not frozen tells an error exactly if its lines have it. -/
theorem tells_some_iff_addLines (hs : s.Reachable) (ht : s.table? number = some t)
    (hfrozen : t.frozen = false) {e : LoadError} :
    (s.perform files (.extend number source lines)).2.result.Tells (some e) ↔
      ∃ d, e = .definition d ∧ (Macros.addLines source 1 t.macros lines).result = .error d := by
  rw [perform_extend_snd files source lines hs ht, Answer.tells_extended_iff,
    Macros.Table.extend_of_not_frozen hfrozen]
  cases (Macros.addLines source 1 t.macros lines).result with
  | ok m =>
    constructor
    · intro h
      cases h
    · rintro ⟨d, -, h⟩
      cases h
  | error d =>
    constructor
    · intro h
      cases h
      exact ⟨d, rfl, rfl⟩
    · rintro ⟨d', rfl, h⟩
      cases h
      rfl

/-- The first bad line is at fault, and its fault is what all lines fail with. -/
theorem FirstBadLine.exists_fault (hs : s.Reachable) (ht : s.table? number = some t)
    (hfrozen : t.frozen = false) {k : Nat} {line : String} {u : Macros.Table}
    (h : FirstBadLine (fun ls => (s.perform files (.extend number source ls)).2.result) lines k
      line u) :
    ∃ fault, Faulty u.macros line fault ∧
      (Macros.addLines source 1 t.macros lines).result = .error ⟨source, k, fault⟩ := by
  obtain ⟨before, after, hlines, rfl, hbefore, hbad⟩ := h
  obtain ⟨m, hm, rfl⟩ := (perform_extend_eq_iff_addLines files hs ht hfrozen).mp hbefore
  obtain ⟨fault, hfaulty⟩ := DefinitionLine.exists_faulty_iff.mpr hbad
  refine ⟨fault, hfaulty, Macros.addLines_eq_error_iff.mpr ?_⟩
  exact ⟨before, line, after, m, fault, hlines, hm, hfaulty, by rw [Nat.add_comm]⟩

/-- Lines that fail have a first bad one, which is named. -/
theorem exists_firstBadLine (hs : s.Reachable) (ht : s.table? number = some t)
    (hfrozen : t.frozen = false) {d : DefinitionError}
    (hd : (Macros.addLines source 1 t.macros lines).result = .error d) :
    d.source = source ∧ ∃ line u,
      FirstBadLine (fun ls => (s.perform files (.extend number source ls)).2.result) lines
        d.lineNumber line u := by
  obtain ⟨before, line, after, m, fault, hlines, hm, hfaulty, rfl⟩ :=
    Macros.addLines_eq_error_iff.mp hd
  refine ⟨rfl, line, { t with macros := m }, before, after, hlines, Nat.add_comm _ _, ?_, ?_⟩
  · exact (perform_extend_eq_iff_addLines files hs ht hfrozen).mpr ⟨m, hm, rfl⟩
  · exact DefinitionLine.exists_faulty_iff.mp ⟨fault, hfaulty⟩

end Load

/-- **The error of a load that fails names its first bad line.**  Lines are to be loaded into a
table that is not frozen.

Line `k` is named exactly if the lines above it can be loaded, and it is bad in the table that they
make: it is no comment and not blank, and it is a single word, or it has a token that is neither a
name of that table nor notation.  A single word has no cause.  For any other line the cause is the
error of its first such token, and the message ends with the message of that error.  There are no
other errors, and if no line is bad there is none. -/
theorem perform_extend_first_bad_line {s : Session} (hs : s.Reachable) {number : Nat}
    {t : Macros.Table} (ht : s.table? number = some t) (hfrozen : t.frozen = false) (files : Files)
    (source : String) (lines : List String) :
    let answer := fun ls => (s.perform files (.extend number source ls)).2.result
    (∀ k, (∃ fault, (answer lines).Tells (some (.definition ⟨source, k, fault⟩))) ↔
      ∃ line u, FirstBadLine answer lines k line u) ∧
    (∀ k line u fault, FirstBadLine answer lines k line u →
      (answer lines).Tells (some (.definition ⟨source, k, fault⟩)) →
      ∃ name tokens, Defines line name tokens ∧
        (tokens = [] → fault.cause? = none) ∧
        (tokens ≠ [] → ∃ e, fault.cause? = some e ∧ u.macros.FirstBad tokens e ∧
          DefinitionError.message ⟨source, k, fault⟩
            = source ++ ", line " ++ toString k ++ ": " ++ e.message)) ∧
    (∀ e, (answer lines).Tells (some e) → ∃ k fault, e = .definition ⟨source, k, fault⟩) ∧
    ((∀ k line u, ¬FirstBadLine answer lines k line u) → ∃ u, answer lines = .extended none u) := by
  intro answer
  have htold : ∀ e, (answer lines).Tells (some e) ↔
      ∃ d, e = .definition d ∧ (Macros.addLines source 1 t.macros lines).result = .error d :=
    fun e => tells_some_iff_addLines files hs ht hfrozen
  refine ⟨fun k => ⟨?_, ?_⟩, ?_, ?_, ?_⟩
  · rintro ⟨fault, hfault⟩
    obtain ⟨d, hd, herror⟩ := (htold _).mp hfault
    cases hd
    exact (exists_firstBadLine files hs ht hfrozen herror).2
  · rintro ⟨line, u, hbad⟩
    obtain ⟨fault, -, herror⟩ := hbad.exists_fault files hs ht hfrozen
    exact ⟨fault, (htold _).mpr ⟨_, rfl, herror⟩⟩
  · intro k line u fault hbad hfault
    obtain ⟨fault', hfaulty, herror⟩ := hbad.exists_fault files hs ht hfrozen
    obtain ⟨d, hd, herror'⟩ := (htold _).mp hfault
    cases hd
    rw [herror] at herror'
    cases herror'
    obtain ⟨-, -, -, -, -, -, -, name, tokens, hdef, -⟩ := hbad
    refine ⟨name, tokens, hdef, fun htokens => ?_, fun htokens => ?_⟩
    · rcases hfaulty.cause hdef with ⟨-, rfl⟩ | ⟨e, -, -, hfirst⟩
      · rfl
      · rw [htokens] at hfirst
        exact absurd hfirst Macros.not_firstBad_nil
    · rcases hfaulty.cause hdef with ⟨hnil, -⟩ | ⟨e, hcause, hmessage, hfirst⟩
      · exact absurd hnil htokens
      · exact ⟨e, hcause, hfirst, by rw [DefinitionError.message, hmessage]⟩
  · intro e he
    obtain ⟨d, rfl, herror⟩ := (htold e).mp he
    obtain ⟨rfl, -⟩ := exists_firstBadLine files hs ht hfrozen herror
    exact ⟨d.lineNumber, d.fault, rfl⟩
  · intro hnone
    cases hresult : (Macros.addLines source 1 t.macros lines).result with
    | ok m =>
      exact ⟨{ t with macros := m },
        (perform_extend_eq_iff_addLines files hs ht hfrozen).mpr ⟨m, hresult, rfl⟩⟩
    | error d =>
      obtain ⟨-, line, u, hbad⟩ := exists_firstBadLine files hs ht hfrozen hresult
      exact absurd hbad (hnone d.lineNumber line u)

/-- Lines of which the fourth uses the third, and has two bad tokens. -/
def brokenRules : List String :=
  ["# to hit", "", "hit d20+5", " crit hit adv 4d0 x2", "lonely"]

/-- The bad line is the fourth, and the first of its bad tokens is told. -/
theorem perform_extend_first_bad_line_zero_sides :
    let s := (start.perform Folder.empty.read (.new coreMacros)).1
    let answer := fun ls => (s.perform Folder.empty.read (.extend 0 "<macros>" ls)).2.result
    s.table? 0 = some ⟨coreMacros, false⟩ ∧
    (answer brokenRules).Tells (some (.definition
      ⟨"<macros>", 4, .badToken (.badNumber "die size" "0" .zeroSides)⟩)) ∧
    ∃ line u, FirstBadLine answer brokenRules 4 line u := by
  intro s answer
  have hs : s.Reachable := Reachable.start.perform Folder.empty.read (.new coreMacros)
  have ht : s.table? 0 = some ⟨coreMacros, false⟩ := rfl
  have htold : (answer brokenRules).Tells (some (.definition
      ⟨"<macros>", 4, .badToken (.badNumber "die size" "0" .zeroSides)⟩)) := ⟨_, rfl⟩
  obtain ⟨hline, -⟩ :=
    perform_extend_first_bad_line hs ht rfl Folder.empty.read "<macros>" brokenRules
  exact ⟨ht, htold, (hline 4).mp ⟨_, htold⟩⟩

end Session
end Dice
