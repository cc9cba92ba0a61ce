/-
# What lines of definitions add up to

Lines are added one after the other, each to the macros as those above it have left them.

* `DefinitionLine.Defines`: which name a line gives to which tokens, read off its words.  All other
  lines are blank or comments (`DefinitionLine.SaysNothing`);
* `resolve_eq_ok_iff`: several tokens stand for what they stand for one by one, put together;
* `added_addLine`: all that one line can come to (`Added`);
* `addLines_append`: two lists of lines come to what the second makes of what the first came to;
* `addLines_add`: the number of the first line moves the number of the faulty one, and nothing else;
* `find?_addLines_of_not_definedBy`, `contains_addLines`: what a list of lines can do to a name.
-/
import Dice.Macro.Table
import Dice.Proofs.Text.Words

namespace Dice

/-! ## 1. Lines that define -/

/-- **A line defines a name.**  Without the white space at its ends the line does not start with
`#`; its first word is the name, and the others are the tokens. -/
structure DefinitionLine.Defines (line name : String) (tokens : List String) : Prop where
  noComment : (Text.strip line.toList).head? ≠ some '#'
  words : Text.words (Text.strip line.toList) = name.toList :: tokens.map String.toList

theorem DefinitionLine.read_eq_definition_iff {line name : String} {tokens : List String} :
    read line = definition name tokens ↔ Defines line name tokens := by
  unfold read
  dsimp only
  constructor
  · intro h
    split at h
    · cases h
    · rename_i hcomment
      split at h
      · cases h
      · rename_i w ws hwords
        cases h
        refine ⟨hcomment, ?_⟩
        simp [hwords, Function.comp_def]
  · rintro ⟨hcomment, hwords⟩
    rw [if_neg hcomment, hwords]
    simp [Function.comp_def]

/-- **A line says nothing.**  Without the white space at its ends it is empty, or it starts with
`#`. -/
def DefinitionLine.SaysNothing (line : String) : Prop :=
  Text.strip line.toList = [] ∨ (Text.strip line.toList).head? = some '#'

theorem DefinitionLine.read_eq_silent_iff {line : String} :
    read line = silent ↔ SaysNothing line := by
  unfold read SaysNothing
  dsimp only
  by_cases hcomment : (Text.strip line.toList).head? = some '#'
  · simp [hcomment]
  · rw [if_neg hcomment, ← Text.words_strip_eq_nil_iff]
    cases Text.words (Text.strip line.toList) with
    | nil => simp
    | cons name tokens => simp [hcomment]

/-- A line defines one name at most, and gives it one list of tokens. -/
theorem DefinitionLine.Defines.unique {line name name' : String} {tokens tokens' : List String}
    (h : Defines line name tokens) (h' : Defines line name' tokens') :
    name = name' ∧ tokens = tokens' := by
  have heq := read_eq_definition_iff.mpr h
  rw [read_eq_definition_iff.mpr h'] at heq
  cases heq
  exact ⟨rfl, rfl⟩

/-- An error so many lines further down. -/
def DefinitionError.later (n : Nat) (e : DefinitionError) : DefinitionError :=
  { e with lineNumber := n + e.lineNumber }

namespace Macros

/-- Some line of a list defines a name. -/
def DefinedBy (lines : List String) (name : String) : Prop :=
  ∃ line ∈ lines, ∃ tokens, DefinitionLine.Defines line name tokens

theorem definedBy_cons_iff {l : String} {ls : List String} {name : String} :
    DefinedBy (l :: ls) name ↔
      (∃ tokens, DefinitionLine.Defines l name tokens) ∨ DefinedBy ls name := by
  simp [DefinedBy]

/-- **The last line that defines a name** gives it some tokens, and stands below some lines. -/
def LastDefinition (lines : List String) (name : String) (before tokens : List String) : Prop :=
  ∃ line after, lines = before ++ line :: after ∧
    DefinitionLine.Defines line name tokens ∧ ¬DefinedBy after name

theorem DefinedBy.exists_last {name : String} :
    ∀ {ls : List String}, DefinedBy ls name → ∃ before tokens, LastDefinition ls name before tokens
  | [], h => by simp [DefinedBy] at h
  | l :: ls, h => by
    by_cases hls : DefinedBy ls name
    · obtain ⟨before, tokens, line, after, rfl, hline, hafter⟩ := hls.exists_last
      exact ⟨l :: before, tokens, line, after, rfl, hline, hafter⟩
    · rcases definedBy_cons_iff.mp h with ⟨tokens, hl⟩ | h
      · exact ⟨[], tokens, l, ls, rfl, hl, hls⟩
      · exact absurd h hls

/-! ## 2. Names and tokens -/

theorem mem_names_iff (m : Macros) (name : String) : name ∈ m.names ↔ m.contains name = true := by
  have h : ∀ es : List MacroEntry,
      name ∈ es.map Prod.fst ↔ (rollsNamed? name es).isSome = true := by
    intro es
    induction es with
    | nil => simp [rollsNamed?]
    | cons e es ih =>
      by_cases hn : name = e.1
      · simp [rollsNamed?, hn]
      · rw [rollsNamed?, if_neg hn, ← ih]
        simp [hn]
  exact h m.entries

/-- What a token stands for depends on what the macros say of that token alone. -/
theorem expand_congr {m m' : Macros} {token : String} (h : m.find? token = m'.find? token) :
    m.expand token = m'.expand token := by
  unfold expand
  rw [h]

theorem result_resolve_cons (m : Macros) (token : String) (tokens : List String) :
    (m.resolve (token :: tokens)).result = (do
      let part ← (m.expand token).result
      let others ← (m.resolve tokens).result
      .ok (part ++ others)) := by
  simp only [resolve]
  cases (m.expand token).result with
  | error e => rfl
  | ok part =>
    cases (m.resolve tokens).result with
    | error e => simp [Except.map, bind, Except.bind]
    | ok others => simp [Except.map, bind, Except.bind]

theorem resolve_cons_eq_ok_iff {m : Macros} {token : String} {tokens : List String}
    {rolls : List Roll} : (m.resolve (token :: tokens)).result = .ok rolls ↔
      ∃ part others, (m.expand token).result = .ok part ∧
        (m.resolve tokens).result = .ok others ∧ rolls = part ++ others := by
  rw [result_resolve_cons]
  cases (m.expand token).result with
  | error e => simp [bind, Except.bind]
  | ok part =>
    cases (m.resolve tokens).result with
    | error e => simp [bind, Except.bind]
    | ok others => simp [bind, Except.bind, eq_comm]

/-- **Several tokens stand for what they stand for one by one, put together.** -/
theorem resolve_eq_ok_iff {m : Macros} :
    ∀ {tokens : List String} {rolls : List Roll}, (m.resolve tokens).result = .ok rolls ↔
      ∃ parts : List (List Roll),
        tokens.map (fun token => (m.expand token).result) = parts.map .ok ∧ rolls = parts.flatten
  | [], rolls => by
    constructor
    · intro h
      cases h
      exact ⟨[], rfl, rfl⟩
    · rintro ⟨parts, hparts, rfl⟩
      rw [List.map_eq_nil_iff.mp hparts.symm]
      rfl
  | token :: tokens, rolls => by
    rw [resolve_cons_eq_ok_iff]
    constructor
    · rintro ⟨part, others, hpart, hothers, rfl⟩
      obtain ⟨parts, hparts, rfl⟩ := resolve_eq_ok_iff.mp hothers
      refine ⟨part :: parts, ?_, rfl⟩
      rw [List.map_cons, List.map_cons, hpart, hparts]
    · rintro ⟨parts, hparts, rfl⟩
      obtain ⟨part, parts, rfl, hpart, hrest⟩ := List.map_eq_cons_iff.mp hparts.symm
      exact ⟨part, parts.flatten, hpart.symm, resolve_eq_ok_iff.mpr ⟨parts, hrest.symm, rfl⟩, rfl⟩

/-! ## 3. One line -/

/-- **All that a line can come to.**  It says nothing; or it names what has no tokens; or one of its
tokens stands for nothing; or the name gets what the tokens stand for. -/
inductive Added (m : Macros) (source line : String) : Logged (Except Fault Macros) → Prop
  | silent : DefinitionLine.read line = .silent → Added m source line ⟨[], .ok m⟩
  | noRolls {name : String} :
      DefinitionLine.Defines line name [] → Added m source line ⟨[], .error (.noRolls name)⟩
  | badToken {name : String} {tokens : List String} {records : List Record} {e : Notation.Error} :
      DefinitionLine.Defines line name tokens → tokens ≠ [] →
      m.resolve tokens = ⟨records, .error e⟩ →
      Added m source line ⟨records, .error (.badToken e)⟩
  | defined {name : String} {tokens : List String} {records : List Record} {rolls : List Roll} :
      DefinitionLine.Defines line name tokens → tokens ≠ [] →
      m.resolve tokens = ⟨records, .ok rolls⟩ →
      Added m source line
        ⟨records ++ if m.contains name then [redefiningRecord source name] else [],
          .ok (m.insert name rolls)⟩

theorem added_addLine (m : Macros) (source line : String) :
    Added m source line (m.addLine source line) := by
  unfold addLine
  cases hread : DefinitionLine.read line with
  | silent => exact Added.silent hread
  | definition name tokens =>
    have hdef := DefinitionLine.read_eq_definition_iff.mp hread
    cases tokens with
    | nil => exact Added.noRolls hdef
    | cons token tokens =>
      simp only [define, List.isEmpty_cons, Bool.false_eq_true, if_false]
      cases hresolve : m.resolve (token :: tokens) with
      | mk records result =>
        cases result with
        | error e => exact Added.badToken hdef (List.cons_ne_nil _ _) hresolve
        | ok rolls => exact Added.defined hdef (List.cons_ne_nil _ _) hresolve

/-- A line that counts leaves the macros as they are, or gives one name its rolls. -/
theorem addLine_eq_ok {m m' : Macros} {source line : String}
    (h : (m.addLine source line).result = .ok m') :
    m' = m ∧ (∀ name tokens, ¬DefinitionLine.Defines line name tokens) ∨
    ∃ name tokens rolls, DefinitionLine.Defines line name tokens ∧
      (m.resolve tokens).result = .ok rolls ∧ m' = m.insert name rolls := by
  have hadded := added_addLine m source line
  generalize m.addLine source line = added at h hadded
  cases hadded with
  | silent hread =>
    cases h
    refine Or.inl ⟨rfl, fun name tokens hdef => ?_⟩
    rw [DefinitionLine.read_eq_definition_iff.mpr hdef] at hread
    cases hread
  | noRolls hdef => cases h
  | badToken hdef hne hresolve => cases h
  | @defined name tokens records rolls hdef hne hresolve =>
    cases h
    exact Or.inr ⟨name, tokens, rolls, hdef, by rw [hresolve], rfl⟩

theorem find?_addLine_of_not_defines {m m' : Macros} {source line name : String}
    (h : (m.addLine source line).result = .ok m')
    (hn : ∀ tokens, ¬DefinitionLine.Defines line name tokens) : m'.find? name = m.find? name := by
  rcases addLine_eq_ok h with ⟨rfl, -⟩ | ⟨other, tokens, rolls, hdef, -, rfl⟩
  · rfl
  · rw [find?_insert, if_neg]
    rintro rfl
    exact hn tokens hdef

theorem find?_addLine_of_defines {m m' : Macros} {source line name : String}
    {tokens : List String} (h : (m.addLine source line).result = .ok m')
    (hdef : DefinitionLine.Defines line name tokens) :
    ∃ rolls, (m.resolve tokens).result = .ok rolls ∧ m'.find? name = some rolls := by
  rcases addLine_eq_ok h with ⟨-, hn⟩ | ⟨other, tokens', rolls, hdef', hresolve, rfl⟩
  · exact absurd hdef (hn name tokens)
  · obtain ⟨rfl, rfl⟩ := hdef.unique hdef'
    exact ⟨rolls, hresolve, by rw [find?_insert, if_pos rfl]⟩

/-! ## 4. Several lines -/

section Lines

variable {source : String}

/-- What more lines make of what some lines came to. -/
def addMore (source : String) (lineNumber : Nat) (added : Logged (Except DefinitionError Macros))
    (lines : List String) : Logged (Except DefinitionError Macros) :=
  match added.result with
  | .error e => ⟨added.records, .error e⟩
  | .ok m =>
    let others := addLines source lineNumber m lines
    ⟨added.records ++ others.records, others.result⟩

/-- **Two lists of lines**, one after the other. -/
theorem addLines_append (bs : List String) :
    ∀ (as : List String) (k : Nat) (m : Macros),
      addLines source k m (as ++ bs)
        = addMore source (k + as.length) (addLines source k m as) bs
  | [], k, m => by simp [addLines, addMore]
  | a :: as, k, m => by
    simp only [List.cons_append, addLines]
    cases (m.addLine source a).result with
    | error fault => rfl
    | ok m' =>
      dsimp only
      rw [addLines_append bs as (k + 1) m']
      have hlength : k + 1 + as.length = k + (a :: as).length := by
        simp only [List.length_cons]
        omega
      rw [hlength]
      unfold addMore
      cases (addLines source (k + 1) m' as).result with
      | error e => rfl
      | ok m'' => simp only [List.append_assoc]

/-- **The number of the first line** moves the number of the faulty one, and nothing else. -/
theorem addLines_add (n : Nat) :
    ∀ (ls : List String) (k : Nat) (m : Macros),
      addLines source (n + k) m ls
        = ⟨(addLines source k m ls).records, (addLines source k m ls).result.mapError (.later n)⟩
  | [], _, _ => rfl
  | l :: ls, k, m => by
    simp only [addLines]
    cases (m.addLine source l).result with
    | error fault => rfl
    | ok m' =>
      dsimp only
      rw [Nat.add_assoc, addLines_add n ls (k + 1) m']

theorem addLines_append_eq_ok_iff {as bs : List String} {k : Nat} {m m' : Macros} :
    (addLines source k m (as ++ bs)).result = .ok m' ↔
      ∃ u, (addLines source k m as).result = .ok u ∧
        (addLines source (k + as.length) u bs).result = .ok m' := by
  rw [addLines_append]
  unfold addMore
  cases (addLines source k m as).result with
  | error e => simp
  | ok u => simp

theorem addLines_cons_eq_ok_iff {l : String} {ls : List String} {k : Nat} {m m' : Macros} :
    (addLines source k m (l :: ls)).result = .ok m' ↔
      ∃ u, (m.addLine source l).result = .ok u ∧
        (addLines source (k + 1) u ls).result = .ok m' := by
  simp only [addLines]
  cases (m.addLine source l).result with
  | error fault => simp
  | ok u => simp

/-- **A name that no line defines** keeps its rolls. -/
theorem find?_addLines_of_not_definedBy {name : String} :
    ∀ {ls : List String} {k : Nat} {m m' : Macros},
      (addLines source k m ls).result = .ok m' → ¬DefinedBy ls name → m'.find? name = m.find? name
  | [], _, _, _, h, _ => by
    cases h
    rfl
  | l :: ls, k, m, m', h, hn => by
    obtain ⟨u, hu, hm'⟩ := addLines_cons_eq_ok_iff.mp h
    rw [definedBy_cons_iff, not_or, not_exists] at hn
    obtain ⟨hl, hls⟩ := hn
    rw [find?_addLines_of_not_definedBy hm' hls, find?_addLine_of_not_defines hu hl]

/-- **A name gets what the last line that defines it gives it.**  That line reads its tokens with
the macros as the lines above it have left them. -/
theorem find?_addLines_of_last {lines before tokens : List String} {name : String} {k : Nat}
    {m m' : Macros} (h : (addLines source k m lines).result = .ok m')
    (hlast : LastDefinition lines name before tokens) :
    ∃ u rolls, (addLines source k m before).result = .ok u ∧
      (u.resolve tokens).result = .ok rolls ∧ m'.find? name = some rolls := by
  obtain ⟨line, after, rfl, hline, hafter⟩ := hlast
  obtain ⟨u, hu, hrest⟩ := addLines_append_eq_ok_iff.mp h
  obtain ⟨w, hw, hm'⟩ := addLines_cons_eq_ok_iff.mp hrest
  obtain ⟨rolls, hrolls, hfind⟩ := find?_addLine_of_defines hw hline
  exact ⟨u, rolls, hu, hrolls, (find?_addLines_of_not_definedBy hm' hafter).trans hfind⟩

/-- **The names are those of old and those that lines define.** -/
theorem contains_addLines {ls : List String} {k : Nat} {m m' : Macros}
    (h : (addLines source k m ls).result = .ok m') (name : String) :
    m'.contains name = true ↔ m.contains name = true ∨ DefinedBy ls name := by
  unfold contains
  by_cases hdef : DefinedBy ls name
  · obtain ⟨before, tokens, hlast⟩ := hdef.exists_last
    obtain ⟨-, rolls, -, -, hfind⟩ := find?_addLines_of_last h hlast
    simp [hfind, hdef]
  · rw [find?_addLines_of_not_definedBy h hdef]
    simp [hdef]

end Lines

end Macros
end Dice
