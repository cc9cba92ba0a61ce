/-
# What macros a table can have

A name is the first word of a line that is no comment, and its rolls are what tokens stand for.  So
not every finite map from names to rolls comes about.  `Lawful` says of macros what lines make of
them: each name is one word that starts no comment, and each has rolls, all of them within the
limits of tokens.

* `Lawful.addLine`, `Lawful.addLines`: one line keeps macros lawful, and so do many;
* `Rooted`: the sessions whose tables all go back to the empty table, the one of the core macros or
  the standard one.  One operation keeps all their tables lawful (`lawful_perform`);
* `tables_lawful`: **the tables of such a session**, whatever was loaded into them, or failed to be.
-/
import Dice.Macro.Session
import Dice.Proofs.Macro.Lines
import Dice.Proofs.Macro.Runs
import Dice.Proofs.Notation.RoundTrip
import Dice.Proofs.Text.Words

namespace Dice

/-! ## 1. Entries and look-up -/

theorem rollsNamed?_eq_some_iff {name : String} {rolls : List Roll} :
    ∀ {es : List MacroEntry}, SortedEntries es →
      (rollsNamed? name es = some rolls ↔ (name, rolls) ∈ es)
  | [], _ => by simp [rollsNamed?]
  | e :: es, h => by
    obtain ⟨he, hes⟩ := List.pairwise_cons.mp h
    rw [rollsNamed?, List.mem_cons]
    by_cases hn : name = e.1
    · -- further down all names are greater, so there is no second entry for this one
      have hnot : (name, rolls) ∉ es := by
        intro hmem
        have hlt : e.1 < name := he (name, rolls) hmem
        rw [hn] at hlt
        exact String.lt_irrefl e.1 hlt
      rw [if_pos hn]
      constructor
      · intro hrolls
        cases hrolls
        exact Or.inl (by rw [hn])
      · rintro (rfl | hmem)
        · rfl
        · exact absurd hmem hnot
    · rw [if_neg hn, rollsNamed?_eq_some_iff hes]
      constructor
      · exact Or.inr
      · rintro (rfl | hmem)
        · exact absurd rfl hn
        · exact hmem

theorem Macros.find?_eq_some_iff {m : Macros} {name : String} {rolls : List Roll} :
    m.find? name = some rolls ↔ (name, rolls) ∈ m.entries :=
  rollsNamed?_eq_some_iff m.sorted

/-! ## 2. Lawful macros -/

/-- **A name of a macro** is one word that does not start a comment. -/
structure IsMacroName (name : String) : Prop where
  ne_empty : name ≠ ""
  noBlank : Text.NoBlank name.toList
  noComment : name.toList.head? ≠ some '#'

/-- There are rolls, and all of them are within the limits of tokens. -/
structure Admitted (rolls : List Roll) : Prop where
  ne_nil : rolls ≠ []
  inLimits : ∀ r ∈ rolls, r.InLimits

theorem admitted_of_parse (token : String) {r : Roll} (h : Notation.parse token = .ok r) :
    Admitted [r] := by
  refine ⟨List.cons_ne_nil _ _, fun r' hr' => ?_⟩
  rw [List.mem_singleton.mp hr']
  exact Roll.inLimits_of_parse h

/-- Several lists of rolls, put together. -/
theorem admitted_flatten {parts : List (List Roll)} (hne : parts ≠ [])
    (h : ∀ part ∈ parts, Admitted part) : Admitted parts.flatten := by
  obtain ⟨part, hpart⟩ := List.exists_mem_of_ne_nil parts hne
  refine ⟨fun hnil => (h part hpart).ne_nil (List.flatten_eq_nil_iff.mp hnil part hpart), ?_⟩
  intro r hr
  obtain ⟨part, hpart, hr⟩ := List.mem_flatten.mp hr
  exact (h part hpart).inLimits r hr

/-- A line gives a name to what can have one. -/
theorem DefinitionLine.Defines.isMacroName {line name : String} {tokens : List String}
    (h : Defines line name tokens) : IsMacroName name := by
  have hmem : name.toList ∈ Text.words (Text.strip line.toList) := by
    rw [h.words]
    exact List.mem_cons_self
  refine ⟨?_, Text.noBlank_of_mem_words hmem, ?_⟩
  · rintro rfl
    exact Text.words_ne_nil hmem rfl
  · rw [Text.head?_of_words_strip h.words]
    exact h.noComment

namespace Macros

/-- **Macros that lines can make.** -/
structure Lawful (m : Macros) : Prop where
  name : ∀ e ∈ m.entries, IsMacroName e.1
  rolls : ∀ e ∈ m.entries, Admitted e.2

theorem lawful_empty : empty.Lawful :=
  ⟨fun _ h => (List.not_mem_nil h).elim, fun _ h => (List.not_mem_nil h).elim⟩

namespace Lawful

variable {m m' : Macros}

theorem of_find? (h : m.Lawful) {name : String} {rolls : List Roll}
    (hfind : m.find? name = some rolls) : IsMacroName name ∧ Admitted rolls :=
  ⟨h.name _ (find?_eq_some_iff.mp hfind), h.rolls _ (find?_eq_some_iff.mp hfind)⟩

theorem insert (h : m.Lawful) {name : String} {rolls : List Roll} (hname : IsMacroName name)
    (hrolls : Admitted rolls) : (m.insert name rolls).Lawful := by
  constructor
  · intro e he
    rcases mem_insertEntry he with rfl | he
    · exact hname
    · exact h.name e he
  · intro e he
    rcases mem_insertEntry he with rfl | he
    · exact hrolls
    · exact h.rolls e he

/-- A token stands for admitted rolls, if for any. -/
theorem expand (h : m.Lawful) {token : String} {rolls : List Roll}
    (hrolls : (m.expand token).result = .ok rolls) : Admitted rolls := by
  unfold Macros.expand at hrolls
  cases hfind : m.find? token with
  | some found =>
    rw [hfind] at hrolls
    cases hrolls
    exact (h.of_find? hfind).2
  | none =>
    rw [hfind] at hrolls
    unfold Notation.parseLogged at hrolls
    cases hparse : Notation.parse token with
    | error e =>
      rw [hparse] at hrolls
      cases hrolls
    | ok r =>
      rw [hparse] at hrolls
      cases hrolls
      exact admitted_of_parse token hparse

/-- **Tokens stand for admitted rolls**, if there are any tokens. -/
theorem resolve (h : m.Lawful) {tokens : List String} (hne : tokens ≠ []) {rolls : List Roll}
    (hrolls : (m.resolve tokens).result = .ok rolls) : Admitted rolls := by
  obtain ⟨parts, hparts, rfl⟩ := resolve_eq_ok_iff.mp hrolls
  have hlength := congrArg List.length hparts
  rw [List.length_map, List.length_map] at hlength
  refine admitted_flatten (fun hnil => hne ?_) fun part hpart => ?_
  · rw [hnil] at hlength
    exact List.length_eq_zero_iff.mp hlength
  · have hmem : Except.ok part ∈ tokens.map fun token => (m.expand token).result := by
      rw [hparts]
      exact List.mem_map_of_mem hpart
    obtain ⟨token, -, htoken⟩ := List.mem_map.mp hmem
    exact h.expand htoken

/-- Tokens stand for rolls within the limits. -/
theorem inLimits_of_resolve (h : m.Lawful) {tokens : List String} {rolls : List Roll}
    (hrolls : (m.resolve tokens).result = .ok rolls) : ∀ r ∈ rolls, r.InLimits := by
  cases tokens with
  | nil =>
    cases hrolls
    exact fun r hr => absurd hr List.not_mem_nil
  | cons t ts => exact (h.resolve (List.cons_ne_nil t ts) hrolls).inLimits

/-- **One line.** -/
theorem addLine (h : m.Lawful) {source line : String}
    (hm' : (m.addLine source line).result = .ok m') : m'.Lawful := by
  have hadded := added_addLine m source line
  generalize m.addLine source line = added at hm' hadded
  cases hadded with
  | silent hread =>
    cases hm'
    exact h
  | noRolls hdef => cases hm'
  | badToken hdef hne hresolve => cases hm'
  | defined hdef hne hresolve =>
    cases hm'
    exact h.insert hdef.isMacroName (h.resolve hne (by rw [hresolve]))

/-- **Many lines.** -/
theorem addLines {source : String} :
    ∀ {ls : List String} {k : Nat} {m m' : Macros}, m.Lawful →
      (addLines source k m ls).result = .ok m' → m'.Lawful
  | [], _, _, _, h, hm' => by
    cases hm'
    exact h
  | l :: ls, k, m, m', h, hm' => by
    obtain ⟨u, hu, hm'⟩ := addLines_cons_eq_ok_iff.mp hm'
    exact addLines (h.addLine hu) hm'

end Lawful

/-! ## 3. Tables -/

/-- The core macros are what some notation says. -/
theorem lawful_coreMacros : coreMacros.Lawful := by
  have hadv : Admitted [advantage] := admitted_of_parse "2d20h1" rfl
  have hdis : Admitted [disadvantage] := admitted_of_parse "2d20l1" rfl
  have habil : Admitted [abilityScore] := admitted_of_parse "4d6h3" rfl
  have hstats : Admitted (List.replicate 6 abilityScore) := by
    refine ⟨by simp, fun r hr => ?_⟩
    rw [List.eq_of_mem_replicate hr]
    exact habil.inLimits abilityScore List.mem_cons_self
  have hname : ∀ name ∈ ["adv", "dis", "stats"], IsMacroName name := by
    intro name h
    refine ⟨?_, ?_, ?_⟩
    · rintro rfl
      exact absurd h (by decide)
    · have hletters : ["adv", "dis", "stats"].all
          (fun name => name.toList.all fun c => !Text.isBlank c) = true := by decide
      intro c hc
      have hname := List.all_eq_true.mp hletters name h
      simpa using List.all_eq_true.mp hname c hc
    · revert name
      decide
  exact ((lawful_empty.insert (hname "adv" (by decide)) hadv).insert (hname "dis" (by decide))
    hdis).insert (hname "stats" (by decide)) hstats

theorem lawful_standardMacros : standardMacros.Lawful := by
  unfold standardMacros
  split
  · rename_i m hm
    exact lawful_coreMacros.addLines hm
  · exact lawful_coreMacros

theorem lawful_standardTable : standardTable.macros.Lawful := by
  simpa only [standardTable] using lawful_standardMacros

namespace Table

variable {t t' : Table}

theorem exists_addLines_of_extendBy {source : String} {reading : Text.Reading}
    (h : (t.extendBy source reading).result = .ok t') :
    ∃ m, (addLines source 1 t.macros reading.lines).result = .ok m ∧
      t' = { t with macros := m } := by
  unfold extendBy at h
  split at h
  · cases h
  · cases hadded : (addLines source 1 t.macros reading.lines).result with
    | error e =>
      simp only [hadded] at h
      cases h
    | ok m =>
      simp only [hadded] at h
      split at h
      · cases h
        exact ⟨m, rfl, rfl⟩
      · cases h

theorem lawful_extendBy (ht : t.macros.Lawful) {source : String} {reading : Text.Reading}
    (h : (t.extendBy source reading).result = .ok t') : t'.macros.Lawful := by
  obtain ⟨m, hm, rfl⟩ := exists_addLines_of_extendBy h
  exact ht.addLines hm

theorem lawful_extendFrom (ht : t.macros.Lawful) {files : Files} {path : String}
    (h : (t.extendFrom files path).result = .ok t') : t'.macros.Lawful := by
  unfold extendFrom at h
  cases hfile : files path with
  | error e =>
    rw [hfile] at h
    cases h
  | ok octets =>
    rw [hfile] at h
    exact lawful_extendBy ht h

end Table
end Macros

/-! ## 4. Sessions -/

/-- New tables are empty or have the core macros. -/
def Operation.IsRooted : Operation → Prop
  | .new macros => macros = .empty ∨ macros = coreMacros
  | _ => True

namespace Session

/-- **The sessions whose tables go back to the empty table, the one of the core macros or the
standard one**, by any operations on them. -/
inductive Rooted : Session → Prop
  | start : Rooted start
  | perform {s : Session} (files : Files) {op : Operation} :
      Rooted s → op.IsRooted → Rooted (s.perform files op).1

theorem Rooted.reachable {s : Session} (h : s.Rooted) : s.Reachable := by
  induction h with
  | start => exact Reachable.start
  | perform files _ _ ih => exact ih.perform files _

theorem Rooted.run (files : Files) :
    ∀ (ops : List Operation) {s : Session}, s.Rooted → (∀ op ∈ ops, op.IsRooted) →
      (s.run files ops).1.Rooted
  | [], _, h, _ => h
  | op :: ops, _, h, hops =>
    Rooted.run files ops (h.perform files (hops op List.mem_cons_self))
      fun op' hop => hops op' (List.mem_cons_of_mem op hop)

/-- All tables have lawful macros. -/
def AllLawful (s : Session) : Prop :=
  ∀ place t, s.store.table? place = some t → t.macros.Lawful

theorem AllLawful.add {s : Session} (h : s.AllLawful) (hs : s.store.Sound) {t : Macros.Table}
    (ht : t.macros.Lawful) : (s.add t).AllLawful := by
  intro place u hu
  have htables : (s.add t).store.table? place = _ := Macros.Store.table?_add hs t place
  rw [htables] at hu
  split at hu
  · cases hu
    exact ht
  · exact h place u hu

theorem AllLawful.addStandard {s : Session} (h : s.AllLawful) (hs : s.store.Sound) :
    s.addStandard.AllLawful := by
  unfold Session.addStandard
  split
  · exact h
  · exact h.add hs Macros.lawful_standardTable

/-- A load that succeeds makes lawful macros of lawful ones. -/
theorem lawful_of_load? {files : Files} {op : Operation} {number : Nat}
    {f : Macros.Table → Logged (Except LoadError Macros.Table)} {t t' : Macros.Table}
    (hop : op.load? files = some (number, f)) (ht : t.macros.Lawful)
    (h : (f t).result = .ok t') : t'.macros.Lawful := by
  cases op with
  | extend number' source lines =>
    cases hop
    exact Macros.Table.lawful_extendBy ht h
  | extendFrom number' path =>
    cases hop
    exact Macros.Table.lawful_extendFrom ht h
  | _ => cases hop

/-- **One operation** keeps all tables lawful. -/
theorem lawful_perform (files : Files) {s : Session} (hs : s.store.Sound) (h : s.AllLawful)
    {op : Operation} (hop : op.IsRooted) : (s.perform files op).1.AllLawful := by
  have heffect := perform_effect files s op
  generalize (s.perform files op).1 = s' at heffect
  cases heffect with
  | looked => exact h
  | standard => exact h.addStandard hs
  | made =>
    refine h.add hs ?_
    rcases hop with rfl | rfl
    · exact Macros.lawful_empty
    · exact Macros.lawful_coreMacros
  | @copied number t ht =>
    obtain ⟨place, -, hplaced⟩ := Option.bind_eq_some_iff.mp ht
    exact h.add hs (t := t.copy) (h place t hplaced)
  | froze hplace =>
    intro other u hu
    rw [Macros.Store.table?_setFrozen] at hu
    obtain ⟨t, ht, rfl⟩ := Option.map_eq_some_iff.mp hu
    have hmacros := h other t ht
    split
    · exact hmacros
    · exact hmacros
  | @loaded op number place t f attempt hload hplace ht hattempt =>
    intro other u hu
    cases hresult : (f t).result with
    | error e =>
      rw [(hattempt.table?_of_error hs hresult).2] at hu
      exact h other u hu
    | ok t' =>
      rw [(hattempt.table?_of_ok hs ht hresult).2] at hu
      split at hu
      · cases hu
        exact lawful_of_load? hload (h place t ht) hresult
      · exact h other u hu

/-- **Every run.** -/
theorem Rooted.lawful {s : Session} (h : s.Rooted) : s.AllLawful := by
  induction h with
  | start => exact fun place t ht => nomatch ht
  | perform files hs hop ih => exact lawful_perform files hs.reachable.sound ih hop

theorem Rooted.lawful_table {s : Session} (h : s.Rooted) {number : Nat} {t : Macros.Table}
    (ht : s.table? number = some t) : t.macros.Lawful := by
  obtain ⟨place, -, hplaced⟩ := Option.bind_eq_some_iff.mp ht
  exact h.lawful place t hplaced

/-- **The tables of a session**, whose operations went back to the empty table, the one of the core
macros or the standard one.  Each name is a word that starts no comment, and has rolls, all of them
within the limits of tokens.  The names are listed in strictly ascending order, as many as there
are macros, and they are the names that the table says it has. -/
theorem tables_lawful {s : Session} (hs : s.Rooted) {number : Nat} {t : Macros.Table}
    (ht : s.table? number = some t) :
    (∀ name rolls, t.macros.find? name = some rolls →
      (name ≠ "" ∧ (∀ c ∈ name.toList, Text.isBlank c = false) ∧ name.toList.head? ≠ some '#') ∧
      rolls ≠ [] ∧ ∀ r ∈ rolls, 1 ≤ r.sides ∧ r.InLimits) ∧
    t.macros.names.Pairwise (· < ·) ∧ t.macros.names.length = t.macros.size ∧
    ∀ name, name ∈ t.macros.names ↔ t.macros.contains name = true := by
  refine ⟨fun name rolls hfind => ?_, t.macros.names_pairwise, List.length_map _,
    t.macros.mem_names_iff⟩
  obtain ⟨hname, hrolls⟩ := (hs.lawful_table ht).of_find? hfind
  exact ⟨⟨hname.ne_empty, hname.noBlank, hname.noComment⟩, hrolls.ne_nil,
    fun r hr => ⟨r.sides_pos, hrolls.inLimits r hr⟩⟩

/-- A copy of the core table, into which a faulty list of lines and a sound one were loaded. -/
def campaignSession : Session :=
  (start.run Folder.empty.read
    [.new coreMacros, .copy 0, .extend 1 "campaign" ["hit d20+5", "bad"],
      .extend 1 "campaign" ["# to hit", "hit d20+5 adv"]]).1

theorem rooted_campaignSession : campaignSession.Rooted := by
  refine Rooted.run Folder.empty.read _ Rooted.start fun op hop => ?_
  simp only [List.mem_cons, List.not_mem_nil, or_false] at hop
  rcases hop with rfl | rfl | rfl | rfl
  · exact Or.inr rfl
  · trivial
  · trivial
  · trivial

/-- One die with twenty sides, and five. -/
def attack : Roll := { advantage with number := 1, keep := none, modifier := some 5 }

/-- The macros of the core, and the one of the sound lines. -/
def campaignMacros : Macros := coreMacros.insert "hit" [attack, advantage]

theorem table?_campaignSession : campaignSession.table? 1 = some ⟨campaignMacros, false⟩ := rfl

/-- The table of a session with a faulty load has the macro of the sound one, and is lawful. -/
theorem tables_lawful_campaign :
    campaignSession.Rooted ∧ ∃ t, campaignSession.table? 1 = some t ∧
      t.macros.find? "hit" = some [attack, advantage] ∧
      (∀ name rolls, t.macros.find? name = some rolls →
        (name ≠ "" ∧ (∀ c ∈ name.toList, Text.isBlank c = false) ∧
          name.toList.head? ≠ some '#') ∧
        rolls ≠ [] ∧ ∀ r ∈ rolls, 1 ≤ r.sides ∧ r.InLimits) ∧
      t.macros.names.Pairwise (· < ·) ∧ t.macros.names.length = t.macros.size ∧
      ∀ name, name ∈ t.macros.names ↔ t.macros.contains name = true := by
  refine ⟨rooted_campaignSession, _, table?_campaignSession, ?_,
    tables_lawful rooted_campaignSession table?_campaignSession⟩
  rw [campaignMacros, Macros.find?_insert, if_pos rfl]

end Session
end Dice
