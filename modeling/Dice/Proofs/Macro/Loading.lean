/-
# What loading lines comes to

The lines of one load count together, and a session has a table for them or an error.  What a
load does to a session follows from what the function on tables says (`perform_load`).

* `perform_extend_early_binding`: **the meaning of a load.**  A name stands for what its last line
  says, read with the lines above that one; all else is as it was;
* `perform_extend_append`: **loading composes.**  Lines may be loaded at once or in two parts.  In two
  parts they are staged and committed twice, so the two ways differ in what they fall back to when
  something goes wrong, and in nothing else.
-/
import Dice.Macro.Standard
import Dice.Proofs.Macro.Lines
import Dice.Proofs.Macro.Runs

namespace Dice

/-! ## 1. Tables -/

/-- An error in definitions so many lines further down. -/
def LoadError.later (n : Nat) : LoadError → LoadError
  | .definition e => .definition (e.later n)
  | e => e

namespace Macros.Table

variable {t t₁ t' : Table} {source : String} {as lines : List String}

theorem extend_of_frozen (h : t.frozen = true) :
    t.extend source lines = ⟨[], .error .frozen⟩ := by
  unfold extend extendBy
  rw [if_pos h]

/-- What a table makes of lines is what its macros make of them. -/
theorem extend_of_not_frozen (h : t.frozen = false) :
    t.extend source lines
      = ⟨(addLines source 1 t.macros lines).records,
          ((addLines source 1 t.macros lines).result.mapError .definition).map
            fun m => { t with macros := m }⟩ := by
  unfold extend extendBy
  rw [if_neg (by rw [h]; exact Bool.false_ne_true)]
  dsimp only
  cases (addLines source 1 t.macros lines).result with
  | error e => rfl
  | ok m => rfl

theorem extend_eq_ok_iff : (t.extend source lines).result = .ok t' ↔
    t.frozen = false ∧ ∃ m, (addLines source 1 t.macros lines).result = .ok m ∧
      t' = { t with macros := m } := by
  cases hfrozen : t.frozen with
  | true =>
    rw [extend_of_frozen hfrozen]
    simp
  | false =>
    rw [extend_of_not_frozen hfrozen]
    cases (addLines source 1 t.macros lines).result with
    | error e => exact ⟨nofun, fun ⟨_, _, hm, _⟩ => nomatch hm⟩
    | ok m =>
      change Except.ok { t with macros := m } = .ok t' ↔ _
      simp [hfrozen, eq_comm]

/-- A table that was extended is not frozen. -/
theorem frozen_of_extend (h : (t.extend source lines).result = .ok t') : t'.frozen = false := by
  obtain ⟨hfrozen, m, -, rfl⟩ := extend_eq_ok_iff.mp h
  exact hfrozen

/-- What goes wrong with lines in a table that is not frozen is a fault in one of them. -/
theorem exists_definition_of_extend {e : LoadError} (hfrozen : t.frozen = false)
    (h : (t.extend source lines).result = .error e) : ∃ d, e = .definition d := by
  rw [extend_of_not_frozen hfrozen] at h
  cases hadded : (addLines source 1 t.macros lines).result with
  | error d =>
    rw [hadded] at h
    cases h
    exact ⟨d, rfl⟩
  | ok m =>
    rw [hadded] at h
    cases h

/-- If the first part fails, the others are not looked at. -/
theorem extend_append_of_error {e : LoadError} (h : (t.extend source as).result = .error e)
    (bs : List String) : t.extend source (as ++ bs) = t.extend source as := by
  cases hfrozen : t.frozen with
  | true => rw [extend_of_frozen hfrozen, extend_of_frozen hfrozen]
  | false =>
    rw [extend_of_not_frozen hfrozen] at h
    rw [extend_of_not_frozen hfrozen, extend_of_not_frozen hfrozen, addLines_append]
    unfold addMore
    cases hadded : (addLines source 1 t.macros as).result with
    | error d => rfl
    | ok m =>
      rw [hadded] at h
      cases h

/-- If the first part succeeds, the second is added to the table with the first. -/
theorem extend_append_of_ok (h : (t.extend source as).result = .ok t₁) (bs : List String) :
    t.extend source (as ++ bs)
      = ⟨(t.extend source as).records ++ (t₁.extend source bs).records,
          (t₁.extend source bs).result.mapError (.later as.length)⟩ := by
  obtain ⟨hfrozen, m, hm, rfl⟩ := extend_eq_ok_iff.mp h
  have hnumber : addLines source (1 + as.length) m bs
      = ⟨(addLines source 1 m bs).records,
          (addLines source 1 m bs).result.mapError (.later as.length)⟩ := by
    rw [Nat.add_comm, addLines_add]
  have hfirst : t.extend source as = ⟨(addLines source 1 t.macros as).records,
      .ok { t with macros := m }⟩ := by
    rw [extend_of_not_frozen hfrozen, hm]
    rfl
  rw [extend_of_not_frozen hfrozen, addLines_append, hfirst,
    extend_of_not_frozen (t := { t with macros := m }) hfrozen]
  simp only [addMore, hm, hnumber]
  cases (addLines source 1 m bs).result with
  | error e => rfl
  | ok u => rfl

/-- The table that is there after an attempt to extend it: the extended one, if there is one. -/
def after (t : Table) : Except LoadError Table → Table
  | .ok t' => t'
  | .error _ => t

/-- Why a table was not extended, if so. -/
def refusal? : Except LoadError Table → Option LoadError
  | .ok _ => none
  | .error e => some e

end Macros.Table

/-- **All or nothing**, in one: an attempt tells the refusal, if there is one, and leaves the
extended table in its place, if there is one. -/
theorem Macros.Store.Attempt.outcome {st : Store} {place : Nat} {t : Table}
    {extended : Logged (Except LoadError Table)} {r : Store × Logged (Option LoadError)}
    (h : Attempt st place t extended r) (hs : st.Sound) (ht : st.table? place = some t) :
    r.2 = ⟨extended.records, Table.refusal? extended.result⟩ ∧
    ∀ other, r.1.table? other
      = if other = place then some (t.after extended.result) else st.table? other := by
  cases hresult : extended.result with
  | ok t' => exact h.table?_of_ok hs ht hresult
  | error e =>
    obtain ⟨htold, hsame⟩ := h.table?_of_error hs hresult
    refine ⟨htold, fun other => ?_⟩
    by_cases heq : other = place
    · rw [if_pos heq, hsame, heq, ht]
      rfl
    · rw [if_neg heq, hsame]

/-! ## 2. Sessions -/

/-- The answer to a load tells an error, or that there was none. -/
def Answer.Tells (a : Answer) (error : Option LoadError) : Prop := ∃ t, a = .extended error t

@[simp] theorem Answer.tells_extended_iff {error error' : Option LoadError} {t : Macros.Table} :
    (Answer.extended error t).Tells error' ↔ error = error' := by
  simp [Answer.Tells]

namespace Session

section Load

variable {s : Session} {files : Files} {op : Operation} {number place : Nat} {t : Macros.Table}
  {f : Macros.Table → Logged (Except LoadError Macros.Table)}

/-- **What a load does to a session**, from what the function on tables says: it tells the error, if
there is one, and leaves the extended table in its place, if there is one. -/
theorem perform_load (hs : s.Reachable) (hop : op.load? files = some (number, f))
    (hplace : s.meanings[number]? = some place) (ht : s.store.table? place = some t) :
    (s.perform files op).2
      = ⟨(f t).records, .extended (Macros.Table.refusal? (f t).result) (t.after (f t).result)⟩ ∧
    (s.perform files op).1.meanings = s.meanings ∧
    ∀ other, (s.perform files op).1.store.table? other
      = if other = place then some (t.after (f t).result) else s.store.table? other := by
  obtain ⟨attempt, hattempt, heq⟩ := perform_of_load? hop hplace ht
  obtain ⟨htold, htables⟩ := hattempt.outcome hs.sound ht
  have hnew : attempt.1.table? place = some (t.after (f t).result) := by rw [htables, if_pos rfl]
  rw [heq, afterLoad_fst, afterLoad_snd hplace hnew, htold]
  exact ⟨rfl, rfl, htables⟩

variable (files) (source : String) (lines : List String)

theorem perform_extend (hs : s.Reachable) (hplace : s.meanings[number]? = some place)
    (ht : s.store.table? place = some t) :
    (s.perform files (.extend number source lines)).2
      = ⟨(t.extend source lines).records,
          .extended (Macros.Table.refusal? (t.extend source lines).result)
            (t.after (t.extend source lines).result)⟩ ∧
    (s.perform files (.extend number source lines)).1.meanings = s.meanings ∧
    ∀ other, (s.perform files (.extend number source lines)).1.store.table? other
      = if other = place then some (t.after (t.extend source lines).result)
        else s.store.table? other :=
  perform_load (f := fun t => t.extend source lines) hs rfl hplace ht

/-- What a load records and answers. -/
theorem perform_extend_snd (hs : s.Reachable) (ht : s.table? number = some t) :
    (s.perform files (.extend number source lines)).2
      = ⟨(t.extend source lines).records,
          .extended (Macros.Table.refusal? (t.extend source lines).result)
            (t.after (t.extend source lines).result)⟩ := by
  obtain ⟨place, hplace, hplaced⟩ := Option.bind_eq_some_iff.mp ht
  exact (perform_extend files source lines hs hplace hplaced).1

/-- The answer is a table exactly if the function on tables gives that table. -/
theorem perform_extend_eq_iff (hs : s.Reachable) (ht : s.table? number = some t)
    {t' : Macros.Table} :
    (s.perform files (.extend number source lines)).2.result = .extended none t' ↔
      (t.extend source lines).result = .ok t' := by
  rw [perform_extend_snd files source lines hs ht]
  cases (t.extend source lines).result with
  | ok t'' => simp [Macros.Table.refusal?, Macros.Table.after]
  | error e => simp [Macros.Table.refusal?]

/-- The number means the extended table, if there is one. -/
theorem table?_perform_extend (hs : s.Reachable) (ht : s.table? number = some t) :
    (s.perform files (.extend number source lines)).1.table? number
      = some (t.after (t.extend source lines).result) := by
  obtain ⟨place, hplace, hplaced⟩ := Option.bind_eq_some_iff.mp ht
  obtain ⟨-, hmeanings, htables⟩ := perform_extend files source lines hs hplace hplaced
  refine table?_of_place (hmeanings ▸ hplace) ?_
  rw [htables, if_pos rfl]

end Load

/-! ## 3. The meaning of a load -/

open Macros (DefinedBy LastDefinition)

/-- **Early binding, and the last definition wins.**  Lines were loaded into a table of a reachable
session.

A name that lines define stands for what the tokens of the last of these lines stand for, put
together, in the table as loading the lines above that one, and no others, would have made it.  All
other names stand for what they stood for, and so does every token that is not a name of these
lines, or it is refused as it was.  The names are those of old and those of the lines. -/
theorem perform_extend_early_binding {s : Session} (hs : s.Reachable) {number : Nat}
    {t t' : Macros.Table} (ht : s.table? number = some t) {files : Files} {source : String}
    {lines : List String}
    (hload : (s.perform files (.extend number source lines)).2.result = .extended none t') :
    (s.perform files (.extend number source lines)).1.table? number = some t' ∧
    (∀ name, DefinedBy lines name →
      ∃ before tokens u, ∃ parts : List (List Roll),
        LastDefinition lines name before tokens ∧
        (s.perform files (.extend number source before)).2.result = .extended none u ∧
        tokens.map (fun token => (u.macros.expand token).result) = parts.map .ok ∧
        t'.macros.find? name = some parts.flatten) ∧
    (∀ name, ¬DefinedBy lines name → t'.macros.find? name = t.macros.find? name) ∧
    (∀ name, name ∈ t'.macros.names ↔ name ∈ t.macros.names ∨ DefinedBy lines name) ∧
    (∀ token, ¬DefinedBy lines token →
      (t'.macros.expand token).result = (t.macros.expand token).result) ∧
    t'.frozen = t.frozen := by
  have hextend := (perform_extend_eq_iff files source _ hs ht).mp hload
  obtain ⟨hfrozen, m, hm, rfl⟩ := Macros.Table.extend_eq_ok_iff.mp hextend
  refine ⟨?_, fun name hdef => ?_, fun name hn => Macros.find?_addLines_of_not_definedBy hm hn,
    fun name => ?_, fun token hn => ?_, rfl⟩
  · rw [table?_perform_extend files source lines hs ht, hextend]
    rfl
  · obtain ⟨before, tokens, hlast⟩ := hdef.exists_last
    obtain ⟨u, rolls, hu, hrolls, hfind⟩ := Macros.find?_addLines_of_last hm hlast
    obtain ⟨parts, hparts, rfl⟩ := Macros.resolve_eq_ok_iff.mp hrolls
    have hbefore := Macros.Table.extend_eq_ok_iff.mpr ⟨hfrozen, u, hu, rfl⟩
    exact ⟨before, tokens, { t with macros := u }, parts, hlast,
      (perform_extend_eq_iff files source _ hs ht).mpr hbefore, hparts, hfind⟩
  · rw [Macros.mem_names_iff, Macros.mem_names_iff]
    exact Macros.contains_addLines hm name
  · rw [Macros.expand_congr (Macros.find?_addLines_of_not_definedBy hm hn)]

/-- A macro is extended by itself and used, and then it is defined anew. -/
def houseRules : List String := ["adv adv d12", " # both", "pair adv\tdis", "adv 2d8h1"]

/-- What these lines make of the core macros. -/
def houseMacros : Macros :=
  Macros.ofList
    [("adv", [⟨8, 2, none, some ⟨.high, 1⟩, none, by decide⟩]), ("dis", [disadvantage]),
     ("pair", [advantage, ⟨12, 1, none, none, none, by decide⟩, disadvantage]),
     ("stats", List.replicate 6 abilityScore)]

/-- The pair keeps the rolls that it was given before its first macro was defined anew. -/
theorem perform_extend_early_binding_pair :
    DefinedBy houseRules "pair" ∧
    ∃ before tokens u, ∃ parts : List (List Roll),
      LastDefinition houseRules "pair" before tokens ∧
      ((start.perform Folder.empty.read (.new coreMacros)).1.perform Folder.empty.read
        (.extend 0 "<macros>" before)).2.result = .extended none u ∧
      tokens.map (fun token => (u.macros.expand token).result) = parts.map .ok ∧
      houseMacros.find? "pair" = some parts.flatten := by
  have hs : (start.perform Folder.empty.read (.new coreMacros)).1.Reachable :=
    Reachable.start.perform Folder.empty.read (.new coreMacros)
  have ht : (start.perform Folder.empty.read (.new coreMacros)).1.table? 0
      = some ⟨coreMacros, false⟩ := rfl
  have hload : ((start.perform Folder.empty.read (.new coreMacros)).1.perform Folder.empty.read
      (.extend 0 "<macros>" houseRules)).2.result = .extended none ⟨houseMacros, false⟩ := rfl
  have hpair : DefinedBy houseRules "pair" :=
    ⟨"pair adv\tdis", by simp [houseRules], ["adv", "dis"],
      DefinitionLine.read_eq_definition_iff.mp rfl⟩
  obtain ⟨-, hdefined, -⟩ := perform_extend_early_binding hs ht hload
  exact ⟨hpair, hdefined "pair" hpair⟩

/-! ## 4. Loading in two parts -/

/-- Tables by their numbers, from what the numbers mean and what is at each place. -/
theorem table?_congr {s s' : Session} (hmeanings : s'.meanings = s.meanings)
    (htables : ∀ place, s'.store.table? place = s.store.table? place) (number : Nat) :
    s'.table? number = s.table? number := by
  unfold table?
  rw [hmeanings, funext htables]

section Parts

variable {s : Session} (files : Files) {number : Nat} {t t₁ t₂ : Macros.Table} {source : String}
  {as bs lines : List String}

/-- After a load that fails every number means the table that it meant. -/
theorem table?_perform_extend_of_error (hs : s.Reachable) (ht : s.table? number = some t)
    {e : LoadError} (h : (t.extend source lines).result = .error e) (other : Nat) :
    (s.perform files (.extend number source lines)).1.table? other = s.table? other := by
  obtain ⟨place, hplace, hplaced⟩ := Option.bind_eq_some_iff.mp ht
  obtain ⟨-, hmeanings, htables⟩ := perform_extend files source lines hs hplace hplaced
  refine table?_congr hmeanings (fun place' => ?_) other
  rw [htables, h]
  by_cases heq : place' = place
  · rw [if_pos heq, heq, hplaced]
    rfl
  · rw [if_neg heq]

/-- After two loads that succeed every number means what it means after one load of all lines. -/
theorem table?_perform_extend_append (hs : s.Reachable) (ht : s.table? number = some t)
    (hfirst : (t.extend source as).result = .ok t₁)
    (hsecond : (t₁.extend source bs).result = .ok t₂) (other : Nat) :
    (s.perform files (.extend number source (as ++ bs))).1.table? other
      = ((s.perform files (.extend number source as)).1.perform files
          (.extend number source bs)).1.table? other := by
  have hwhole : (t.extend source (as ++ bs)).result = .ok t₂ := by
    rw [Macros.Table.extend_append_of_ok hfirst, hsecond]
    rfl
  obtain ⟨place, hplace, hplaced⟩ := Option.bind_eq_some_iff.mp ht
  obtain ⟨-, hmeanings, htables⟩ := perform_extend files source (as ++ bs) hs hplace hplaced
  obtain ⟨-, hmeanings₁, htables₁⟩ := perform_extend files source as hs hplace hplaced
  rw [hwhole] at htables
  rw [hfirst] at htables₁
  have hplaced₁ : (s.perform files (.extend number source as)).1.store.table? place = some t₁ :=
    (htables₁ place).trans (if_pos rfl)
  obtain ⟨-, hmeanings₂, htables₂⟩ := perform_extend files source bs
    (hs.perform files (.extend number source as)) (hmeanings₁ ▸ hplace) hplaced₁
  refine table?_congr ?_ (fun place' => ?_) other
  · rw [hmeanings, hmeanings₂, hmeanings₁]
  · rw [htables, htables₂, htables₁, hsecond]
    -- both ways put the same table at the one place, and leave the others alone
    by_cases heq : place' = place
    · rw [if_pos heq, if_pos heq]
      rfl
    · rw [if_neg heq, if_neg heq, if_neg heq]

end Parts

/-- **Loading composes.**  Some lines are to be loaded into a table of a reachable session, all of
them at once, or a first part and then the rest.

Loading all of them succeeds exactly if both parts do; every number then means the same table either
way, and the records are the same.  If the first part fails, all lines together fail with the same
error.  If the first part succeeds and the second fails, all lines together fail with the same fault
in the line that is so many lines further down.  Whenever all lines together fail, every number
means the table that it meant before, without the first part. -/
theorem perform_extend_append {s : Session} (hs : s.Reachable) {number : Nat} {t : Macros.Table}
    (ht : s.table? number = some t) (files : Files) (source : String) (as bs : List String) :
    let whole := s.perform files (.extend number source (as ++ bs))
    let first := s.perform files (.extend number source as)
    let second := first.1.perform files (.extend number source bs)
    (whole.2.result.Tells none ↔ first.2.result.Tells none ∧ second.2.result.Tells none) ∧
    (whole.2.result.Tells none →
      whole.2.records = first.2.records ++ second.2.records ∧
      ∀ other, whole.1.table? other = second.1.table? other) ∧
    (∀ e, first.2.result.Tells (some e) → whole.2.result.Tells (some e)) ∧
    (∀ e, first.2.result.Tells none → second.2.result.Tells (some e) →
      ∃ d, e = .definition d ∧ whole.2.result.Tells
        (some (.definition { d with lineNumber := as.length + d.lineNumber }))) ∧
    (¬whole.2.result.Tells none → ∀ other, whole.1.table? other = s.table? other) := by
  intro whole first second
  have hs₁ : first.1.Reachable := hs.perform files (.extend number source as)
  have ht₁ := table?_perform_extend files source as hs ht
  -- what is told and recorded is a matter of the function on tables
  have htold := perform_extend_snd files source (as ++ bs) hs ht
  have htold₁ := perform_extend_snd files source as hs ht
  have htold₂ := perform_extend_snd files source bs hs₁ ht₁
  simp only [whole, first, second, htold, htold₁, htold₂, Answer.tells_extended_iff]
  cases hfirst : (t.extend source as).result with
  | error e =>
    have happend := Macros.Table.extend_append_of_error hfirst bs
    have hwhole : (t.extend source (as ++ bs)).result = .error e := by rw [happend, hfirst]
    have hsame := table?_perform_extend_of_error files hs ht hwhole
    simp [hwhole, Macros.Table.refusal?, hsame]
  | ok t₁ =>
    have happend := Macros.Table.extend_append_of_ok hfirst bs
    cases hsecond : (t₁.extend source bs).result with
    | error e =>
      obtain ⟨d, rfl⟩ := Macros.Table.exists_definition_of_extend
        (Macros.Table.frozen_of_extend hfirst) hsecond
      have hwhole : (t.extend source (as ++ bs)).result
          = .error (.definition (d.later as.length)) := by
        rw [happend, hsecond]
        rfl
      have hsame := table?_perform_extend_of_error files hs ht hwhole
      simp [hwhole, hsecond, Macros.Table.refusal?, Macros.Table.after, DefinitionError.later,
        hsame]
    | ok t₂ =>
      have hwhole : (t.extend source (as ++ bs)).result = .ok t₂ := by
        rw [happend, hsecond]
        rfl
      have hrecords : (t.extend source (as ++ bs)).records
          = (t.extend source as).records ++ (t₁.extend source bs).records := by rw [happend]
      have hsame := table?_perform_extend_append files hs ht hfirst hsecond
      simp [hwhole, hsecond, hrecords, Macros.Table.refusal?, Macros.Table.after, hsame]

/-- The second part uses what the first defined, and its second line is at fault. -/
theorem perform_extend_append_faulty :
    ((start.perform Folder.empty.read (.new hitMacros)).1.perform Folder.empty.read
      (.extend 0 "<macros>" (["# rules", "hit d20+5"] ++ ["crit hit 4d6", "bad"]))).2.result.Tells
        (some (.definition ⟨"<macros>", 4, .noRolls "bad"⟩)) ∧
    ∀ other, ((start.perform Folder.empty.read (.new hitMacros)).1.perform Folder.empty.read
      (.extend 0 "<macros>" (["# rules", "hit d20+5"] ++ ["crit hit 4d6", "bad"]))).1.table? other
        = (start.perform Folder.empty.read (.new hitMacros)).1.table? other := by
  have hs : (start.perform Folder.empty.read (.new hitMacros)).1.Reachable :=
    Reachable.start.perform Folder.empty.read (.new hitMacros)
  have ht : (start.perform Folder.empty.read (.new hitMacros)).1.table? 0
      = some ⟨hitMacros, false⟩ := rfl
  obtain ⟨-, -, -, hfault, hsame⟩ := perform_extend_append hs ht Folder.empty.read "<macros>"
    ["# rules", "hit d20+5"] ["crit hit 4d6", "bad"]
  obtain ⟨d, hd, htells⟩ := hfault (.definition ⟨"<macros>", 2, .noRolls "bad"⟩) ⟨_, rfl⟩ ⟨_, rfl⟩
  cases hd
  refine ⟨htells, hsame ?_⟩
  rintro ⟨t, hok⟩
  obtain ⟨t', herror⟩ := htells
  rw [herror] at hok
  cases hok

end Session
end Dice
