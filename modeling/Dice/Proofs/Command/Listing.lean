/-
# A listing is a file of definitions

The command lists the macros of a table one on a line: the name, and the notation of its rolls.
Such a line is written as a definition is, so a listing can be loaded again.

* `defines_listingLine`: a line of the listing defines the name that it lists, by the notation of
  the rolls;
* `resolve_texts`: notation stands for its rolls, as long as it is not the name of a macro;
* `addLines_listing`: the lines are in the order of the names, so macros to which they are added
  grow at the end, one by one;
* `listing_loads`: **the listing of a table of a session, loaded into an empty table**, gives the
  macros of that table, and there is nothing to warn of.

The one thing that stands in the way is a macro that is named like the notation of a roll.  Its name
would be looked up where the roll is meant.
-/
import Dice.Command.Work
import Dice.Proofs.Macro.Lawful
import Dice.Proofs.Macro.Loading

namespace Dice

open Macros (redefiningRecord)

/-! ## 1. The lines of a listing -/

theorem isBlank_of_isFormChar {c : Char} (h : Notation.isFormChar c = true) :
    Text.isBlank c = false := by
  obtain ⟨h1, h2⟩ := Notation.toNat_of_isFormChar h
  exact Text.isBlank_eq_false h1 h2

/-- The notation of a roll is one word. -/
theorem Roll.isWord_text (r : Roll) : r.text.toList ≠ [] ∧ Text.NoBlank r.text.toList := by
  rw [Roll.text, String.toList_ofList]
  refine ⟨?_, fun c hc => isBlank_of_isFormChar (r.isFormChar_of_mem_chars c hc)⟩
  unfold Roll.chars
  simp

/-- The words of a line: the name, and the notation of each roll. -/
theorem words_listingLine {e : MacroEntry} (hname : IsMacroName e.1) :
    Text.words (Command.listingLine e).toList
      = e.1.toList :: (e.2.map Roll.text).map String.toList := by
  have hblank : Text.isBlank ' ' = true := by decide
  have hne : e.1.toList ≠ [] := fun h => hname.ne_empty (String.toList_eq_nil_iff.mp h)
  have hline : (Command.listingLine e).toList
      = e.1.toList ++ ' ' :: ' ' :: [' '].intercalate ((e.2.map Roll.text).map String.toList) := by
    simp [Command.listingLine, String.toList_intercalate]
  have htexts : ∀ w ∈ (e.2.map Roll.text).map String.toList, w ≠ [] ∧ Text.NoBlank w := by
    intro w hw
    obtain ⟨text, htext, rfl⟩ := List.mem_map.mp hw
    obtain ⟨r, -, rfl⟩ := List.mem_map.mp htext
    exact r.isWord_text
  rw [hline, Text.words_append_blank hblank, Text.words_of_noBlank hne hname.noBlank,
    Text.words_cons_blank hblank, Text.words_intercalate hblank htexts, List.singleton_append]

/-- **A line of a listing is the definition of what it lists.** -/
theorem defines_listingLine {e : MacroEntry} (hname : IsMacroName e.1) :
    DefinitionLine.Defines (Command.listingLine e) e.1 (e.2.map Roll.text) := by
  have hwords := (Text.words_strip _).trans (words_listingLine hname)
  refine ⟨?_, hwords⟩
  rw [← Text.head?_of_words_strip hwords]
  exact hname.noComment

/-! ## 2. One line, and many -/

/-- No macro is named like the notation of one of these rolls. -/
def Macros.Unshadowed (m : Macros) (rolls : List Roll) : Prop :=
  ∀ r ∈ rolls, m.contains r.text = false

/-- The records of rolls that are read from their notation. -/
def readingRecords (rolls : List Roll) : List Record :=
  rolls.map fun r => Notation.parsedRecord r.text r

namespace Macros

theorem expand_text {m : Macros} {r : Roll} (hr : r.InLimits) (hm : m.contains r.text = false) :
    m.expand r.text = ⟨[Notation.parsedRecord r.text r], .ok [r]⟩ := by
  have hfind : m.find? r.text = none := by simpa [contains] using hm
  unfold expand Notation.parseLogged
  rw [hfind, Roll.parse_text_of_inLimits hr]
  rfl

/-- **Notation stands for its rolls.** -/
theorem resolve_texts {m : Macros} :
    ∀ {rolls : List Roll}, (∀ r ∈ rolls, r.InLimits) → m.Unshadowed rolls →
      m.resolve (rolls.map Roll.text) = ⟨readingRecords rolls, .ok rolls⟩
  | [], _, _ => rfl
  | r :: rolls, hlimits, hm => by
    have hothers := resolve_texts (fun r' h => hlimits r' (List.mem_cons_of_mem r h))
      fun r' h => hm r' (List.mem_cons_of_mem r h)
    rw [List.map_cons, resolve, hothers,
      expand_text (hlimits r List.mem_cons_self) (hm r List.mem_cons_self)]
    rfl

/-- **One line.** -/
theorem addLine_listingLine {m : Macros} {e : MacroEntry} (hname : IsMacroName e.1)
    (hrolls : Admitted e.2) (hnew : m.contains e.1 = false) (hm : m.Unshadowed e.2)
    (source : String) :
    m.addLine source (Command.listingLine e)
      = ⟨readingRecords e.2, .ok (m.insert e.1 e.2)⟩ := by
  have hread := DefinitionLine.read_eq_definition_iff.mpr (defines_listingLine hname)
  have htokens : (e.2.map Roll.text).isEmpty = false := by simp [hrolls.ne_nil]
  unfold addLine define
  rw [hread]
  simp [htokens, resolve_texts hrolls.inLimits hm, hnew]

/-- An entry with the greatest name is put at the end. -/
theorem insertEntry_of_lt {e : MacroEntry} :
    ∀ {es : List MacroEntry}, (∀ f ∈ es, f.1 < e.1) → insertEntry e es = es ++ [e]
  | [], _ => rfl
  | f :: fs, h => by
    have hf : f.1 < e.1 := h f List.mem_cons_self
    have hne : ¬e.1 = f.1 := fun heq => String.lt_irrefl e.1 (heq ▸ hf)
    have hnlt : ¬e.1 < f.1 := String.lt_asymm hf
    rw [insertEntry, if_neg hne, if_neg hnlt,
      insertEntry_of_lt fun g hg => h g (List.mem_cons_of_mem f hg), List.cons_append]

theorem contains_eq_false_of_lt {m : Macros} {name : String} (h : ∀ f ∈ m.entries, f.1 < name) :
    m.contains name = false := by
  rw [Bool.eq_false_iff]
  intro hcontains
  obtain ⟨f, hf, rfl⟩ := List.mem_map.mp ((m.mem_names_iff name).mpr hcontains)
  exact String.lt_irrefl f.1 (h f hf)

/-- Macros that have a part of the entries of others have a part of their names. -/
theorem Unshadowed.mono {m whole : Macros} {rolls : List Roll} (h : whole.Unshadowed rolls)
    (hsub : ∀ e ∈ m.entries, e ∈ whole.entries) : m.Unshadowed rolls := by
  intro r hr
  rw [Bool.eq_false_iff]
  intro hcontains
  obtain ⟨e, he, hname⟩ := List.mem_map.mp ((m.mem_names_iff r.text).mpr hcontains)
  have hwhole := (whole.mem_names_iff r.text).mp (List.mem_map.mpr ⟨e, hsub e he, hname⟩)
  rw [h r hr] at hwhole
  cases hwhole

/-- **Many lines.**  Macros have the first entries of others, and the lines list the other entries.
Then all entries are there in the end. -/
theorem addLines_listing {whole : Macros} (hwhole : whole.Lawful)
    (hplain : ∀ e ∈ whole.entries, whole.Unshadowed e.2) (source : String) :
    ∀ (es : List MacroEntry) (k : Nat) {m : Macros}, m.entries ++ es = whole.entries →
      addLines source k m (es.map Command.listingLine)
        = ⟨es.flatMap fun e => readingRecords e.2, .ok whole⟩
  | [], k, m, hes => by
    have hm : m = whole := by
      cases m
      cases whole
      simpa using hes
    rw [hm]
    rfl
  | e :: es, k, m, hes => by
    have hmem : e ∈ whole.entries := by simp [← hes]
    have hbefore : ∀ f ∈ m.entries, f ∈ whole.entries := fun f hf => by simp [← hes, hf]
    -- the names of the entries that are there come before the name of this line
    have hlt : ∀ f ∈ m.entries, f.1 < e.1 := by
      have hsorted := whole.sorted
      rw [SortedEntries, ← hes, List.pairwise_append] at hsorted
      exact fun f hf => hsorted.2.2 f hf e List.mem_cons_self
    have hline := addLine_listingLine (hwhole.name e hmem) (hwhole.rolls e hmem)
      (contains_eq_false_of_lt hlt) ((hplain e hmem).mono hbefore) source
    have hnext : (m.insert e.1 e.2).entries ++ es = whole.entries := by
      have hend : (m.insert e.1 e.2).entries = m.entries ++ [e] := insertEntry_of_lt hlt
      rw [hend, List.append_assoc, List.singleton_append, hes]
    have hothers := addLines_listing hwhole hplain source es (k + 1) hnext
    simp only [List.map_cons, addLines, hline, hothers, List.flatMap_cons]

theorem level_of_mem_readingRecords {rolls : List Roll} {record : Record}
    (h : record ∈ readingRecords rolls) : record.level = .debug := by
  obtain ⟨r, -, rfl⟩ := List.mem_map.mp h
  rfl

end Macros

/-! ## 3. Sessions -/

namespace Session

/-- A new table is there under the next number. -/
theorem table?_perform_new {s : Session} (hs : s.Reachable) (files : Files) (m : Macros) :
    (s.perform files (.new m)).1.table? s.size = some (.ofMacros m) := by
  have htables := Macros.Store.table?_add hs.sound (.ofMacros m)
  have hmeaning : (s.perform files (.new m)).1.meanings[s.size]?
      = some s.store.holders.length := List.getElem?_concat_length
  exact table?_of_place hmeaning ((htables _).trans (if_pos rfl))

/-- **A listing is a faithful file of definitions.**  A table of a session has no macro that is
named like the notation of a roll in it.  Work that is to list this table hands the lines of the
listing to the console, each as a text of its own, and they can be loaded into a new table without
macros.  The new table has the same macros, name by name and roll by roll, and nothing was recorded
that is as weighty as a warning. -/
theorem listing_loads {s : Session} (hs : s.Rooted) {number : Nat} {t : Macros.Table}
    (ht : s.table? number = some t)
    (hplain : ∀ name rolls, t.macros.find? name = some rolls →
      ∀ r ∈ rolls, t.macros.contains r.text = false)
    (files : Files) (source : String) :
    let lines := Command.listing t
    let loaded := ((s.perform files (.new .empty)).1.perform files
      (.extend s.size source lines)).2
    (∀ records o faces, o.listing = true →
      (Command.workWith ⟨records, .ok t⟩ o faces).echoed = lines ∧
      ∀ console : Command.Console, (Command.workWith ⟨records, .ok t⟩ o faces).outOn console
        = String.join (lines.map console.shown)) ∧
    loaded.result = .extended none (.ofMacros t.macros) ∧
    ∀ record ∈ loaded.records, record.level < .warning := by
  intro lines loaded
  have hempty := table?_perform_new hs.reachable files .empty
  have hentries : ∀ e ∈ t.macros.entries, t.macros.Unshadowed e.2 := fun e he =>
    hplain e.1 e.2 (Macros.find?_eq_some_iff.mpr he)
  have hadded : Macros.addLines source 1 .empty lines
      = ⟨t.macros.entries.flatMap fun e => readingRecords e.2, .ok t.macros⟩ :=
    Macros.addLines_listing (hs.lawful_table ht) hentries source t.macros.entries 1 rfl
  have hextend : (Macros.Table.ofMacros .empty).extend source lines
      = ⟨t.macros.entries.flatMap fun e => readingRecords e.2, .ok (.ofMacros t.macros)⟩ := by
    rw [Macros.Table.extend_of_not_frozen rfl]
    simp only [Macros.Table.ofMacros, hadded]
    rfl
  have hloaded : loaded = ⟨t.macros.entries.flatMap fun e => readingRecords e.2,
      .extended none (.ofMacros t.macros)⟩ := by
    have hnew : (s.perform files (.new .empty)).1.Reachable :=
      hs.reachable.perform files (.new .empty)
    have htold := perform_extend_snd files source lines hnew hempty
    rw [hextend] at htold
    exact htold
  refine ⟨fun records o faces hlisting => ?_, by rw [hloaded], fun record hrecord => ?_⟩
  · simp only [Command.workWith, hlisting, if_true]
    exact ⟨rfl, fun console => String.empty_append⟩
  · rw [hloaded] at hrecord
    obtain ⟨e, -, hrecord⟩ := List.mem_flatMap.mp hrecord
    rw [Macros.level_of_mem_readingRecords hrecord]
    decide

/-- No macro of the campaign table is named like a roll, so its listing can be loaded. -/
theorem listing_loads_campaign :
    (∀ name rolls, campaignMacros.find? name = some rolls →
      ∀ r ∈ rolls, campaignMacros.contains r.text = false) ∧
    Command.listing (.ofMacros campaignMacros)
      = ["adv  2d20h1", "dis  2d20l1", "hit  d20+5 2d20h1",
          "stats  4d6h3 4d6h3 4d6h3 4d6h3 4d6h3 4d6h3"] ∧
    ((campaignSession.perform Folder.empty.read (.new .empty)).1.perform Folder.empty.read
      (.extend 2 "campaign" (Command.listing (.ofMacros campaignMacros)))).2.result
        = .extended none (.ofMacros campaignMacros) := by
  have hplain : ∀ name rolls, campaignMacros.find? name = some rolls →
      ∀ r ∈ rolls, campaignMacros.contains r.text = false := by
    intro name rolls hfind
    have hall : ∀ e ∈ campaignMacros.entries, ∀ r ∈ e.2,
        campaignMacros.contains r.text = false := by decide
    exact hall (name, rolls) (Macros.find?_eq_some_iff.mp hfind)
  obtain ⟨-, hloaded, -⟩ := listing_loads rooted_campaignSession table?_campaignSession hplain
    Folder.empty.read "campaign"
  exact ⟨hplain, by decide, hloaded⟩

end Session
end Dice
