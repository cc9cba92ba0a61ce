/-
# Macros

A macro is a name for one or more rolls.  `Macros` is a finite map from names to rolls, held as a
list in ascending order of the names, by code points; so two maps with the same contents are equal.

* `find?_insert`: a name means what it was last given, and no other name changes;
* `names_pairwise`: the names are listed in strictly ascending order.

A token stands for the rolls of a macro if it is the name of one, and is read as dice notation
otherwise (`expand`).  Several tokens stand for all their rolls, one after the other (`resolve`);
the first one that stands for nothing is the error.
-/
import Dice.Notation.Token

namespace Dice

/-! ## 1. Sorted lists of entries -/

/-- A name with its rolls. -/
abbrev MacroEntry := String × List Roll

/-- Names in strictly ascending order. -/
def SortedEntries (es : List MacroEntry) : Prop := es.Pairwise fun a b => a.1 < b.1

/-- Puts an entry in its place; an entry of the same name gives way. -/
def insertEntry (e : MacroEntry) : List MacroEntry → List MacroEntry
  | [] => [e]
  | f :: fs =>
    if e.1 = f.1 then e :: fs
    else if e.1 < f.1 then e :: f :: fs
    else f :: insertEntry e fs

/-- The rolls of a name. -/
def rollsNamed? (name : String) : List MacroEntry → Option (List Roll)
  | [] => none
  | f :: fs => if name = f.1 then some f.2 else rollsNamed? name fs

theorem mem_insertEntry {e g : MacroEntry} :
    ∀ {es : List MacroEntry}, g ∈ insertEntry e es → g = e ∨ g ∈ es
  | [], h => by simpa [insertEntry] using h
  | f :: fs, h => by
    unfold insertEntry at h
    split at h
    · rcases List.mem_cons.mp h with h | h
      · exact Or.inl h
      · exact Or.inr (List.mem_cons_of_mem f h)
    · split at h
      · exact List.mem_cons.mp h
      · rcases List.mem_cons.mp h with h | h
        · exact Or.inr (h ▸ List.mem_cons_self)
        · exact (mem_insertEntry h).imp_right (List.mem_cons_of_mem f)

theorem SortedEntries.insertEntry {e : MacroEntry} :
    ∀ {es : List MacroEntry}, SortedEntries es → SortedEntries (insertEntry e es)
  | [], _ => by simp [Dice.insertEntry, SortedEntries]
  | f :: fs, h => by
    obtain ⟨hf, hfs⟩ := List.pairwise_cons.mp h
    unfold Dice.insertEntry
    split
    · rename_i hef
      exact List.pairwise_cons.mpr ⟨fun g hg => hef ▸ hf g hg, hfs⟩
    · rename_i hne
      split
      · rename_i hlt
        refine List.pairwise_cons.mpr ⟨fun g hg => ?_, h⟩
        rcases List.mem_cons.mp hg with rfl | hg
        · exact hlt
        · exact String.lt_trans hlt (hf g hg)
      · rename_i hnlt
        refine List.pairwise_cons.mpr ⟨fun g hg => ?_, SortedEntries.insertEntry hfs⟩
        rcases mem_insertEntry hg with rfl | hg
        · refine Decidable.byContradiction fun hn => hne ?_
          exact String.le_antisymm (String.not_lt.mp hn) (String.not_lt.mp hnlt)
        · exact hf g hg

theorem rollsNamed?_insertEntry (e : MacroEntry) (name : String) :
    ∀ es, rollsNamed? name (insertEntry e es)
      = if name = e.1 then some e.2 else rollsNamed? name es
  | [] => by simp [insertEntry, rollsNamed?]
  | f :: fs => by
    unfold insertEntry
    split
    · rename_i hef
      by_cases hn : name = e.1
      · simp [rollsNamed?, hn]
      · simp [rollsNamed?, hn, hef ▸ hn]
    · rename_i hne
      split
      · simp [rollsNamed?]
      · simp only [rollsNamed?, rollsNamed?_insertEntry e name fs]
        by_cases hn : name = f.1
        · have hfe : ¬f.1 = e.1 := fun h => hne h.symm
          simp [hn, hfe]
        · simp [hn]

/-! ## 2. The finite map -/

/-- A finite map from names to rolls. -/
structure Macros where
  entries : List MacroEntry
  sorted : SortedEntries entries
  deriving DecidableEq

namespace Macros

/-- No macros. -/
def empty : Macros := ⟨[], List.Pairwise.nil⟩

/-- The rolls of a name. -/
def find? (m : Macros) (name : String) : Option (List Roll) := rollsNamed? name m.entries

/-- Whether a name has rolls. -/
def contains (m : Macros) (name : String) : Bool := (m.find? name).isSome

/-- Gives a name its rolls, in place of any that it had. -/
def insert (m : Macros) (name : String) (rolls : List Roll) : Macros :=
  ⟨insertEntry (name, rolls) m.entries, m.sorted.insertEntry⟩

/-- The names, in ascending order. -/
def names (m : Macros) : List String := m.entries.map Prod.fst

/-- How many names there are. -/
def size (m : Macros) : Nat := m.entries.length

/-- The macros of a list of entries; of several entries for a name the last one counts. -/
def ofList (es : List MacroEntry) : Macros := es.foldl (fun m e => m.insert e.1 e.2) empty

@[simp] theorem find?_empty (name : String) : empty.find? name = none := rfl

theorem find?_insert (m : Macros) (name other : String) (rolls : List Roll) :
    (m.insert name rolls).find? other = if other = name then some rolls else m.find? other :=
  rollsNamed?_insertEntry (name, rolls) other m.entries

theorem names_pairwise (m : Macros) : m.names.Pairwise (· < ·) :=
  List.pairwise_map.mpr m.sorted

/-! ## 3. Tokens -/

/-- The logger of the records about macros. -/
def logger : String := loggerNamed "macros"

/-- The record of a macro in use. -/
def expandingRecord (name : String) : Record :=
  ⟨.debug, logger, "Expanding macro " ++ Text.quote name⟩

/-- The rolls that a token stands for. -/
def expand (m : Macros) (token : String) : Logged (Except Notation.Error (List Roll)) :=
  match m.find? token with
  | some rolls => ⟨[expandingRecord token], .ok rolls⟩
  | none =>
    let parsed := Notation.parseLogged token
    ⟨parsed.records, parsed.result.map fun r => [r]⟩

/-- The rolls that several tokens stand for, up to the first one that stands for none. -/
def resolve (m : Macros) : List String → Logged (Except Notation.Error (List Roll))
  | [] => ⟨[], .ok []⟩
  | t :: ts =>
    let first := m.expand t
    match first.result with
    | .error e => ⟨first.records, .error e⟩
    | .ok rolls =>
      let others := m.resolve ts
      ⟨first.records ++ others.records, others.result.map (rolls ++ ·)⟩

end Macros
end Dice
