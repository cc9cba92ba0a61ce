/-
# The layout of definitions does not matter

What a file of definitions comes to does not depend on how it is laid out.  There are two reasons
for that.

* **A line is its words.**  `DefinitionLine.read` strips a line, looks for the sign of a comment and
  cuts the line into words; all of this can be told from the words (`DefinitionLine.read_congr`).
  So the ends of lines and the white space in them make no difference, and line numbers stay in
  step (`Macros.addLines_congr`).
* **A line that says nothing leaves the macros as they are.**  So it may stand anywhere, and only
  moves the numbers of the lines below it (`Macros.addLines_padded`).

`loadText_layout` has both for a file of text, which is loaded into a table of a reachable session.
-/
import Mathlib.Data.List.Forall2
import Dice.Proofs.Macro.Loading
import Dice.Proofs.Text.Encoding
import Dice.Proofs.Text.Layout

namespace Dice

open Text (LineEnd NoEnds Pieces Respaced)

/-! ## 1. Lines -/

/-- **A line is its words**: two lines with the same words say the same. -/
theorem DefinitionLine.read_congr {l l' : List Char} (h : Text.words l = Text.words l') :
    read (String.ofList l) = read (String.ofList l') := by
  rw [← Text.words_strip l, ← Text.words_strip l'] at h
  unfold read
  rw [String.toList_ofList, String.toList_ofList]
  dsimp only
  cases hwords : Text.words (Text.strip l) with
  | nil =>
    have hnil : Text.strip l = [] := Text.words_strip_eq_nil_iff.mp hwords
    have hnil' : Text.strip l' = [] := Text.words_strip_eq_nil_iff.mp (h ▸ hwords)
    rw [hnil, hnil']
    rfl
  | cons w ws =>
    -- a comment is known by the start of its first word
    have hwords' : Text.words (Text.strip l') = w :: ws := h ▸ hwords
    rw [hwords', ← Text.head?_of_words_strip hwords, ← Text.head?_of_words_strip hwords']

/-- **Lines with some more lines that say nothing**, put in anywhere. -/
inductive Padded : List String → List String → Prop
  | nil : Padded [] []
  | keep {ls ls' : List String} (l : String) : Padded ls ls' → Padded (l :: ls) (l :: ls')
  | silent {ls ls' : List String} {l : String} :
      DefinitionLine.SaysNothing l → Padded ls ls' → Padded ls (l :: ls')

theorem Padded.refl : ∀ ls : List String, Padded ls ls
  | [] => Padded.nil
  | l :: ls => (Padded.refl ls).keep l

/-- An error without the number of its line. -/
def DefinitionError.unnumbered (e : DefinitionError) : DefinitionError := { e with lineNumber := 0 }

namespace Macros

variable {source : String}

theorem addLine_congr {l l' : String} (h : DefinitionLine.read l = DefinitionLine.read l')
    (m : Macros) : m.addLine source l = m.addLine source l' := by
  unfold addLine
  rw [h]

theorem addLine_of_saysNothing {l : String} (h : DefinitionLine.SaysNothing l) (m : Macros) :
    m.addLine source l = ⟨[], .ok m⟩ := by
  unfold addLine
  rw [DefinitionLine.read_eq_silent_iff.mpr h]

/-- **Lines that say the same** come to the same, and a fault has the same number. -/
theorem addLines_congr {ls ls' : List String}
    (h : List.Forall₂ (fun l l' => DefinitionLine.read l = DefinitionLine.read l') ls ls') :
    ∀ (k : Nat) (m : Macros), addLines source k m ls = addLines source k m ls' := by
  induction h with
  | nil =>
    intro k m
    rfl
  | cons hread hrest ih =>
    intro k m
    simp only [addLines, addLine_congr hread, ih]

/-- **Lines with more lines that say nothing** come to the same, but for the number of a fault. -/
theorem addLines_padded (source : String) {ls ls' : List String} (h : Padded ls ls') :
    ∀ (k k' : Nat) (m : Macros),
      (addLines source k m ls).records = (addLines source k' m ls').records ∧
      (addLines source k m ls).result.mapError DefinitionError.unnumbered
        = (addLines source k' m ls').result.mapError DefinitionError.unnumbered := by
  induction h with
  | nil =>
    intro k k' m
    exact ⟨rfl, rfl⟩
  | keep l hrest ih =>
    intro k k' m
    simp only [addLines]
    cases (m.addLine source l).result with
    | error fault => exact ⟨rfl, rfl⟩
    | ok u =>
      obtain ⟨hrecords, hresult⟩ := ih (k + 1) (k' + 1) u
      exact ⟨congrArg ((m.addLine source l).records ++ ·) hrecords, hresult⟩
  | silent hl hrest ih =>
    intro k k' m
    simp only [addLines, addLine_of_saysNothing hl, List.nil_append]
    exact ih k (k' + 1) m

/-- A line at the end that says nothing. -/
theorem addLines_concat {l : String} (hl : DefinitionLine.SaysNothing l) (ls : List String)
    (k : Nat) (m : Macros) :
    addLines source k m (ls ++ [l]) = addLines source k m ls := by
  rw [addLines_append]
  unfold addMore
  cases hadded : addLines source k m ls with
  | mk records result =>
    cases result with
    | error e => rfl
    | ok u => simp [addLines, addLine_of_saysNothing hl]

/-- The pieces of a text come to what its lines come to. -/
theorem addLines_pieces (cs : List Char) (k : Nat) (m : Macros) :
    addLines source k m ((Text.pieces cs).map String.ofList)
      = addLines source k m ((Text.lines cs).map String.ofList) := by
  rcases Text.pieces_eq_lines_or cs with hpieces | hpieces
  · rw [hpieces]
  · rw [hpieces, List.map_append]
    exact addLines_concat (.inl rfl) _ k m

end Macros

/-! ## 2. Tables -/

/-- An error without the number of the faulty line, if there is one. -/
def LoadError.unnumbered : LoadError → LoadError
  | .definition e => .definition e.unnumbered
  | e => e

namespace Macros.Table

variable {t : Table} {source : String} {ls ls' : List String}

theorem extend_congr
    (h : addLines source 1 t.macros ls = addLines source 1 t.macros ls') :
    t.extend source ls = t.extend source ls' := by
  unfold extend extendBy
  dsimp only
  rw [h]

/-- Without the number, what a table makes of a result is what it makes of the result without the
number. -/
theorem mapError_unnumbered (added : Except DefinitionError Macros) (t : Table) :
    ((added.mapError LoadError.definition).map fun m => { t with macros := m }).mapError
        LoadError.unnumbered
      = ((added.mapError DefinitionError.unnumbered).mapError LoadError.definition).map
          fun m => { t with macros := m } := by
  cases added with
  | error e => rfl
  | ok m => rfl

theorem extend_padded (t : Table) (source : String) (h : Padded ls ls') :
    (t.extend source ls).records = (t.extend source ls').records ∧
    (t.extend source ls).result.mapError LoadError.unnumbered
      = (t.extend source ls').result.mapError LoadError.unnumbered := by
  cases hfrozen : t.frozen with
  | true =>
    rw [extend_of_frozen hfrozen, extend_of_frozen hfrozen]
    exact ⟨rfl, rfl⟩
  | false =>
    obtain ⟨hrecords, hresult⟩ := addLines_padded source h 1 1 t.macros
    rw [extend_of_not_frozen hfrozen, extend_of_not_frozen hfrozen]
    refine ⟨hrecords, ?_⟩
    dsimp only
    rw [mapError_unnumbered, mapError_unnumbered, hresult]

/-- A table that was not extended stays as it is, whatever the error says. -/
theorem after_mapError (t : Table) (r : Except LoadError Table) :
    t.after (r.mapError LoadError.unnumbered) = t.after r := by
  cases r with
  | error e => rfl
  | ok t' => rfl

theorem refusal?_mapError (r : Except LoadError Table) :
    refusal? (r.mapError LoadError.unnumbered) = (refusal? r).map LoadError.unnumbered := by
  cases r with
  | error e => rfl
  | ok t' => rfl

/-- **A file of text** is loaded as its pieces are. -/
theorem extendFrom_text {cs : List Char} {ps : List (List Char)} (hpieces : Pieces cs ps)
    (t : Table) (path : String) :
    t.extendFrom (fun _ => .ok (Text.Utf8.encode cs)) path
      = ⟨loadingRecord path :: (t.extend path (ps.map String.ofList)).records,
          (t.extend path (ps.map String.ofList)).result⟩ := by
  have hlines : t.extend path (ps.map String.ofList)
      = t.extend path ((Text.lines cs).map String.ofList) := by
    rw [hpieces.eq_pieces]
    exact extend_congr (addLines_pieces cs 1 t.macros)
  unfold extendFrom
  dsimp only
  rw [Text.readLines_encode, hlines]
  rfl

end Macros.Table

/-! ## 3. Sessions -/

/-- An answer without the number of a faulty line, if it tells one. -/
def Answer.unnumbered : Answer → Answer
  | .extended error t => .extended (error.map LoadError.unnumbered) t
  | a => a

namespace Session

/-- **Two operations do the same**: they answer and record the same, and after them every number
means the same table. -/
def SameEffect (r r' : Session × Logged Answer) : Prop :=
  r.2 = r'.2 ∧ ∀ other, r.1.table? other = r'.1.table? other

/-- **Two operations do the same but for line numbers.** -/
def SameButNumbers (r r' : Session × Logged Answer) : Prop :=
  r.2.records = r'.2.records ∧ r.2.result.unnumbered = r'.2.result.unnumbered ∧
    ∀ other, r.1.table? other = r'.1.table? other

section Effects

variable {s : Session} {files files' : Files} {op op' : Operation} {number : Nat}
  {t : Macros.Table} {f f' : Macros.Table → Logged (Except LoadError Macros.Table)}

/-- **What two loads have in common**, from what the functions on tables have in common. -/
theorem perform_load_congr (hs : s.Reachable) (ht : s.table? number = some t)
    (hop : op.load? files = some (number, f)) (hop' : op'.load? files' = some (number, f'))
    (h : t.after (f t).result = t.after (f' t).result) :
    (s.perform files op).2 = ⟨(f t).records,
      .extended (Macros.Table.refusal? (f t).result) (t.after (f t).result)⟩ ∧
    (s.perform files' op').2 = ⟨(f' t).records,
      .extended (Macros.Table.refusal? (f' t).result) (t.after (f' t).result)⟩ ∧
    ∀ other, (s.perform files op).1.table? other = (s.perform files' op').1.table? other := by
  obtain ⟨place, hplace, hplaced⟩ := Option.bind_eq_some_iff.mp ht
  obtain ⟨htold, hmeanings, htables⟩ := perform_load hs hop hplace hplaced
  obtain ⟨htold', hmeanings', htables'⟩ := perform_load hs hop' hplace hplaced
  refine ⟨htold, htold', table?_congr (hmeanings.trans hmeanings'.symm) fun place' => ?_⟩
  rw [htables, htables', h]

theorem sameEffect_of_load (hs : s.Reachable) (ht : s.table? number = some t)
    (hop : op.load? files = some (number, f)) (hop' : op'.load? files' = some (number, f'))
    (h : f t = f' t) : SameEffect (s.perform files op) (s.perform files' op') := by
  obtain ⟨htold, htold', htables⟩ := perform_load_congr hs ht hop hop' (by rw [h])
  exact ⟨by rw [htold, htold', h], htables⟩

theorem sameButNumbers_of_load (hs : s.Reachable) (ht : s.table? number = some t)
    (hop : op.load? files = some (number, f)) (hop' : op'.load? files' = some (number, f'))
    (hrecords : (f t).records = (f' t).records)
    (hresult : (f t).result.mapError LoadError.unnumbered
      = (f' t).result.mapError LoadError.unnumbered) :
    SameButNumbers (s.perform files op) (s.perform files' op') := by
  have hsame : t.after (f t).result = t.after (f' t).result := by
    rw [← Macros.Table.after_mapError, hresult, Macros.Table.after_mapError]
  obtain ⟨htold, htold', htables⟩ := perform_load_congr hs ht hop hop' hsame
  refine ⟨?_, ?_, htables⟩
  · rw [htold, htold']
    exact hrecords
  · rw [htold, htold', Answer.unnumbered, Answer.unnumbered, ← Macros.Table.refusal?_mapError,
      hresult, Macros.Table.refusal?_mapError, hsame]

end Effects

/-- Loads a file with some text into the table of a number. -/
def loadText (s : Session) (number : Nat) (path : String) (cs : List Char) :
    Session × Logged Answer :=
  s.perform (fun _ => .ok (Text.Utf8.encode cs)) (.extendFrom number path)

/-- Nothing but the file itself is looked at. -/
theorem perform_extendFrom_text {files : Files} {path : String} {cs : List Char}
    (hfile : files path = .ok (Text.Utf8.encode cs)) (s : Session) (number : Nat) :
    s.perform files (.extendFrom number path) = s.loadText number path cs := by
  simp only [loadText, perform, Macros.Store.loadFile, hfile]

section Layout

variable {s : Session} {number : Nat} {t : Macros.Table}

/-- Texts of which the pieces come to the same, do the same. -/
theorem loadText_congr (hs : s.Reachable) (ht : s.table? number = some t) {path : String}
    {cs cs' : List Char} {ps ps' : List (List Char)} (hps : Pieces cs ps) (hps' : Pieces cs' ps')
    (h : t.extend path (ps.map String.ofList) = t.extend path (ps'.map String.ofList)) :
    SameEffect (s.loadText number path cs) (s.loadText number path cs') := by
  refine sameEffect_of_load hs ht rfl rfl ?_
  rw [Macros.Table.extendFrom_text hps, Macros.Table.extendFrom_text hps', h]

/-- A load of a text does what a load of its pieces does, after the record of the file. -/
theorem loadText_eq_extend (hs : s.Reachable) (ht : s.table? number = some t) (files : Files)
    {path : String} {cs : List Char} {ps : List (List Char)} (hps : Pieces cs ps) :
    let r := s.perform files (.extend number path (ps.map String.ofList))
    (s.loadText number path cs).2
      = ⟨Macros.Table.loadingRecord path :: r.2.records, r.2.result⟩ ∧
    ∀ other, (s.loadText number path cs).1.table? other = r.1.table? other := by
  intro r
  have hfile := Macros.Table.extendFrom_text hps t path
  have hop : (Operation.extendFrom number path).load? (fun _ => .ok (Text.Utf8.encode cs))
      = some (number, fun t => t.extendFrom (fun _ => .ok (Text.Utf8.encode cs)) path) := rfl
  have hop' : (Operation.extend number path (ps.map String.ofList)).load? files
      = some (number, fun t => t.extend path (ps.map String.ofList)) := rfl
  obtain ⟨htold, htold', htables⟩ := perform_load_congr hs ht hop hop' (by rw [hfile])
  refine ⟨?_, htables⟩
  rw [loadText, htold, htold', hfile]

/-- Pieces that differ in white space say the same. -/
theorem forall₂_read_of_respaced {ps ps' : List (List Char)}
    (h : List.Forall₂ (Relation.EqvGen Respaced) ps ps') :
    List.Forall₂ (fun l l' => DefinitionLine.read l = DefinitionLine.read l')
      (ps.map String.ofList) (ps'.map String.ofList) := by
  rw [List.forall₂_map_left_iff, List.forall₂_map_right_iff]
  exact h.imp fun l l' hl => DefinitionLine.read_congr (Text.words_eq_of_eqvGen hl)

/-- **The layout of a file of definitions does not matter.**  A file of text is loaded into a table
of a reachable session.

Every text has pieces, between which its lines end.  Loading the file does what loading the pieces
does, after the record that it is loaded; no other file is looked at.  It does the same, down to the
number, the fault and the cause of an error, if all line ends are converted to another one, if a
line end is added after the text, and if the white space in its lines is changed.  If lines that say
nothing are put in anywhere, it does the same but for the number of a faulty line.

White space that is neither a line feed nor a carriage return separates words and ends no line. -/
theorem loadText_layout (hs : s.Reachable) (ht : s.table? number = some t) (path : String) :
    let load := s.loadText number path
    (∀ cs, ∃ ps, Pieces cs ps) ∧
    (∀ files cs ps, files path = .ok (Text.Utf8.encode cs) → Pieces cs ps →
      let r := s.perform files (.extend number path (ps.map String.ofList))
      s.perform files (.extendFrom number path) = load cs ∧
      (load cs).2 = ⟨Macros.Table.loadingRecord path :: r.2.records, r.2.result⟩ ∧
      ∀ other, (load cs).1.table? other = r.1.table? other) ∧
    (∀ cs ps (e : LineEnd), Pieces cs ps →
      SameEffect (load (e.chars.intercalate ps)) (load cs)) ∧
    (∀ cs (e : LineEnd), SameEffect (load (cs ++ e.chars)) (load cs)) ∧
    (∀ cs cs' ps ps', Pieces cs ps → Pieces cs' ps' →
      List.Forall₂ (Relation.EqvGen Respaced) ps ps' → SameEffect (load cs') (load cs)) ∧
    (∀ cs cs' ps ps', Pieces cs ps → Pieces cs' ps' →
      Padded (ps.map String.ofList) (ps'.map String.ofList) →
      SameButNumbers (load cs') (load cs)) ∧
    ∀ c, Text.isBlank c = true → c ≠ '\n' → c ≠ '\r' → ∀ l l',
      Text.words (l ++ c :: l') = Text.words l ++ Text.words l' ∧
      (NoEnds l → NoEnds l' → Pieces (l ++ c :: l') [l ++ c :: l']) := by
  intro load
  refine ⟨Text.exists_pieces, fun files cs ps hfile hps => ?_, fun cs ps e hps => ?_,
    fun cs e => ?_, fun cs cs' ps ps' hps hps' h => ?_, fun cs cs' ps ps' hps hps' h => ?_,
    fun c hc hfeed hreturn l l' => ?_⟩
  · obtain ⟨htold, htables⟩ := loadText_eq_extend hs ht files hps
    exact ⟨perform_extendFrom_text hfile s number, htold, htables⟩
  · have hps' := Text.pieces_intercalate e hps.ne_nil hps.noEnds
    exact loadText_congr hs ht hps' hps rfl
  · obtain ⟨ps, hps⟩ := Text.exists_pieces cs
    rcases Text.pieces_append_end hps e with hps' | hps'
    · refine loadText_congr hs ht hps' hps (Macros.Table.extend_congr ?_)
      rw [List.map_append]
      exact Macros.addLines_concat (.inl rfl) _ 1 t.macros
    · exact loadText_congr hs ht hps' hps rfl
  · refine loadText_congr hs ht hps' hps (Macros.Table.extend_congr ?_)
    exact (Macros.addLines_congr (forall₂_read_of_respaced h) 1 t.macros).symm
  · obtain ⟨hrecords, hresult⟩ := Macros.Table.extend_padded t path h
    refine sameButNumbers_of_load hs ht rfl rfl ?_ ?_
    · rw [Macros.Table.extendFrom_text hps, Macros.Table.extendFrom_text hps', hrecords]
    · rw [Macros.Table.extendFrom_text hps, Macros.Table.extendFrom_text hps']
      exact hresult.symm
  · refine ⟨Text.words_append_blank hc l l', fun hl hl' => Pieces.last fun d hd => ?_⟩
    rcases List.mem_append.mp hd with hd | hd
    · exact hl d hd
    · rcases List.mem_cons.mp hd with rfl | hd
      · exact ⟨hfeed, hreturn⟩
      · exact hl' d hd

end Layout

/-- Two lines that define. -/
def pairText : List Char := "adv adv d12\npair adv dis".toList

/-- They may have other ends, or other white space, or a comment between them. -/
theorem loadText_layout_pair :
    let s := (start.perform Folder.empty.read (.new coreMacros)).1
    s.Reachable ∧ s.table? 0 = some ⟨coreMacros, false⟩ ∧
    SameEffect (s.loadText 0 "house.txt" "adv adv d12\rpair adv dis".toList)
      (s.loadText 0 "house.txt" pairText) ∧
    SameEffect (s.loadText 0 "house.txt" "adv adv d12\n pair\u2028adv dis".toList)
      (s.loadText 0 "house.txt" pairText) ∧
    SameButNumbers (s.loadText 0 "house.txt" "adv adv d12\n# both\npair adv dis".toList)
      (s.loadText 0 "house.txt" pairText) := by
  intro s
  have hs : s.Reachable := Reachable.start.perform Folder.empty.read (.new coreMacros)
  have ht : s.table? 0 = some ⟨coreMacros, false⟩ := rfl
  obtain ⟨-, -, hends, -, hspace, hmore, -⟩ := loadText_layout hs ht "house.txt"
  have hplain : Pieces pairText ["adv adv d12".toList, "pair adv dis".toList] :=
    Text.pieces_iff.mpr (by decide)
  refine ⟨hs, ht, ?_, ?_, ?_⟩
  · have hreturns : LineEnd.carriageReturn.chars.intercalate
        ["adv adv d12".toList, "pair adv dis".toList] = "adv adv d12\rpair adv dis".toList := by
      decide
    rw [← hreturns]
    exact hends _ _ .carriageReturn hplain
  · have hspaced : Pieces "adv adv d12\n pair\u2028adv dis".toList
        ["adv adv d12".toList, " pair\u2028adv dis".toList] := Text.pieces_iff.mpr (by decide)
    have hblank : Text.Blanks [' '] := by decide
    have hseparator : Text.Blanks ['\u2028'] := by decide
    have hfront : Respaced "pair adv dis".toList " pair adv dis".toList :=
      Respaced.front "pair adv dis".toList hblank
    have hbetween : Respaced " pair adv dis".toList " pair\u2028adv dis".toList :=
      Respaced.between " pair".toList "adv dis".toList hblank (by decide) hseparator (by decide)
    exact hspace _ _ _ _ hplain hspaced (.cons (.refl _)
      (.cons ((Relation.EqvGen.rel _ _ hfront).trans _ _ _ (.rel _ _ hbetween)) .nil))
  · have hpadded : Pieces "adv adv d12\n# both\npair adv dis".toList
        ["adv adv d12".toList, "# both".toList, "pair adv dis".toList] :=
      Text.pieces_iff.mpr (by decide)
    exact hmore _ _ _ _ hplain hpadded (.keep _ (.silent (.inr (by decide)) (.refl _)))

end Session
end Dice
