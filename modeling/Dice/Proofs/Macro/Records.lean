/-
# What resolving and loading record

Each token leaves one record once it has been found to stand for rolls, and a line leaves one more,
a warning, if its name was there before.  Nothing else is recorded.  So the records of a load can be
told from its lines, as far as they were read, and from what each of them could use.

* `TokenRecords`: one record for each token before the first bad one.  Resolving leaves these
  (`tokenRecords_resolve`);
* `LineRecords`: what a line may leave.  One line leaves it (`lineRecords_addLine`), and so does
  each line of a load in its turn (`exists_parts_addLines`);
* `countP_isWarning_addLine`, `countP_isWarning_addLines`: a line that defines warns or makes a
  further macro, and so the warnings of a load are counted by its lines and by the sizes of the
  table;
* `Session.records_account`: **the records of a session account for every token and every line.**
-/
import Dice.Proofs.Macro.Faults

namespace Dice

open DefinitionLine (Defines SaysNothing)

namespace DefinitionLine

/-- A line that gives rolls to a name, or tries to. -/
def DefinesSome (line : String) : Prop := ∃ name tokens, Defines line name tokens

theorem definesSome_iff {line : String} : DefinesSome line ↔ read line ≠ .silent := by
  unfold DefinesSome
  cases hread : read line with
  | silent =>
    have hnone : ∀ name tokens, ¬Defines line name tokens := by
      intro name tokens hdef
      rw [read_eq_definition_iff.mpr hdef] at hread
      cases hread
    simp [hnone]
  | definition name tokens =>
    have hdef := read_eq_definition_iff.mp hread
    simpa using ⟨name, tokens, hdef⟩

instance (line : String) : Decidable (DefinesSome line) :=
  decidable_of_iff' _ definesSome_iff

end DefinitionLine

open DefinitionLine (DefinesSome)

namespace Macros

variable {m m' : Macros} {source line token : String} {tokens : List String}

/-! ## 1. Tokens -/

/-- **The record of a token** that stands for rolls: a macro in use, or notation that was read. -/
inductive TokenRecord (m : Macros) (token : String) : Record → Prop
  | expanding (h : m.contains token = true) :
      TokenRecord m token ⟨.debug, "diceroll.macros", "Expanding macro " ++ Text.quote token⟩
  | parsed {r : Roll} (hname : m.contains token = false) (hr : Notation.parse token = .ok r) :
      TokenRecord m token
        ⟨.debug, "diceroll.parser",
          "Parsed " ++ Text.quote token ++ " as " ++ ("Roll<" ++ r.text ++ ">")⟩

/-- **The records of tokens**: one for each, in their order, up to the first one that stands for
nothing.  That one leaves none, and what comes after it is not looked at. -/
inductive TokenRecords (m : Macros) : List String → List Record → Prop
  | done : TokenRecords m [] []
  | bad {token : String} {tokens : List String} (h : ¬m.Stands token) :
      TokenRecords m (token :: tokens) []
  | next {token : String} {tokens : List String} {record : Record} {records : List Record}
      (hrecord : TokenRecord m token record) (hrest : TokenRecords m tokens records) :
      TokenRecords m (token :: tokens) (record :: records)

/-- One token. -/
theorem expand_cases (m : Macros) (token : String) :
    (∃ record rolls, TokenRecord m token record ∧ m.expand token = ⟨[record], .ok rolls⟩) ∨
      ¬m.Stands token ∧ ∃ e, m.expand token = ⟨[], .error e⟩ := by
  unfold expand
  cases hfind : m.find? token with
  | some rolls =>
    have hname : m.contains token = true := by rw [contains, hfind]; rfl
    exact Or.inl ⟨_, rolls, TokenRecord.expanding hname, rfl⟩
  | none =>
    have hname : m.contains token = false := by rw [contains, hfind]; rfl
    unfold Notation.parseLogged
    cases hparse : Notation.parse token with
    | ok r => exact Or.inl ⟨_, [r], TokenRecord.parsed hname hparse, rfl⟩
    | error e => exact Or.inr ⟨not_stands_iff.mpr ⟨hname, e, hparse⟩, e, rfl⟩

/-- **Resolving** leaves the records of its tokens. -/
theorem tokenRecords_resolve (m : Macros) (tokens : List String) :
    m.TokenRecords tokens (m.resolve tokens).records := by
  induction tokens with
  | nil => exact TokenRecords.done
  | cons token tokens ih =>
    unfold resolve
    rcases expand_cases m token with ⟨record, rolls, hrecord, hexpand⟩ | ⟨hbad, e, hexpand⟩
    · simp only [hexpand]
      exact TokenRecords.next hrecord ih
    · simp only [hexpand]
      exact TokenRecords.bad hbad

theorem TokenRecords.level_eq {records : List Record} (h : m.TokenRecords tokens records) :
    ∀ record ∈ records, record.level = .debug := by
  induction h with
  | done => simp
  | bad hbad => simp
  | next hrecord hrest ih =>
    refine List.forall_mem_cons.mpr ⟨?_, ih⟩
    cases hrecord <;> rfl

/-! ## 2. Lines -/

/-- **The records of a line.**  The macros `old` are those of the table, `before` are the lines
above this one, and `staged` is what they have made of the table.

A line that says nothing leaves no record.  Any other leaves the records of its tokens, where those
of a line at fault break off; and it leaves a warning after them exactly if it is not at fault and
its name is one of the table, or of a line above. -/
inductive LineRecords (source : String) (old : Macros) (before : List String) (staged : Macros)
    (line : String) : List Record → Prop
  | silent (h : SaysNothing line) : LineRecords source old before staged line []
  | faulty {name : String} {tokens : List String} {records : List Record}
      (hdef : Defines line name tokens)
      (hfault : tokens = [] ∨ ∃ token ∈ tokens, ¬staged.Stands token)
      (htokens : staged.TokenRecords tokens records) :
      LineRecords source old before staged line records
  | first {name : String} {tokens : List String} {records : List Record}
      (hdef : Defines line name tokens) (hne : tokens ≠ [])
      (hstands : ∀ token ∈ tokens, staged.Stands token)
      (hname : ¬(old.contains name = true ∨ DefinedBy before name))
      (htokens : staged.TokenRecords tokens records) :
      LineRecords source old before staged line records
  | again {name : String} {tokens : List String} {records : List Record}
      (hdef : Defines line name tokens) (hne : tokens ≠ [])
      (hstands : ∀ token ∈ tokens, staged.Stands token)
      (hname : old.contains name = true ∨ DefinedBy before name)
      (htokens : staged.TokenRecords tokens records) :
      LineRecords source old before staged line (records ++
        [⟨.warning, "diceroll.macros", source ++ " redefines macro " ++ Text.quote name⟩])

/-- Tokens that stand for rolls together do so one by one. -/
theorem stands_of_resolve {rolls : List Roll} (h : (m.resolve tokens).result = .ok rolls) :
    ∀ token ∈ tokens, m.Stands token := by
  intro token htoken
  refine Classical.byContradiction fun hbad => ?_
  obtain ⟨e, he⟩ := exists_firstBad_iff.mpr ⟨token, htoken, hbad⟩
  rw [resolve_eq_error_iff.mpr he] at h
  cases h

/-- **One line** of a load, with what the lines above it have made of the table. -/
theorem lineRecords_addLine {old : Macros} {before : List String}
    (h : (addLines source 1 old before).result = .ok m) (line : String) :
    LineRecords source old before m line (m.addLine source line).records := by
  have hadded := added_addLine m source line
  generalize m.addLine source line = added at hadded
  cases hadded with
  | silent hread => exact LineRecords.silent (DefinitionLine.read_eq_silent_iff.mp hread)
  | noRolls hdef => exact LineRecords.faulty hdef (Or.inl rfl) TokenRecords.done
  | @badToken name tokens records e hdef hne hresolve =>
    have htokens := tokenRecords_resolve m tokens
    have hbad : m.FirstBad tokens e := resolve_eq_error_iff.mp (by rw [hresolve])
    rw [hresolve] at htokens
    exact LineRecords.faulty hdef (Or.inr (exists_firstBad_iff.mp ⟨e, hbad⟩)) htokens
  | @defined name tokens records rolls hdef hne hresolve =>
    have htokens := tokenRecords_resolve m tokens
    have hstands : ∀ token ∈ tokens, m.Stands token := stands_of_resolve (by rw [hresolve])
    have hcontains := contains_addLines h name
    rw [hresolve] at htokens
    by_cases hname : m.contains name = true
    · rw [if_pos hname]
      exact LineRecords.again hdef hne hstands (hcontains.mp hname) htokens
    · rw [if_neg hname, List.append_nil]
      exact LineRecords.first hdef hne hstands (fun hold => hname (hcontains.mpr hold)) htokens

theorem LineRecords.debug_le_level {old staged : Macros} {before : List String}
    {records : List Record} (h : LineRecords source old before staged line records) :
    ∀ record ∈ records, Level.debug ≤ record.level := by
  have hdebug : ∀ {tokens : List String} {records : List Record},
      staged.TokenRecords tokens records → ∀ record ∈ records, Level.debug ≤ record.level :=
    fun htokens record hrecord => Int.le_of_eq (htokens.level_eq record hrecord).symm
  cases h with
  | silent _ => simp
  | faulty _ _ htokens => exact hdebug htokens
  | first _ _ _ _ htokens => exact hdebug htokens
  | again _ _ _ _ htokens =>
    refine List.forall_mem_append.mpr ⟨hdebug htokens, ?_⟩
    simp [Level.debug, Level.warning]

/-! ## 3. Several lines -/

theorem addLines_cons_of_error {k : Nat} {records : List Record} {fault : Fault}
    (h : m.addLine source line = ⟨records, .error fault⟩) (lines : List String) :
    addLines source k m (line :: lines) = ⟨records, .error ⟨source, k, fault⟩⟩ := by
  simp only [addLines, h]

theorem addLines_cons_of_ok {k : Nat} {records : List Record}
    (h : m.addLine source line = ⟨records, .ok m'⟩) (lines : List String) :
    addLines source k m (line :: lines)
      = ⟨records ++ (addLines source (k + 1) m' lines).records,
          (addLines source (k + 1) m' lines).result⟩ := by
  simp only [addLines, h]

/-- **Many lines**, each in its turn.  They are read to the last one, or to the faulty one. -/
theorem exists_parts_addLines {old : Macros} (before lines : List String)
    (hm : (addLines source 1 old before).result = .ok m) :
    ∃ parts : List (List Record),
      (addLines source (1 + before.length) m lines).records = parts.flatten ∧
      (∀ m', (addLines source (1 + before.length) m lines).result = .ok m' →
        parts.length = lines.length) ∧
      (∀ d, (addLines source (1 + before.length) m lines).result = .error d →
        d.lineNumber = before.length + parts.length) ∧
      ∀ i part, parts[i]? = some part →
        ∃ line u, lines[i]? = some line ∧
          (addLines source 1 old (before ++ lines.take i)).result = .ok u ∧
          LineRecords source old (before ++ lines.take i) u line part := by
  induction lines generalizing before m with
  | nil => exact ⟨[], rfl, by simp, by simp [addLines], by simp⟩
  | cons line lines ih =>
    have hline := lineRecords_addLine hm line
    have hfirst : ∀ records, LineRecords source old before m line records →
        ∃ line' u, (line :: lines)[0]? = some line' ∧
          (addLines source 1 old (before ++ (line :: lines).take 0)).result = .ok u ∧
          LineRecords source old (before ++ (line :: lines).take 0) u line' records := by
      intro records hrecords
      rw [List.take_zero, List.append_nil]
      exact ⟨line, m, rfl, hm, hrecords⟩
    cases hadded : m.addLine source line with
    | mk records result =>
      rw [hadded] at hline
      cases result with
      | error fault =>
        rw [addLines_cons_of_error hadded]
        refine ⟨[records], by simp, by simp, ?_, ?_⟩
        · intro d hd
          cases hd
          exact Nat.add_comm 1 before.length
        · intro i part hpart
          obtain ⟨rfl, rfl⟩ : i = 0 ∧ records = part := by
            cases i <;> simp_all
          exact hfirst records hline
      | ok m₁ =>
        -- the other lines have this one among those above them
        have hnext : (addLines source 1 old (before ++ [line])).result = .ok m₁ := by
          refine addLines_append_eq_ok_iff.mpr ⟨m, hm, ?_⟩
          exact addLines_cons_eq_ok_iff.mpr ⟨m₁, by rw [hadded], rfl⟩
        have hnumber : 1 + (before ++ [line]).length = 1 + before.length + 1 := by
          rw [List.length_append, List.length_singleton, Nat.add_assoc]
        obtain ⟨parts, hrecords, hread, hstopped, hparts⟩ := ih _ hnext
        rw [hnumber] at hrecords hread hstopped
        rw [addLines_cons_of_ok hadded]
        refine ⟨records :: parts, by simp [hrecords], ?_, ?_, ?_⟩
        · intro m' hm'
          rw [List.length_cons, List.length_cons, hread m' hm']
        · intro d hd
          have hd' := hstopped d hd
          rw [List.length_append, List.length_singleton] at hd'
          rw [List.length_cons]
          omega
        · intro i part hpart
          cases i with
          | zero =>
            obtain rfl : records = part := by simpa using hpart
            exact hfirst records hline
          | succ i =>
            have htake : before ++ (line :: lines).take (i + 1)
                = before ++ [line] ++ lines.take i := by simp
            rw [htake]
            exact hparts i part hpart

/-! ## 4. Counting warnings -/

theorem nodup_names (m : Macros) : m.names.Nodup := by
  refine m.names_pairwise.imp ?_
  intro a b hab heq
  rw [heq] at hab
  exact String.lt_irrefl b hab

theorem length_names (m : Macros) : m.names.length = m.size := List.length_map Prod.fst

/-- **A name is one more macro**, unless it was there before. -/
theorem size_insert (m : Macros) (name : String) (rolls : List Roll) :
    (m.insert name rolls).size = if m.contains name then m.size else m.size + 1 := by
  have hmem : ∀ other, other ∈ (m.insert name rolls).names ↔ other = name ∨ other ∈ m.names := by
    intro other
    rw [mem_names_iff, mem_names_iff, contains, find?_insert]
    by_cases h : other = name
    · simp [h]
    · simp [h, contains]
  rw [← length_names, ← length_names]
  by_cases hname : m.contains name = true
  · rw [if_pos hname]
    refine ((List.perm_ext_iff_of_nodup (nodup_names _) (nodup_names m)).mpr ?_).length_eq
    intro other
    rw [hmem, or_iff_right_of_imp]
    rintro rfl
    exact (mem_names_iff m other).mpr hname
  · rw [if_neg hname]
    have hnew : (name :: m.names).Nodup :=
      List.nodup_cons.mpr ⟨fun h => hname ((mem_names_iff m name).mp h), nodup_names m⟩
    refine ((List.perm_ext_iff_of_nodup (nodup_names _) hnew).mpr ?_).length_eq
    intro other
    rw [hmem, List.mem_cons]

/-- A warning. -/
def isWarning (record : Record) : Bool := record.level = .warning

theorem TokenRecords.countP_isWarning {records : List Record} (h : m.TokenRecords tokens records) :
    records.countP isWarning = 0 := by
  refine List.countP_eq_zero.mpr ?_
  intro record hrecord
  rw [isWarning, h.level_eq record hrecord]
  decide

/-- **One line** that counts: it says nothing, or it warns, or there is one more macro. -/
theorem countP_isWarning_addLine (h : (m.addLine source line).result = .ok m') :
    (m.addLine source line).records.countP isWarning + m'.size
      = (if DefinesSome line then 1 else 0) + m.size := by
  have hadded := added_addLine m source line
  generalize m.addLine source line = added at h hadded
  cases hadded with
  | silent hread =>
    have hnone : ¬DefinesSome line := fun hsome => DefinitionLine.definesSome_iff.mp hsome hread
    cases h
    simp [hnone]
  | noRolls hdef => cases h
  | badToken hdef hne hresolve => cases h
  | @defined name tokens records rolls hdef hne hresolve =>
    have hsome : DefinesSome line := ⟨name, tokens, hdef⟩
    have htokens := tokenRecords_resolve m tokens
    rw [hresolve] at htokens
    cases h
    rw [List.countP_append, htokens.countP_isWarning, size_insert, if_pos hsome]
    cases m.contains name with
    | true => simp [redefiningRecord, isWarning]
    | false => simp [Nat.add_comm]

/-- **Many lines** that count. -/
theorem countP_isWarning_addLines {lines : List String} {k : Nat}
    (h : (addLines source k m lines).result = .ok m') :
    (addLines source k m lines).records.countP isWarning + m'.size
      = lines.countP (fun line => DefinesSome line) + m.size := by
  induction lines generalizing k m with
  | nil =>
    cases h
    rfl
  | cons line lines ih =>
    obtain ⟨u, hu, hm'⟩ := addLines_cons_eq_ok_iff.mp h
    have hline := countP_isWarning_addLine hu
    have hlines := ih hm'
    cases hadded : m.addLine source line with
    | mk records result =>
      rw [hadded] at hu hline
      cases hu
      rw [addLines_cons_of_ok hadded, List.countP_append, List.countP_cons]
      dsimp only at hline
      simp only [decide_eq_true_eq]
      omega

end Macros

/-! ## 5. Sessions -/

namespace Session

open Macros (LineRecords isWarning)

/-- What is recorded where every record from a debugging one on is let through. -/
def heard (files : Files) (s : Session) (op : Operation) : List Record :=
  recordsFrom (Journal.thresholdFor true) (s.perform files op).2.records

theorem recordsFrom_eq_self {records : List Record}
    (h : ∀ record ∈ records, Level.debug ≤ record.level) :
    recordsFrom (Journal.thresholdFor true) records = records :=
  List.filter_eq_self.mpr fun record hrecord => decide_eq_true (h record hrecord)

section Heard

variable {s : Session} {number : Nat} {t : Macros.Table} (files : Files)

theorem heard_resolve (ht : s.table? number = some t) (tokens : List String) :
    t.macros.TokenRecords tokens (heard files s (.resolve number tokens)) := by
  obtain ⟨place, hplace, hplaced⟩ := Option.bind_eq_some_iff.mp ht
  have htokens := Macros.tokenRecords_resolve t.macros tokens
  have hperform : (s.perform files (.resolve number tokens)).2.records
      = (t.macros.resolve tokens).records := by
    simp only [perform, withTable, answer, hplace, hplaced]
  have hdebug : ∀ record ∈ (t.macros.resolve tokens).records, Level.debug ≤ record.level :=
    fun record hrecord => Int.le_of_eq (htokens.level_eq record hrecord).symm
  rw [heard, hperform, recordsFrom_eq_self hdebug]
  exact htokens

variable {source : String} {lines : List String}

theorem heard_extend (hs : s.Reachable) (ht : s.table? number = some t)
    (hfrozen : t.frozen = false)
    (hdebug : ∀ record ∈ (Macros.addLines source 1 t.macros lines).records,
      Level.debug ≤ record.level) :
    heard files s (.extend number source lines)
      = (Macros.addLines source 1 t.macros lines).records := by
  rw [heard, perform_extend_snd files source lines hs ht,
    Macros.Table.extend_of_not_frozen hfrozen]
  exact recordsFrom_eq_self hdebug

end Heard

/-- **The records account for every step.**  All records from a debugging one on are let through.

Resolving tokens records one line for each token before the first bad one, in order: a macro in use,
or notation that was read, with the notation of the roll.  The bad token leaves none.

A load into a table that is not frozen records, line by line, what resolving the tokens of the line
records in the table as the lines above have made it, and then one warning, if the line is not at
fault and its name was in the table or is that of a line above.  Lines that say nothing leave
nothing, and a line at fault leaves what its tokens have left; it is the last one that is read.

So after a load that succeeds, the warnings and the macros are as many as the lines that define and
the macros of before. -/
theorem records_account {s : Session} (hs : s.Reachable) {number : Nat} {t : Macros.Table}
    (ht : s.table? number = some t) (files : Files) (source : String) :
    let answer := fun ls => (s.perform files (.extend number source ls)).2.result
    (∀ tokens, t.macros.TokenRecords tokens (heard files s (.resolve number tokens))) ∧
    (t.frozen = false → ∀ lines,
      (∃ parts : List (List Record),
        heard files s (.extend number source lines) = parts.flatten ∧
        (∀ u, answer lines = .extended none u → parts.length = lines.length) ∧
        (∀ k fault, (answer lines).Tells (some (.definition ⟨source, k, fault⟩)) →
          parts.length = k) ∧
        ∀ i part, parts[i]? = some part →
          ∃ line u, lines[i]? = some line ∧ answer (lines.take i) = .extended none u ∧
            LineRecords source t.macros (lines.take i) u.macros line part) ∧
      ∀ u, answer lines = .extended none u →
        (heard files s (.extend number source lines)).countP isWarning + u.macros.size
          = lines.countP (fun line => DefinesSome line) + t.macros.size) := by
  intro answer
  refine ⟨heard_resolve files ht, fun hfrozen lines => ?_⟩
  have hnone : (Macros.addLines source 1 t.macros []).result = .ok t.macros := rfl
  obtain ⟨parts, hrecords, hread, hstopped, hparts⟩ :=
    Macros.exists_parts_addLines [] lines hnone
  have hloaded : ∀ ls u, answer ls = .extended none u ↔
      ∃ m, (Macros.addLines source 1 t.macros ls).result = .ok m ∧
        u = { t with macros := m } := fun ls u =>
    perform_extend_eq_iff_addLines files hs ht hfrozen
  have hdebug : ∀ record ∈ (Macros.addLines source 1 t.macros lines).records,
      Level.debug ≤ record.level := by
    intro record hrecord
    rw [show (Macros.addLines source 1 t.macros lines).records = parts.flatten from hrecords]
      at hrecord
    obtain ⟨part, hpart, hrecord⟩ := List.mem_flatten.mp hrecord
    obtain ⟨i, hi⟩ := List.mem_iff_getElem?.mp hpart
    obtain ⟨line, u, -, -, hline⟩ := hparts i part hi
    exact hline.debug_le_level record hrecord
  have hheard := heard_extend files hs ht hfrozen hdebug
  refine ⟨⟨parts, hheard.trans hrecords, ?_, ?_, ?_⟩, ?_⟩
  · intro u hu
    obtain ⟨m, hm, -⟩ := (hloaded lines u).mp hu
    exact hread m hm
  · intro k fault htold
    obtain ⟨d, hd, herror⟩ := (tells_some_iff_addLines files hs ht hfrozen).mp htold
    cases hd
    have hnumber := hstopped _ herror
    simpa using hnumber.symm
  · intro i part hpart
    obtain ⟨line, m, hline, hm, hpart'⟩ := hparts i part hpart
    exact ⟨line, { t with macros := m }, hline, (hloaded _ _).mpr ⟨m, hm, rfl⟩, hpart'⟩
  · intro u hu
    obtain ⟨m, hm, rfl⟩ := (hloaded lines u).mp hu
    rw [hheard]
    exact Macros.countP_isWarning_addLines hm

/-- Three lines that define, of which two define the same macro of the table again; and tokens of
which the third is bad. -/
theorem records_account_houseRules :
    let s := (start.perform Folder.empty.read (.new coreMacros)).1
    s.Reachable ∧ s.table? 0 = some ⟨coreMacros, false⟩ ∧
    (s.perform Folder.empty.read (.extend 0 "<macros>" houseRules)).2.result
      = .extended none ⟨houseMacros, false⟩ ∧
    (heard Folder.empty.read s (.extend 0 "<macros>" houseRules)).countP isWarning
      + houseMacros.size = houseRules.countP (fun line => DefinesSome line) + coreMacros.size ∧
    coreMacros.TokenRecords ["adv", "2d6", "oops", "dis"]
      (heard Folder.empty.read s (.resolve 0 ["adv", "2d6", "oops", "dis"])) := by
  intro s
  have hs : s.Reachable := Reachable.start.perform Folder.empty.read (.new coreMacros)
  have ht : s.table? 0 = some ⟨coreMacros, false⟩ := rfl
  have hload : (s.perform Folder.empty.read (.extend 0 "<macros>" houseRules)).2.result
      = .extended none ⟨houseMacros, false⟩ := rfl
  obtain ⟨htokens, hlines⟩ := records_account hs ht Folder.empty.read "<macros>"
  obtain ⟨-, hcount⟩ := hlines rfl houseRules
  exact ⟨hs, ht, hload, hcount _ hload, htokens _⟩

end Session
end Dice
