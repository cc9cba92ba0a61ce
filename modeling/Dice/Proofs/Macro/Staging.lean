/-
# What staging and loading do to the memory

A load works in the memory that all tables live in, and it may stop anywhere.  What keeps the
tables safe is where it writes: at the address that it got for its copy, and nowhere else.

* `AgreeBelow n`: two memories have the same tables and, below the address `n`, the same
  dictionaries;
* `Sound`: no table has an address that is still to be given.  It is what makes the agreement below
  the end an agreement of all tables (`AgreeBelow.table?_eq`);
* `Staged`: the work at an address goes as a function on macros says.  One line does
  (`staged_line`), and so does a list of lines, wherever it stops (`staged_lines`);
* `Attempt`: the same for a table and a load into it (`attempt_load`, `attempt_loadFile`).  If the
  load fails, every table is left as it was (`Attempt.table?_of_error`).
-/
import Dice.Macro.Store

namespace Dice.Macros.Store

/-! ## 1. Sound memories -/

/-- Every table has its macros at an address that has been given. -/
def Sound (st : Store) : Prop := ∀ h ∈ st.holders, h.address < st.next

theorem sound_start : start.Sound := by
  intro h hh
  cases hh

@[simp] theorem next_allocate (st : Store) (m : Macros) : (st.allocate m).next = st.next + 1 := by
  simp [allocate, next]

@[simp] theorem next_write (st : Store) (a : Nat) (m : Macros) : (st.write a m).next = st.next := by
  simp [write, next]

@[simp] theorem next_turn (st : Store) (place a : Nat) : (st.turn place a).next = st.next := rfl

theorem Sound.add {st : Store} (hs : st.Sound) (t : Table) : (st.add t).Sound := by
  intro h hh
  have hn : (st.add t).next = st.next + 1 := next_allocate st t.macros
  rw [hn]
  rcases List.mem_append.mp hh with hh | hh
  · exact Nat.lt_succ_of_lt (hs h hh)
  · rw [List.mem_singleton.mp hh]
    exact Nat.lt_succ_self st.next

/-- What is in a list after one element was modified was there before, or is the modified one. -/
theorem mem_modify {α : Type} {f : α → α} {x : α} :
    ∀ {l : List α} {i : Nat}, x ∈ l.modify i f → x ∈ l ∨ ∃ y ∈ l, x = f y
  | [], i, h => by simp at h
  | y :: l, 0, h => by
    rcases List.mem_cons.mp h with h | h
    · exact Or.inr ⟨y, List.mem_cons_self, h⟩
    · exact Or.inl (List.mem_cons_of_mem y h)
  | y :: l, i + 1, h => by
    rcases List.mem_cons.mp h with h | h
    · exact Or.inl (h ▸ List.mem_cons_self)
    · rcases mem_modify h with h | ⟨z, hz, hx⟩
      · exact Or.inl (List.mem_cons_of_mem y h)
      · exact Or.inr ⟨z, List.mem_cons_of_mem y hz, hx⟩

theorem Sound.setFrozen {st : Store} (hs : st.Sound) (place : Nat) (frozen : Bool) :
    (st.setFrozen place frozen).Sound := by
  intro h hh
  rcases mem_modify hh with hh | ⟨g, hg, rfl⟩
  · exact hs h hh
  · exact hs g hg

theorem Sound.turn {st : Store} (hs : st.Sound) (place : Nat) {a : Nat} (ha : a < st.next) :
    (st.turn place a).Sound := by
  intro h hh
  rw [next_turn]
  rcases mem_modify hh with hh | ⟨g, hg, rfl⟩
  · exact hs h hh
  · exact ha

/-- The tables after one of them turned to another dictionary. -/
theorem table?_turn {st : Store} {place : Nat} {t : Table} (ht : st.table? place = some t)
    {a : Nat} {m : Macros} (ha : st.dictionaries[a]? = some m) (other : Nat) :
    (st.turn place a).table? other
      = if other = place then some { t with macros := m } else st.table? other := by
  obtain ⟨h, hh, hm⟩ := Option.bind_eq_some_iff.mp ht
  obtain ⟨m', _, rfl⟩ := Option.map_eq_some_iff.mp hm
  unfold table? turn
  rw [List.getElem?_modify]
  by_cases heq : other = place
  · subst heq
    simp [hh, ha]
  · have hne : ¬place = other := fun h => heq h.symm
    simp [heq, hne]

/-- The tables after one was made. -/
theorem table?_add {st : Store} (hs : st.Sound) (t : Table) (place : Nat) :
    (st.add t).table? place = if place = st.holders.length then some t else st.table? place := by
  have hholders : (st.add t).holders = st.holders ++ [⟨st.next, t.frozen⟩] := rfl
  have hdictionaries : (st.add t).dictionaries = st.dictionaries ++ [t.macros] := rfl
  unfold table?
  rw [hholders, hdictionaries]
  rcases Nat.lt_trichotomy place st.holders.length with hlt | rfl | hgt
  · rw [if_neg (Nat.ne_of_lt hlt), List.getElem?_append_left hlt]
    cases hp : st.holders[place]? with
    | none => rfl
    | some h =>
      have haddress : h.address < st.dictionaries.length := hs h (List.mem_of_getElem? hp)
      simp only [Option.bind_some]
      rw [List.getElem?_append_left haddress]
  · simp [next]
  · have hend : st.holders.length + 1 ≤ place := hgt
    rw [if_neg (Nat.ne_of_gt hgt), List.getElem?_eq_none (by simpa using hend),
      List.getElem?_eq_none (Nat.le_of_lt hgt)]
    rfl

/-- The tables after a flag was set. -/
theorem table?_setFrozen (st : Store) (place : Nat) (frozen : Bool) (other : Nat) :
    (st.setFrozen place frozen).table? other
      = (st.table? other).map fun t => if other = place then { t with frozen := frozen } else t := by
  unfold table? setFrozen
  rw [List.getElem?_modify]
  cases st.holders[other]? with
  | none => rfl
  | some h =>
    by_cases heq : place = other
    · simp [heq, Function.comp_def]
    · have hne : ¬other = place := fun h => heq h.symm
      simp [heq, hne, Function.comp_def]

/-! ## 2. Agreement below an address -/

/-- **The same tables, and the same dictionaries below an address.** -/
structure AgreeBelow (n : Nat) (st st' : Store) : Prop where
  holders : st'.holders = st.holders
  next_le : st.next ≤ st'.next
  dictionary : ∀ a < n, st'.dictionaries[a]? = st.dictionaries[a]?

namespace AgreeBelow

variable {n : Nat} {st st' st'' : Store}

theorem refl (n : Nat) (st : Store) : AgreeBelow n st st :=
  ⟨rfl, Nat.le_refl _, fun _ _ => rfl⟩

theorem trans (h : AgreeBelow n st st') (h' : AgreeBelow n st' st'') : AgreeBelow n st st'' :=
  ⟨h'.holders.trans h.holders, Nat.le_trans h.next_le h'.next_le,
    fun a ha => (h'.dictionary a ha).trans (h.dictionary a ha)⟩

/-- An allocation gives an address that no dictionary had. -/
theorem allocate (st : Store) (m : Macros) : AgreeBelow st.next st (st.allocate m) := by
  refine ⟨rfl, ?_, fun a ha => ?_⟩
  · rw [next_allocate]
    exact Nat.le_succ st.next
  · exact List.getElem?_append_left ha

/-- Nothing below the address of a write is overwritten. -/
theorem write (st : Store) (a : Nat) (m : Macros) : AgreeBelow a st (st.write a m) := by
  refine ⟨rfl, ?_, fun b hb => ?_⟩
  · exact Nat.le_of_eq (next_write st a m).symm
  · exact List.getElem?_set_ne (Nat.ne_of_gt hb)

theorem sound (h : AgreeBelow n st st') (hs : st.Sound) : st'.Sound := by
  intro g hg
  rw [h.holders] at hg
  exact Nat.lt_of_lt_of_le (hs g hg) h.next_le

/-- **Agreement below the end is agreement of all tables.** -/
theorem table?_eq (h : AgreeBelow st.next st st') (hs : st.Sound) (place : Nat) :
    st'.table? place = st.table? place := by
  unfold Store.table?
  rw [h.holders]
  cases hp : st.holders[place]? with
  | none => rfl
  | some g =>
    have hg : g.address < st.next := hs g (List.mem_of_getElem? hp)
    simp only [Option.bind_some]
    rw [h.dictionary g.address hg]

end AgreeBelow

/-! ## 3. Staging: one line, and many -/

section Staged

variable {ε : Type} {a : Nat} {st : Store}

/-- **The work at an address goes as a function on macros says.**  It tells what the function tells
and changes nothing below the address; and if the function gives macros, they are there. -/
inductive Staged (a : Nat) (st : Store) :
    Logged (Except ε Macros) → Store × Logged (Option ε) → Prop
  | failed {st' : Store} {records : List Record} {e : ε} :
      AgreeBelow a st st' → Staged a st ⟨records, .error e⟩ (st', ⟨records, some e⟩)
  | done {st' : Store} {records : List Record} {m : Macros} :
      AgreeBelow a st st' → st'.dictionaries[a]? = some m →
      Staged a st ⟨records, .ok m⟩ (st', ⟨records, none⟩)

theorem read_of_dictionary {m : Macros} (h : st.dictionaries[a]? = some m) : st.read a = m := by
  rw [read, h]
  rfl

theorem dictionary_write (ha : a < st.next) (m : Macros) :
    (st.write a m).dictionaries[a]? = some m :=
  List.getElem?_set_self ha

theorem dictionary_allocate (st : Store) (m : Macros) :
    (st.allocate m).dictionaries[st.next]? = some m := by
  rw [allocate, next, List.getElem?_append_right (Nat.le_refl _), Nat.sub_self]
  rfl

/-- **One line.** -/
theorem staged_line (ha : a < st.next) (source l : String) :
    Staged a st ((st.read a).addLine source l) (st.stageLine a source l) := by
  unfold stageLine
  dsimp only
  cases (st.read a).addLine source l with
  | mk records result =>
    cases result with
    | error fault => exact Staged.failed (AgreeBelow.refl a st)
    | ok m => exact Staged.done (AgreeBelow.write st a m) (dictionary_write ha m)

/-- **Many lines**, wherever they stop. -/
theorem staged_lines (source : String) :
    ∀ (k : Nat) {st : Store} (ls : List String), a < st.next →
      Staged a st (addLines source k (st.read a) ls) (stageLines a source k st ls)
  | _, st, [], ha => by
    refine Staged.done (AgreeBelow.refl a st) ?_
    rw [read, List.getElem?_eq_getElem ha]
    rfl
  | k, st, l :: ls, ha => by
    have hfirst := staged_line ha source l
    unfold addLines stageLines
    dsimp only
    generalize (st.read a).addLine source l = added at hfirst
    generalize st.stageLine a source l = first at hfirst
    cases hfirst with
    | failed hagree => exact Staged.failed hagree
    | @done st' records m hagree hm =>
      -- the other lines are staged in what the first one left, and find its macros there
      have hothers := staged_lines source (k + 1) ls (Nat.lt_of_lt_of_le ha hagree.next_le)
      rw [read_of_dictionary hm] at hothers
      dsimp only
      generalize addLines source (k + 1) m ls = added at hothers
      generalize stageLines a source (k + 1) st' ls = others at hothers
      cases hothers with
      | failed hagree' => exact Staged.failed (hagree.trans hagree')
      | done hagree' hm' => exact Staged.done (hagree.trans hagree') hm'

end Staged

/-! ## 4. Loading -/

/-- **A load goes as a function on tables says.**  It tells what the function tells.  If the function
gives no table, whatever was staged lies beyond the old end of the memory.  If it gives one, the
table at its place also turns to the dictionary there. -/
inductive Attempt (st : Store) (place : Nat) (t : Table) :
    Logged (Except LoadError Table) → Store × Logged (Option LoadError) → Prop
  | failed {staged : Store} {records : List Record} {e : LoadError} :
      AgreeBelow st.next st staged →
      Attempt st place t ⟨records, .error e⟩ (staged, ⟨records, some e⟩)
  | done {staged : Store} {records : List Record} {m : Macros} :
      AgreeBelow st.next st staged → staged.dictionaries[st.next]? = some m →
      Attempt st place t ⟨records, .ok { t with macros := m }⟩
        (staged.turn place st.next, ⟨records, none⟩)

theorem attempt_load (st : Store) (place : Nat) (t : Table) (source : String)
    (reading : Text.Reading) :
    Attempt st place t (t.extendBy source reading) (st.load place t source reading) := by
  have hcopy := AgreeBelow.allocate st t.macros
  have hnext : st.next < (st.allocate t.macros).next := by
    rw [next_allocate]
    exact Nat.lt_succ_self st.next
  have hlines := staged_lines source 1 reading.lines hnext
  rw [read_of_dictionary (dictionary_allocate st t.macros)] at hlines
  unfold Table.extendBy load
  by_cases hfrozen : t.frozen = true
  · rw [if_pos hfrozen, if_pos hfrozen]
    exact Attempt.failed (AgreeBelow.refl st.next st)
  · rw [if_neg hfrozen, if_neg hfrozen]
    dsimp only
    generalize addLines source 1 t.macros reading.lines = added at hlines
    generalize stageLines st.next source 1 (st.allocate t.macros) reading.lines = r at hlines
    -- the copy stands at the old end of the memory, so below it all agrees with the old one
    cases hlines with
    | failed hagree => exact Attempt.failed (hcopy.trans hagree)
    | done hagree hm =>
      dsimp only
      by_cases hsound : reading.sound = true
      · rw [if_pos hsound, if_pos hsound]
        exact Attempt.done (hcopy.trans hagree) hm
      · rw [if_neg hsound, if_neg hsound]
        exact Attempt.failed (hcopy.trans hagree)

theorem attempt_loadFile (st : Store) (place : Nat) (t : Table) (files : Files) (path : String) :
    Attempt st place t (t.extendFrom files path) (st.loadFile place t files path) := by
  unfold Table.extendFrom loadFile
  cases files path with
  | error e => exact Attempt.failed (AgreeBelow.refl st.next st)
  | ok octets =>
    have h := attempt_load st place t path (Text.readLines octets)
    dsimp only
    generalize t.extendBy path (Text.readLines octets) = extended at h
    generalize st.load place t path (Text.readLines octets) = r at h
    cases h with
    | failed hagree => exact Attempt.failed hagree
    | done hagree hm => exact Attempt.done hagree hm

namespace Attempt

variable {st : Store} {place : Nat} {t : Table} {extended : Logged (Except LoadError Table)}
  {r : Store × Logged (Option LoadError)}

theorem sound (h : Attempt st place t extended r) (hs : st.Sound) : r.1.Sound := by
  cases h with
  | failed hagree => exact hagree.sound hs
  | done hagree hm => exact (hagree.sound hs).turn place (List.getElem?_eq_some_iff.mp hm).1

/-- **Nothing.**  A load that fails leaves every table as it was. -/
theorem table?_of_error (h : Attempt st place t extended r) (hs : st.Sound) {e : LoadError}
    (he : extended.result = .error e) :
    r.2 = ⟨extended.records, some e⟩ ∧ ∀ other, r.1.table? other = st.table? other := by
  cases h with
  | failed hagree =>
    cases he
    exact ⟨rfl, hagree.table?_eq hs⟩
  | done hagree hm => cases he

/-- **All.**  A load that succeeds puts the extended table in its place, and no other table
changes. -/
theorem table?_of_ok (h : Attempt st place t extended r) (hs : st.Sound)
    (ht : st.table? place = some t) {t' : Table} (ht' : extended.result = .ok t') :
    r.2 = ⟨extended.records, none⟩ ∧
      ∀ other, r.1.table? other = if other = place then some t' else st.table? other := by
  cases h with
  | failed hagree => cases ht'
  | done hagree hm =>
    cases ht'
    refine ⟨rfl, fun other => ?_⟩
    have hsame := hagree.table?_eq hs
    rw [table?_turn ((hsame place).trans ht) hm, hsame other]

end Attempt

end Dice.Macros.Store
