/-
# Tables that are kept

Whoever makes a table, or loads into one that was not there before, leaves the other tables of a
session alone.  `Keeps` says that nothing is lost on the way from one session to another.

* `keeps_add`, `keeps_addStandard`, `keeps_load`: what making and loading keeps, if the load is into
  a table that was not there;
* `addStandard_intact`: whoever asks for the standard table gets it as it was made, if it is so
  still.
-/
import Dice.Proofs.Macro.Loading

namespace Dice

namespace Session

/-! ## 1. Tables that are kept -/

/-- **Nothing that was there is lost.**  All tables of a session are in another one as they were,
and so is what the numbers mean and which table is the standard one. -/
structure Keeps (s s' : Session) : Prop where
  tables : ∀ place t, s.store.table? place = some t → s'.store.table? place = some t
  meanings : s.meanings <+: s'.meanings
  shared : ∀ place, s.shared = some place → s'.shared = some place

/-- If the standard table has been asked for, it is as it was made. -/
def StandardIntact (s : Session) : Prop :=
  ∀ place, s.shared = some place → s.store.table? place = some standardTable

variable {s s' s'' : Session}

theorem Keeps.trans (h : s.Keeps s') (h' : s'.Keeps s'') : s.Keeps s'' where
  tables := fun place t ht => h'.tables place t (h.tables place t ht)
  meanings := h.meanings.trans h'.meanings
  shared := fun place hplace => h'.shared place (h.shared place hplace)

/-- A number keeps its meaning if there are only further ones. -/
theorem place_of_prefix (h : s.meanings <+: s'.meanings) {number place : Nat}
    (hplace : s.meanings[number]? = some place) : s'.meanings[number]? = some place := by
  obtain ⟨rest, hrest⟩ := h
  rw [← hrest, List.getElem?_append_left (List.getElem?_eq_some_iff.mp hplace).1]
  exact hplace

theorem Keeps.place (h : s.Keeps s') {number place : Nat}
    (hplace : s.meanings[number]? = some place) : s'.meanings[number]? = some place :=
  place_of_prefix h.meanings hplace

theorem Keeps.table? (h : s.Keeps s') {number : Nat} {t : Macros.Table}
    (ht : s.table? number = some t) : s'.table? number = some t := by
  obtain ⟨place, hplace, hplaced⟩ := Option.bind_eq_some_iff.mp ht
  exact table?_of_place (h.place hplace) (h.tables place t hplaced)

/-! ## 2. Making tables -/

/-- A table that is there is not at the place of the next one. -/
theorem ne_next_of_table? {place : Nat} {t : Macros.Table}
    (ht : s.store.table? place = some t) : place ≠ s.store.holders.length := by
  rintro rfl
  have hnone : s.store.holders[s.store.holders.length]? = none :=
    List.getElem?_eq_none (Nat.le_refl _)
  rw [Macros.Store.table?, hnone] at ht
  cases ht

theorem keeps_add (hs : s.store.Sound) (t : Macros.Table) : s.Keeps (s.add t) where
  tables := fun place _ hu =>
    (Macros.Store.table?_add hs t place).trans ((if_neg (ne_next_of_table? hu)).trans hu)
  meanings := List.prefix_append _ _
  shared := fun _ h => h

theorem table?_add (hs : s.store.Sound) (t : Macros.Table) : (s.add t).table? s.size = some t :=
  table?_of_place List.getElem?_concat_length
    ((Macros.Store.table?_add hs t s.store.holders.length).trans (if_pos rfl))

theorem keeps_addStandard (hs : s.store.Sound) : s.Keeps s.addStandard := by
  cases hshared : s.shared with
  | some i =>
    simp only [addStandard, hshared]
    exact ⟨fun _ _ h => h, List.prefix_append _ _, fun _ h => hshared.symm.trans h⟩
  | none =>
    have hadd := keeps_add hs standardTable
    simp only [addStandard, hshared]
    refine ⟨hadd.tables, hadd.meanings, fun place hplace => ?_⟩
    rw [hshared] at hplace
    cases hplace

/-- The standard table is there for whoever asks for it, as it was made. -/
theorem addStandard_intact (hs : s.store.Sound) (hintact : s.StandardIntact) :
    s.addStandard.StandardIntact ∧ s.addStandard.table? s.size = some standardTable ∧
      s.addStandard.size = s.size + 1 := by
  cases hshared : s.shared with
  | some i =>
    have hnumber : (s.meanings ++ [i])[s.meanings.length]? = some i := List.getElem?_concat_length
    simp only [addStandard, hshared, size]
    exact ⟨fun place hplace => hintact place (hshared.trans hplace),
      table?_of_place hnumber (hintact i hshared), List.length_append⟩
  | none =>
    simp only [addStandard, hshared]
    refine ⟨fun place hplace => ?_, table?_add hs standardTable, List.length_append⟩
    cases hplace
    exact (Macros.Store.table?_add hs standardTable _).trans (if_pos rfl)

/-! ## 3. Loading -/

theorem perform_copy {number : Nat} {t : Macros.Table} (ht : s.table? number = some t)
    (files : Files) :
    s.perform files (.copy number) = (s.add t.copy, ⟨[], .made s.size t.copy⟩) := by
  obtain ⟨place, hplace, hplaced⟩ := Option.bind_eq_some_iff.mp ht
  simp only [perform, withTable, hplace, hplaced]

/-- **A load into a new table** changes no old one. -/
theorem keeps_load {files : Files} {op : Operation} {number place : Nat} {t : Macros.Table}
    {f : Macros.Table → Logged (Except LoadError Macros.Table)} (hs' : s'.Reachable)
    (hop : op.load? files = some (number, f)) (hplace : s'.meanings[number]? = some place)
    (ht : s'.store.table? place = some t) (hkeeps : s.Keeps s')
    (hnew : s.store.table? place = none) : s.Keeps (s'.perform files op).1 := by
  obtain ⟨-, hmeanings, htables⟩ := perform_load hs' hop hplace ht
  obtain ⟨attempt, -, heq⟩ := perform_of_load? hop hplace ht
  have hshared : (s'.perform files op).1.shared = s'.shared := by
    rw [heq, afterLoad_fst]
  refine ⟨fun other u hu => ?_, hmeanings ▸ hkeeps.meanings, fun other hother => ?_⟩
  · have hne : other ≠ place := by
      rintro rfl
      rw [hnew] at hu
      cases hu
    rw [htables, if_neg hne]
    exact hkeeps.tables other u hu
  · rw [hshared]
    exact hkeeps.shared other hother

end Session

end Dice
