/-
# How a text is laid out

A text is laid out in lines, by the ends that are put between them, and a line in words, by the
white space around them.  Here both are said without a reader.

* `Pieces`: **what lies between the line ends of a text**, from its start to its end.  Every text
  has pieces, and they are what the reader of lines finds (`pieces_iff`);
* `pieces_intercalate`, `pieces_append_end`: texts with the same pieces, whatever ends a line, and
  texts with one more end;
* `Respaced`: **a change of the white space in a line**, which changes no word
  (`words_eq_of_eqvGen`).

A carriage return and a line feed are one end together.  So a line that is ended by a carriage
return is not followed by a line feed.
-/
import Mathlib.Logic.Relation
import Dice.Proofs.Text.Words
import Dice.Text.Lines

namespace Dice.Text

/-! ## 1. Ends and pieces -/

/-- What ends a line. -/
inductive LineEnd
  | feed
  | returnFeed
  | carriageReturn
  deriving DecidableEq

/-- The characters of a line end. -/
def LineEnd.chars : LineEnd → List Char
  | feed => ['\n']
  | returnFeed => ['\r', '\n']
  | carriageReturn => ['\r']

/-- A text in which no line ends. -/
def NoEnds (cs : List Char) : Prop := ∀ c ∈ cs, c ≠ '\n' ∧ c ≠ '\r'

theorem noEnds_nil : NoEnds [] := fun _ h => absurd h List.not_mem_nil

theorem noEnds_cons_iff {c : Char} {cs : List Char} :
    NoEnds (c :: cs) ↔ (c ≠ '\n' ∧ c ≠ '\r') ∧ NoEnds cs :=
  List.forall_mem_cons

/-- **A text and its pieces**, between which the lines end.  The last piece is what follows the last
end; it may be empty. -/
inductive Pieces : List Char → List (List Char) → Prop
  | last {l : List Char} : NoEnds l → Pieces l [l]
  | ended {l cs : List Char} {ls : List (List Char)} (e : LineEnd) :
      NoEnds l → (e = .carriageReturn → cs.head? ≠ some '\n') → Pieces cs ls →
      Pieces (l ++ (e.chars ++ cs)) (l :: ls)

theorem Pieces.noEnds {cs : List Char} {ls : List (List Char)} (h : Pieces cs ls) :
    ∀ l ∈ ls, NoEnds l := by
  induction h with
  | last hl =>
    intro l hmem
    rw [List.mem_singleton.mp hmem]
    exact hl
  | ended e hl hnext hrest ih => exact List.forall_mem_cons.mpr ⟨hl, ih⟩

theorem Pieces.ne_nil {cs : List Char} {ls : List (List Char)} (h : Pieces cs ls) : ls ≠ [] := by
  cases h with
  | last hl => exact List.cons_ne_nil _ _
  | ended e hl hnext hrest => exact List.cons_ne_nil _ _

/-! ## 2. Pieces as a reader finds them -/

/-- The pieces of a text: its ended lines, and the rest. -/
def pieces (cs : List Char) : List (List Char) := (cutLines cs).1 ++ [(cutLines cs).2]

theorem cutLines_cons {c : Char} (hc : c ≠ '\n' ∧ c ≠ '\r') (cs : List Char) :
    cutLines (c :: cs) = pushChar c (cutLines cs) := by
  have hend : ¬(c = '\n' || c = '\r') = true := by simpa using hc
  rw [cutLines, if_neg hend]
  intro cs' hreturn
  exact absurd hreturn hc.2

theorem cutLines_end {cs : List Char} (e : LineEnd)
    (hnext : e = .carriageReturn → cs.head? ≠ some '\n') :
    cutLines (e.chars ++ cs) = endLine (cutLines cs) := by
  cases e with
  | feed => simp [LineEnd.chars, cutLines]
  | returnFeed => rfl
  | carriageReturn =>
    have hhead := hnext rfl
    cases cs with
    | nil => rfl
    | cons c cs =>
      have hc : c ≠ '\n' := fun heq => hhead (by rw [heq]; rfl)
      rw [LineEnd.chars, List.singleton_append, cutLines]
      · rfl
      · intro cs' _ heq
        exact hc (List.cons.inj heq).1

/-- A line that is put in front of what follows its end. -/
theorem pieces_line {l cs : List Char} (hl : NoEnds l) (e : LineEnd)
    (hnext : e = .carriageReturn → cs.head? ≠ some '\n') :
    pieces (l ++ (e.chars ++ cs)) = l :: pieces cs := by
  have hcut : cutLines (l ++ (e.chars ++ cs)) = (l :: (cutLines cs).1, (cutLines cs).2) := by
    induction l with
    | nil => exact cutLines_end e hnext
    | cons c l ih =>
      obtain ⟨hc, hl⟩ := noEnds_cons_iff.mp hl
      rw [List.cons_append, cutLines_cons hc, ih hl]
      rfl
  rw [pieces, hcut]
  rfl

theorem pieces_last {l : List Char} (hl : NoEnds l) : pieces l = [l] := by
  have hcut : cutLines l = ([], l) := by
    induction l with
    | nil => rfl
    | cons c l ih =>
      obtain ⟨hc, hl⟩ := noEnds_cons_iff.mp hl
      rw [cutLines_cons hc, ih hl]
      rfl
  rw [pieces, hcut]
  rfl

/-- A character that ends no line belongs to the first piece. -/
theorem Pieces.cons {c : Char} {cs l : List Char} {ls : List (List Char)}
    (hc : c ≠ '\n' ∧ c ≠ '\r') (h : Pieces cs (l :: ls)) : Pieces (c :: cs) ((c :: l) :: ls) := by
  cases h with
  | last hl => exact Pieces.last (noEnds_cons_iff.mpr ⟨hc, hl⟩)
  | ended e hl hnext hrest => exact Pieces.ended e (noEnds_cons_iff.mpr ⟨hc, hl⟩) hnext hrest

/-- **Every text has pieces.** -/
theorem exists_pieces (cs : List Char) : ∃ ls, Pieces cs ls := by
  induction cs using cutLines.induct with
  | case1 => exact ⟨[[]], Pieces.last noEnds_nil⟩
  | case2 cs ih =>
    obtain ⟨ls, hls⟩ := ih
    exact ⟨[] :: ls, Pieces.ended .returnFeed noEnds_nil nofun hls⟩
  | case3 c cs hreturn hend ih =>
    obtain ⟨ls, hls⟩ := ih
    rw [Bool.or_eq_true, decide_eq_true_eq, decide_eq_true_eq] at hend
    rcases hend with rfl | rfl
    · exact ⟨[] :: ls, Pieces.ended .feed noEnds_nil nofun hls⟩
    · refine ⟨[] :: ls, Pieces.ended .carriageReturn noEnds_nil (fun _ hfeed => ?_) hls⟩
      obtain ⟨cs', rfl⟩ := List.head?_eq_some_iff.mp hfeed
      exact hreturn cs' rfl rfl
  | case4 c cs hreturn hend ih =>
    obtain ⟨ls, hls⟩ := ih
    obtain ⟨l, ls, rfl⟩ := List.exists_cons_of_ne_nil hls.ne_nil
    exact ⟨(c :: l) :: ls, hls.cons (by simpa using hend)⟩

theorem Pieces.eq_pieces {cs : List Char} {ls : List (List Char)} (h : Pieces cs ls) :
    ls = pieces cs := by
  induction h with
  | last hl => rw [pieces_last hl]
  | ended e hl hnext hrest ih => rw [pieces_line hl e hnext, ih]

/-- **The pieces are what the reader of lines finds.** -/
theorem pieces_iff {cs : List Char} {ls : List (List Char)} : Pieces cs ls ↔ ls = pieces cs := by
  constructor
  · exact Pieces.eq_pieces
  · rintro rfl
    obtain ⟨ls, hls⟩ := exists_pieces cs
    exact hls.eq_pieces ▸ hls

/-- The pieces are the lines, and perhaps an empty one after them. -/
theorem pieces_eq_lines_or (cs : List Char) :
    pieces cs = lines cs ∨ pieces cs = lines cs ++ [[]] := by
  unfold pieces lines
  obtain ⟨ls, rest⟩ := cutLines cs
  cases rest with
  | nil => exact .inr rfl
  | cons c rest => exact .inl rfl

/-! ## 3. Other ends, and one more -/

/-- **Pieces with the same end after each of them**, but the last. -/
theorem pieces_intercalate (e : LineEnd) :
    ∀ {ls : List (List Char)}, ls ≠ [] → (∀ l ∈ ls, NoEnds l) →
      Pieces (e.chars.intercalate ls) ls
  | [], hne, _ => absurd rfl hne
  | [l], _, h => by
    rw [List.intercalate_singleton]
    exact Pieces.last (h l List.mem_cons_self)
  | l :: l' :: ls, _, h => by
    have hothers : ∀ k ∈ l' :: ls, NoEnds k := fun k hk => h k (List.mem_cons_of_mem l hk)
    rw [List.intercalate_cons_cons, List.append_assoc]
    refine Pieces.ended e (h l List.mem_cons_self) (fun hreturn hfeed => ?_)
      (pieces_intercalate e (List.cons_ne_nil l' ls) hothers)
    -- nothing that is put together here is a line feed
    have hnone : ∀ c ∈ e.chars.intercalate (l' :: ls), c ≠ '\n' := by
      refine forall_mem_intercalate ?_ fun k hk c hc => (hothers k hk c hc).1
      rw [hreturn]
      simp [LineEnd.chars]
    exact hnone '\n' (List.mem_of_head? hfeed) rfl

/-- **One more end** makes an empty piece, or completes the end that was there. -/
theorem pieces_append_end {cs : List Char} {ls : List (List Char)} (h : Pieces cs ls)
    (e : LineEnd) : Pieces (cs ++ e.chars) (ls ++ [[]]) ∨ Pieces (cs ++ e.chars) ls := by
  have hnil : Pieces [] [[]] := Pieces.last noEnds_nil
  induction h with
  | @last l hl =>
    have hended := Pieces.ended e hl (fun _ => by decide) hnil
    rw [List.append_nil] at hended
    exact .inl hended
  | @ended l cs ls e' hl hnext hrest ih =>
    rw [List.append_assoc, List.append_assoc]
    by_cases hmerge : e' = .carriageReturn ∧ (cs ++ e.chars).head? = some '\n'
    · -- the two ends are one
      obtain ⟨rfl, hfeed⟩ := hmerge
      cases cs with
      | cons c cs => exact absurd hfeed (hnext rfl)
      | nil =>
        have hls : ls = [[]] := hrest.eq_pieces
        cases e with
        | feed =>
          rw [hls]
          exact .inr (Pieces.ended .returnFeed hl nofun hnil)
        | returnFeed => exact absurd hfeed (by decide)
        | carriageReturn => exact absurd hfeed (by decide)
    · have hnext' : e' = .carriageReturn → (cs ++ e.chars).head? ≠ some '\n' :=
        fun hreturn hfeed => hmerge ⟨hreturn, hfeed⟩
      exact ih.imp (Pieces.ended e' hl hnext') (Pieces.ended e' hl hnext')

/-! ## 4. White space in a line -/

/-- White space that ends no line. -/
def Blanks (b : List Char) : Prop := ∀ c ∈ b, isBlank c = true ∧ c ≠ '\n' ∧ c ≠ '\r'

instance (b : List Char) : Decidable (Blanks b) :=
  List.decidableBAll (fun c => isBlank c = true ∧ c ≠ '\n' ∧ c ≠ '\r') b

/-- **A change of the white space in a line**: some is put in front or at the back, or a run of it
stands in place of another. -/
inductive Respaced : List Char → List Char → Prop
  | front {b : List Char} (l : List Char) : Blanks b → Respaced l (b ++ l)
  | back {b : List Char} (l : List Char) : Blanks b → Respaced l (l ++ b)
  | between {b b' : List Char} (l l' : List Char) : Blanks b → b ≠ [] → Blanks b' → b' ≠ [] →
      Respaced (l ++ (b ++ l')) (l ++ (b' ++ l'))

theorem words_blanks_append {b : List Char} (hb : Blanks b) (cs : List Char) :
    words (b ++ cs) = words cs := by
  induction b with
  | nil => rfl
  | cons c b ih =>
    obtain ⟨hc, hrest⟩ := List.forall_mem_cons.mp hb
    rw [List.cons_append, words_cons_blank hc.1, ih hrest]

theorem words_append_blanks_append {b : List Char} (hb : Blanks b) (hne : b ≠ [])
    (cs ds : List Char) : words (cs ++ (b ++ ds)) = words cs ++ words ds := by
  obtain ⟨c, b, rfl⟩ := List.exists_cons_of_ne_nil hne
  obtain ⟨hc, hrest⟩ := List.forall_mem_cons.mp hb
  rw [List.cons_append, words_append_blank hc.1, words_blanks_append hrest]

theorem words_append_blanks {b : List Char} (hb : Blanks b) (cs : List Char) :
    words (cs ++ b) = words cs := by
  by_cases hne : b = []
  · rw [hne, List.append_nil]
  · have hsplit := words_append_blanks_append hb hne cs []
    rw [List.append_nil] at hsplit
    rw [hsplit]
    exact List.append_nil (words cs)

/-- A change of white space changes no word. -/
theorem Respaced.words_eq {l l' : List Char} (h : Respaced l l') : words l = words l' := by
  cases h with
  | front l hb => exact (words_blanks_append hb l).symm
  | back l hb => exact (words_append_blanks hb l).symm
  | between k k' hb hne hb' hne' =>
    rw [words_append_blanks_append hb hne, words_append_blanks_append hb' hne']

/-- **Nor do several changes**, to and fro. -/
theorem words_eq_of_eqvGen {l l' : List Char} (h : Relation.EqvGen Respaced l l') :
    words l = words l' := by
  induction h with
  | rel l l' h => exact h.words_eq
  | refl l => rfl
  | symm l l' h ih => exact ih.symm
  | trans l l' l'' h h' ih ih' => exact ih.trans ih'

end Dice.Text
