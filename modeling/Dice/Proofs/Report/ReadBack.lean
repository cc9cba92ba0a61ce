/-
# Reading a report

A report on some rolls can be read again.  A line says which roll was thrown, what it came to and
what its dice show, and these parts can be told apart: no part holds the characters that stand
between it and the next one.

* `Text.cutAt?_append`: a text is cut where a separator stands first, so that texts that are equal
  have equal parts (`Text.append_inj_of_notMem`);
* `Die.readAll?_listChars`: a list of dice is read back, die by die;
* `Line.read?_line`: a line is read back, if its roll is within the limits of tokens;
* `text_reads_back`: **a report says what was thrown, and adds up.**
-/
import Mathlib.Data.List.Permutation
import Dice.Proofs.Report.Evaluation

namespace Dice

open Dice.Notation

/-! ## 1. Cutting a text -/

namespace Text

/-- What comes before the first place where a separator stands in a text, and what comes after the
separator. -/
def cutAt? (separator : List Char) : List Char → Option (List Char × List Char)
  | [] => none
  | c :: cs =>
    match (c :: cs).dropPrefix? separator with
    | some after => some ([], after)
    | none => (cutAt? separator cs).map fun parts => (c :: parts.1, parts.2)

theorem cutAt?_cons_of_ne {s c : Char} (h : c ≠ s) (separator cs : List Char) :
    cutAt? (s :: separator) (c :: cs)
      = (cutAt? (s :: separator) cs).map fun parts => (c :: parts.1, parts.2) := by
  have hprefix : (c :: cs).dropPrefix? (s :: separator) = none := by
    simp [List.dropPrefix?, h]
  rw [cutAt?, hprefix]

/-- **A separator is found** behind what does not hold its first character. -/
theorem cutAt?_append {s : Char} {before : List Char} (h : s ∉ before)
    (separator after : List Char) :
    cutAt? (s :: separator) (before ++ s :: separator ++ after) = some (before, after) := by
  induction before with
  | nil =>
    have hprefix : (s :: separator ++ after).dropPrefix? (s :: separator) = some after :=
      List.dropPrefix?_append_of_beq after (beq_self_eq_true (s :: separator))
    rw [List.nil_append, List.cons_append, cutAt?, ← List.cons_append, hprefix]
  | cons c before ih =>
    have hc : c ≠ s := fun heq => h (heq ▸ List.mem_cons_self)
    rw [List.cons_append, List.cons_append, cutAt?_cons_of_ne hc,
      ih fun hs => h (List.mem_cons_of_mem c hs), Option.map_some]

/-- Texts that are equal have equal parts before the first separator, and equal parts after it. -/
theorem append_inj_of_notMem {s : Char} {separator before before' after after' : List Char}
    (hb : s ∉ before) (hb' : s ∉ before')
    (h : before ++ s :: separator ++ after = before' ++ s :: separator ++ after') :
    before = before' ∧ after = after' := by
  have hcut := congrArg (cutAt? (s :: separator)) h
  rw [cutAt?_append hb, cutAt?_append hb'] at hcut
  exact Prod.mk.inj (Option.some.inj hcut)

/-- A separator is not found where its first character is not. -/
theorem cutAt?_eq_none {s : Char} {cs : List Char} (h : s ∉ cs) (separator : List Char) :
    cutAt? (s :: separator) cs = none := by
  induction cs with
  | nil => rfl
  | cons c cs ih =>
    have hc : c ≠ s := fun heq => h (heq ▸ List.mem_cons_self)
    rw [cutAt?_cons_of_ne hc, ih fun hs => h (List.mem_cons_of_mem c hs), Option.map_none]

end Text

open Text

/-! ## 2. Integers -/

namespace Numeral

/-- **An integer that can be written is read back.** -/
theorem read?_intText {n : Int} (h : fits n = true) : read? (intText n) = some n := by
  have hlength : (natText n.natAbs).length ≤ maxDigits := of_decide_eq_true h
  have hvalue := value_natText n.natAbs
  by_cases hn : n < 0
  · rw [Roll.intText_of_neg hn,
      read?_sign (Or.inr rfl) (natText_ne_nil n.natAbs) (isDigits_natText n.natAbs),
      if_pos hlength, hvalue, signed, if_pos (by decide)]
    exact congrArg some (by omega)
  · have habs : n.toNat = n.natAbs := by omega
    rw [Roll.intText_of_nonneg (by omega), habs,
      read?_digits (natText_ne_nil n.natAbs) (isDigits_natText n.natAbs), if_pos hlength, hvalue]
    exact congrArg some (by omega)

/-- A blank in front of a numeral is skipped. -/
theorem read?_blank (cs : List Char) : read? (' ' :: cs) = read? cs := by
  have hpad : isPadding ' ' = true := by decide
  have hstrip : stripBy isPadding (' ' :: cs) = stripBy isPadding cs := by
    rw [stripBy, List.dropWhile_cons_of_pos hpad, stripBy]
  rw [read?, hstrip, read?]

end Numeral

/-! ## 3. Dice -/

namespace Die

/-- Reads a die: a face, or two faces with an arrow between them. -/
def read? (cs : List Char) : Option Die :=
  match cutAt? ['=', '>'] cs with
  | none => (Numeral.read? cs).map kept
  | some (first, second) => do
    let first ← Numeral.read? first
    let second ← Numeral.read? second
    some (rerolled first second)

/-- Reads dice that are listed with a comma between each two.  If nothing is written there are
none. -/
def readAll? (cs : List Char) : Option (List Die) :=
  if cs = [] then some [] else (cs.splitOn ',').mapM read?

/-- **A die is read back.** -/
theorem read?_chars {d : Die} (h : ∀ n ∈ d.integers, Numeral.fits n = true) :
    read? d.chars = some d := by
  have harrow : ∀ n : Int, '=' ∉ Numeral.intText n := Numeral.notMem_intText (by decide)
  cases d with
  | kept face =>
    rw [chars, read?, cutAt?_eq_none (harrow face)]
    dsimp only
    rw [Numeral.read?_intText (h face List.mem_cons_self), Option.map_some]
  | rerolled first second =>
    have hfirst := h first List.mem_cons_self
    have hsecond := h second (List.mem_cons_of_mem first List.mem_cons_self)
    have hcut : cutAt? ['=', '>'] (chars (rerolled first second))
        = some (Numeral.intText first, Numeral.intText second) := by
      rw [← cutAt?_append (harrow first) ['>'] (Numeral.intText second), chars]
      simp
    rw [read?, hcut]
    simp [Numeral.read?_intText hfirst, Numeral.read?_intText hsecond]

/-- A blank in front of a die is skipped. -/
theorem read?_blank (cs : List Char) : read? (' ' :: cs) = read? cs := by
  rw [read?, read?, cutAt?_cons_of_ne (by decide)]
  cases cutAt? ['=', '>'] cs with
  | none => simp [Numeral.read?_blank]
  | some parts => simp [Numeral.read?_blank]

theorem notMem_chars {c : Char} (hc : isFormChar c = false) (harrow : c ∉ ['=', '>']) (d : Die) :
    c ∉ d.chars := by
  have hint := Numeral.notMem_intText hc
  rw [List.mem_cons, List.mem_singleton, not_or] at harrow
  cases d with
  | kept face => exact hint face
  | rerolled first second =>
    simp only [chars, List.mem_append, List.mem_cons, hint, harrow, or_self, not_false_eq_true]

theorem chars_ne_nil (d : Die) : d.chars ≠ [] := by
  cases d with
  | kept face => exact Numeral.intText_ne_nil face
  | rerolled first second => simp [chars]

theorem listChars_singleton (d : Die) : listChars [d] = d.chars := List.intercalate_singleton

theorem listChars_cons_cons (d e : Die) (ds : List Die) :
    listChars (d :: e :: ds) = d.chars ++ [',', ' '] ++ listChars (e :: ds) :=
  List.intercalate_cons_cons

/-- Cut at its commas, a list of dice has a blank in front of each die but the first. -/
theorem listChars_eq_commas (d : Die) (ds : List Die) :
    listChars (d :: ds) = [','].intercalate (d.chars :: ds.map fun e => ' ' :: e.chars) := by
  -- a character in front of a list of texts is in front of the first of them
  have hfront : ∀ (c : Char) (cs : List Char) (css : List (List Char)),
      [','].intercalate ((c :: cs) :: css) = c :: [','].intercalate (cs :: css) := by
    intro c cs css
    cases css <;> simp
  induction ds generalizing d with
  | nil => rfl
  | cons e ds ih =>
    rw [listChars_cons_cons, ih e, List.map_cons, List.intercalate_cons_cons, hfront]
    simp

theorem splitOn_listChars (d : Die) (ds : List Die) :
    (listChars (d :: ds)).splitOn ',' = d.chars :: ds.map fun e => ' ' :: e.chars := by
  have hcomma : ∀ e : Die, ',' ∉ e.chars := notMem_chars (by decide) (by decide)
  rw [listChars_eq_commas]
  refine List.splitOn_intercalate ',' (fun cs hcs => ?_) (List.cons_ne_nil _ _)
  rcases List.mem_cons.mp hcs with rfl | hcs
  · exact hcomma d
  · obtain ⟨e, -, rfl⟩ := List.mem_map.mp hcs
    simp [hcomma e]

/-- Only of no dice nothing is written. -/
theorem listChars_cons_ne_nil (d : Die) (ds : List Die) : listChars (d :: ds) ≠ [] := by
  intro hnil
  have hsplit := splitOn_listChars d ds
  rw [hnil] at hsplit
  exact d.chars_ne_nil (List.cons.inj hsplit).1.symm

theorem mapM_read? {ds : List Die} (h : ∀ d ∈ ds, ∀ n ∈ d.integers, Numeral.fits n = true) :
    (ds.map fun d => ' ' :: d.chars).mapM read? = some ds := by
  induction ds with
  | nil => rfl
  | cons d ds ih =>
    have hd := read?_chars (h d List.mem_cons_self)
    have hds := ih fun e he => h e (List.mem_cons_of_mem d he)
    simp [read?_blank, hd, hds]

/-- **A list of dice is read back.** -/
theorem readAll?_listChars {ds : List Die}
    (h : ∀ d ∈ ds, ∀ n ∈ d.integers, Numeral.fits n = true) :
    readAll? (listChars ds) = some ds := by
  cases ds with
  | nil => rfl
  | cons d ds =>
    have hd := read?_chars (h d List.mem_cons_self)
    have hds := mapM_read? fun e he => h e (List.mem_cons_of_mem d he)
    rw [readAll?, if_neg (listChars_cons_ne_nil d ds), splitOn_listChars]
    simp [hd, hds]

theorem notMem_listChars {c : Char} (hc : isFormChar c = false)
    (hmarks : c ∉ ['=', '>', ',', ' ']) (ds : List Die) : c ∉ listChars ds := by
  simp only [List.mem_cons, List.not_mem_nil, or_false, not_or] at hmarks
  obtain ⟨hequals, hgreater, hcomma, hblank⟩ := hmarks
  have hdie : ∀ e : Die, c ∉ e.chars := notMem_chars hc (by simp [hequals, hgreater])
  induction ds with
  | nil => exact List.not_mem_nil
  | cons d ds ih =>
    cases ds with
    | nil =>
      rw [listChars_singleton]
      exact hdie d
    | cons e ds =>
      rw [listChars_cons_cons]
      simp [hdie d, hcomma, hblank, ih]

end Die

/-! ## 4. Lines -/

/-- The dice that count for a roll: all of them, or those that its keep selects. -/
def Roll.counted (r : Roll) (dice : List Die) : List Die :=
  match r.keep with
  | none => dice
  | some k => k.select Die.value dice

namespace Report

/-- What a line says: which roll was thrown, what it came to, and its dice. -/
structure Line where
  roll : Roll
  total : Int
  dice : List Die
  deriving DecidableEq

namespace Line

/-- Reads a line.  Notation comes before the first colon, the total after it and a blank, and the
dice are in parentheses. -/
def read? (cs : List Char) : Option Line := do
  let (roll, rest) ← cutAt? [':'] cs
  let rest ← rest.dropPrefix? [' ']
  let (total, rest) ← cutAt? [' ', '('] rest
  let (dice, _) ← cutAt? [')'] rest
  let roll ← (parse (String.ofList roll)).toOption
  let total ← Numeral.read? total
  let dice ← Die.readAll? dice
  some ⟨roll, total, dice⟩

/-- What there is to say of a roll and its outcome. -/
def ofOutcome (p : Roll × Outcome) : Line := ⟨p.1, p.2.total, p.2.dice⟩

/-- **A line that adds up.**  It has as many dice as its roll asks for, in ascending order of what
they are worth, and its total is what the dice are worth that count for the roll, with the
modifier. -/
structure AddsUp (l : Line) : Prop where
  length : l.dice.length = l.roll.number
  ascending : l.dice.Pairwise fun a b => a.value ≤ b.value
  total : l.total = ((l.roll.counted l.dice).map Die.value).sum + l.roll.modifier.getD 0

/-- How a line is cut: at the colon after the notation, at the parenthesis after the total, and at
the one after the dice. -/
theorem toList_line {r : Roll} {o : Outcome} {l : String} (hl : line r o = .ok l) :
    ∃ tail, l.toList = r.chars ++ [':'] ++ ([' '] ++ (Numeral.intText o.total ++ [' ', '('] ++
      (Die.listChars o.dice ++ [')'] ++ tail))) := by
  obtain ⟨x, -, -, rfl⟩ := line_eq_ok_iff.mp hl
  refine ⟨(Outcome.modifierText o.modifier).toList ++ " (Expected: ".toList
    ++ (Shown.ofBinary64 x).text.toList ++ [')'], ?_⟩
  simp [Roll.text, Outcome.toList_text]

/-- **A line is read back.** -/
theorem read?_line {r : Roll} {o : Outcome} {l : String} (h : r.InLimits)
    (hl : line r o = .ok l) : read? l.toList = some (ofOutcome (r, o)) := by
  obtain ⟨x, -, hfits, -⟩ := line_eq_ok_iff.mp hl
  have htotal : Numeral.fits o.total = true :=
    List.all_eq_true.mp hfits o.total (by simp [Outcome.integers])
  have hdice : ∀ d ∈ o.dice, ∀ n ∈ d.integers, Numeral.fits n = true := by
    intro d hd n hn
    have hmem : n ∈ o.dice.flatMap Die.integers := List.mem_flatMap.mpr ⟨d, hd, hn⟩
    exact List.all_eq_true.mp hfits n (by simp [Outcome.integers, hmem])
  have hcolon : ':' ∉ r.chars := fun hmem =>
    absurd (r.isFormChar_of_mem_chars ':' hmem) (by decide)
  have hblank : ' ' ∉ Numeral.intText o.total := Numeral.notMem_intText (by decide) o.total
  have hclose : ')' ∉ Die.listChars o.dice :=
    Die.notMem_listChars (by decide) (by decide) o.dice
  have hprefix : ∀ cs : List Char, ([' '] ++ cs).dropPrefix? [' '] = some cs := fun cs =>
    List.dropPrefix?_append_of_beq cs (beq_self_eq_true [' '])
  have hparse : (parse (String.ofList r.chars)).toOption = some r := by
    rw [show String.ofList r.chars = r.text from rfl, Roll.parse_text_of_inLimits h]
    rfl
  obtain ⟨tail, hline⟩ := toList_line hl
  rw [hline, read?]
  simp only [cutAt?_append hcolon, hprefix, cutAt?_append hblank, cutAt?_append hclose, hparse,
    Numeral.read?_intText htotal, Die.readAll?_listChars hdice, Option.bind_eq_bind,
    Option.bind_some, ofOutcome]

/-- **What is thrown adds up.** -/
theorem addsUp_throw (r : Roll) (source : Source) (calls : Nat) :
    (ofOutcome (r, (r.throw source calls).1)).AddsUp where
  length := by
    have hperm := Outcome.perm_dice (r.throwDice source r.number calls).1 r.keep
      (r.modifier.getD 0)
    exact hperm.length_eq.trans (r.length_throwDice source r.number calls)
  ascending := (r.throw source calls).1.sorted
  total := by
    have hkept : (r.throw source calls).1.kept = r.counted (r.throw source calls).1.dice := rfl
    have htotal : (r.throw source calls).1.total
        = Outcome.sumValues (r.throw source calls).1.kept + r.modifier.getD 0 := rfl
    rw [ofOutcome, htotal, sumValues_eq_sum, hkept]

end Line

/-! ## 5. Reports -/

/-- Lines of rolls within the limits are read back, one by one. -/
theorem read?_rollLines {ps : List (Roll × Outcome)} (h : ∀ p ∈ ps, p.1.InLimits) :
    ∀ {ls : List String}, ps.map (fun p => line p.1 p.2) = ls.map .ok →
      ls.map (fun l => Line.read? l.toList) = ps.map fun p => some (Line.ofOutcome p) := by
  induction ps with
  | nil =>
    intro ls hls
    rw [List.map_eq_nil_iff.mp hls.symm]
    rfl
  | cons p ps ih =>
    intro ls hls
    obtain ⟨l, ls, rfl, hline, hothers⟩ := List.map_eq_cons_iff.mp hls.symm
    have hfirst := Line.read?_line (h p List.mem_cons_self) hline.symm
    have hrest := ih (fun q hq => h q (List.mem_cons_of_mem p hq)) hothers.symm
    rw [List.map_cons, List.map_cons, hfirst, hrest]

/-- What is thrown for several rolls is thrown for one after the other. -/
theorem mem_zip_throwAll {source : Source} {p : Roll × Outcome} :
    ∀ {rolls : List Roll} {calls : Nat}, p ∈ rolls.zip (Roll.throwAll source rolls calls).1 →
      p.1 ∈ rolls ∧ ∃ i, p.2 = (p.1.throw source i).1
  | [], _, h => by
    cases h
  | r :: rolls, calls, h => by
    rcases List.mem_cons.mp h with rfl | h
    · exact ⟨List.mem_cons_self, calls, rfl⟩
    · exact (mem_zip_throwAll h).imp_left (List.mem_cons_of_mem r)

/-- The totals of the lines make the sum of a batch. -/
theorem sum_totals_eq (os : List Outcome) : (os.map Outcome.total).sum = Outcome.sumTotals os := by
  induction os with
  | nil => rfl
  | cons o os ih =>
    rw [List.map_cons, List.sum_cons, ih]
    rfl

/-- **A report says what was thrown, and adds up.**  Some rolls are within the limits of tokens, and
thrown one after the other from a source that answers with faces.

There is a report on them, unless there are more than `10 ^ 4287` rolls: only the sum of so many,
which no machine holds, could be too long to be written.  Cut at its line ends, a report has a line
for each roll, in this order, and one more if there are several rolls.  The line for a roll can be
read: it says the roll, what its outcome came to, and the dice of the outcome; and it adds up.  The
last line says the sum of the totals that are read on the lines before it, which is what the batch
came to. -/
theorem text_reads_back {rolls : List Roll} (hne : rolls ≠ []) (h : ∀ r ∈ rolls, r.InLimits)
    {source : Source} (hsource : source.InRange) (calls : Nat) :
    let outcomes := (Roll.throwAll source rolls calls).1
    ((∃ text, Report.text rolls outcomes = .ok text) ∨ 10 ^ 4287 < rolls.length) ∧
    ∀ text, Report.text rolls outcomes = .ok text →
      ∃ (printed : List (List Char)) (lines : List Line),
        text.toList.splitOn '\n'
          = printed ++ (if 1 < rolls.length then
              ["Total: ".toList ++ Numeral.intText (lines.map Line.total).sum] else []) ∧
        printed.map Line.read? = lines.map some ∧
        lines.map Line.roll = rolls ∧
        lines.map Line.total = outcomes.map Outcome.total ∧
        lines.map Line.dice = outcomes.map Outcome.dice ∧
        (∀ l ∈ lines, l.AddsUp) ∧
        (lines.map Line.total).sum = Outcome.sumTotals outcomes := by
  intro outcomes
  have hlength : outcomes.length = rolls.length := Roll.length_throwAll source rolls calls
  have hrolls : (rolls.zip outcomes).map Prod.fst = rolls :=
    List.map_fst_zip (Nat.le_of_eq hlength.symm)
  have houtcomes : (rolls.zip outcomes).map Prod.snd = outcomes :=
    List.map_snd_zip (Nat.le_of_eq hlength)
  refine ⟨(Nat.lt_or_ge (10 ^ 4287) rolls.length).symm.imp_left (exists_text h hsource calls),
    fun text htext => ?_⟩
  have hos : outcomes ≠ [] := by
    rw [← List.length_pos_iff, hlength]
    exact List.length_pos_iff.mpr hne
  obtain ⟨ls, hls, hsplit⟩ := splitOn_text hne hos htext
  have hread := read?_rollLines
    (fun p hp => h p.1 (mem_zip_throwAll hp).1) (rollLines_eq_ok_iff.mp hls)
  have htotals : ((rolls.zip outcomes).map Line.ofOutcome).map Line.total
      = outcomes.map Outcome.total := by
    rw [List.map_map, ← congrArg (List.map Outcome.total) houtcomes, List.map_map]
    rfl
  have hsum : (((rolls.zip outcomes).map Line.ofOutcome).map Line.total).sum
      = Outcome.sumTotals outcomes := by
    rw [htotals, sum_totals_eq]
  refine ⟨ls.map String.toList, (rolls.zip outcomes).map Line.ofOutcome, ?_, ?_, ?_, htotals, ?_,
    ?_, hsum⟩
  · rw [hsplit, hsum, totalLine?, hlength]
    split
    · simp [Numeral.text]
    · rfl
  · rw [List.map_map, List.map_map]
    exact hread
  · rw [List.map_map]
    exact hrolls
  · rw [List.map_map, ← congrArg (List.map Outcome.dice) houtcomes, List.map_map]
    rfl
  · intro l hl
    obtain ⟨p, hp, rfl⟩ := List.mem_map.mp hl
    obtain ⟨-, i, hi⟩ := mem_zip_throwAll hp
    have hadds := Line.addsUp_throw p.1 source i
    rw [← hi] at hadds
    exact hadds

/-- A batch of three rolls, the last one with all its parts, and what can be read in its report. -/
theorem text_reads_back_campaign :
    let rolls :=
      [Session.attack, advantage, ⟨6, 4, some 1, some ⟨.high, 3⟩, some (-2), by decide⟩]
    let outcomes := (Roll.throwAll (.ofScript #[0, 5, 3]) rolls 0).1
    (∀ r ∈ rolls, r.InLimits) ∧
    ∃ text printed, ∃ lines : List Line, Report.text rolls outcomes = .ok text ∧
      text.toList.splitOn '\n' = printed ++ ["Total: 26".toList] ∧
      printed.map Line.read? = lines.map some ∧ lines.map Line.roll = rolls ∧
      lines.map Line.total = [6, 6, 14] := by
  intro rolls outcomes
  have hresolve : (Session.campaignMacros.resolve ["hit", "4D6r1h3-2"]).result = .ok rolls := rfl
  have hlimits := (Session.rooted_campaignSession.lawful_table
    Session.table?_campaignSession).inLimits_of_resolve hresolve
  have hthrown : outcomes = [.ofDice [.kept 1] none 5,
      .ofDice [.kept 6, .kept 4] (some ⟨.high, 1⟩) 0,
      .ofDice [.rerolled 1 6, .kept 4, .rerolled 1 6, .kept 4] (some ⟨.high, 3⟩) (-2)] := rfl
  have htotals : outcomes.map Outcome.total = [6, 6, 14] := by
    rw [hthrown]
    cbv
  obtain ⟨hexists, hread⟩ := text_reads_back (List.cons_ne_nil _ _) hlimits
    (Source.inRange_ofScript #[0, 5, 3]) 0
  refine ⟨hlimits, ?_⟩
  rcases hexists with ⟨text, htext⟩ | hlong
  · obtain ⟨printed, lines, hsplit, hlines, hrolls, hsame, -⟩ := hread text htext
    refine ⟨text, printed, lines, htext, ?_, hlines, hrolls, hsame.trans htotals⟩
    rw [hsplit, hsame.trans htotals]
    rfl
  · exact absurd hlong (not_lt_of_le_ten (by decide))

end Report
end Dice
