/-
# Numerals as they may be written

`read?` strips a text, splits off a sign and walks along what is left.  Here the same numerals are
written down without a reader: white space, a sign or none, a run of digits, and white space again.

* `digitValue?_eq_some_iff`: a digit is known by the zero of its script, and there is one such zero
  at most;
* `digits?_eq_some_iff`: the walk along the digits accepts the runs of digits, in which a single
  underscore may stand between two digits;
* `read?_eq_some_iff_literal`: **what is read** is what a literal denotes that has not too many
  digits;
* `read?_zeroPadded`: **an integer behind leading zeroes** is read back.

What counts as white space is a parameter of a literal, so that the white space around a numeral can
be compared with that of other texts.
-/
import Mathlib.Data.Nat.Digits.Defs
import Dice.Proofs.Numeral.Digits

namespace Dice.Text

/-! ## 1. Digits of every script -/

/-- A decimal digit stands as many code points above the zero of its script as it is worth. -/
def IsDigitWorth (c : Char) (d : Nat) : Prop := d < 10 ∧ ∃ z ∈ digitZeroes, c.toNat = z + d

/-- The digits of two scripts do not overlap. -/
theorem pairwise_digitZeroes : digitZeroes.Pairwise fun y z => y + 10 ≤ z := by decide

/-- **The value of a digit.**  No zero before that of its script is close enough to be found. -/
theorem digitValue?_eq_some_iff {c : Char} {d : Nat} :
    digitValue? c = some d ↔ IsDigitWorth c d := by
  constructor
  · intro h
    refine ⟨digitValue?_lt h, ?_⟩
    obtain ⟨z, hz, rfl⟩ := Option.map_eq_some_iff.mp h
    have hnear := List.find?_some hz
    simp only [Bool.and_eq_true, decide_eq_true_eq] at hnear
    exact ⟨z, List.mem_of_find?_eq_some hz, by omega⟩
  · rintro ⟨hd, z, hz, hc⟩
    obtain ⟨before, after, hsplit⟩ := List.append_of_mem hz
    have hpairs := pairwise_digitZeroes
    rw [hsplit, List.pairwise_append] at hpairs
    have hfind : digitZeroes.find? (fun z => z ≤ c.toNat && c.toNat < z + 10) = some z := by
      rw [List.find?_eq_some_iff_append]
      refine ⟨by simp only [Bool.and_eq_true, decide_eq_true_eq]; omega, before, after, hsplit,
        fun y hy => ?_⟩
      have hbelow := hpairs.2.2 y hy z List.mem_cons_self
      simp only [Bool.not_eq_true', Bool.and_eq_false_iff, decide_eq_false_iff_not]
      omega
    rw [digitValue?, hfind, Option.map_some, hc, Nat.add_sub_cancel_left]

/-- No digit of any script is white space. -/
theorem isBlank_of_isDigitWorth {c : Char} {d : Nat} (h : IsDigitWorth c d) :
    isBlank c = false := by
  obtain ⟨hd, z, hz, hc⟩ := h
  have hapart : ∀ z ∈ digitZeroes, ∀ r ∈ blankRanges, z + 10 ≤ r.1 ∨ r.2 < z := by decide
  rw [isBlank, inRanges, List.any_eq_false]
  intro r hr
  have hr' := hapart z hz r hr
  simp only [Bool.and_eq_true, decide_eq_true_eq]
  omega

/-! ## 2. Stripping -/

variable {p : Char → Bool}

/-- What a text loses at its ends is only what is to be stripped. -/
theorem exists_eq_append_stripBy (p : Char → Bool) (cs : List Char) :
    ∃ before after, (∀ c ∈ before, p c = true) ∧ (∀ c ∈ after, p c = true) ∧
      before ++ (stripBy p cs ++ after) = cs := by
  refine ⟨cs.takeWhile p, ((cs.dropWhile p).reverse.takeWhile p).reverse,
    fun c hc => List.mem_takeWhile_imp hc,
    fun c hc => List.mem_takeWhile_imp (List.mem_reverse.mp hc), ?_⟩
  rw [stripBy, ← List.reverse_append, List.takeWhile_append_dropWhile, List.reverse_reverse,
    List.takeWhile_append_dropWhile]

/-- **What is put around a text** is stripped again, and nothing of the text is. -/
theorem stripBy_around {before cs after : List Char} (hbefore : ∀ c ∈ before, p c = true)
    (hafter : ∀ c ∈ after, p c = true) (hne : cs ≠ []) (hcs : ∀ c ∈ cs, p c = false) :
    stripBy p (before ++ (cs ++ after)) = cs := by
  have hfront : ∀ {ds : List Char}, ds ≠ [] → (∀ c ∈ ds, p c = false) → ∀ rest,
      (ds ++ rest).dropWhile p = ds ++ rest := by
    intro ds hds hp rest
    obtain ⟨d, ds, rfl⟩ := List.exists_cons_of_ne_nil hds
    exact List.dropWhile_cons_of_neg (by simp [hp d List.mem_cons_self])
  have hback : cs.reverse.dropWhile p = cs.reverse := by
    have hself := hfront (List.reverse_ne_nil_iff.mpr hne)
      (fun c hc => hcs c (List.mem_reverse.mp hc)) []
    rwa [List.append_nil] at hself
  have hafter' : ∀ c ∈ after.reverse, p c = true := fun c hc => hafter c (List.mem_reverse.mp hc)
  rw [stripBy, List.dropWhile_append_of_pos hbefore, hfront hne hcs, List.reverse_append,
    List.dropWhile_append_of_pos hafter', hback, List.reverse_reverse]

end Dice.Text

namespace Dice.Numeral

open Dice.Text

/-! ## 3. Runs of digits -/

/-- **A run of digits**, with what each of them is worth.  A single underscore may stand between two
digits. -/
inductive DigitRun : List Char → List Nat → Prop
  | last {c : Char} {d : Nat} : IsDigitWorth c d → DigitRun [c] [d]
  | next {c : Char} {d : Nat} {cs : List Char} {ds : List Nat} :
      IsDigitWorth c d → DigitRun cs ds → DigitRun (c :: cs) (d :: ds)
  | apart {c : Char} {d : Nat} {cs : List Char} {ds : List Nat} :
      IsDigitWorth c d → DigitRun cs ds → DigitRun (c :: '_' :: cs) (d :: ds)

variable {cs : List Char} {ds : List Nat}

/-- A run starts with a digit. -/
theorem DigitRun.exists_cons (h : DigitRun cs ds) :
    ∃ c d cs', cs = c :: cs' ∧ IsDigitWorth c d := by
  cases h with
  | last hc => exact ⟨_, _, _, rfl, hc⟩
  | next hc hrun => exact ⟨_, _, _, rfl, hc⟩
  | apart hc hrun => exact ⟨_, _, _, rfl, hc⟩

theorem digitValue?_underscore : digitValue? '_' = none := by decide

/-- An underscore is no digit, and neither is a sign. -/
theorem ne_of_isDigitWorth {c s : Char} {d : Nat} (h : IsDigitWorth c d)
    (hs : digitValue? s = none) : c ≠ s := by
  rintro rfl
  rw [digitValue?_eq_some_iff.mpr h] at hs
  cases hs

/-- After an underscore there has to be a digit. -/
theorem moreDigits?_underscore (cs : List Char) : moreDigits? ('_' :: cs) = digits? cs := by
  cases cs with
  | nil => simp [moreDigits?, digits?, digitValue?_underscore]
  | cons c cs => rfl

/-- A run that goes on with a further run. -/
theorem moreDigits?_of_digitRun (h : DigitRun cs ds) : moreDigits? cs = digits? cs := by
  obtain ⟨c, d, cs', rfl, hc⟩ := h.exists_cons
  exact moreDigits?_cons (ne_of_isDigitWorth hc digitValue?_underscore) cs'

theorem digits?_cons_of_isDigitWorth {c : Char} {d : Nat} (hc : IsDigitWorth c d)
    (cs : List Char) : digits? (c :: cs) = (moreDigits? cs).map (d :: ·) := by
  rw [digits?, digitValue?_eq_some_iff.mpr hc, Option.bind_some]

/-- The walk finds the digits of a run. -/
theorem DigitRun.digits?_eq (h : DigitRun cs ds) : digits? cs = some ds := by
  induction h with
  | last hc => rw [digits?_cons_of_isDigitWorth hc]; rfl
  | next hc hrun ih => rw [digits?_cons_of_isDigitWorth hc, moreDigits?_of_digitRun hrun, ih]; rfl
  | apart hc hrun ih => rw [digits?_cons_of_isDigitWorth hc, moreDigits?_underscore, ih]; rfl

/-- What the walk has done at one digit, whichever way it goes on. -/
theorem exists_of_bind_digitValue? {c : Char} {rest : Option (List Nat)}
    (h : ((digitValue? c).bind fun d => rest.map (d :: ·)) = some ds) :
    ∃ d ds', IsDigitWorth c d ∧ rest = some ds' ∧ ds = d :: ds' := by
  obtain ⟨d, hd, hrest⟩ := Option.bind_eq_some_iff.mp h
  obtain ⟨ds', hds', rfl⟩ := Option.map_eq_some_iff.mp hrest
  exact ⟨d, ds', digitValue?_eq_some_iff.mp hd, hds', rfl⟩

/-- What the walk takes behind a digit makes a longer run with it. -/
theorem digitRun_cons {c : Char} {d : Nat} (hc : IsDigitWorth c d)
    (h : moreDigits? cs = some ds) : DigitRun (c :: cs) (d :: ds) := by
  induction cs using moreDigits?.induct generalizing c d ds with
  | case1 =>
    cases h
    exact .last hc
  | case2 c' cs ih =>
    obtain ⟨d', ds', hc', hmore, rfl⟩ := exists_of_bind_digitValue? h
    exact .apart hc (ih hc' hmore)
  | case3 c' cs hnot ih =>
    rw [moreDigits?] at h
    · obtain ⟨d', ds', hc', hmore, rfl⟩ := exists_of_bind_digitValue? h
      exact .next hc (ih hc' hmore)
    · exact hnot

/-- **The walk along the digits** accepts the runs of digits. -/
theorem digits?_eq_some_iff : digits? cs = some ds ↔ DigitRun cs ds := by
  refine ⟨fun h => ?_, DigitRun.digits?_eq⟩
  cases cs with
  | nil => cases h
  | cons c cs =>
    obtain ⟨d, ds', hc, hmore, rfl⟩ := exists_of_bind_digitValue? h
    exact digitRun_cons hc hmore

/-! ## 4. Literals -/

/-- The number that digits denote, with the places counted from the last. -/
theorem ofDigits_eq (ds : List Nat) : ofDigits ds = Nat.ofDigits 10 ds.reverse := by
  induction ds using List.reverseRecOn with
  | nil => rfl
  | append_singleton ds d ih =>
    have hstep : ofDigits (ds ++ [d]) = 10 * ofDigits ds + d := by simp [ofDigits]
    rw [hstep, ih, List.reverse_concat, Nat.ofDigits_cons, Nat.add_comm]

/-- A sign, or none. -/
inductive Sign
  | absent
  | plus
  | minus
  deriving DecidableEq

namespace Sign

/-- A sign as it is written. -/
def chars : Sign → List Char
  | absent => []
  | plus => ['+']
  | minus => ['-']

/-- A number under a sign. -/
def apply : Sign → Nat → Int
  | absent, n => n
  | plus, n => n
  | minus, n => -n

theorem apply_eq_signed (s : Sign) (n : Nat) : s.apply n = signed (s == minus) n := by
  cases s <;> rfl

end Sign

/-- **A literal of an integer**: a run of digits behind a sign or none, between white space. -/
structure Literal (blank : Char → Bool) where
  before : List Char
  sign : Sign
  run : List Char
  /-- What the digits of the run are worth, from the first to the last. -/
  worths : List Nat
  after : List Char
  blank_before : ∀ c ∈ before, blank c = true
  blank_after : ∀ c ∈ after, blank c = true
  isRun : DigitRun run worths

namespace Literal

variable {blank : Char → Bool}

/-- A literal as it is written. -/
def chars (l : Literal blank) : List Char :=
  l.before ++ (l.sign.chars ++ l.run ++ l.after)

/-- The integer that a literal denotes, in the decimal system. -/
def denoted (l : Literal blank) : Int := l.sign.apply (Nat.ofDigits 10 l.worths.reverse)

theorem denoted_eq (l : Literal blank) :
    l.denoted = signed (l.sign == .minus) (ofDigits l.worths) := by
  rw [denoted, Sign.apply_eq_signed, ofDigits_eq]

end Literal

/-- A text is a literal of an integer, with not too many digits. -/
def IsLiteralOf (blank : Char → Bool) (cs : List Char) (n : Int) : Prop :=
  ∃ l : Literal blank, l.chars = cs ∧ l.worths.length ≤ maxDigits ∧ l.denoted = n

/-- Sign and run of a literal are told apart by the first character of the run. -/
theorem splitSign_sign_run (s : Sign) {run : List Char} (h : DigitRun run ds) :
    splitSign (s.chars ++ run) = (s == .minus, run) := by
  cases s with
  | plus => rfl
  | minus => rfl
  | absent =>
    obtain ⟨c, d, cs, rfl, hc⟩ := h.exists_cons
    have hplus : c ≠ '+' := ne_of_isDigitWorth hc (by decide)
    have hminus : c ≠ '-' := ne_of_isDigitWorth hc (by decide)
    simp [Sign.chars, splitSign, hplus, hminus]

theorem exists_sign_splitSign (cs : List Char) :
    ∃ s : Sign, (splitSign cs).1 = (s == .minus) ∧ s.chars ++ (splitSign cs).2 = cs := by
  unfold splitSign
  split
  · exact ⟨.plus, rfl, rfl⟩
  · exact ⟨.minus, rfl, rfl⟩
  · exact ⟨.absent, rfl, rfl⟩

/-! ## 5. What is read -/

/-- Nothing in a run is white space. -/
theorem DigitRun.isPadding_eq_false (h : DigitRun cs ds) : ∀ c ∈ cs, isPadding c = false := by
  have hdigit : ∀ {c d}, IsDigitWorth c d → isPadding c = false := by
    intro c d hc
    rw [isPadding, isBlank_of_isDigitWorth hc, Bool.false_and]
  induction h with
  | last hc => exact List.forall_mem_singleton.mpr (hdigit hc)
  | next hc hrun ih => exact List.forall_mem_cons.mpr ⟨hdigit hc, ih⟩
  | apart hc hrun ih =>
    exact List.forall_mem_cons.mpr ⟨hdigit hc, List.forall_mem_cons.mpr ⟨by decide, ih⟩⟩

/-- Between its white space a literal is stripped of nothing. -/
theorem stripBy_literal (l : Literal isPadding) :
    stripBy isPadding l.chars = l.sign.chars ++ l.run := by
  refine stripBy_around l.blank_before l.blank_after ?_ ?_
  · obtain ⟨c, d, cs, hrun, -⟩ := l.isRun.exists_cons
    simp [hrun]
  · have hsign : ∀ c ∈ l.sign.chars, isPadding c = false := by
      cases l.sign with
      | absent => exact fun c hc => absurd hc List.not_mem_nil
      | plus => exact List.forall_mem_singleton.mpr (by decide)
      | minus => exact List.forall_mem_singleton.mpr (by decide)
    exact List.forall_mem_append.mpr ⟨hsign, l.isRun.isPadding_eq_false⟩

/-- **What is read as a number** is what a literal denotes, if it has not too many digits. -/
theorem read?_eq_some_iff_literal {n : Int} :
    read? cs = some n ↔ IsLiteralOf isPadding cs n := by
  rw [read?_eq_some_iff]
  constructor
  · rintro ⟨ds, hds, hlen, rfl⟩
    obtain ⟨before, after, hbefore, hafter, hcs⟩ := exists_eq_append_stripBy isPadding cs
    obtain ⟨s, hs, hrest⟩ := exists_sign_splitSign (stripBy isPadding cs)
    refine ⟨⟨before, s, _, ds, after, hbefore, hafter, digits?_eq_some_iff.mp hds⟩, ?_, hlen, ?_⟩
    · rw [Literal.chars, hrest, hcs]
    · rw [Literal.denoted_eq, hs]
  · rintro ⟨l, rfl, hlen, rfl⟩
    rw [stripBy_literal, splitSign_sign_run l.sign l.isRun]
    exact ⟨l.worths, l.isRun.digits?_eq, hlen, l.denoted_eq⟩

/-! ## 6. Leading zeroes -/

/-- An integer behind leading zeroes, which follow its sign. -/
def zeroPadded (zeroes : Nat) : Int → List Char
  | .ofNat n => List.replicate zeroes '0' ++ natText n
  | .negSucc n => '-' :: (List.replicate zeroes '0' ++ natText (n + 1))

/-- Without leading zeroes it is the integer as it is written. -/
@[simp] theorem zeroPadded_zero (n : Int) : zeroPadded 0 n = intText n := by
  cases n <;> rfl

theorem isDigits_zeroes_natText (zeroes n : Nat) :
    IsDigits (List.replicate zeroes '0' ++ natText n) := by
  refine List.forall_mem_append.mpr ⟨fun c hc => ?_, isDigits_natText n⟩
  rw [List.eq_of_mem_replicate hc]
  decide

theorem value_zeroes_natText (zeroes n : Nat) :
    value (List.replicate zeroes '0' ++ natText n) = n := by
  induction zeroes with
  | zero => exact value_natText n
  | succ k ih =>
    rw [List.replicate_succ, List.cons_append]
    exact ih

/-- **An integer behind leading zeroes** is read back, as long as there is room for them. -/
theorem read?_zeroPadded {zeroes : Nat} {n : Int}
    (h : zeroes + (natText n.natAbs).length ≤ maxDigits) :
    read? (zeroPadded zeroes n) = some n := by
  have hne : ∀ k, List.replicate zeroes '0' ++ natText k ≠ [] := fun k =>
    List.append_ne_nil_of_right_ne_nil _ (natText_ne_nil k)
  have hlen : ∀ k, zeroes + (natText k).length ≤ maxDigits →
      (List.replicate zeroes '0' ++ natText k).length ≤ maxDigits := by
    intro k hk
    rw [List.length_append, List.length_replicate]
    exact hk
  cases n with
  | ofNat n =>
    rw [zeroPadded, read?_digits (hne n) (isDigits_zeroes_natText zeroes n), if_pos (hlen n h),
      value_zeroes_natText]
    rfl
  | negSucc n =>
    rw [zeroPadded, read?_sign (.inr rfl) (hne _) (isDigits_zeroes_natText zeroes _),
      if_pos (hlen (n + 1) h), value_zeroes_natText]
    rfl

end Dice.Numeral
