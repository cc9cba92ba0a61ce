/-
# How close a shown number is

A number is shown as an integer or in hundredths.  What is shown can be read again as a rational
(`Shown.read?`), and compared with the number itself.

There are two roundings on the way: to hundredths, and from these to the grid of binary64, of which
the fewest places are written that single the result out.  For a number that is not enormous the
second one leaves no trace (`Shown.toList_text_ofBinary64`), so all depends on the first.

* `abs_sub_roundHalfEven_le`, `even_roundHalfEven_of_tie`, `roundHalfEven_mono`: rounding to whole
  numbers goes to the nearest one, to an even one in doubt, and keeps the order;
* `Shown.nearestHundredth_iff`: so rounding to hundredths is what it is said to be;
* `Shown.read?_chars`: what is shown reads as that many hundredths;
* `Shown.text_correctly_rounded`: **what is shown is the number, correctly rounded.**
-/
import Dice.Proofs.Report.Expected
import Dice.Proofs.Report.ReadBack

namespace Dice

open Text
open Binary64 (hundredthsText hundredthsPlaces hundredthsBound)

/-! ## 1. The nearest whole number -/

variable {q r : ℚ}

/-- **No whole number is closer** than the one to which a number is rounded. -/
theorem abs_sub_roundHalfEven_le (q : ℚ) (m : ℤ) : |q - roundHalfEven q| ≤ |q - m| := by
  by_contra! h
  have hhalf := abs_roundHalfEven_sub_le q
  rw [abs_sub_comm] at hhalf
  have heq : roundHalfEven q = m := roundHalfEven_eq_of_abs_sub_lt (h.trans_le hhalf)
  rw [heq] at h
  exact lt_irrefl _ h

/-- A number halfway between two whole ones is rounded to an even one. -/
theorem even_roundHalfEven_of_half (h : |q - roundHalfEven q| = 1 / 2) :
    Even (roundHalfEven q) := by
  have hlow : (q.floor : ℚ) ≤ q := Rat.floor_le q
  have hcast : ((q.floor + 1 : ℤ) : ℚ) = q.floor + 1 := by push_cast; rfl
  have hhigh : q < q.floor + 1 := hcast ▸ Rat.lt_floor_add_one q
  unfold roundHalfEven at h ⊢
  dsimp only at h ⊢
  split_ifs at h ⊢ with hless hmore heven
  · rw [abs_of_nonneg (by linarith)] at h
    linarith
  · rw [hcast, abs_of_nonpos (by linarith)] at h
    linarith
  · exact Int.even_iff.mpr heven
  · exact Int.even_iff.mpr (by omega)

/-- So is a number from which two whole ones are equally far. -/
theorem even_roundHalfEven_of_tie {m : ℤ} (hm : m ≠ roundHalfEven q)
    (h : |q - m| = |q - roundHalfEven q|) : Even (roundHalfEven q) := by
  have hhalf := abs_roundHalfEven_sub_le q
  rw [abs_sub_comm] at hhalf
  have hapart : (1 : ℚ) ≤ |(m : ℚ) - roundHalfEven q| := by
    have hint : 1 ≤ |m - roundHalfEven q| := Int.one_le_abs (sub_ne_zero.mpr hm)
    exact_mod_cast hint
  have htriangle : |(m : ℚ) - roundHalfEven q| ≤ |q - m| + |q - roundHalfEven q| := by
    rw [abs_sub_comm q m]
    exact abs_sub_le _ _ _
  exact even_roundHalfEven_of_half (by linarith)

/-- **Rounding keeps the order.** -/
theorem roundHalfEven_mono (h : q ≤ r) : roundHalfEven q ≤ roundHalfEven r := by
  by_contra! hlt
  have hq := (abs_le.mp (abs_roundHalfEven_sub_le q)).2
  have hr := (abs_le.mp (abs_roundHalfEven_sub_le r)).1
  have hstep : (roundHalfEven r : ℚ) + 1 ≤ roundHalfEven q := by exact_mod_cast hlt
  -- two roundings by a half each leave no room between the numbers
  have heq : q = r := le_antisymm h (by linarith)
  rw [heq] at hlt
  exact lt_irrefl _ hlt

namespace Shown

/-! ## 2. The nearest hundredth -/

/-- **So many hundredths are nearest to a number**, and even if others are as near. -/
structure NearestHundredth (q : ℚ) (n : ℤ) : Prop where
  least : ∀ m : ℤ, |q - n / 100| ≤ |q - m / 100|
  even : ∀ m : ℤ, m ≠ n → |q - m / 100| = |q - n / 100| → Even n

theorem abs_sub_div_hundred (q : ℚ) (m : ℤ) : |q - m / 100| = |q * 100 - m| / 100 := by
  have hscale : q - m / 100 = (q * 100 - m) / 100 := by ring
  rw [hscale, abs_div, abs_of_pos (by norm_num : (0 : ℚ) < 100)]

theorem nearestHundredth_hundredths (q : ℚ) : NearestHundredth q (hundredths q) where
  least := fun m => by
    rw [abs_sub_div_hundred, abs_sub_div_hundred, hundredths]
    linarith [abs_sub_roundHalfEven_le (q * 100) m]
  even := fun m hm h => by
    rw [abs_sub_div_hundred, abs_sub_div_hundred, hundredths] at h
    exact even_roundHalfEven_of_tie hm (by linarith)

/-- How far the nearest hundredth can be. -/
theorem NearestHundredth.abs_sub_le {n : ℤ} (h : NearestHundredth q n) :
    |q - n / 100| ≤ 1 / 200 := by
  have hleast := h.least (hundredths q)
  have hhalf := abs_roundHalfEven_sub_le (q * 100)
  rw [abs_sub_comm] at hhalf
  rw [abs_sub_div_hundred q (hundredths q), hundredths] at hleast
  linarith

/-- **There is just one nearest hundredth**, and it is the one to which the number is rounded. -/
theorem nearestHundredth_iff {n : ℤ} : NearestHundredth q n ↔ n = hundredths q := by
  constructor
  · intro h
    by_contra! hne
    have hrounded := nearestHundredth_hundredths q
    have htie : |q - n / 100| = |q - hundredths q / 100| :=
      le_antisymm (h.least _) (hrounded.least n)
    obtain ⟨k, hk⟩ := h.even _ hne.symm htie.symm
    obtain ⟨l, hl⟩ := hrounded.even n hne htie
    -- two even numbers of hundredths are further apart than both can be from the number
    have hclose : |n - hundredths q| ≤ 1 := by
      have hnear := h.abs_sub_le
      have hnear' := hrounded.abs_sub_le
      rw [abs_sub_div_hundred] at hnear hnear'
      have hcast : |(n : ℚ) - hundredths q| ≤ 1 :=
        calc |(n : ℚ) - hundredths q| ≤ |n - q * 100| + |q * 100 - hundredths q| :=
              abs_sub_le _ _ _
          _ = |q * 100 - n| + |q * 100 - hundredths q| := by rw [abs_sub_comm (n : ℚ)]
          _ ≤ 1 := by linarith
      exact_mod_cast hcast
    rw [abs_le] at hclose
    omega
  · rintro rfl
    exact nearestHundredth_hundredths q

/-! ## 3. Reading what is shown -/

/-- Reads a run of digits. -/
def natural? (cs : List Char) : Option ℕ :=
  if !cs.isEmpty && cs.all Char.isDigit then some (Numeral.value cs) else none

/-- Reads a number without a sign: digits, and more of them behind a point if there is one. -/
def magnitude? (cs : List Char) : Option ℚ :=
  match cutAt? ['.'] cs with
  | none => (natural? cs).map fun (n : ℕ) => (n : ℚ)
  | some (units, places) =>
    (natural? units).bind fun (u : ℕ) =>
      (natural? places).map fun (p : ℕ) => (u : ℚ) + p / 10 ^ places.length

/-- Reads a number as a rational. -/
def read? : List Char → Option ℚ
  | '-' :: cs => (magnitude? cs).map fun q => -q
  | cs => magnitude? cs

theorem natural?_of_isDigits {cs : List Char} (hne : cs ≠ []) (h : Numeral.IsDigits cs) :
    natural? cs = some (Numeral.value cs) := by
  refine if_pos ?_
  rw [Bool.and_eq_true, Bool.not_eq_true', List.isEmpty_eq_false_iff, List.all_eq_true]
  exact ⟨hne, h⟩

theorem natural?_natText (n : ℕ) : natural? (Numeral.natText n) = some n := by
  rw [natural?_of_isDigits (Numeral.natText_ne_nil n) (Numeral.isDigits_natText n),
    Numeral.value_natText]

theorem point_notMem_natText (n : ℕ) : '.' ∉ Numeral.natText n := point_notMem_intText n

theorem magnitude?_natText (n : ℕ) : magnitude? (Numeral.natText n) = some (n : ℚ) := by
  rw [magnitude?, cutAt?_eq_none (point_notMem_natText n)]
  dsimp only
  rw [natural?_natText, Option.map_some]

theorem magnitude?_point (n : ℕ) {places : List Char} (hne : places ≠ [])
    (h : Numeral.IsDigits places) :
    magnitude? (Numeral.natText n ++ '.' :: places)
      = some ((n : ℚ) + Numeral.value places / 10 ^ places.length) := by
  have hcut : cutAt? ['.'] (Numeral.natText n ++ '.' :: places)
      = some (Numeral.natText n, places) := by
    have hfound := cutAt?_append (point_notMem_natText n) [] places
    rwa [List.append_assoc, List.singleton_append] at hfound
  rw [magnitude?, hcut]
  dsimp only
  rw [natural?_natText, natural?_of_isDigits hne h, Option.bind_some, Option.map_some]

theorem isDigits_hundredthsPlaces (n : ℕ) : Numeral.IsDigits (hundredthsPlaces n) := by
  have hdigit : ∀ m : ℕ, (Nat.digitChar (m % 10)).isDigit = true := isDigit_digitChar_mod
  intro c hc
  unfold hundredthsPlaces at hc
  split_ifs at hc
  · rw [List.mem_singleton.mp hc]
    decide
  · rw [List.mem_singleton.mp hc]
    exact hdigit (n / 10)
  · rcases List.mem_pair.mp hc with rfl | rfl
    · exact hdigit (n / 10)
    · exact hdigit n

theorem hundredthsPlaces_ne_nil (n : ℕ) : hundredthsPlaces n ≠ [] := by
  unfold hundredthsPlaces
  split_ifs <;> exact List.cons_ne_nil _ _

/-- Whether they are one or two, the places are worth what exceeds a whole number. -/
theorem value_hundredthsPlaces (n : ℕ) :
    (Numeral.value (hundredthsPlaces n) : ℚ) / 10 ^ (hundredthsPlaces n).length
      = (n % 100 : ℕ) / 100 := by
  have hone : ∀ d < 10, Numeral.value [Nat.digitChar d] = d := by decide
  have htwo : ∀ d < 10, ∀ e < 10,
      Numeral.value [Nat.digitChar d, Nat.digitChar e] = 10 * d + e := by decide
  have hten : ∀ m : ℕ, m % 10 < 10 := fun m => Nat.mod_lt m (by decide)
  unfold hundredthsPlaces
  split_ifs with h100 h10
  · rw [h100]
    norm_num [hone 0 (by decide)]
    decide
  · have hrest : n % 100 = 10 * (n / 10 % 10) := by omega
    rw [hone _ (hten _), hrest]
    push_cast
    norm_num
    ring
  · have hrest : n % 100 = 10 * (n / 10 % 10) + n % 10 := by omega
    rw [htwo _ (hten _) _ (hten _), hrest]
    norm_num

/-- **Hundredths are read back.** -/
theorem magnitude?_hundredthsText (n : ℕ) : magnitude? (hundredthsText n) = some (n / 100 : ℚ) := by
  have hsplit : (n : ℚ) = 100 * (n / 100 : ℕ) + (n % 100 : ℕ) := by
    exact_mod_cast (Nat.div_add_mod n 100).symm
  rw [hundredthsText, magnitude?_point (n / 100) (hundredthsPlaces_ne_nil n)
    (isDigits_hundredthsPlaces n), value_hundredthsPlaces, Option.some.injEq, hsplit]
  ring

/-- A number in front of which no sign stands is read without one. -/
theorem read?_natText_append (n : ℕ) (cs : List Char) :
    read? (Numeral.natText n ++ cs) = magnitude? (Numeral.natText n ++ cs) := by
  obtain ⟨c, ds, hcons⟩ := List.exists_cons_of_ne_nil (Numeral.natText_ne_nil n)
  have hdigits := Numeral.isDigits_natText n
  rw [hcons] at hdigits ⊢
  rw [List.cons_append, read?]
  intro ds' heq
  exact Numeral.ne_of_isDigit hdigits.head (by decide) (List.cons.inj heq).1

/-- **An integer is read back.** -/
theorem read?_intText (n : ℤ) : read? (Numeral.intText n) = some (n : ℚ) := by
  cases n with
  | ofNat n =>
    have hread := read?_natText_append n []
    rw [List.append_nil, magnitude?_natText] at hread
    exact hread
  | negSucc n =>
    rw [Numeral.intText, read?, magnitude?_natText, Option.map_some, Int.cast_negSucc]

theorem read?_signed_hundredthsText (negative : Bool) (n : ℕ) :
    read? (signed negative (hundredthsText n))
      = some (if negative then -(n / 100 : ℚ) else n / 100) := by
  cases negative with
  | true =>
    rw [signed, if_pos rfl, if_pos rfl, read?, magnitude?_hundredthsText, Option.map_some]
  | false =>
    rw [signed, if_neg Bool.false_ne_true, if_neg Bool.false_ne_true,
      ← magnitude?_hundredthsText, hundredthsText, read?_natText_append]

/-- Hundredths have the sign of the number, unless there are none. -/
theorem hundredths_eq_signed (q : ℚ) :
    (hundredths q : ℚ)
      = if q < 0 then -((hundredths q).natAbs : ℚ) else (hundredths q).natAbs := by
  rw [Nat.cast_natAbs]
  split_ifs with hq
  · have hle : hundredths q ≤ 0 := by
      refine roundHalfEven_le ?_
      push_cast
      linarith
    rw [abs_of_nonpos hle]
    push_cast
    ring
  · have hle : 0 ≤ hundredths q := by
      refine le_roundHalfEven ?_
      push_cast
      linarith
    rw [abs_of_nonneg hle]

/-- A whole number has its own hundredths. -/
theorem hundredths_intCast (n : ℤ) : hundredths n = n * 100 := by
  have hcast : (n : ℚ) * 100 = ((n * 100 : ℤ) : ℚ) := by push_cast; rfl
  rw [hundredths, hcast, roundHalfEven_intCast]

/-- **What is shown reads as the hundredths of the number**, also if the number is whole. -/
theorem read?_chars (q : ℚ) : read? (chars q) = some (hundredths q / 100 : ℚ) := by
  unfold chars
  split_ifs with hden
  · have hwhole : ((q.num : ℤ) : ℚ) = q := (Rat.den_eq_one_iff q).mp hden
    rw [read?_intText]
    conv_rhs => rw [← hwhole, hundredths_intCast]
    push_cast
    rw [mul_div_cancel_right₀ _ (by norm_num)]
  · rw [read?_signed_hundredthsText, hundredths_eq_signed q]
    by_cases hq : q < 0
    · simp [hq, neg_div]
    · simp [hq]

/-! ## 4. Numbers as they are shown -/

/-- **What is shown is the number, correctly rounded**, if the number is finite and below `2 ^ 43`.

It can be read as a rational.  If the number is whole, it is that integer, and written as one.  In
any case it is a multiple of a hundredth, and just the one that is nearest to the number; of two
that are as near it is the even one.  So it is at most half a hundredth away, and of two numbers
the greater one is not shown as less. -/
theorem text_correctly_rounded {x : Binary64} (hx : x.IsFinite) (h : |x.value| < 2 ^ 43) :
    ∃ v : ℚ, read? (ofBinary64 x).text.toList = some v ∧
      (∀ n : ℤ, x.value = n → v = n ∧ (ofBinary64 x).text = Numeral.text n) ∧
      (∃ n : ℤ, v = n / 100 ∧ ∀ m : ℤ, NearestHundredth x.value m ↔ m = n) ∧
      |v - x.value| ≤ 1 / 200 ∧
      ∀ y : Binary64, y.IsFinite → |y.value| < 2 ^ 43 → x.value ≤ y.value →
        ∃ w : ℚ, read? (ofBinary64 y).text.toList = some w ∧ v ≤ w := by
  have hread : ∀ y : Binary64, y.IsFinite → |y.value| < 2 ^ 43 →
      (ofBinary64 y).text.toList = chars y.value ∧
        read? (ofBinary64 y).text.toList = some (hundredths y.value / 100 : ℚ) := by
    intro y hy hsmall
    have htext := toList_text_ofBinary64 hy (hsmall.le.trans (by norm_num [hundredthsBound]))
    rw [htext, read?_chars]
    exact ⟨rfl, rfl⟩
  obtain ⟨htext, hv⟩ := hread x hx h
  have hnearest := nearestHundredth_hundredths x.value
  refine ⟨hundredths x.value / 100, hv, fun n hn => ⟨?_, ?_⟩,
    ⟨hundredths x.value, rfl, fun m => nearestHundredth_iff⟩, ?_, fun y hy hsmall hle => ?_⟩
  · rw [hn, hundredths_intCast]
    push_cast
    rw [mul_div_cancel_right₀ _ (by norm_num)]
  · refine String.toList_inj.mp ?_
    rw [htext, hn, chars, if_pos (Rat.den_intCast n), Rat.num_intCast, Numeral.text,
      String.toList_ofList]
  · rw [abs_sub_comm]
    exact hnearest.abs_sub_le
  · refine ⟨hundredths y.value / 100, (hread y hy hsmall).2, ?_⟩
    have hmono : hundredths x.value ≤ hundredths y.value :=
      roundHalfEven_mono (mul_le_mul_of_nonneg_right hle (by norm_num))
    have hcast : (hundredths x.value : ℚ) ≤ hundredths y.value := by exact_mod_cast hmono
    linarith

/-- An eighth and three eighths lie between two hundredths each, and both go to the even one. -/
theorem text_correctly_rounded_eighths :
    (Binary64.finite (1 / 8)).IsFinite ∧ |(Binary64.finite (1 / 8)).value| < 2 ^ 43 ∧
    ∃ v w : ℚ, read? "0.12".toList = some v ∧ read? "0.38".toList = some w ∧
      NearestHundredth (1 / 8) 12 ∧ |v - 1 / 8| ≤ 1 / 200 ∧ v ≤ w := by
  have hsmall : |(Binary64.finite (1 / 8)).value| < 2 ^ 43 := by
    norm_num [Binary64.value, abs_of_pos]
  have hsmall' : |(Binary64.finite (3 / 8)).value| < 2 ^ 43 := by
    norm_num [Binary64.value, abs_of_pos]
  have htext : (ofBinary64 (.finite (1 / 8))).text = "0.12" := by decide +kernel
  have htext' : (ofBinary64 (.finite (3 / 8))).text = "0.38" := by decide +kernel
  have hvalue : read? "0.12".toList = some (12 / 100) := by decide +kernel
  obtain ⟨v, hv, -, ⟨n, hn, hnearest⟩, hclose, hmono⟩ :=
    text_correctly_rounded (x := .finite (1 / 8)) trivial hsmall
  obtain ⟨w, hw, hle⟩ := hmono (.finite (3 / 8)) trivial hsmall'
    (show (1 / 8 : ℚ) ≤ 3 / 8 by norm_num)
  rw [htext] at hv
  rw [htext'] at hw
  have heq : v = 12 / 100 := Option.some.inj (hv.symm.trans hvalue)
  have htwelve : (12 : ℤ) = n := by
    rw [heq, div_left_inj' (by norm_num)] at hn
    exact_mod_cast hn
  exact ⟨trivial, hsmall, v, w, hv, hw, (hnearest 12).mpr htwelve, hclose, hle⟩

end Shown
end Dice
