/-
# Text that is written in UTF-8

What is written in UTF-8 is read as it was.  The reader takes one octet at a time, so the argument
goes by the octets of one character: the first one says how many follow and leaves the leading bits
of the code point, and each of the others brings six more.  A reader that has come to the last octet
with all bits but six has the whole code point with it (`step_later_last`), and no character is half
of a pair (`isSurrogate_toNat`).

* `decode_encodeChar`: the octets of one character;
* `decode_encode`: **text is read as it was**, to its end;
* `readLines_encode`: so a file of text yields the lines of the text.
-/
import Mathlib.Tactic.SplitIfs
import Dice.Text.Lines

namespace Dice.Text

namespace Utf8

/-! ## 1. One octet -/

/-- The code points of characters. -/
theorem toNat_valid (c : Char) : c.toNat < 0xd800 ∨ 0xdfff < c.toNat ∧ c.toNat < 0x110000 :=
  c.valid

/-- No character is half of a pair. -/
theorem isSurrogate_toNat (c : Char) : isSurrogate c.toNat = false := by
  have hvalid := toNat_valid c
  simp only [isSurrogate, Bool.and_eq_false_iff, decide_eq_false_iff_not]
  omega

variable {v lo hi missing : Nat}

theorem step_none (b : Nat) : step none b = first b := rfl

/-- A lead octet leaves the leading bits. -/
theorem step_first_two (h : 0x7f < v) (h' : v ≤ 0x7ff) :
    step none (v / 64 % 32 + 192) = .next ⟨1, v / 64, 0x80, 0xbf⟩ := by
  have hlead : v / 64 % 32 + 192 - 192 = v / 64 := by omega
  rw [step_none, first, if_neg (by omega), if_neg (by omega), if_pos (by omega), hlead]

theorem step_first_three (h : v ≤ 0xffff) :
    step none (v / 4096 % 16 + 224)
      = .next ⟨2, v / 4096, if v / 4096 % 16 + 224 = 224 then 0xa0 else 0x80, 0xbf⟩ := by
  have hlead : v / 4096 % 16 + 224 - 224 = v / 4096 := by omega
  rw [step_none, first, if_neg (by omega), if_neg (by omega), if_neg (by omega),
    if_pos (by omega), hlead]

theorem step_first_four (h : v < 0x110000) :
    step none (v / 262144 % 8 + 240)
      = .next ⟨3, v / 262144, if v / 262144 % 8 + 240 = 240 then 0x90 else 0x80,
          if v / 262144 % 8 + 240 = 244 then 0x8f else 0xbf⟩ := by
  have hlead : v / 262144 % 8 + 240 - 240 = v / 262144 := by omega
  rw [step_none, first, if_neg (by omega), if_neg (by omega), if_neg (by omega), if_neg (by omega),
    if_pos (by omega), hlead]

/-- What an octet in its bounds does. -/
theorem step_later (hlo : lo ≤ v % 64 + 128) (hhi : v % 64 + 128 ≤ hi) :
    step (some ⟨missing, v / 64, lo, hi⟩) (v % 64 + 128)
      = if 1 < missing then .next ⟨missing - 1, v, 0x80, 0xbf⟩
        else if isSurrogate v then .refused
        else .char (Char.ofNat v) := by
  have hbits : v / 64 * 64 + (v % 64 + 128 - 128) = v := by omega
  have hbounds : (v % 64 + 128 < lo || hi < v % 64 + 128) = false := by
    simp only [Bool.or_eq_false_iff, decide_eq_false_iff_not]
    omega
  simp only [step, later, hbits, hbounds, Bool.false_eq_true, if_false]

/-- A later octet brings six more bits. -/
theorem step_later_next (hmissing : 1 < missing) (hlo : lo ≤ v % 64 + 128)
    (hhi : v % 64 + 128 ≤ hi) : step (some ⟨missing, v / 64, lo, hi⟩) (v % 64 + 128)
      = .next ⟨missing - 1, v, 0x80, 0xbf⟩ := by
  rw [step_later hlo hhi, if_pos hmissing]

/-- The last octet brings the last six. -/
theorem step_later_last {c : Char} (hv : c.toNat = v) (hlo : lo ≤ v % 64 + 128)
    (hhi : v % 64 + 128 ≤ hi) :
    step (some ⟨1, v / 64, lo, hi⟩) (v % 64 + 128) = .char c := by
  rw [step_later hlo hhi, ← hv, isSurrogate_toNat, Char.ofNat_toNat, if_neg (by decide)]
  exact if_neg Bool.false_ne_true

/-! ## 2. One character -/

/-- What a reader makes of octets after a completed character. -/
def Decoded.after (c : Char) (n : Nat) (d : Decoded) : Decoded :=
  ⟨c :: d.chars, d.accepted + n, d.state⟩

theorem decode_last {s : State} {c : Char} {n : Nat} (hn : n < 256) (h : step s n = .char c)
    (bs : List UInt8) : decode s (UInt8.ofNat n :: bs) = (decode none bs).after c 1 := by
  simp only [decode, UInt8.toNat_ofNat_of_lt' hn, h, Decoded.after]

theorem decode_next {s : State} {p : Pending} {n k : Nat} {c : Char} {d : Decoded}
    {bs : List UInt8} (hn : n < 256) (h : step s n = .next p)
    (hrest : decode (some p) bs = d.after c k) :
    decode s (UInt8.ofNat n :: bs) = d.after c (k + 1) := by
  simp only [decode, UInt8.toNat_ofNat_of_lt' hn, h, hrest, Decoded.after, Nat.add_assoc]

/-- **The octets of one character** are read as the character. -/
theorem decode_encodeChar (c : Char) (bs : List UInt8) :
    decode none (String.utf8EncodeChar c ++ bs)
      = (decode none bs).after c (String.utf8EncodeChar c).length := by
  have hmax : c.toNat < 0x110000 := by
    have hvalid := toNat_valid c
    omega
  have hchar : Char.ofNat c.toNat = c := Char.ofNat_toNat c
  have hval : c.val.toNat = c.toNat := rfl
  unfold String.utf8EncodeChar
  dsimp only
  rw [hval]
  generalize hv : c.toNat = v at hmax hchar
  have h64 : v / 4096 = v / 64 / 64 := by omega
  have h4096 : v / 262144 = v / 64 / 64 / 64 := by omega
  split_ifs with h1 h2 h3
  · have hfirst : step none v = .char c := by
      rw [step_none, first, if_pos (by omega), hchar]
    exact decode_last (by omega) hfirst bs
  · refine decode_next (by omega) (step_first_two (by omega) h2) ?_
    exact decode_last (by omega) (step_later_last hv (by omega) (by omega)) bs
  · refine decode_next (by omega) (step_first_three h3) ?_
    rw [h64]
    refine decode_next (by omega) (step_later_next (by decide) ?_ (by omega)) ?_
    · split_ifs <;> omega
    · exact decode_last (by omega) (step_later_last hv (by omega) (by omega)) bs
  · refine decode_next (by omega) (step_first_four hmax) ?_
    rw [h4096, h64]
    refine decode_next (by omega) (step_later_next (by decide) ?_ ?_) ?_
    · split_ifs <;> omega
    · split_ifs <;> omega
    · refine decode_next (by omega) (step_later_next (by decide) (by omega) (by omega)) ?_
      exact decode_last (by omega) (step_later_last hv (by omega) (by omega)) bs

/-! ## 3. Text -/

/-- A text in UTF-8. -/
def encode (cs : List Char) : List UInt8 := cs.flatMap String.utf8EncodeChar

/-- **What is written in UTF-8 is read as it was**, and the reading comes to the end. -/
theorem decode_encode (cs : List Char) :
    decode none (encode cs) = ⟨cs, (encode cs).length, some none⟩ := by
  induction cs with
  | nil => rfl
  | cons c cs ih =>
    have hcons : encode (c :: cs) = String.utf8EncodeChar c ++ encode cs := List.flatMap_cons
    rw [hcons, decode_encodeChar, ih, List.length_append, Nat.add_comm]
    rfl

end Utf8

/-- **A file of text** yields the lines of the text, and is sound. -/
theorem readLines_encode (cs : List Char) :
    readLines (Utf8.encode cs) = ⟨(lines cs).map String.ofList, true⟩ := by
  unfold readLines
  rw [Utf8.decode_encode]

end Dice.Text
