/-
# UTF-8

Octets are read one at a time.  Between two characters nothing is pending; inside a character the
state holds how many octets are still to come, the bits gathered so far and the range in which the
next octet has to lie.  The ranges exclude overlong forms and code points above U+10FFFF at the
second octet already, so such a sequence is refused at its first faulty octet.  Only a surrogate is
recognised when its last octet comes.

* `step` reads one octet;
* `decode` reads octets from a state and says how far it came: to the end, in which case the
  last character may still be incomplete, or to an octet that cannot stand where it does.
-/
namespace Dice.Text.Utf8

/-! ## 1. One octet -/

/-- What has been read of a character: the number of octets to come, the bits so far, and the
bounds of the next octet. -/
structure Pending where
  missing : Nat
  bits : Nat
  lo : Nat
  hi : Nat
  deriving Repr, DecidableEq

/-- Where a reader stands: between two characters, or inside one. -/
abbrev State := Option Pending

/-- What one octet does: it completes a character, it moves the reader on, or it is refused. -/
inductive Move
  | char (c : Char)
  | next (p : Pending)
  | refused
  deriving Repr, DecidableEq

/-- The first octet of a character.  Of the lead octets, `e0`, `f0` and `f4` narrow the range of the
octet that follows. -/
def first (b : Nat) : Move :=
  if b < 0x80 then .char (Char.ofNat b)
  else if b < 0xc2 then .refused
  else if b < 0xe0 then .next ⟨1, b - 0xc0, 0x80, 0xbf⟩
  else if b < 0xf0 then .next ⟨2, b - 0xe0, if b = 0xe0 then 0xa0 else 0x80, 0xbf⟩
  else if b < 0xf5 then
    .next ⟨3, b - 0xf0, if b = 0xf0 then 0x90 else 0x80, if b = 0xf4 then 0x8f else 0xbf⟩
  else .refused

/-- The code points that stand for halves of a pair. -/
def isSurrogate (n : Nat) : Bool := 0xd800 ≤ n && n < 0xe000

/-- A later octet of a character: six more bits. -/
def later (p : Pending) (b : Nat) : Move :=
  let bits := p.bits * 64 + (b - 0x80)
  if b < p.lo || p.hi < b then .refused
  else if 1 < p.missing then .next ⟨p.missing - 1, bits, 0x80, 0xbf⟩
  else if isSurrogate bits then .refused
  else .char (Char.ofNat bits)

/-- Reads one octet. -/
def step : State → Nat → Move
  | none, b => first b
  | some p, b => later p b

/-! ## 2. Many octets -/

/-- What octets amount to: the characters they complete, how many octets were accepted, and the
state they leave, which is `none` if one of them was refused. -/
structure Decoded where
  chars : List Char
  accepted : Nat
  state : Option State
  deriving Repr, DecidableEq

/-- Reads octets from a state, up to the first one that is refused. -/
def decode : State → List UInt8 → Decoded
  | s, [] => ⟨[], 0, some s⟩
  | s, b :: bs =>
    match step s b.toNat with
    | .char c =>
      let d := decode none bs
      ⟨c :: d.chars, d.accepted + 1, d.state⟩
    | .next p =>
      let d := decode (some p) bs
      ⟨d.chars, d.accepted + 1, d.state⟩
    | .refused => ⟨[], 0, none⟩

end Dice.Text.Utf8
