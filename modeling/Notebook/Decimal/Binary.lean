/-!
Floating-point numbers taken apart into a sign, a mantissa and a power of two, and the operations on them
that are done exactly on these parts.
-/
namespace Notebook.Decimal

/-- What a floating-point number is. A finite one is `mantissa · 2 ^ exponent`. -/
inductive Magnitude
  | finite (mantissa : Nat) (exponent : Int)
  | infinite
  | nan
  deriving DecidableEq, Repr

/-- A floating-point number in parts. -/
structure Parts where
  negative : Bool
  magnitude : Magnitude
  deriving DecidableEq, Repr

/-- The parts that the 64 bits of a number stand for: a sign, eleven bits of exponent, and 52 bits of
mantissa that lack their leading one unless the exponent is the least one. -/
def Parts.ofBits (bits : UInt64) : Parts :=
  let n := bits.toNat
  let fraction : Nat := n % Nat.pow 2 52
  let biased : Nat := n / Nat.pow 2 52 % Nat.pow 2 11
  let magnitude : Magnitude :=
    if biased = 2047 then (if fraction = 0 then .infinite else .nan)
    else if biased = 0 then .finite fraction (-1074)
    else .finite (fraction + Nat.pow 2 52) (Int.ofNat biased - 1075)
  ⟨Nat.pow 2 63 ≤ n, magnitude⟩

/-- The parts of a number. -/
def parts (x : Float) : Parts := .ofBits x.toBits

/-- The number `m · 2 ^ e`, halved while it stays whole so that it fits where it can. -/
def scaledFor : Nat → Nat → Int → Float
  | 0, m, e => (Float.ofNat m).scaleB e
  | steps + 1, m, e =>
    if m % 2 = 0 && m ≠ 0 then scaledFor steps (m / 2) (e + 1) else (Float.ofNat m).scaleB e

/-- The number `m · 2 ^ e`. -/
def scaled (m : Nat) (e : Int) : Float := scaledFor m.log2 m e

/-- The remainder of a division whose quotient is cut to a whole number; it has the sign of `x`. -/
def remainder (x y : Float) : Float :=
  match (parts x).magnitude, (parts y).magnitude with
  | .finite m p, .finite n q =>
    if n = 0 then 0.0 / 0.0
    else
      let e := min p q
      let r := (m * Nat.pow 2 (p - e).toNat) % (n * Nat.pow 2 (q - e).toNat)
      let size := scaled r e
      if (parts x).negative then -size else size
  | .finite _ _, .infinite => x
  | _, _ => 0.0 / 0.0

/-- Powers by squaring, with `n` read from its lowest binary digit on; so many steps at most. -/
def powerFor : Nat → Float → Float → Nat → Float
  | 0, r, _, _ => r
  | steps + 1, r, x, n =>
    let r := if n % 2 = 1 then r * x else r
    if n / 2 = 0 then r else powerFor steps r (x * x) (n / 2)

/-- A whole power. A negative one is the inverse of the power without its sign. -/
def power (x : Float) (n : Int) : Float :=
  let r := powerFor (n.natAbs.log2 + 1) 1.0 x n.natAbs
  if n < 0 then 1.0 / r else r

end Notebook.Decimal
