import Notebook.Decimal.Binary

/-!
The fewest decimal digits that read back as a given number. A decimal reads back if it lies between the
halves of the gaps to the neighbouring numbers; the ends belong to it if the mantissa is even. On the
grid of decimals with a given last place, if any of them reads back then so does one of the two
neighbours of the number itself, so these two are all that is tried.
-/
namespace Notebook.Decimal

/-- The decimal `digits · 10 ^ exponent`. -/
structure Digits where
  digits : Nat
  exponent : Int
  deriving DecidableEq, Repr

/-- A positive fraction. -/
structure Ratio where
  num : Nat
  den : Nat

/-- `n · 2 ^ e`. -/
def Ratio.ofBinary (n : Nat) (e : Int) : Ratio := ⟨n * Nat.pow 2 e.toNat, Nat.pow 2 (-e).toNat⟩

/-- `n · 10 ^ e`. -/
def Ratio.ofDecimal (n : Nat) (e : Int) : Ratio := ⟨n * Nat.pow 10 e.toNat, Nat.pow 10 (-e).toNat⟩

def Ratio.lt (a b : Ratio) : Bool := a.num * b.den < b.num * a.den

def Ratio.le (a b : Ratio) : Bool := a.num * b.den ≤ b.num * a.den

/-- The reals that round to a number: the number and the ends, which belong to it or not. -/
structure Interval where
  low : Ratio
  value : Ratio
  high : Ratio
  closed : Bool

/-- The reals that round to `m · 2 ^ e`. Below a power of two the gap is half as wide. -/
def Interval.of (m : Nat) (e : Int) : Interval :=
  let low := if m = Nat.pow 2 52 && -1074 < e then 4 * m - 1 else 4 * m - 2
  ⟨.ofBinary low (e - 2), .ofBinary (4 * m) (e - 2), .ofBinary (4 * m + 2) (e - 2), m % 2 = 0⟩

def Interval.contains (i : Interval) (r : Ratio) : Bool :=
  if i.closed then i.low.le r && r.le i.high else i.low.lt r && r.lt i.high

/-- The whole number of steps of `10 ^ exponent` that the value has gone past. -/
def Interval.steps (i : Interval) (exponent : Int) : Nat :=
  (i.value.num * Nat.pow 10 (-exponent).toNat) / (i.value.den * Nat.pow 10 exponent.toNat)

/-- The decimal on a grid that reads back, the nearer one if there are two; of two equally near ones the
upper one. -/
def Interval.onGrid? (i : Interval) (exponent : Int) : Option Digits :=
  let d := i.steps exponent
  let below := 0 < d && i.contains (.ofDecimal d exponent)
  let above := i.contains (.ofDecimal (d + 1) exponent)
  let middle := Ratio.ofDecimal (2 * d + 1) exponent
  let twice : Ratio := ⟨2 * i.value.num, i.value.den⟩
  if below && above then some ⟨if twice.lt middle then d else d + 1, exponent⟩
  else if below then some ⟨d, exponent⟩
  else if above then some ⟨d + 1, exponent⟩
  else none

/-- Tries grids from a coarse one down. -/
def Interval.shortestFrom (i : Interval) : Nat → Int → Digits
  | 0, exponent => ⟨i.steps exponent, exponent⟩
  | n + 1, exponent => (i.onGrid? exponent).getD (i.shortestFrom n (exponent - 1))

/-- An exponent of ten above the number `m · 2 ^ e`. -/
def decimalCeiling (m : Nat) (e : Int) : Int :=
  let bits : Int := m.log2 + 1 + e
  (bits * 30103) / 100000 + 2

/-- The fewest digits that read back as `m · 2 ^ e`, nearest first. -/
def shortest (m : Nat) (e : Int) : Digits :=
  (Interval.of m e).shortestFrom 22 (decimalCeiling m e)

end Notebook.Decimal
