import Notebook.Decimal.Shortest

/-!
Numbers as text, and digits as numbers. A number is written positionally, without an exponent; a whole number is
written to its last digit and with one place after the point.
-/
namespace Notebook.Decimal

/-- The decimal digits of a natural number. -/
def natText (n : Nat) : List Char := Nat.toDigits 10 n

/-- The decimal digits of a whole number. -/
def intText (n : Int) : List Char := if n < 0 then '-' :: natText n.natAbs else natText n.natAbs

/-- The whole number that `m · 2 ^ e` is, if it is one. -/
def whole? (m : Nat) (e : Int) : Option Nat :=
  if 0 ≤ e then some (m * Nat.pow 2 e.toNat)
  else if m % Nat.pow 2 (-e).toNat = 0 then some (m / Nat.pow 2 (-e).toNat)
  else none

/-- Digits laid out around a point. -/
def Digits.positional (d : Digits) : List Char :=
  if 0 ≤ d.exponent then natText d.digits ++ List.replicate d.exponent.toNat '0'
  else
    let places := (-d.exponent).toNat
    let text := natText d.digits
    let text := List.replicate (places + 1 - text.length) '0' ++ text
    text.take (text.length - places) ++ '.' :: text.drop (text.length - places)

/-- A floating-point number as text. -/
def floatText (x : Float) : List Char :=
  let p := parts x
  let sign := if p.negative then ['-'] else []
  match p.magnitude with
  | .nan => "NaN".toList
  | .infinite => sign ++ "inf".toList
  | .finite m e =>
    match whole? m e with
    | some n => sign ++ natText n ++ ".0".toList
    | none => sign ++ (shortest m e).positional

/-- The number `digits · 10 ^ exponent`, however large the exponent is. -/
def ofDigits (digits : Nat) (exponent : Int) : Float :=
  let size : Int := (natText digits).length + exponent
  if digits = 0 then 0.0
  else if 400 < size then 1.0 / 0.0
  else if size < -400 then 0.0
  else if exponent < 0 then Float.ofScientific digits true (-exponent).toNat
  else Float.ofScientific digits false exponent.toNat

/-- The value of decimal digits. -/
def digitsValue (cs : List Char) : Nat :=
  cs.foldl (fun n c => n * 10 + (c.toNat - '0'.toNat)) 0

end Notebook.Decimal
