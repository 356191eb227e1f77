/-!
Whole numbers of 64 bits whose arithmetic is exact. An operation has a result only if the exact result
fits.
-/
namespace Notebook.Guest.Integer

/-- The least number. -/
def least : Int := -9223372036854775808

/-- The greatest number. -/
def greatest : Int := 9223372036854775807

/-- A number, if it fits. -/
def fit? (n : Int) : Option Int64 :=
  if least ≤ n ∧ n ≤ greatest then some (Int64.ofInt n) else none

def neg? (a : Int64) : Option Int64 := fit? (-a.toInt)

/-- The distance from zero. -/
def abs? (a : Int64) : Option Int64 := fit? a.toInt.natAbs

def add? (a b : Int64) : Option Int64 := fit? (a.toInt + b.toInt)

def sub? (a b : Int64) : Option Int64 := fit? (a.toInt - b.toInt)

def mul? (a b : Int64) : Option Int64 := fit? (a.toInt * b.toInt)

/-- The quotient, rounded toward zero. There is none by zero. -/
def div? (a b : Int64) : Option Int64 := if b = 0 then none else fit? (a.toInt.tdiv b.toInt)

/-- The remainder of `div?`; there is none where there is no quotient. -/
def rem? (a b : Int64) : Option Int64 := (div? a b).map fun _ => Int64.ofInt (a.toInt.tmod b.toInt)

/-- A power. From the base 2 on, no power beyond the 63rd fits. -/
def pow? (a : Int64) (n : Nat) : Option Int64 :=
  if a = 0 ∨ a = 1 ∨ a = -1 then some (if n = 0 then 1 else if n % 2 = 0 then a * a else a)
  else if n < 64 then fit? (Int.pow a.toInt n)
  else none

/-- The sum of several numbers, of which every partial sum has to fit. -/
def sumFrom? (total : Int64) : List Int64 → Option Int64
  | [] => some total
  | a :: as => (add? total a).bind fun t => sumFrom? t as

/-- Whether a number is a count of bits by which a number can be shifted. -/
def isShift (n : Int64) : Bool := 0 ≤ n.toInt && n.toInt < 64

/-- Bits moved up; those that leave are lost. -/
def shl? (a n : Int64) : Option Int64 := if isShift n then some (a <<< n) else none

/-- Bits moved down, the sign kept. -/
def shr? (a n : Int64) : Option Int64 := if isShift n then some (a >>> n) else none

end Notebook.Guest.Integer
