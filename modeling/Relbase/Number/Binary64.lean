/-!
# Double precision numbers

A number of the 64-bit binary format is a sign and the other 63 bits read as a
natural number, its magnitude.  Magnitudes are ordered like the numbers that they
stand for, so comparison needs no decoding: `Binary64.rank` is the magnitude with
its sign.  Rounding is done in exact arithmetic.
-/

namespace Relbase

structure Binary64 where
  negative : Bool
  magnitude : Nat
  deriving DecidableEq, Repr

/-- The natural number nearest to a quotient; a half goes to the even neighbour. -/
def nearestQuotient (numerator denominator : Nat) : Nat :=
  let quotient := numerator / denominator
  let remainder := numerator % denominator
  if 2 * remainder < denominator then quotient
  else if 2 * remainder > denominator then quotient + 1
  else if quotient % 2 = 0 then quotient
  else quotient + 1

def divideByPower (numerator denominator : Nat) (power : Int) : Nat × Nat :=
  if 0 ≤ power then (numerator, denominator * Nat.pow 2 power.toNat)
  else (numerator * Nat.pow 2 (-power).toNat, denominator)

namespace Binary64

/-- The magnitude of infinity; what lies above it is not a number. -/
def infinityMagnitude : Nat := 2047 * Nat.pow 2 52

def infinity (negative : Bool) : Binary64 :=
  ⟨negative, infinityMagnitude⟩

def notANumber : Binary64 :=
  ⟨false, infinityMagnitude + 1⟩

def isNotANumber (x : Binary64) : Bool :=
  infinityMagnitude < x.magnitude

def isInfinite (x : Binary64) : Bool :=
  x.magnitude == infinityMagnitude

def isZero (x : Binary64) : Bool :=
  x.magnitude == 0

def unitPower (numerator denominator : Nat) : Int :=
  let guess : Int := (numerator.log2 : Int) - denominator.log2 - 53
  let scaled := divideByPower numerator denominator guess
  let power := if scaled.1 < Nat.pow 2 53 * scaled.2 then guess else guess + 1
  max power (-1074)

/-- The magnitude nearest to a fraction; a half goes to the even neighbour, and
what is too large becomes infinity. -/
def nearestMagnitude (numerator denominator : Nat) : Nat :=
  if numerator = 0 then 0
  else
    let power := unitPower numerator denominator
    let scaled := divideByPower numerator denominator power
    min ((power + 1074).toNat * Nat.pow 2 52 + nearestQuotient scaled.1 scaled.2) infinityMagnitude

/-- The magnitude nearest to `significand * 10 ^ power`.  Powers that are out of
reach are not computed. -/
def decimalMagnitude (significand : Nat) (power : Int) : Nat :=
  let reach := power + (Nat.toDigits 10 significand).length
  if significand = 0 || reach < -330 then 0
  else if 310 < reach then infinityMagnitude
  else if 0 ≤ power then nearestMagnitude (significand * Nat.pow 10 power.toNat) 1
  else nearestMagnitude significand (Nat.pow 10 (-power).toNat)

/-- The position of a number on the line; both zeros have the same. -/
def rank (x : Binary64) : Int :=
  if x.negative then -(x.magnitude : Int) else x.magnitude

def factors (magnitude : Nat) : Nat × Int :=
  let field : Nat := magnitude / Nat.pow 2 52
  let fraction : Nat := magnitude % Nat.pow 2 52
  if field = 0 then (fraction, -1074) else (Nat.pow 2 52 + fraction, (field : Int) - 1075)

def fraction (magnitude : Nat) : Nat × Nat :=
  let (factor, power) := factors magnitude
  if 0 ≤ power then (factor * Nat.pow 2 power.toNat, 1)
  else (factor, Nat.pow 2 (-power).toNat)

def truncate (x : Binary64) : Int :=
  let (numerator, denominator) := fraction x.magnitude
  let whole := Int.ofNat (numerator / denominator)
  if x.negative then -whole else whole

end Binary64

end Relbase
