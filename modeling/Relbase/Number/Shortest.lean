import Relbase.Number.Binary64

/-!
# Shortest decimal form

A finite number is written with the fewest significant digits that read back as
the same number, and with the nearest such digits.
-/

namespace Relbase

structure Decimal where
  significand : Nat
  power : Int
  deriving DecidableEq, Repr

namespace Decimal

def normalize (d : Decimal) : Decimal :=
  if h : d.significand ≠ 0 ∧ d.significand % 10 = 0 then
    normalize ⟨d.significand / 10, d.power + 1⟩
  else d
termination_by d.significand
decreasing_by exact Nat.div_lt_self (Nat.pos_of_ne_zero h.1) (by decide)

def magnitude (d : Decimal) : Nat :=
  Binary64.decimalMagnitude d.significand d.power

end Decimal

namespace Binary64

/-- Decimal places that hold the leading digits of every number. -/
def guardPlaces : Nat := 400

/-- The best decimal with `digits` significant digits that reads back as the
magnitude: of the two neighbours on that decimal grid the nearer one that does, and the even
one of two that are equally near. -/
def decimalWith? (magnitude digits : Nat) : Option Decimal :=
  let (numerator, denominator) := fraction magnitude
  let scaled := numerator * Nat.pow 10 guardPlaces
  let places := (Nat.toDigits 10 (scaled / denominator)).length
  let unit := Nat.pow 10 (places - digits)
  let below := scaled / denominator / unit
  let power : Int := (places : Int) - digits - guardPlaces
  let lower : Decimal := ⟨below, power⟩
  let upper : Decimal := ⟨below + 1, power⟩
  let half := (2 * below + 1) * unit * denominator
  let lowerFirst := 2 * scaled < half || (2 * scaled = half && below % 2 = 0)
  (if lowerFirst then [lower, upper] else [upper, lower]).find? fun d => d.magnitude == magnitude

def shortest (magnitude : Nat) : Decimal :=
  if magnitude = 0 then ⟨0, 0⟩
  else (((List.range 17).findSome? fun n => decimalWith? magnitude (n + 1)).getD ⟨0, 0⟩).normalize

end Binary64

end Relbase
