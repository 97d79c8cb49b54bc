/-!
The 64-bit binary floating point numbers, and the one nearest to a decimal.
-/

namespace WidgetDsl.Decimal

/-- A finite number is `significand * 2 ^ exponent`, with its sign kept also for zero. -/
inductive Binary64 where
  | finite (negative : Bool) (significand : Nat) (exponent : Int)
  | infinite (negative : Bool)
  | nan
  deriving DecidableEq, Repr

namespace Binary64

def precision : Nat := 53

def leastExponent : Int := -1074

def greatestExponent : Int := 971

end Binary64

/-- The quotient rounded to the nearest natural number, a half to the even one. -/
def roundDiv (num den : Nat) : Nat :=
  let quotient := num / den
  let rest := num % den
  if 2 * rest < den then quotient
  else if den < 2 * rest then quotient + 1
  else quotient + quotient % 2

def scale (base num den : Nat) (power : Int) : Nat × Nat :=
  if 0 ≤ power then (num, den * base.pow power.toNat)
  else (num * base.pow (-power).toNat, den)

/-- The exponent at which the quotient of two positive numbers fills the precision. -/
def Binary64.exponentFor (num den : Nat) : Int :=
  let guess : Int := num.log2 - den.log2 - Binary64.precision
  let (a, b) := scale 2 num den guess
  let exponent := if Nat.pow 2 Binary64.precision ≤ a / b then guess + 1 else guess
  max exponent Binary64.leastExponent

def Binary64.nearest (negative : Bool) (num den : Nat) : Binary64 :=
  if num = 0 then .finite negative 0 leastExponent
  else
    let exponent := exponentFor num den
    let (a, b) := scale 2 num den exponent
    let significand := roundDiv a b
    let (significand, exponent) :=
      if significand = Nat.pow 2 precision then (Nat.pow 2 (precision - 1), exponent + 1)
      else (significand, exponent)
    if greatestExponent < exponent then .infinite negative
    else .finite negative significand exponent

def digitCount (n : Nat) : Nat :=
  (Nat.toDigits 10 n).length

/-- The nearest number to `digits * 10 ^ power`. Decimals beyond every finite number, or nearer to
zero than to any other, are told by their count of digits alone. -/
def Binary64.ofDecimal (negative : Bool) (digits : Nat) (power : Int) : Binary64 :=
  let magnitude : Int := digitCount digits + power
  if digits = 0 ∨ magnitude < -330 then .finite negative 0 leastExponent
  else if 330 < magnitude then .infinite negative
  else
    let (num, den) := scale 10 digits 1 (-power)
    nearest negative num den

end WidgetDsl.Decimal
