import WidgetDsl.Decimal.Binary64

/-!
The shortest decimal that reads back as a given number, and its text.
-/

namespace WidgetDsl.Decimal

structure Numeral where
  digits : Nat
  power : Int
  deriving DecidableEq, Repr

def below (inclusive : Bool) (a b c d : Nat) : Bool :=
  if inclusive then a * d ≤ c * b else a * d < c * b

/-- Whether a decimal reads back as `m * 2 ^ q`: it lies between the middles to the two neighbours,
and on a middle only for an even `m`. The lower neighbour is nearer at a power of two. -/
def readsBack (m : Nat) (q : Int) (d : Numeral) : Bool :=
  let isPower := m = Nat.pow 2 (Binary64.precision - 1)
  let step := if isPower ∧ Binary64.leastExponent < q then 1 else 2
  let (lowNum, lowDen) := scale 2 (4 * m - step) 1 (2 - q)
  let (highNum, highDen) := scale 2 (4 * m + 2) 1 (2 - q)
  let (num, den) := scale 10 d.digits 1 (-d.power)
  let even := m % 2 == 0
  below even lowNum lowDen num den && below even num den highNum highDen

def leadingExponent (num den : Nat) : Int :=
  let guess : Int := digitCount num - digitCount den
  let (a, b) := scale 10 num den guess
  if a < b then guess - 1 else guess

/-- Of the two neighbours on the grid with `count` digits, one that reads back: the nearer one if
both do, and of two equally near ones the even one. -/
def onGrid (m : Nat) (q : Int) (count : Nat) : Option Numeral :=
  let (num, den) := scale 2 m 1 (-q)
  let power := leadingExponent num den - (count - 1 : Int)
  let (a, b) := scale 10 num den power
  let nearer := roundDiv a b
  let farther := if nearer = a / b then nearer + 1 else a / b
  [nearer, farther].map (⟨·, power⟩) |>.find? (readsBack m q)

/-- The first grid with a hit; seventeen digits always suffice. -/
def shortest (m : Nat) (q : Int) : Numeral :=
  ((List.range 17).findSome? fun n => onGrid m q (n + 1)).getD ⟨m, 0⟩

structure Style where
  leastPositional : Int
  pastPositional : Int
  exponentWidth : Nat
  nan : String
  infinity : String
  deriving Repr

def padLeft (width : Nat) (cs : List Char) : List Char :=
  List.replicate (width - cs.length) '0' ++ cs

def positional (digits : List Char) (whole : Int) : List Char :=
  if whole ≤ 0 then '0' :: '.' :: (List.replicate (-whole).toNat '0' ++ digits)
  else
    let front := digits.take whole.toNat
    let back := digits.drop whole.toNat
    front ++ List.replicate (whole.toNat - front.length) '0' ++
      '.' :: (if back.isEmpty then ['0'] else back)

def scientific (style : Style) (digits : List Char) (exponent : Int) : List Char :=
  let point := if digits.length ≤ 1 then [] else '.' :: digits.drop 1
  let sign := if exponent < 0 then '-' else '+'
  digits.take 1 ++ point ++
    'e' :: sign :: padLeft style.exponentWidth (Nat.toDigits 10 exponent.natAbs)

def dropTrailingZeros (digits : List Char) : List Char :=
  (digits.reverse.dropWhile (· == '0')).reverse

def Numeral.write (style : Style) (d : Numeral) : List Char :=
  let exponent := d.power + digitCount d.digits - 1
  let digits := dropTrailingZeros (Nat.toDigits 10 d.digits)
  if style.leastPositional ≤ exponent ∧ exponent < style.pastPositional then
    positional digits (exponent + 1)
  else scientific style digits exponent

def Binary64.write (style : Style) : Binary64 → String
  | .nan => style.nan
  | .infinite negative => if negative then "-" ++ style.infinity else style.infinity
  | .finite negative m q =>
    let body := if m = 0 then ['0', '.', '0'] else (shortest m q).write style
    String.ofList (if negative then '-' :: body else body)

end WidgetDsl.Decimal
