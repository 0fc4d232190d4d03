/-!
# Decimals

Floating point numbers are written with the fewest decimal digits that read back as the same number,
and of those with the nearest. The digits are found by exact arithmetic on the interval of reals that
round to the number.
-/

namespace SymbolSearch

/-- The number `digits * 10 ^ exponent`. -/
structure Decimal where
  digits : Nat
  exponent : Int
  deriving DecidableEq, Repr

/-- The number `mantissa * 2 ^ exponent`. The gap to the next number below may be half of that to
the next number above. -/
structure Binary where
  mantissa : Nat
  exponent : Int
  narrowBelow : Bool
  deriving DecidableEq, Repr

namespace Binary

/-- The magnitude of a number that is neither infinite nor undefined. -/
def ofFloat (x : Float) : Binary :=
  let bits : Nat := x.toBits.toNat
  let field : Nat := bits / Nat.pow 2 52 % Nat.pow 2 11
  let fraction : Nat := bits % Nat.pow 2 52
  if field = 0 then ⟨fraction, -1074, false⟩
  else ⟨Nat.pow 2 52 + fraction, (field : Int) - 1075, fraction = 0 ∧ 1 < field⟩

/-- Compares `a * 10 ^ i` with `b * 2 ^ j`. -/
def compareScaled (a : Nat) (i : Int) (b : Nat) (j : Int) : Ordering :=
  compare (a * Nat.pow 10 i.toNat * Nat.pow 2 (-j).toNat)
    (b * Nat.pow 2 j.toNat * Nat.pow 10 (-i).toNat)

/-- Whether a decimal lies among the reals that round to the number: ends that lie halfway to a
neighbour belong to the number with the even mantissa. -/
def isReadFrom (x : Binary) (d : Decimal) : Bool :=
  let lower := if x.narrowBelow then 4 * x.mantissa - 1 else 4 * x.mantissa - 2
  let upper := 4 * x.mantissa + 2
  let atLower := compareScaled d.digits d.exponent lower (x.exponent - 2)
  let atUpper := compareScaled d.digits d.exponent upper (x.exponent - 2)
  if x.mantissa % 2 = 0 then atLower.isGE && atUpper.isLE else atLower.isGT && atUpper.isLT

/-- The least `k` for which a positive number is below `10 ^ k`. -/
def scale (x : Binary) : Int :=
  let estimate := (x.mantissa.log2 + x.exponent) * 30103 / 100000
  if (compareScaled 1 estimate x.mantissa x.exponent).isGT then estimate
  else if (compareScaled 1 (estimate + 1) x.mantissa x.exponent).isGT then estimate + 1
  else estimate + 2

/-- The number divided by `10 ^ exponent`, rounded down. -/
def onGrid (x : Binary) (exponent : Int) : Nat :=
  x.mantissa * Nat.pow 2 x.exponent.toNat * Nat.pow 10 (-exponent).toNat
    / (Nat.pow 2 (-x.exponent).toNat * Nat.pow 10 exponent.toNat)

/-- The decimal with `count` digits that reads back. Of two it is the nearer one, or the greater one
if they are equally near. -/
def withDigits? (x : Binary) (count : Nat) : Option Decimal :=
  let exponent := x.scale - count
  let below := x.onGrid exponent
  let candidates := [⟨below, exponent⟩, ⟨below + 1, exponent⟩].filter x.isReadFrom
  match candidates with
  | [lower, upper] =>
    if (compareScaled (2 * below + 1) exponent (2 * x.mantissa) x.exponent).isGT then some lower
    else some upper
  | candidates => candidates.head?

/-- No number needs more than 17 digits. -/
def shortest (x : Binary) : Decimal :=
  ((List.range 17).findSome? fun n => x.withDigits? (n + 1)).getD ⟨0, 0⟩

end Binary

namespace Decimal

/-- The digits without zeros at the end. -/
def significant (d : Decimal) : List Char :=
  ((toString d.digits).toList.reverse.dropWhile (· = '0')).reverse

/-- The digits with a point at its place, at least one digit being on either side of it. -/
def positional (d : Decimal) : String :=
  let digits := d.significant
  let exponent := d.exponent + ((toString d.digits).length - digits.length : Nat)
  let zeros (n : Int) := List.replicate n.toNat '0'
  let point := digits.length + exponent
  String.ofList <|
    if 0 ≤ exponent then digits ++ zeros exponent ++ ['.', '0']
    else if 0 < point then digits.take point.toNat ++ '.' :: digits.drop point.toNat
    else ['0', '.'] ++ zeros (-point) ++ digits

end Decimal

/-- A floating point number as a text. -/
def Decimal.ofFloat (x : Float) : String :=
  if x.isNaN then "NaN"
  else
    let sign := if x.toBits.toNat < Nat.pow 2 63 then "" else "-"
    if x.isInf then sign ++ "inf"
    else if x == 0 then sign ++ "0.0"
    else sign ++ (Binary.ofFloat x).shortest.positional

end SymbolSearch
