import ApiSurface.Double.Basic

/-!
The shortest decimal that reads back as a given double. A finite double is `m · 2 ^ q`; every real
number in an interval around it rounds to it. Of the decimals in the interval the one with the
fewest digits is taken, and among those the one nearest to the double.
-/

namespace ApiSurface

/-- A decimal number: `coefficient · 10 ^ exponent`. -/
structure Decimal where
  coefficient : Nat
  exponent : Int
deriving DecidableEq, Repr

/-- The reals that round to one double, of the form `n · 2 ^ exponent`. -/
structure Rounding where
  /-- Four times the mantissa: the double itself. -/
  value : Nat
  low : Nat
  high : Nat
  exponent : Int
  /-- The ends of the interval round to the double too. -/
  closed : Bool

namespace Rounding

/-- The interval of a double with the given mantissa and exponent. Below a power of two the doubles
lie twice as close, unless they are as close as doubles can be. -/
def of (mantissa : Nat) (exponent : Int) (least : Bool) : Rounding where
  value := 4 * mantissa
  low := if mantissa = Nat.pow 2 52 && !least then 4 * mantissa - 1 else 4 * mantissa - 2
  high := 4 * mantissa + 2
  exponent := exponent - 2
  closed := mantissa % 2 = 0

def ratio (r : Rounding) (n : Nat) : Ratio := .scaled n 2 r.exponent

/-- The decimal rounds to the double. -/
def contains (r : Rounding) (d : Decimal) : Bool :=
  let x := Ratio.scaled d.coefficient 10 d.exponent
  if r.closed then (r.ratio r.low).le x && x.le (r.ratio r.high)
  else (r.ratio r.low).lt x && x.lt (r.ratio r.high)

/-- The decimal next to the double on the grid of a power of ten, if it rounds to the double. -/
def onGrid (r : Rounding) (exponent : Int) : Option Decimal :=
  let v := r.ratio r.value
  let x := Ratio.scaled 1 10 (-exponent)
  let below : Decimal := ⟨(v.num * x.num) / (v.den * x.den), exponent⟩
  let above : Decimal := ⟨below.coefficient + 1, exponent⟩
  let far (d : Decimal) : Ratio := v.distance (.scaled d.coefficient 10 exponent)
  match r.contains below, r.contains above with
  | true, true =>
    if (far below).lt (far above) then some below
    else if (far above).lt (far below) then some above
    else if below.coefficient % 2 = 0 then some below
    else some above
  | true, false => some below
  | false, true => some above
  | false, false => none

/-- The first grid on which some decimal rounds to the double, from the given one to finer ones. -/
def search (r : Rounding) : Nat → Int → Decimal
  | 0, exponent => ⟨(r.ratio r.value).floor, exponent⟩
  | n + 1, exponent => match r.onGrid exponent with
    | some d => d
    | none => search r n (exponent - 1)

end Rounding

namespace Decimal

/-- The number without zeros at its end; the first argument bounds their number. -/
def trim : Nat → Decimal → Decimal
  | 0, d => d
  | n + 1, d =>
    if d.coefficient % 10 = 0 && d.coefficient != 0 then
      trim n ⟨d.coefficient / 10, d.exponent + 1⟩
    else d

/-- The shortest decimal that rounds to the double `mantissa · 2 ^ exponent`. No grid coarser than
`10 ^ 309` can hold it, and some grid at most 17 digits finer than the double does. -/
def shortest (mantissa : Nat) (exponent : Int) (least : Bool) : Decimal :=
  if mantissa = 0 then ⟨0, 0⟩
  else ((Rounding.of mantissa exponent least).search 700 309).trim 20

/-- The digits. -/
def digits (d : Decimal) : List Char := Nat.toDigits 10 d.coefficient

/-- The power of ten of the first digit. -/
def magnitude (d : Decimal) : Int := d.exponent + d.digits.length - 1

/-- The number in positional notation, with a digit on each side of the point. -/
def positional (d : Decimal) : List Char :=
  let ds := d.digits
  if d.exponent ≥ 0 then
    ds ++ List.replicate d.exponent.toNat '0' ++ ['.', '0']
  else
    let places := (-d.exponent).toNat
    let padded := List.replicate (places + 1 - ds.length) '0' ++ ds
    padded.take (padded.length - places) ++ '.' :: padded.drop (padded.length - places)

/-- The number with one digit before the point and an exponent of a sign and at least two digits. -/
def scientific (d : Decimal) : List Char :=
  let size := Nat.toDigits 10 d.magnitude.natAbs
  let power := (if d.magnitude < 0 then '-' else '+') :: (if size.length < 2 then '0' :: size else size)
  match d.digits with
  | [] => []
  | [c] => c :: 'e' :: power
  | c :: cs => c :: '.' :: cs ++ 'e' :: power

end Decimal

namespace Double

/-- The shortest decimal that rounds to a finite double. -/
def shortest (mantissa : Nat) (exponent : Int) : Decimal :=
  Decimal.shortest mantissa exponent (exponent = leastExponent)

/-- The text of a double in positional notation; `inf` and `NaN` for what is not finite. -/
def positional : Double → String
  | finite negative m e =>
    String.ofList ((if negative then ['-'] else []) ++ (shortest m e).positional)
  | infinite negative => if negative then "-inf" else "inf"
  | nan => "NaN"

/-- The text of a double; positional where the first digit stands at most five places after the point
or sixteen before it. -/
def general : Double → String
  | finite negative m e =>
    let d := shortest m e
    let body := if -5 ≤ d.magnitude && d.magnitude ≤ 15 then d.positional else d.scientific
    String.ofList ((if negative then ['-'] else []) ++ body)
  | infinite negative => if negative then "-inf" else "inf"
  | nan => "NaN"

end Double

end ApiSurface
