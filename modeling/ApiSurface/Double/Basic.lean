/-!
Doubles taken apart. A finite double is a sign with `m · 2 ^ q`, where `m` has 53 bits or `q` is the
least exponent. Arithmetic is exact on quotients of natural numbers, followed by one rounding to the
nearest double, of two equally near ones to the one with an even `m`.
-/

namespace ApiSurface

/-- A quotient of natural numbers. -/
structure Ratio where
  num : Nat
  den : Nat

namespace Ratio

/-- The number `m · b ^ e`. -/
def scaled (m b : Nat) (e : Int) : Ratio :=
  if e ≥ 0 then ⟨m * b.pow e.toNat, 1⟩ else ⟨m, b.pow (-e).toNat⟩

def lt (x y : Ratio) : Bool := x.num * y.den < y.num * x.den

def le (x y : Ratio) : Bool := x.num * y.den ≤ y.num * x.den

def mul (x y : Ratio) : Ratio := ⟨x.num * y.num, x.den * y.den⟩

def div (x y : Ratio) : Ratio := ⟨x.num * y.den, x.den * y.num⟩

/-- The distance of two numbers. -/
def distance (x y : Ratio) : Ratio :=
  let a := x.num * y.den
  let b := y.num * x.den
  ⟨(a - b) + (b - a), x.den * y.den⟩

/-- The whole part. -/
def floor (x : Ratio) : Nat := x.num / x.den

/-- The nearest whole number, of two equally near ones the even one. -/
def round (x : Ratio) : Nat :=
  let below := x.num / x.den
  let twice := 2 * (x.num % x.den)
  if twice < x.den then below
  else if x.den < twice then below + 1
  else below + below % 2

end Ratio

/-- A double: a sign with `mantissa · 2 ^ exponent`, an infinity, or no number. -/
inductive Double where
  | finite (negative : Bool) (mantissa : Nat) (exponent : Int)
  | infinite (negative : Bool)
  | nan
deriving DecidableEq, Repr

namespace Double

/-- The least exponent of a double. -/
def leastExponent : Int := -1074

/-- The nearest double to a number. -/
def ofRatio (negative : Bool) (x : Ratio) : Double :=
  if x.num = 0 then .finite negative 0 leastExponent
  else
    let estimate : Int := (x.num.log2 : Int) - x.den.log2 - 52
    let low := if (x.div (.scaled 1 2 estimate)).lt ⟨Nat.pow 2 52, 1⟩ then estimate - 1 else estimate
    let exponent := max low leastExponent
    let mantissa := (x.div (.scaled 1 2 exponent)).round
    let (mantissa, exponent) :=
      if mantissa = Nat.pow 2 53 then (Nat.pow 2 52, exponent + 1) else (mantissa, exponent)
    if 971 < exponent then .infinite negative else .finite negative mantissa exponent

/-- The absolute value of a finite double. -/
def ratio : Double → Ratio
  | finite _ mantissa exponent => .scaled mantissa 2 exponent
  | _ => ⟨0, 1⟩

/-- The double with the other sign. -/
def negate : Double → Double
  | finite negative mantissa exponent => .finite (!negative) mantissa exponent
  | infinite negative => .infinite (!negative)
  | nan => .nan

end Double

end ApiSurface
