import ConfigCompiler.Number.Decimal

/-!
# Numbers of double precision

A decimal that is read passes through the nearest number with 53 significant
bits, and is then kept as the shortest decimal that names that number.  All of
it is exact arithmetic on whole numbers.

**Reading.**  `Binary64.scaled` rounds twice: once the digits, once the product
with (or quotient by) a power of ten that is itself rounded.  `Binary64.rounded` rounds
the exact number.

**Writing.**  `Binary64.shortest` looks at decimals of one digit, two digits and
so on, and takes the nearest of the first that round back.
-/

namespace ConfigCompiler

/-- A non-negative number `significand · 2 ^ exponent` of double precision. -/
structure Binary64 where
  /-- At most 53 bits. -/
  significand : Nat
  /-- The power of two; never below -1074. -/
  exponent : Int
deriving DecidableEq

namespace Binary64

/-- The quotient rounded to the nearest whole number, a half to the even one. -/
def roundHalfEven (num den : Nat) : Nat :=
  let whole := num / den
  let rest := num % den
  if 2 * rest < den then whole
  else if den < 2 * rest then whole + 1
  else if whole % 2 = 0 then whole
  else whole + 1

/-- The greatest `e` with `2 ^ e ≤ num / den`. -/
def floorLog2 (num den : Nat) : Int :=
  let e : Int := (Nat.log2 num : Int) - (Nat.log2 den : Int)
  if den * Nat.pow 2 e.toNat ≤ num * Nat.pow 2 (-e).toNat then e else e - 1

/-- Zero. -/
def zero : Binary64 := ⟨0, -1074⟩

/-- The nearest number of double precision, or none if that is too large. -/
def nearest (num den : Nat) : Option Binary64 :=
  if num = 0 then some zero
  else
    let q : Int := max (floorLog2 num den - 52) (-1074)
    let m := roundHalfEven (num * Nat.pow 2 (-q).toNat) (den * Nat.pow 2 q.toNat)
    let r : Binary64 := if m = Nat.pow 2 53 then ⟨Nat.pow 2 52, q + 1⟩ else ⟨m, q⟩
    if r.exponent ≤ 971 then some r else none

/-- The numerator of the value as a fraction. -/
def numerator (b : Binary64) : Nat := b.significand * Nat.pow 2 b.exponent.toNat

/-- The denominator of the value as a fraction. -/
def denominator (b : Binary64) : Nat := Nat.pow 2 (-b.exponent).toNat

/-- The rounded power of ten, for exponents up to 308. -/
def powerOfTen (n : Nat) : Binary64 :=
  (nearest (Nat.pow 10 n) 1).getD zero

/-- The rounded product. -/
def mul (a b : Binary64) : Option Binary64 :=
  nearest (a.numerator * b.numerator) (a.denominator * b.denominator)

/-- The rounded quotient by a number that is not zero. -/
def div (a b : Binary64) : Option Binary64 :=
  nearest (a.numerator * b.denominator) (a.denominator * b.numerator)

/-- Scale by `10 ^ exponent`.  A power below `10 ^ -308` is divided out in steps. -/
def scaleSteps : Nat → Binary64 → Int → Option Binary64
  | 0, b, _ => some b
  | steps + 1, b, exponent =>
      if 308 < exponent then
        if b.significand = 0 then some b else none
      else if 0 ≤ exponent then b.mul (powerOfTen exponent.toNat)
      else if -308 ≤ exponent then b.div (powerOfTen (-exponent).toNat)
      else if b.significand = 0 then some b
      else (b.div (powerOfTen 308)).bind fun b => scaleSteps steps b (exponent + 308)

/-- The number that `digits · 10 ^ exponent` is read as: the digits are rounded,
then the scaled value.  None if it is too large. -/
def scaled (digits : Nat) (exponent : Int) : Option Binary64 :=
  (nearest digits 1).bind fun b => scaleSteps 4 b exponent

/-- The number nearest to `digits · 10 ^ exponent`, or none if that is too large.  Beyond
`10 ^ 310` everything is too large, and below `10 ^ -330` everything is zero. -/
def rounded (digits : Nat) (exponent : Int) : Option Binary64 :=
  let size := (Nat.toDigits 10 digits).length + exponent
  if digits = 0 || size < -330 then some zero
  else if 310 < size then none
  else nearest (digits * Nat.pow 10 exponent.toNat) (Nat.pow 10 (-exponent).toNat)

/-- The decimals that round to a number lie between `low` and `high`, in units of
a quarter of its last bit; `value` is the number itself in that unit. -/
structure Interval where
  low : Nat
  value : Nat
  high : Nat
  /-- Whether the ends round to the number too. -/
  closed : Bool
  /-- The power of two that the unit is. -/
  exponent : Int

/-- What rounds to `b`: half a bit to each side, a quarter below a power of two. -/
def interval (b : Binary64) : Interval where
  low := if b.significand = Nat.pow 2 52 ∧ -1074 < b.exponent then 4 * b.significand - 1
    else 4 * b.significand - 2
  value := 4 * b.significand
  high := 4 * b.significand + 2
  closed := b.significand % 2 == 0
  exponent := b.exponent - 2

namespace Interval

/-- What a grid of step `10 ^ k` is multiplied by to compare it with the interval. -/
def gridFactor (i : Interval) (k : Int) : Nat := Nat.pow 10 k.toNat * Nat.pow 2 (-i.exponent).toNat

/-- What the interval is multiplied by to compare it with a grid of step `10 ^ k`. -/
def unitFactor (i : Interval) (k : Int) : Nat := Nat.pow 2 i.exponent.toNat * Nat.pow 10 (-k).toNat

/-- Whether `c · 10 ^ k` rounds to the number. -/
def contains (i : Interval) (k : Int) (c : Nat) : Bool :=
  let x := c * i.gridFactor k
  let low := i.low * i.unitFactor k
  let high := i.high * i.unitFactor k
  if i.closed then decide (low ≤ x ∧ x ≤ high) else decide (low < x ∧ x < high)

/-- The neighbour of the value on the grid of step `10 ^ k` that rounds back; of
two the nearer, of two equally near the even one. -/
def onGrid? (i : Interval) (k : Int) : Option Nat :=
  let v := i.value * i.unitFactor k
  let step := i.gridFactor k
  let below := v / step
  let above := below + 1
  match i.contains k below, i.contains k above with
  | true, true =>
      let toBelow := v - below * step
      let toAbove := above * step - v
      if toBelow < toAbove then some below
      else if toAbove < toBelow then some above
      else if below % 2 = 0 then some below
      else some above
  | true, false => some below
  | false, true => some above
  | false, false => none

/-- Whether `10 ^ k` is at most the value. -/
def reaches (i : Interval) (k : Int) : Bool :=
  decide (i.gridFactor k ≤ i.value * i.unitFactor k)

/-- The greatest power of ten below the value, searched downwards. -/
def leadingPower (i : Interval) : Nat → Int → Int
  | 0, k => k
  | fuel + 1, k => if i.reaches k then k else leadingPower i fuel (k - 1)

/-- The first finer grid with a decimal that rounds back. -/
def search (i : Interval) : Nat → Int → Nat × Int
  | 0, k => (i.value * i.unitFactor k / i.gridFactor k, k)
  | fuel + 1, k =>
      match i.onGrid? k with
      | some c => (c, k)
      | none => search i fuel (k - 1)

end Interval

/-- The shortest decimal that rounds to `b`, with a sign. -/
def shortest (negative : Bool) (b : Binary64) : Decimal :=
  if b.significand = 0 then Decimal.zero negative
  else
    let i := b.interval
    let guess : Int := ((Nat.log2 b.significand : Int) + b.exponent) * 30103 / 100000 + 1
    let found := i.search 17 (i.leadingPower 4 guess)
    Decimal.ofParts negative found.1 found.2

end Binary64

/-- The decimal kept for `± digits · 10 ^ exponent` as read, or none if the number
is too large. -/
def Decimal.read? (negative : Bool) (digits : Nat) (exponent : Int) : Option Decimal :=
  (Binary64.scaled digits exponent).map (Binary64.shortest negative)

/-- The decimal kept for `± digits · 10 ^ exponent` when it is rounded only once, or none if
the number is too large. -/
def Decimal.nearest? (negative : Bool) (digits : Nat) (exponent : Int) : Option Decimal :=
  (Binary64.rounded digits exponent).map (Binary64.shortest negative)

end ConfigCompiler
