/-!
# Decimal numbers

A number written with a point or an exponent is kept as a `Decimal`: a sign, the
digits without trailing zeros, and a power of ten.  Zero keeps its sign.

**Form.**  `Decimal.text` is positional while the point stands at most four places
left and at most sixteen places right of the start of the digits, and scientific
elsewhere.  A whole number in positional form ends in `.0`; a power of ten carries its
sign, `+` or `-`.
-/

namespace ConfigCompiler

/-- A decimal number `± digits · 10 ^ exponent`, without trailing zeros. -/
structure Decimal where
  /-- Whether the number carries a minus sign. -/
  negative : Bool
  /-- The digits, read as one whole number. -/
  digits : Nat
  /-- The power of ten that the digits are multiplied by. -/
  exponent : Int
  /-- The digits end in no zero; zero has exponent zero. -/
  normal : (digits = 0 ∧ exponent = 0) ∨ digits % 10 ≠ 0
deriving DecidableEq

namespace Decimal

/-- Move trailing zeros from the digits to the exponent, at most `fuel` of them. -/
def stripZeros : Nat → Nat → Int → Nat × Int
  | 0, digits, exponent => (digits, exponent)
  | fuel + 1, digits, exponent =>
      if digits % 10 = 0 then stripZeros fuel (digits / 10) (exponent + 1)
      else (digits, exponent)

theorem stripZeros_mod_ten {fuel digits : Nat} (exponent : Int) (hpos : 0 < digits)
    (hfuel : digits ≤ fuel) : (stripZeros fuel digits exponent).1 % 10 ≠ 0 := by
  induction fuel generalizing digits exponent with
  | zero => omega
  | succ fuel ih =>
      by_cases h : digits % 10 = 0
      · simp only [stripZeros, h, if_true]
        exact ih _ (by omega) (by omega)
      · simp [stripZeros, h]

/-- Zero with a sign. -/
def zero (negative : Bool) : Decimal := ⟨negative, 0, 0, Or.inl ⟨rfl, rfl⟩⟩

/-- The number `± digits · 10 ^ exponent`. -/
def ofParts (negative : Bool) (digits : Nat) (exponent : Int) : Decimal :=
  if h : digits = 0 then zero negative
  else
    ⟨negative, (stripZeros digits digits exponent).1, (stripZeros digits digits exponent).2,
      Or.inr (stripZeros_mod_ten exponent (Nat.pos_of_ne_zero h) (Nat.le_refl _))⟩

/-- Whether the number is zero, with either sign. -/
def isZero (d : Decimal) : Bool := d.digits == 0

/-- Equality of values: the two zeros are equal. -/
def same (a b : Decimal) : Bool :=
  (a.isZero && b.isZero) || a == b

/-- The minus sign, where there is one. -/
def signText (d : Decimal) : List Char :=
  if d.negative then ['-'] else []

/-- Zeros, as many as `count` says. -/
def zeros (count : Int) : List Char :=
  List.replicate count.toNat '0'

/-- Where the point stands, counted from the left end of the digits. -/
def point (d : Decimal) : Int :=
  (Nat.toDigits 10 d.digits).length + d.exponent

/-- The positional form without sign; a whole number ends in `.0`. -/
def positional (d : Decimal) : List Char :=
  let written := Nat.toDigits 10 d.digits
  if 0 ≤ d.exponent then
    written ++ zeros d.exponent ++ ['.', '0']
  else if 0 < d.point then
    written.take d.point.toNat ++ '.' :: written.drop d.point.toNat
  else
    ['0', '.'] ++ zeros (-d.point) ++ written

/-- The power of ten of the scientific form, after its mark and its sign. -/
def powerText (power : Int) : List Char :=
  'e' :: (if power < 0 then '-' else '+') :: Nat.toDigits 10 power.natAbs

/-- The scientific form without sign: one digit, the others after a point, and
the power of ten. -/
def scientific (d : Decimal) : List Char :=
  let power := powerText (d.point - 1)
  match Nat.toDigits 10 d.digits with
  | [] => power
  | [single] => single :: power
  | lead :: rest => lead :: '.' :: rest ++ power

/-- Whether the positional form is used: the point stands at most four places
left and at most sixteen places right of the start of the digits. -/
def isPositional (d : Decimal) : Bool :=
  decide (-5 < d.point ∧ d.point ≤ 16)

/-- The written form. -/
def text (d : Decimal) : List Char :=
  d.signText ++ if d.isPositional then d.positional else d.scientific

end Decimal

end ConfigCompiler
