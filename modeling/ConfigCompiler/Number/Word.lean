/-!
# Ranges of integers

The ranges that integers in files and records have to be in.

**Powers.**  `Nat.pow` is written out in the definitions of this library, so that they
mean the same whatever instances of powers are in scope.
-/

namespace ConfigCompiler

namespace Word

/-- The least integer of 64 bits with sign. -/
def minSigned : Int := -9223372036854775808

/-- The greatest integer of 64 bits with sign. -/
def maxSigned : Int := 9223372036854775807

/-- The greatest integer of 64 bits without sign. -/
def maxUnsigned : Nat := 18446744073709551615

/-- Whether an integer fits 64 bits with sign. -/
def isSigned (n : Int) : Bool := decide (minSigned ≤ n ∧ n ≤ maxSigned)

/-- Whether an integer fits 128 bits, with sign or without. -/
def isWide (n : Int) : Bool :=
  decide (-170141183460469231731687303715884105728 ≤ n ∧
    n ≤ 340282366920938463463374607431768211455)

end Word

end ConfigCompiler
