import ConfigCompiler.Number.Binary64
import ConfigCompiler.Number.Word
import ConfigCompiler.Value.Basic

/-!
# Numbers in JSON texts

A number is written with a sign, digits, perhaps a point with further digits, and
perhaps an exponent.  Without point and exponent it is an integer if it fits 64
bits; everything else is a decimal.

**Digits.**  Digits are gathered into a word of 64 bits.  What does not fit before
the point only counts as a power of ten, and after the point it is dropped.
-/

namespace ConfigCompiler

namespace Json

/-- A number as it is written. -/
structure NumberText where
  negative : Bool
  /-- The digits before the point. -/
  whole : List Char
  /-- The digits after the point, if there is one. -/
  fraction? : Option (List Char)
  /-- Whether the exponent is negative, and its digits, if there is one. -/
  exponent? : Option (Bool × List Char)

namespace NumberText

/-- Digits gathered so far: a word, the power of ten it is to be multiplied by, and
whether further digits are too small to count. -/
structure Gathered where
  word : Nat
  power : Int
  full : Bool

/-- Take a digit before the point.  When the word is full, the others only count. -/
def Gathered.pushWhole (g : Gathered) (c : Char) : Gathered :=
  if g.full then { g with power := g.power + 1 }
  else
    let next := g.word * 10 + (c.toNat - 48)
    if Word.maxUnsigned < next then ⟨g.word, 1, true⟩ else { g with word := next }

/-- Take a digit after the point.  When the word is full, the others are dropped. -/
def Gathered.pushFraction (g : Gathered) (c : Char) : Gathered :=
  if g.full then g
  else
    let next := g.word * 10 + (c.toNat - 48)
    if Word.maxUnsigned < next then { g with full := true } else ⟨next, g.power - 1, false⟩

/-- The digits before the point. -/
def gatherWhole (n : NumberText) : Gathered :=
  n.whole.foldl Gathered.pushWhole ⟨0, 0, false⟩

/-- All digits. -/
def gather (n : NumberText) : Gathered :=
  let g := n.gatherWhole
  (n.fraction?.getD []).foldl Gathered.pushFraction { g with full := false }

/-- The integer, if the text has neither point nor exponent and fits: from -2^63 to
2^64 - 1, and not minus zero. -/
def int? (n : NumberText) : Option Int :=
  if n.fraction?.isSome || n.exponent?.isSome then none
  else
    let g := n.gatherWhole
    if g.full then none
    else if n.negative then
      let i : Int := -(g.word : Int)
      if g.word = 0 || i < Word.minSigned then none else some i
    else some g.word

/-- The greatest exponent that is looked at. -/
def maxExponent : Nat := 2147483647

/-- The decimal the text is read as, if it is in range. -/
def decimal? (n : NumberText) : Option Decimal :=
  let g := n.gather
  match n.exponent? with
  | none => Decimal.read? n.negative g.word g.power
  | some (negative, digits) =>
      let size := Nat.ofDigitChars 10 digits 0
      if maxExponent < size then
        if g.word ≠ 0 && !negative then none else some (Decimal.zero n.negative)
      else
        Decimal.read? n.negative g.word (g.power + (if negative then -(size : Int) else size))

/-- The number the text is read as, if it is in range. -/
def number? (n : NumberText) : Option Number :=
  match n.int? with
  | some i => some (.int i)
  | none => n.decimal?.map .decimal

end NumberText

end Json

end ConfigCompiler
