/-!
# Binary64 numbers

The double-precision numbers of IEEE 754, read exactly: a finite one is a sign and a magnitude `m · 2 ^ q` with
natural `m`. Rounding takes any non-negative ratio to the nearest number, and a tie to the one with even `m`.
-/

namespace ProtocolTypings

structure Binary64 where
  bits : UInt64
deriving DecidableEq, Inhabited

/-- The nearest integer to `num / den`; a half goes to the even neighbour. -/
def roundHalfEven (num den : Nat) : Nat :=
  let low := num / den
  let twice := 2 * (num % den)
  if twice < den || (twice == den && low % 2 == 0) then low else low + 1

namespace Binary64

def isNegative (x : Binary64) : Bool :=
  Nat.pow 2 63 ≤ x.bits.toNat

/-- The eleven bits of the exponent. -/
def exponentField (x : Binary64) : Nat :=
  x.bits.toNat / Nat.pow 2 52 % Nat.pow 2 11

def fractionField (x : Binary64) : Nat :=
  x.bits.toNat % Nat.pow 2 52

def isFinite (x : Binary64) : Bool :=
  x.exponentField < 2047

def isNaN (x : Binary64) : Bool :=
  !x.isFinite && x.fractionField != 0

/-- The `m` of the magnitude `m · 2 ^ q` of a finite number. -/
def significand (x : Binary64) : Nat :=
  if x.exponentField == 0 then x.fractionField else Nat.pow 2 52 + x.fractionField

/-- The `q` of the magnitude `m · 2 ^ q` of a finite number. -/
def exponent (x : Binary64) : Int :=
  if x.exponentField == 0 then -1074 else (x.exponentField : Int) - 1075

def isZero (x : Binary64) : Bool :=
  x.isFinite && x.significand == 0

/-- The magnitude of a finite number as a numerator and a denominator. -/
def ratio (x : Binary64) : Nat × Nat :=
  (x.significand * Nat.pow 2 x.exponent.toNat, Nat.pow 2 (-x.exponent).toNat)

def signBit (negative : Bool) : Nat :=
  if negative then Nat.pow 2 63 else 0

def infinity (negative : Bool) : Binary64 :=
  ⟨.ofNat (signBit negative + 2047 * Nat.pow 2 52)⟩

def nan : Binary64 :=
  ⟨.ofNat (2047 * Nat.pow 2 52 + Nat.pow 2 51)⟩

/-- The number nearest to `num / den`, with the given sign; beyond the largest one, infinity.

The exponent is chosen such that the rounded significand has 53 bits, or fewer where the exponent is the least
one. A carry out of the significand moves on into the exponent field. -/
def ofRatio (negative : Bool) (num den : Nat) : Binary64 :=
  if num == 0 then
    ⟨.ofNat (signBit negative)⟩
  else
    let scale : Int := (Nat.log2 num : Int) - Nat.log2 den
    let short := num * Nat.pow 2 (-scale).toNat < den * Nat.pow 2 scale.toNat
    let q : Int := max (-1074) (scale - if short then 53 else 52)
    let m := roundHalfEven (num * Nat.pow 2 (-q).toNat) (den * Nat.pow 2 q.toNat)
    let magnitude := (q + 1074).toNat * Nat.pow 2 52 + m
    if 2047 * Nat.pow 2 52 ≤ magnitude then infinity negative else ⟨.ofNat (signBit negative + magnitude)⟩

/-- The number nearest to `digits · 10 ^ scale`, with the given sign.

A positive value that is a multiple of `10 ^ 311` is beyond every finite number. One below `2 ^ -1199` rounds to zero,
and a tenth is less than an eighth, so three bits for each tenth show that a value is that small. -/
def ofDecimal (negative : Bool) (digits : Nat) (scale : Int) : Binary64 :=
  if digits == 0 || Nat.log2 digits + 3 * scale < -1200 then ⟨.ofNat (signBit negative)⟩
  else if 310 < scale then infinity negative
  else ofRatio negative (digits * Nat.pow 10 scale.toNat) (Nat.pow 10 (-scale).toNat)

def ofInt (n : Int) : Binary64 :=
  ofRatio (n < 0) n.natAbs 1

/-- The number nearest to a product. Infinity times zero is not a number, and a product of zero has the sign of the
factors together. -/
def mul (x y : Binary64) : Binary64 :=
  let negative := x.isNegative != y.isNegative
  if x.isNaN || y.isNaN then nan
  else if !x.isFinite || !y.isFinite then if x.isZero || y.isZero then nan else infinity negative
  else ofRatio negative (x.ratio.1 * y.ratio.1) (x.ratio.2 * y.ratio.2)

/-- The integer part of a finite number, its fraction dropped. -/
def truncate? (x : Binary64) : Option Int :=
  if x.isFinite then
    let n : Int := (x.ratio.1 / x.ratio.2 : Nat)
    some (if x.isNegative then -n else n)
  else
    none

/-- Is the number equal to an integer? -/
def equalsInt (x : Binary64) (n : Int) : Bool :=
  x.isFinite && (if x.isNegative then -(x.ratio.1 : Int) else x.ratio.1) == n * x.ratio.2

/-- Equality of values: the two zeros are one, and the number that is none equals itself. -/
def sameValue (x y : Binary64) : Bool :=
  x == y || (x.isZero && y.isZero)

end Binary64

end ProtocolTypings
