import ProtocolTypings.Number.Shortest

/-!
# Decimal text of a chosen precision

A number with a fixed count of places, with a fixed count of digits and an exponent, or with whichever of the two
forms is the shorter. Rounding is exact, and a half goes to the even neighbour.
-/

namespace ProtocolTypings.Binary64

/-- The decimal digits of a number, filled with zeros on the left. -/
def digitsOfWidth (width n : Nat) : List Char :=
  let digits := Nat.toDigits 10 n
  List.replicate (width - digits.length) '0' ++ digits

/-- No finite number has more places than these, or more digits than those. -/
def maxPlaces : Nat := 1074

def maxWidth : Nat := 767

/-- The magnitude with `places` digits after the point; the point is left out before no digit unless kept. -/
def fixedText (x : Binary64) (places : Nat) (keepPoint : Bool) : List Char :=
  let exact := min places maxPlaces
  let n := roundHalfEven (x.ratio.1 * Nat.pow 10 exact) x.ratio.2
  let digits := digitsOfWidth (exact + 1) n
  let whole := digits.length - exact
  digits.take whole ++ (if places == 0 && !keepPoint then [] else ['.']) ++ digits.drop whole
    ++ List.replicate (places - exact) '0'

/-- The magnitude rounded to `width` digits: the digits and the exponent of ten of the first one. -/
def roundedDigits (x : Binary64) (width : Nat) : List Char × Int :=
  if x.isZero then
    (List.replicate width '0', 0)
  else
    let exact := min width maxWidth
    let zeros := List.replicate (width - exact) '0'
    let top := x.interval.magnitude
    let scale : Int := exact - top
    let n := roundHalfEven (x.ratio.1 * Nat.pow 10 scale.toNat) (x.ratio.2 * Nat.pow 10 (-scale).toNat)
    if n < Nat.pow 10 exact then (digitsOfWidth exact n ++ zeros, top - 1)
    else (digitsOfWidth exact (n / 10) ++ zeros, top)

/-- The magnitude with one digit before the point, `places` after it, and an exponent. -/
def exponentForm (x : Binary64) (places : Nat) (keepPoint : Bool) : List Char :=
  let (digits, top) := x.roundedDigits (places + 1)
  digits.take 1 ++ (if places == 0 && !keepPoint then [] else ['.']) ++ digits.drop 1 ++ 'e' :: exponentText top

/-- The magnitude with `width` digits, written with an exponent when that is below `-4` or not below `width`. The
zeros at the end of the fraction are dropped unless kept. -/
def generalForm (x : Binary64) (width : Nat) (keepZeros : Bool) : List Char :=
  let width := max width 1
  let (digits, top) := x.roundedDigits (if keepZeros then width else min width maxWidth)
  let trim (fraction : List Char) : List Char :=
    if keepZeros then fraction else (fraction.reverse.dropWhile (· == '0')).reverse
  let point (fraction : List Char) : List Char :=
    if fraction.isEmpty && !keepZeros then [] else '.' :: fraction
  if top < -4 || width ≤ top then
    digits.take 1 ++ point (trim (digits.drop 1)) ++ 'e' :: exponentText top
  else if top < 0 then
    '0' :: point (trim (List.replicate (-top - 1).toNat '0' ++ digits))
  else
    digits.take (top.toNat + 1) ++ point (trim (digits.drop (top.toNat + 1)))

end ProtocolTypings.Binary64
