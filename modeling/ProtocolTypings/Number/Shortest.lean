import ProtocolTypings.Number.Binary64

/-!
# Shortest decimal text

The text of a number has the fewest digits that read back as the number, and of those the nearest to it. The
search runs over decimal grids from one digit to seventeen: the first grid with a point in the interval that
rounds to the number wins.
-/

namespace ProtocolTypings.Binary64

/-- The reals that round to a finite positive number, over a common denominator. The ends belong to the interval
when `closed`. -/
structure Interval where
  low : Nat
  value : Nat
  high : Nat
  den : Nat
  closed : Bool

/-- The interval ends half-way to the two neighbours. Below a power of two the neighbour is only half as far. -/
def interval (x : Binary64) : Interval :=
  let m := x.significand
  let up := Nat.pow 2 x.exponent.toNat
  let narrow := m == Nat.pow 2 52 && -1074 < x.exponent
  { low := (if narrow then 4 * m - 1 else 4 * m - 2) * up
    value := 4 * m * up
    high := (4 * m + 2) * up
    den := 4 * Nat.pow 2 (-x.exponent).toNat
    closed := m % 2 == 0 }

/-- Does `digits · 10 ^ scale` lie in the interval? -/
def Interval.holds (i : Interval) (digits : Nat) (scale : Int) : Bool :=
  let point := digits * Nat.pow 10 scale.toNat * i.den
  let low := i.low * Nat.pow 10 (-scale).toNat
  let high := i.high * Nat.pow 10 (-scale).toNat
  (low < point && point < high) || (i.closed && (low == point || point == high))

/-- The point of the grid of multiples of `10 ^ scale` that lies in the interval nearest to its value; of two
equally near ones the even one. -/
def Interval.nearest? (i : Interval) (scale : Int) : Option Nat :=
  let num := i.value * Nat.pow 10 (-scale).toNat
  let den := i.den * Nat.pow 10 scale.toNat
  let best := roundHalfEven num den
  let low := num / den
  [best, low, low + 1].find? (i.holds · scale)

/-- The exponent of ten above the value: the least `k` with value below `10 ^ k`, given one that is at most one
too large or too small. -/
def Interval.magnitude (i : Interval) : Int :=
  let guess : Int := ((Nat.log2 i.value : Int) - Nat.log2 i.den) * 30103 / 100000
  let below (k : Int) : Bool := i.value * Nat.pow 10 (-k).toNat < i.den * Nat.pow 10 k.toNat
  ([guess - 1, guess, guess + 1, guess + 2].find? below).getD (guess + 3)

/-- The fewest digits, as an integer and the exponent of ten of its last digit. -/
def shortestFrom (i : Interval) (top : Int) : (tries : Nat) → (width : Nat) → Nat × Int
  | 0, width =>
    let digits := roundHalfEven (i.value * Nat.pow 10 (width - top).toNat) (i.den * Nat.pow 10 (top - width).toNat)
    (digits, top - width)
  | tries + 1, width =>
    match i.nearest? (top - width) with
    | some digits => (digits, top - width)
    | none => shortestFrom i top tries (width + 1)

/-- The digits of a finite positive number without the zeros at their end, and the exponent of ten of the first
one. -/
def shortestDigits (x : Binary64) : List Char × Int :=
  let i := x.interval
  let (digits, last) := shortestFrom i i.magnitude 17 1
  let text := Nat.toDigits 10 digits
  let trimmed := (text.reverse.dropWhile (· == '0')).reverse
  (trimmed, last + text.length - 1)

/-- The exponent of ten with its sign and at least two digits. -/
def exponentText (e : Int) : List Char :=
  let digits := Nat.toDigits 10 e.natAbs
  (if e < 0 then '-' else '+') :: (if digits.length < 2 then '0' :: digits else digits)

/-- Digits written out around the point where the first one counts for `10 ^ top`. -/
def positional (digits : List Char) (top : Int) : List Char :=
  if top < 0 then
    '0' :: '.' :: List.replicate (-top - 1).toNat '0' ++ digits
  else
    let whole := top.toNat + 1
    let tail := digits.drop whole
    digits.take whole ++ List.replicate (whole - digits.length) '0' ++ '.' :: (if tail.isEmpty then ['0'] else tail)

/-- Digits written with one of them before the point and an exponent. -/
def scientific (digits : List Char) (top : Int) : List Char :=
  let tail := digits.drop 1
  digits.take 1 ++ (if tail.isEmpty then [] else '.' :: tail) ++ 'e' :: exponentText top

/-- The text of a number: positional from `10 ^ -4` up to `10 ^ 16`, always with a point or an exponent. -/
def text (x : Binary64) : String :=
  let sign := if x.isNegative then ['-'] else []
  if x.isNaN then "nan"
  else if !x.isFinite then String.ofList (sign ++ ['i', 'n', 'f'])
  else if x.isZero then String.ofList (sign ++ ['0', '.', '0'])
  else
    let (digits, top) := x.shortestDigits
    let body := if top < -4 || 16 ≤ top then scientific digits top else positional digits top
    String.ofList (sign ++ body)

end ProtocolTypings.Binary64
