import StaticSemantics.Numeric.Binary

/-!
The shortest decimal text of a floating-point number. Of the decimals that read back as the number
the one with the fewest digits is taken, of those the nearest, and of two equally near the larger.
The digits are written positionally, never with an exponent.

The interval of reals that round to the number is measured in quarters of a unit, so that both of
its ends are whole numbers.
-/

namespace StaticSemantics

/-- The decimal number `digits · 10 ^ power`. -/
structure Decimal where
  digits : Nat
  power : Int
  deriving DecidableEq, Repr

/-- How many decimal digits a natural number has; zero has none. -/
def digitCount (n : Nat) : Nat := if n = 0 then 0 else (Nat.toDigits 10 n).length

/-- The least `e` with `n / d < 10 ^ e`, for positive `n` and `d`. -/
def decimalPlace (n d : Nat) : Int :=
  if d ≤ n then digitCount (n / d) else 1 - digitCount ((d - 1) / n)

namespace Decimal

def zeros (n : Nat) : String := String.ofList (List.replicate n '0')

/-- The digits in their places, with a point only before a fraction. -/
def toText (x : Decimal) : String :=
  let digits := Nat.toDigits 10 x.digits
  if 0 ≤ x.power then String.ofList digits ++ zeros x.power.toNat
  else
    let places := x.power.natAbs
    if places < digits.length then
      let whole := digits.length - places
      String.ofList (digits.take whole) ++ "." ++ String.ofList (digits.drop whole)
    else "0." ++ zeros (places - digits.length) ++ String.ofList digits

end Decimal

/-- The reals that round to a number: `value - below` to `value + above`, over `denominator`. -/
structure RoundingInterval where
  value : Nat
  below : Nat
  above : Nat
  denominator : Nat
  closed : Bool
  deriving DecidableEq, Repr

namespace RoundingInterval

/-- `k / u` lies in the interval that is stretched by `s`. -/
def covers (i : RoundingInterval) (s : Nat) (k : Nat) : Bool :=
  let low := (i.value - i.below) * s
  let high := (i.value + i.above) * s
  if i.closed then low ≤ k && k ≤ high else low < k && k < high

/-- The decimal of at most `n` significant digits that lies in the interval, if there is one. Only
the two neighbours of the value on the grid of such decimals need to be tried. -/
def decimalOf? (i : RoundingInterval) (n : Nat) : Option Decimal :=
  let place := decimalPlace i.value i.denominator
  let power := place - n
  let stretch := Nat.pow 10 (-power).toNat
  let step := i.denominator * Nat.pow 10 power.toNat
  let value := i.value * stretch
  let low := value / step
  let pick (k : Nat) : Decimal := if k = Nat.pow 10 n then ⟨1, place⟩ else ⟨k, power⟩
  match i.covers stretch (low * step), i.covers stretch ((low + 1) * step) with
  | true, true => some (pick (if 2 * (value - low * step) < step then low else low + 1))
  | true, false => some (pick low)
  | false, true => some (pick (low + 1))
  | false, false => none

/-- Seventeen digits tell all numbers of either format apart. -/
def shortest (i : RoundingInterval) : Decimal :=
  ((List.range 17).findSome? fun n => i.decimalOf? (n + 1)).getD ⟨0, 0⟩

end RoundingInterval

namespace Binary

variable {f : Format}

/-- The interval of a positive finite number. Below the least number of a binade the gap is half as
wide as above it. -/
def interval (x : Binary f) : RoundingInterval where
  value := 4 * (x.significand * Nat.pow 2 x.lastPlace)
  below := if x.fractionField = 0 && 1 < x.exponentField then Nat.pow 2 x.lastPlace
    else 2 * Nat.pow 2 x.lastPlace
  above := 2 * Nat.pow 2 x.lastPlace
  denominator := 4 * f.one
  closed := x.significand % 2 == 0

def toText (x : Binary f) : String :=
  match x.read with
  | .nan => "NaN"
  | .infinite s => if s then "-inf" else "inf"
  | .finite s m =>
    (if s then "-" else "") ++ if m = 0 then "0" else x.interval.shortest.toText

end Binary
end StaticSemantics
