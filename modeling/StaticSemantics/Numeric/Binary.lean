/-!
Binary floating point by exact arithmetic. A finite number is a whole number of *units*, the unit
being the least positive number of its format, so sums, products, quotients and remainders are
computed exactly in `Nat` and `Int` and rounded once, to nearest with ties to even.

Only `Binary.power` goes through the machine: its last bit is the mathematical library's.
-/

namespace StaticSemantics

/-- The layout of a binary format: how many bits hold the fraction and how many the exponent. -/
structure Format where
  fractionBits : Nat
  exponentBits : Nat
  deriving DecidableEq, Repr

namespace Format

def single : Format := ⟨23, 8⟩

def double : Format := ⟨52, 11⟩

/-- Bits of a number: sign, exponent and fraction. -/
def width (f : Format) : Nat := 1 + f.exponentBits + f.fractionBits

/-- The weight of the implicit leading bit. -/
def leading (f : Format) : Nat := Nat.pow 2 f.fractionBits

/-- The weight of the sign bit; everything below it is the magnitude. -/
def signWeight (f : Format) : Nat := Nat.pow 2 (f.exponentBits + f.fractionBits)

/-- The exponent field of infinities and NaNs. -/
def topExponent (f : Format) : Nat := Nat.pow 2 f.exponentBits - 1

/-- The magnitude bits of infinity. -/
def infinity (f : Format) : Nat := f.topExponent * f.leading

/-- How many units make one: the unit is `2 ^ -unitPower`. -/
def unitPower (f : Format) : Nat := Nat.pow 2 (f.exponentBits - 1) + f.fractionBits - 2

/-- How many units make the number one. -/
def one (f : Format) : Nat := Nat.pow 2 f.unitPower

end Format

/-- A number of the format, given by its bits. -/
structure Binary (f : Format) where
  bits : BitVec f.width
  deriving DecidableEq

abbrev Single := Binary .single

abbrev Double := Binary .double

/-- What the bits of a number say. Finite magnitudes are counted in units of the format. -/
inductive Reading where
  | nan
  | infinite (negative : Bool)
  | finite (negative : Bool) (units : Nat)
  deriving DecidableEq, Repr

/-- `n / d` rounded to the nearest whole number, a tie going to the even one. -/
def roundHalfEven (n d : Nat) : Nat :=
  let q := n / d
  let r := n % d
  if 2 * r < d then q
  else if d < 2 * r then q + 1
  else if q % 2 = 0 then q else q + 1

/-- A whole number with a sign beside it. -/
def signed (negative : Bool) (n : Nat) : Int := if negative then -(n : Int) else n

namespace Binary

variable {f : Format}

/-- The number with the given sign and magnitude bits. -/
def ofMagnitude (negative : Bool) (magnitude : Nat) : Binary f :=
  ⟨BitVec.ofNat _ (if negative then f.signWeight + magnitude else magnitude)⟩

def negative (x : Binary f) : Bool := f.signWeight ≤ x.bits.toNat

/-- All bits but the sign. -/
def magnitude (x : Binary f) : Nat := x.bits.toNat % f.signWeight

def exponentField (x : Binary f) : Nat := x.magnitude / f.leading

def fractionField (x : Binary f) : Nat := x.magnitude % f.leading

/-- The power of two, in units, that the last bit of the fraction stands for. -/
def lastPlace (x : Binary f) : Nat := x.exponentField - 1

/-- The fraction together with its leading bit, which subnormal numbers lack. -/
def significand (x : Binary f) : Nat :=
  if x.exponentField = 0 then x.fractionField else f.leading + x.fractionField

def read (x : Binary f) : Reading :=
  if x.exponentField = f.topExponent then
    if x.fractionField = 0 then .infinite x.negative else .nan
  else .finite x.negative (x.significand * Nat.pow 2 x.lastPlace)

def nan : Binary f := ofMagnitude false (f.infinity + f.leading / 2)

def infinite (negative : Bool) : Binary f := ofMagnitude negative f.infinity

def zero (negative : Bool) : Binary f := ofMagnitude negative 0

/-- The number nearest to `n / d` units. The place of the last bit kept is fixed by the whole part
of the quotient; a carry out of the significand moves into the exponent field by itself. -/
def round (negative : Bool) (n d : Nat) : Binary f :=
  let whole := n / d
  let place := if whole = 0 then 0 else whole.log2 - f.fractionBits
  let magnitude := place * f.leading + roundHalfEven n (d * Nat.pow 2 place)
  if f.infinity ≤ magnitude then infinite negative else ofMagnitude negative magnitude

/-- The number nearest to a whole number of units; an exact zero takes the sign given for it. -/
def ofUnits (zeroNegative : Bool) (n : Int) : Binary f :=
  if n = 0 then zero zeroNegative else round (n < 0) n.natAbs 1

/-- The number nearest to a whole number. -/
def ofInt (i : Int) : Binary f := round (i < 0) (i.natAbs * f.one) 1

def isNaN (x : Binary f) : Bool :=
  match x.read with
  | .nan => true
  | _ => false

def isFinite (x : Binary f) : Bool :=
  match x.read with
  | .finite .. => true
  | _ => false

def isZero (x : Binary f) : Bool :=
  match x.read with
  | .finite _ 0 => true
  | _ => false

/-- The number with the other sign. -/
def neg (x : Binary f) : Binary f := ofMagnitude (!x.negative) x.magnitude

def add (x y : Binary f) : Binary f :=
  match x.read, y.read with
  | .nan, _ | _, .nan => nan
  | .infinite s, .infinite t => if s = t then infinite s else nan
  | .infinite s, _ => infinite s
  | _, .infinite t => infinite t
  | .finite s m, .finite t n => ofUnits (s && t) (signed s m + signed t n)

def sub (x y : Binary f) : Binary f := x.add y.neg

def mul (x y : Binary f) : Binary f :=
  match x.read, y.read with
  | .nan, _ | _, .nan => nan
  | .infinite s, .infinite t => infinite (s ^^ t)
  | .infinite s, .finite t n => if n = 0 then nan else infinite (s ^^ t)
  | .finite s m, .infinite t => if m = 0 then nan else infinite (s ^^ t)
  | .finite s m, .finite t n => round (s ^^ t) (m * n) f.one

def div (x y : Binary f) : Binary f :=
  match x.read, y.read with
  | .nan, _ | _, .nan => nan
  | .infinite _, .infinite _ => nan
  | .infinite s, .finite t _ => infinite (s ^^ t)
  | .finite s _, .infinite t => zero (s ^^ t)
  | .finite s m, .finite t n =>
    if n = 0 then if m = 0 then nan else infinite (s ^^ t)
    else round (s ^^ t) (m * f.one) n

/-- The remainder of the division that truncates toward zero; it has the dividend's sign. -/
def remainder (x y : Binary f) : Binary f :=
  match x.read, y.read with
  | .nan, _ | _, .nan | .infinite _, _ => nan
  | .finite _ _, .infinite _ => x
  | .finite s m, .finite _ n => if n = 0 then nan else round s (m % n) 1

/-- The order of two numbers; a NaN is not ordered, and the two zeros are equal. -/
def compare? (x y : Binary f) : Option Ordering :=
  match x.read, y.read with
  | .nan, _ | _, .nan => none
  | .infinite s, .infinite t => some (if s = t then .eq else if s then .lt else .gt)
  | .infinite s, .finite .. => some (if s then .lt else .gt)
  | .finite .., .infinite t => some (if t then .gt else .lt)
  | .finite s m, .finite t n => some (compare (signed s m) (signed t n))

/-- Numerical equality: a NaN differs from everything, itself included. -/
def equal (x y : Binary f) : Bool := x.compare? y == some .eq

/-- The whole number that the number is, if it is one. -/
def toInt? (x : Binary f) : Option Int :=
  match x.read with
  | .finite s m => if m % f.one = 0 then some (signed s (m / f.one)) else none
  | _ => none

/-- The whole number toward zero, held within the range from `low` to `high`. A NaN gives zero. -/
def clampToInt (low high : Int) (x : Binary f) : Int :=
  match x.read with
  | .nan => 0
  | .infinite s => if s then low else high
  | .finite s m => max low (min high (signed s (m / f.one)))

/-- The nearest number of another format. -/
def convert (g : Format) (x : Binary f) : Binary g :=
  match x.read with
  | .nan => nan
  | .infinite s => infinite s
  | .finite s m => round s (m * g.one) f.one

/-- The largest finite number. -/
def greatest : Binary f := ofMagnitude false (f.infinity - 1)

/-- The magnitude of the number exceeds the largest finite number of format `g`. -/
def exceeds (g : Format) (x : Binary f) : Bool :=
  match x.read, (greatest : Binary g).read with
  | .finite _ m, .finite _ n => decide (n * f.one < m * g.one)
  | .infinite _, _ => true
  | _, _ => false

/-- `x` raised to `y`. -/
def power (x y : Double) : Double :=
  ⟨((Float.ofBits (.ofBitVec x.bits)) ^ (Float.ofBits (.ofBitVec y.bits))).toBits.toBitVec⟩

end Binary
end StaticSemantics
