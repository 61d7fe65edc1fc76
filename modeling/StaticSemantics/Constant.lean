import StaticSemantics.Numeric.Binary

/-!
Constants and the numeric kinds among them. A coercion to another kind succeeds only when the value
fits: integral kinds check their range and refuse fractions, characters must be Unicode scalar
values, and a finite number must not exceed the finite range of a single.
-/

namespace StaticSemantics

/-- The value of a constant expression. A decimal is held like a double, an enum member as the
double that numbers it. -/
inductive Constant where
  | empty
  | nothing
  | null
  | string (s : String)
  | boolean (b : Bool)
  | single (x : Single)
  | double (x : Double)
  | byte (n : UInt8)
  | integer (n : Int32)
  | long (n : Int64)
  | decimal (x : Double)
  | char (c : Char)
  | enum (x : Double)
  deriving DecidableEq

/-- Kinds of numeric constant, from the narrowest to the widest. Characters stand apart. -/
inductive NumericKind where
  | byte
  | integer
  | long
  | single
  | double
  | decimal
  | char
  deriving DecidableEq, Repr

/-- A number taken out of its constant: whole and exact, or a double. -/
inductive Number where
  | int (i : Int)
  | float (x : Double)
  deriving DecidableEq

def longMin : Int := -9223372036854775808

def longMax : Int := 9223372036854775807

namespace NumericKind

def rank (k : NumericKind) : Nat := k.ctorIdx

/-- The wider of two kinds. -/
def wider (k l : NumericKind) : NumericKind := if k.rank < l.rank then l else k

def isIntegral : NumericKind → Bool
  | byte | integer | long | char => true
  | single | double | decimal => false

/-- The common kind of two operands of arithmetic, in which characters take no part. -/
def promote (k l : NumericKind) : Option NumericKind :=
  if k = .char ∨ l = .char then none else some (k.wider l)

/-- The whole numbers that an integral kind holds. -/
def Holds (k : NumericKind) (i : Int) : Prop :=
  match k with
  | byte => 0 ≤ i ∧ i < 256
  | integer => -2147483648 ≤ i ∧ i < 2147483648
  | long => longMin ≤ i ∧ i ≤ longMax
  | char => 0 ≤ i ∧ i.toNat.isValidChar
  | single | double | decimal => False

instance (k : NumericKind) (i : Int) : Decidable (k.Holds i) := by
  cases k <;> unfold Holds <;> infer_instance

/-- The constant of an integral kind that holds a whole number. -/
def ofInt? (k : NumericKind) (i : Int) : Option Constant :=
  if k.Holds i then
    match k with
    | byte => some (.byte (UInt8.ofNat i.toNat))
    | integer => some (.integer (Int32.ofInt i))
    | long => some (.long (Int64.ofInt i))
    | char => some (.char (Char.ofNat i.toNat))
    | single | double | decimal => none
  else none

end NumericKind

namespace Number

def toDouble : Number → Double
  | int i => Binary.ofInt i
  | float x => x

/-- The whole number that the number is, if it is one. -/
def toInt? : Number → Option Int
  | int i => some i
  | float x => x.toInt?

/-- The constant of kind `k` for the number, if it fits. -/
def toKind? (n : Number) (k : NumericKind) : Option Constant :=
  match k with
  | .single =>
    if n.toDouble.isFinite && n.toDouble.exceeds .single then none
    else some (.single (n.toDouble.convert .single))
  | .double => some (.double n.toDouble)
  | .decimal => some (.decimal n.toDouble)
  | .byte | .integer | .long | .char => n.toInt?.bind k.ofInt?

end Number

namespace Constant

def kind? : Constant → Option NumericKind
  | byte _ => some .byte
  | integer _ => some .integer
  | long _ => some .long
  | single _ => some .single
  | double _ => some .double
  | decimal _ => some .decimal
  | char _ => some .char
  | _ => none

def number? : Constant → Option Number
  | byte n => some (.int n.toNat)
  | integer n => some (.int n.toInt)
  | long n => some (.int n.toInt)
  | char c => some (.int c.toNat)
  | single x => some (.float (x.convert .double))
  | double x => some (.float x)
  | decimal x => some (.float x)
  | _ => none

/-- The constant as one of kind `k`, if its value fits. -/
def coerce? (c : Constant) (k : NumericKind) : Option Constant :=
  c.number?.bind (·.toKind? k)

/-- The number that stands for the constant, enum members included. -/
def toDouble? : Constant → Option Double
  | enum x => some x
  | c => c.number?.map Number.toDouble

/-- The constants that stand for the absence of a value. -/
def isNullish : Constant → Bool
  | empty | nothing | null => true
  | _ => false

/-- Equality of constants, numerical on floating-point ones. -/
def same : Constant → Constant → Bool
  | single x, single y => x.equal y
  | double x, double y => x.equal y
  | decimal x, decimal y => x.equal y
  | enum x, enum y => x.equal y
  | c, d => decide (c = d)

end Constant
end StaticSemantics
