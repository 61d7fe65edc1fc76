import StaticSemantics.SymbolTable

/-!
Folding of operators on constants. Integers are computed exactly and must fit the kind of the
result; the bits that a left shift moves out of 64 are lost. Floating-point results must be finite.
-/

namespace StaticSemantics

/-- A numeric constant at the type of its kind. -/
def Value.ofNumeric (c : Constant) : Value :=
  .constant c ((c.kind?.map NumericKind.type).getD .any)

namespace Folding

/-- A whole number as a constant of an integral kind. -/
def integralResult? (i : Int) (k : NumericKind) : Option Value := (k.ofInt? i).map Value.ofNumeric

/-- A finite floating-point number as a constant of a kind. -/
def floatResult? (x : Double) (k : NumericKind) : Option Value :=
  if x.isFinite then ((Number.float x).toKind? k).map Value.ofNumeric else none

/-! ## One operand -/

def complement? : Constant → Option Value
  | .boolean b => some (.ofBool !b)
  | .byte n => some (.ofNumeric (.byte (~~~n)))
  | .integer n => some (.ofNumeric (.integer (~~~n)))
  | .long n => some (.ofNumeric (.long (~~~n)))
  | _ => none

/-- The negative of a number; that of a byte is an integer. -/
def negate? (c : Constant) : Option Value := do
  let k ← c.kind?
  match ← c.number? with
  | .int i => integralResult? (-i) (k.wider .integer)
  | .float x => floatResult? x.neg k

def unary? (op : Operator) (v : Value) : Option Value := do
  let c ← v.constant?
  match op with
  | .not => complement? c
  | .positive => (c.kind?.filter (· ≠ .char)).map fun _ => v
  | .negate => negate? c
  | _ => none

/-! ## Two operands -/

/-- The characters of a constant that is text. -/
def text? : Constant → Option String
  | .string s => some s
  | .char c => some c.toString
  | _ => none

def concat? (c d : Constant) : Option Value := do
  let s ← text? c
  let t ← text? d
  some (.ofString (s ++ t))

/-- The order of two constants that can be compared. -/
def compare? : Constant → Constant → Option Ordering
  | .boolean a, .boolean b => some (compare a b)
  | .string s, .string t => some (compare s t)
  | .char a, .char b => some (compare a b)
  | .enum x, .enum y => x.compare? y
  | c, d => do
    match ← c.number?, ← d.number? with
    | .int i, .int j => some (compare i j)
    | a, b => a.toDouble.compare? b.toDouble

/-- What a comparison says of an order; nothing for other operators. -/
def holds? (op : Operator) (o : Ordering) : Option Bool :=
  match op with
  | .equals => some o.isEq
  | .notEquals => some o.isNe
  | .less => some o.isLT
  | .greater => some o.isGT
  | .lessOrEqual => some o.isLE
  | .greaterOrEqual => some o.isGE
  | _ => none

/-- The bitwise operators on 64-bit words. -/
def bitwise (op : Operator) (a b : Int) : Int :=
  let x := Int64.ofInt a
  let y := Int64.ofInt b
  match op with
  | .and => (x &&& y).toInt
  | .or => (x ||| y).toInt
  | _ => (x ^^^ y).toInt

def booleanBitwise (op : Operator) (a b : Bool) : Bool :=
  match op with
  | .and => a && b
  | .or => a || b
  | _ => a ^^ b

/-- The whole number nearest to a double toward zero, within 64 bits. -/
def wordOf (x : Double) : Int := x.clampToInt longMin longMax

/-- The whole number that an operand of an integer division stands for. What lies beyond 64 bits
counts as the nearest number within. -/
def divisionOperand? : Number → Option Int
  | .int i => some i
  | .float x => x.toInt?.map fun _ => wordOf x

/-- How many words of 64 bits there are. -/
def wordCount : Nat := 18446744073709551616

/-- The shifts of a 64-bit word by less than 64 places. -/
def shift? (op : Operator) (a places : Int) : Option Int :=
  if 0 ≤ places ∧ places < 64 then
    let factor : Int := Nat.pow 2 places.toNat
    match op with
    | .leftShift => some ((a * factor).bmod wordCount)
    | .rightShift => some (a / factor)
    | _ => some ((a % wordCount / factor).bmod wordCount)
  else none

/-- Exact arithmetic on whole numbers. The remainder has the sign of the dividend; it is refused
where the quotient leaves 64 bits. -/
def integerArithmetic? (op : Operator) (a b : Int) : Option Int :=
  match op with
  | .add => some (a + b)
  | .subtract => some (a - b)
  | .multiply => some (a * b)
  | .modulo => if b = 0 ∨ (a = longMin ∧ b = -1) then none else some (a.tmod b)
  | _ => none

def floatArithmetic? (op : Operator) (a b : Double) : Option Double :=
  match op with
  | .add => some (a.add b)
  | .subtract => some (a.sub b)
  | .multiply => some (a.mul b)
  | .modulo => if b.isZero then none else some (a.remainder b)
  | _ => none

def arithmetic? (op : Operator) (c d : Constant) : Option Value := do
  let kc ← c.kind?
  let k ← kc.promote (← d.kind?)
  let a ← c.number?
  let b ← d.number?
  match op with
  | .divide =>
    if b.toDouble.isZero then none else floatResult? (a.toDouble.div b.toDouble) .double
  | .exponent => floatResult? (a.toDouble.power b.toDouble) .double
  | .integerDivide =>
    let i ← divisionOperand? a
    let j ← divisionOperand? b
    if j = 0 then none else integralResult? (i.tdiv j) (if k.isIntegral then k else .long)
  | .leftShift | .rightShift | .unsignedRightShift =>
    match a, b with
    | .int i, .int j => integralResult? (← shift? op i j) kc
    | _, _ => none
  | _ =>
    if k.isIntegral then
      match a, b with
      | .int i, .int j => integralResult? (← integerArithmetic? op i j) k
      | _, _ => none
    else floatResult? (← floatArithmetic? op a.toDouble b.toDouble) k

variable [Memory]

/-- The bitwise operators on booleans, on members of one flags enum, and on integers. -/
def bitwise? (w : SymbolTable) (op : Operator) (v u : Value) : Option Value := do
  match ← v.constant?, ← u.constant? with
  | .boolean a, .boolean b => some (.ofBool (booleanBitwise op a b))
  | .enum x, .enum y =>
    if v.type = u.type ∧ (w.type v.type).isFlagsEnum then
      some (.ofEnum (.ofInt (bitwise op (wordOf x) (wordOf y))) v.type)
    else none
  | c, d =>
    let k ← (← c.kind?).promote (← d.kind?)
    match ← c.number?, ← d.number? with
    | .int i, .int j => if k.isIntegral then integralResult? (bitwise op i j) k else none
    | _, _ => none

def binary? (w : SymbolTable) (op : Operator) (v u : Value) : Option Value := do
  let c ← v.constant?
  let d ← u.constant?
  match op with
  | .concat => concat? c d
  | .and | .or | .xor => bitwise? w op v u
  | .equals | .notEquals | .less | .greater | .lessOrEqual | .greaterOrEqual =>
    (holds? op (← compare? c d)).map .ofBool
  | .add => if (text? c).isSome ∧ (text? d).isSome then concat? c d else arithmetic? op c d
  | _ => arithmetic? op c d

end Folding
end StaticSemantics
