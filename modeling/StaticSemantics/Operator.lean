/-!
Operators that expressions apply and that types may define.
-/

namespace StaticSemantics

inductive Operator where
  | add
  | subtract
  | multiply
  | divide
  | integerDivide
  | modulo
  | exponent
  | concat
  | and
  | or
  | xor
  | eqv
  | imp
  | not
  | negate
  | positive
  | equals
  | notEquals
  | less
  | greater
  | lessOrEqual
  | greaterOrEqual
  | leftShift
  | rightShift
  | unsignedRightShift
  | getIndex
  | setIndex
  | iterator
  | await
  | yield
  | closureOf
  deriving DecidableEq, Repr, Inhabited

namespace Operator

/-- The order in which operators are listed. -/
def rank (op : Operator) : Nat := op.ctorIdx

/-- The operator as it is written. -/
def text : Operator → String
  | add | positive => "+"
  | subtract | negate => "-"
  | multiply => "*"
  | divide => "/"
  | integerDivide => "\\"
  | modulo => "Mod"
  | exponent => "^"
  | concat => "&"
  | and => "And"
  | or => "Or"
  | xor => "Xor"
  | eqv => "Eqv"
  | imp => "Imp"
  | not => "Not"
  | equals => "="
  | notEquals => "<>"
  | less => "<"
  | greater => ">"
  | lessOrEqual => "<="
  | greaterOrEqual => ">="
  | leftShift => "<<"
  | rightShift => ">>"
  | unsignedRightShift => ">>>"
  | getIndex => "Get()"
  | setIndex => "Set()"
  | iterator => "Iterator"
  | await => "Await"
  | yield => "Yield"
  | closureOf => "ClosureOf"

def isUnary : Operator → Bool
  | not | negate | positive | await | yield => true
  | _ => false

/-- How many arguments a method that defines the operator takes besides its own object. -/
def operands : Operator → Nat
  | setIndex => 2
  | iterator | closureOf => 0
  | op => if op.isUnary then 0 else 1

end Operator
end StaticSemantics
