import StaticSemantics.Operator
import StaticSemantics.Value

/-!
Expressions: names, literals, operators and the types written among them. Every node has a number,
under which its meaning is remembered, and a place in the source.
-/

namespace StaticSemantics

/-- A range of bytes in a source file. -/
structure Span where
  file : Nat := 0
  start : Nat := 0
  stop : Nat := 0
  deriving DecidableEq, Repr

def Span.length (s : Span) : Nat := s.stop - s.start

structure Node where
  id : Nat
  span : Span := {}
  deriving DecidableEq, Repr

inductive Literal where
  | string (s : String)
  | boolean (b : Bool)
  /-- A number without a suffix, an integer if it fits. -/
  | integer (n : Int64)
  | long (n : Int64)
  | double (x : Double)
  | char (c : Char)
  | nothing
  | null
  | empty
  deriving DecidableEq

def Literal.value : Literal → Value
  | string s => .ofString s
  | boolean b => .ofBool b
  | integer n =>
    if NumericKind.integer.Holds n.toInt then .constant (.integer (.ofInt n.toInt)) .integer
    else .constant (.long n) .long
  | long n => .constant (.long n) .long
  | double x => .ofDouble x
  | char c => .ofChar c
  | nothing => .ofNothing
  | null => .ofNull .null
  | empty => .ofEmpty

inductive Expr where
  | ident (node : Node) (name : String)
  | member (node : Node) (base : Expr) (name : String)
  /-- A member of the target of the enclosing `With` block. -/
  | withMember (node : Node) (name : String)
  | literal (node : Node) (value : Literal)
  | parens (node : Node) (inner : Expr)
  | unary (node : Node) (op : Operator) (operand : Expr)
  | binary (node : Node) (op : Operator) (left right : Expr)
  /-- The nullable type over a type. -/
  | nullable (node : Node) (inner : Expr)
  | tuple (node : Node) (elements : List Expr)

namespace Expr

def node : Expr → Node
  | ident n _ | member n _ _ | withMember n _ | literal n _ | parens n _ | unary n _ _
  | binary n _ _ _ | nullable n _ | tuple n _ => n

/-- The name at the end of a node that has one. -/
def name? : Expr → Option String
  | ident _ name | member _ _ name | withMember _ name => some name
  | _ => none

/-- The dotted path of a chain of names. -/
def path? : Expr → Option String
  | ident _ name => some name
  | member _ base name => base.path?.map fun path => path ++ "." ++ name
  | parens _ inner => inner.path?
  | _ => none

end Expr
end StaticSemantics
