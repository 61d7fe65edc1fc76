import StaticSemantics.Constant
import StaticSemantics.Id

/-!
Typed values: what an expression denotes before the program runs. Every value carries its static
type; the other parts say how the value is reached.
-/

namespace StaticSemantics

/-- The declarations that hold a table of names. -/
inductive Owner where
  | module (m : ModuleId)
  /-- The static members of a type. -/
  | type (t : TypeId)
  /-- The instance members of a type. -/
  | members (d : MemberTableId)
  /-- The locals of a scope frame. -/
  | frame (f : FrameId)
  deriving DecidableEq, Repr

/-- Why a converted value may be used at its new type. -/
inductive Relationship where
  | numeric
  | toAny
  | fromAny
  | toString
  | numberToFlags
  | toImplementedInterface
  | toSuperClass
  | toSubclass
  | toSuperInterface
  | toSubInterface
  | fromNullable
  | toNullable
  | toImplementor
  deriving DecidableEq, Repr

inductive Value where
  | plain (type : TypeId)
  | constant (payload : Constant) (type : TypeId)
  /-- The object whose instance member is running. -/
  | instanceMe (type : TypeId)
  /-- The class whose static member is running. -/
  | staticMe (cls : TypeId) (type : TypeId)
  /-- A slot reached through the declaration that holds it. -/
  | reference (through : Owner) (slot : SlotId) (type : TypeId)
  /-- A slot reached through an object. -/
  | memberReference (object : Value) (slot : SlotId) (type : TypeId)
  /-- A member whose slot only the running program knows. -/
  | dynamicReference (object : Value) (type : TypeId)
  /-- An element reached through the index operators of the object's type. -/
  | indexReference (object : Value) (type : TypeId)
  | tupleElement (object : Value) (index : Nat) (type : TypeId)
  /-- A method that is named and not called. -/
  | functionExp (method : SlotId) (type : TypeId)
  /-- A value used at another type; the marks say which forms of cast asked for it. -/
  | conversion (base : Value) (relationship : Relationship) (byCast byTryCast : Bool)
      (type : TypeId)
  deriving DecidableEq

namespace Value

instance : Inhabited Value := ⟨.plain default⟩

/-- The static type. -/
def type : Value → TypeId
  | plain t | constant _ t | instanceMe t | staticMe _ t | reference _ _ t | memberReference _ _ t
  | dynamicReference _ t | indexReference _ t | tupleElement _ _ t | functionExp _ t
  | conversion _ _ _ _ t => t

/-- The same value at another static type. -/
def withType (t : TypeId) : Value → Value
  | plain _ => plain t
  | constant c _ => constant c t
  | instanceMe _ => instanceMe t
  | staticMe cls _ => staticMe cls t
  | reference o s _ => reference o s t
  | memberReference v s _ => memberReference v s t
  | dynamicReference v _ => dynamicReference v t
  | indexReference v _ => indexReference v t
  | tupleElement v i _ => tupleElement v i t
  | functionExp s _ => functionExp s t
  | conversion v r byCast byTryCast _ => conversion v r byCast byTryCast t

def constant? : Value → Option Constant
  | constant c _ => some c
  | _ => none

/-- The slot that a reference reaches. -/
def slot? : Value → Option SlotId
  | reference _ s _ | memberReference _ s _ => some s
  | _ => none

def relationship? : Value → Option Relationship
  | conversion _ r _ _ _ => some r
  | _ => none

/-- Equality of values, numerical on floating-point constants. -/
def same : Value → Value → Bool
  | constant c t, constant d u => c.same d && t = u
  | memberReference v s t, memberReference w s' u => v.same w && s = s' && t = u
  | dynamicReference v t, dynamicReference w u => v.same w && t = u
  | indexReference v t, indexReference w u => v.same w && t = u
  | tupleElement v i t, tupleElement w j u => v.same w && i = j && t = u
  | conversion v r a b t, conversion w r' a' b' u =>
    v.same w && r = r' && a = a' && b = b' && t = u
  | v, w => decide (v = w)

/-- Both values are constants with the same payload and static type. -/
def sameConstant : Value → Value → Bool
  | constant c t, constant d u => c.same d && t = u
  | _, _ => false

/-! ## Values of the types that exist from the start -/

def ofEmpty : Value := constant .empty .empty

def ofNothing : Value := constant .nothing .nothing

def ofNull (t : TypeId) : Value := constant .null t

def ofString (s : String) : Value := constant (.string s) .string

def ofBool (b : Bool) : Value := constant (.boolean b) .boolean

def ofChar (c : Char) : Value := constant (.char c) .char

def ofDouble (x : Double) : Value := constant (.double x) .double

/-- A member of an enum type. -/
def ofEnum (x : Double) (t : TypeId) : Value := constant (.enum x) t

/-- The class itself, seen from its static members. -/
def ofStaticMe (cls : TypeId) : Value := staticMe cls .reflectedClass

/-- A member looked up only when the program runs. -/
def ofDynamic (object : Value) : Value := dynamicReference object .any

def ofMethod (method : SlotId) : Value := functionExp method .callable

end Value

namespace NumericKind

/-- The type whose constants have the kind. -/
def type : NumericKind → TypeId
  | byte => .byte
  | integer => .integer
  | long => .long
  | single => .single
  | double => .double
  | decimal => .decimal
  | char => .char

/-- The kind of the constants of a type. -/
def ofType? (t : TypeId) : Option NumericKind :=
  [byte, integer, long, single, double, decimal, char].find? (·.type = t)

end NumericKind

namespace Constant

/-- The type that a constant has by itself. The members of an enum have none of their own. -/
def ownType? : Constant → Option TypeId
  | empty => some .empty
  | nothing => some .nothing
  | null => some .null
  | string _ => some .string
  | boolean _ => some .boolean
  | enum _ => none
  | c => c.kind?.map NumericKind.type

end Constant
end StaticSemantics
