import StaticSemantics.Bindings
import StaticSemantics.Operator

/-!
Declared types, and the member tables that hold the instance members and operators of a type.
-/

namespace StaticSemantics

structure ClassInfo where
  /-- No class may extend it. -/
  sealed : Bool := false
  implements : List TypeId := []
  subclasses : List TypeId := []
  deriving Inhabited

structure EnumMember where
  name : String
  value : Double

/-- The methods that an enum offers by itself; only flag enums have the last five. -/
structure EnumHelpers where
  valueOf : Option SlotId := none
  toDebugString : Option SlotId := none
  has : Option SlotId := none
  filter : Option SlotId := none
  add : Option SlotId := none
  remove : Option SlotId := none
  toggle : Option SlotId := none
  deriving DecidableEq

def EnumHelpers.toList (h : EnumHelpers) : List (Option SlotId) :=
  [h.valueOf, h.toDebugString, h.has, h.filter, h.add, h.remove, h.toggle]

structure EnumInfo where
  /-- The members are sets of bits. -/
  isFlags : Bool := false
  members : List EnumMember := []
  helpers : EnumHelpers := {}

namespace EnumInfo

def member? (e : EnumInfo) (name : String) : Option Double :=
  (e.members.find? fun m => Text.equalIgnoringAsciiCase m.name name).map EnumMember.value

/-- Gives the member a value; a new member comes last. -/
def setMember (e : EnumInfo) (name : String) (value : Double) : EnumInfo :=
  { e with members := put e.members }
where
  put : List EnumMember → List EnumMember
    | [] => [⟨name, value⟩]
    | m :: rest =>
      if Text.equalIgnoringAsciiCase m.name name then ⟨m.name, value⟩ :: rest else m :: put rest

end EnumInfo

structure InterfaceInfo where
  /-- Every interface that this one extends, those that they extend included. -/
  supers : List TypeId := []
  subs : List TypeId := []
  implementors : List TypeId := []
  deriving Inhabited

inductive TypeKind where
  | any
  | empty
  | nothing
  | null
  | cls (info : ClassInfo)
  | struct
  | enum (info : EnumInfo)
  | interface (info : InterfaceInfo)
  | nullable (wraps : TypeId)
  | tuple (elements : List TypeId)
  deriving Inhabited

structure TypeDecl where
  kind : TypeKind
  name : Option String := none
  visibility : Visibility := .everyone
  definedIn : Option Owner := none
  /-- Static members. -/
  statics : Bindings := .empty
  /-- The super type given for it; without one, the type stands directly below `Any`. -/
  superType : Option TypeId := none
  members : Option MemberTableId := none

namespace TypeDecl

instance : Inhabited TypeDecl := ⟨{ kind := .any }⟩

def isAny (t : TypeDecl) : Bool := t.kind matches .any

def isClass (t : TypeDecl) : Bool := t.kind matches .cls _

def isStruct (t : TypeDecl) : Bool := t.kind matches .struct

def isEnum (t : TypeDecl) : Bool := t.kind matches .enum _

def isInterface (t : TypeDecl) : Bool := t.kind matches .interface _

def isNullable (t : TypeDecl) : Bool := t.kind matches .nullable _

def isTuple (t : TypeDecl) : Bool := t.kind matches .tuple _

def class? (t : TypeDecl) : Option ClassInfo :=
  match t.kind with
  | .cls info => some info
  | _ => none

def enum? (t : TypeDecl) : Option EnumInfo :=
  match t.kind with
  | .enum info => some info
  | _ => none

def interface? (t : TypeDecl) : Option InterfaceInfo :=
  match t.kind with
  | .interface info => some info
  | _ => none

/-- The type that a nullable type wraps. -/
def wraps? (t : TypeDecl) : Option TypeId :=
  match t.kind with
  | .nullable w => some w
  | _ => none

def elements? (t : TypeDecl) : Option (List TypeId) :=
  match t.kind with
  | .tuple es => some es
  | _ => none

/-- An enum whose members are sets of bits. -/
def isFlagsEnum (t : TypeDecl) : Bool := (t.enum?.map EnumInfo.isFlags).getD false

/-- Null is among the values of the type. -/
def acceptsNull (t : TypeDecl) : Bool := t.kind matches .null | .nullable _

def modifyClass (change : ClassInfo → ClassInfo) (t : TypeDecl) : TypeDecl :=
  match t.kind with
  | .cls info => { t with kind := .cls (change info) }
  | _ => t

def modifyEnum (change : EnumInfo → EnumInfo) (t : TypeDecl) : TypeDecl :=
  match t.kind with
  | .enum info => { t with kind := .enum (change info) }
  | _ => t

def modifyInterface (change : InterfaceInfo → InterfaceInfo) (t : TypeDecl) : TypeDecl :=
  match t.kind with
  | .interface info => { t with kind := .interface (change info) }
  | _ => t

variable {t : TypeDecl}

theorem class?_eq_some {info : ClassInfo} : t.class? = some info ↔ t.kind = .cls info := by
  cases h : t.kind <;> simp [class?, h]

theorem enum?_eq_some {info : EnumInfo} : t.enum? = some info ↔ t.kind = .enum info := by
  cases h : t.kind <;> simp [enum?, h]

theorem interface?_eq_some {info : InterfaceInfo} :
    t.interface? = some info ↔ t.kind = .interface info := by
  cases h : t.kind <;> simp [interface?, h]

theorem wraps?_eq_some {u : TypeId} : t.wraps? = some u ↔ t.kind = .nullable u := by
  cases h : t.kind <;> simp [wraps?, h]

theorem elements?_eq_some {l : List TypeId} : t.elements? = some l ↔ t.kind = .tuple l := by
  cases h : t.kind <;> simp [elements?, h]

end TypeDecl

/-- Instance members and operators of a type, with the table to look in when a name is not found. -/
structure MemberTable where
  definedIn : TypeId
  names : Bindings := .empty
  inherits : Option MemberTableId := none
  /-- Operators in the order of their ranks. -/
  operators : List (Operator × SlotId) := []

namespace MemberTable

instance : Inhabited MemberTable := ⟨{ definedIn := default }⟩

def operator? (m : MemberTable) (op : Operator) : Option SlotId :=
  (m.operators.find? (·.1 = op)).map Prod.snd

/-- Defines the operator, in place of an earlier definition. -/
def setOperator (m : MemberTable) (op : Operator) (slot : SlotId) : MemberTable :=
  { m with operators := put m.operators }
where
  put : List (Operator × SlotId) → List (Operator × SlotId)
    | [] => [(op, slot)]
    | e :: rest =>
      if e.1 = op then (op, slot) :: rest
      else if op.rank < e.1.rank then (op, slot) :: e :: rest
      else e :: put rest

end MemberTable
end StaticSemantics
