/-!
Identities of declared entities. An id is the place of an entity among its own kind, in the order of
declaration; ids of different kinds are different types.
-/

namespace StaticSemantics

/-- The kinds of entity that a program declares. -/
inductive Entity where
  | type
  | memberTable
  | module
  | slot
  | signature
  | frame
  | aliasDecl
  deriving DecidableEq, Repr

structure EntityId (e : Entity) where
  index : Nat
  deriving DecidableEq, Repr, Inhabited

abbrev TypeId := EntityId .type

abbrev MemberTableId := EntityId .memberTable

abbrev ModuleId := EntityId .module

abbrev SlotId := EntityId .slot

abbrev SignatureId := EntityId .signature

abbrev FrameId := EntityId .frame

abbrev AliasId := EntityId .aliasDecl

/-! ## The types and modules that exist before any declaration -/

namespace EntityId

def any : TypeId := ⟨0⟩
def empty : TypeId := ⟨1⟩
def nothing : TypeId := ⟨2⟩
def null : TypeId := ⟨3⟩
def object : TypeId := ⟨4⟩
def callable : TypeId := ⟨5⟩
def string : TypeId := ⟨6⟩
def integer : TypeId := ⟨7⟩
def long : TypeId := ⟨8⟩
def byte : TypeId := ⟨9⟩
def single : TypeId := ⟨10⟩
def double : TypeId := ⟨11⟩
def decimal : TypeId := ⟨12⟩
def char : TypeId := ⟨13⟩
def boolean : TypeId := ⟨14⟩
def collection : TypeId := ⟨15⟩
def byteCollection : TypeId := ⟨16⟩
def generator : TypeId := ⟨17⟩
def promise : TypeId := ⟨18⟩
def reflectedClass : TypeId := ⟨19⟩

def languageModule : ModuleId := ⟨0⟩
def globalModule : ModuleId := ⟨1⟩
def reflectModule : ModuleId := ⟨2⟩

end EntityId
end StaticSemantics
