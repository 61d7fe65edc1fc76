import StaticSemantics.Scope

/-!
Access: whether code in a frame may use a symbol.
-/

namespace StaticSemantics.SymbolTable

variable [Memory]

/-- The visibility of a symbol and where it is defined. Modules, errors and values that are not
references have none: they can be used everywhere. -/
def visibility? (w : SymbolTable) : Symbol → Option (Visibility × Option Owner)
  | .slot s => some ((w.slot s).visibility, (w.slot s).definedIn)
  | .type t => some ((w.type t).visibility, (w.type t).definedIn)
  | .aliasDecl a => some ((w.aliasDecl a).visibility, (w.aliasDecl a).definedIn)
  | .value v => v.slot?.map fun s => ((w.slot s).visibility, (w.slot s).definedIn)
  | .module _ | .error _ => none

def enclosingModuleAt? (w : SymbolTable) : Nat → Option Owner → Option ModuleId
  | _, some (.module m) => some m
  | n + 1, some (.type t) => w.enclosingModuleAt? n (w.type t).definedIn
  | n + 1, some (.members d) =>
    w.enclosingModuleAt? n (w.type (w.memberTable d).definedIn).definedIn
  | _, _ => none

/-- The innermost module around a declaration. -/
def enclosingModule? (w : SymbolTable) (o : Option Owner) : Option ModuleId :=
  w.enclosingModuleAt? (w.types.size + 1) o

/-- One of the frames around `f` is the body of the module. -/
def insideModule (w : SymbolTable) (f : FrameId) (m : ModuleId) : Bool :=
  (w.frameChain f).any fun g => (w.frame g).isModule m

/-- One of the frames around `f` is the body of a type that passes the test. -/
def insideType (w : SymbolTable) (f : FrameId) (test : TypeId → Bool) : Bool :=
  (w.frameChain f).any fun g => (w.frame g).type?.any test

/-- Code in the frame lies inside the declaration that owns a member, or inside a type that the test
puts beside it. What no type or module owns is local and open to all who see it. -/
def insideOwner (w : SymbolTable) (f : FrameId) (o : Owner) (test : TypeId → TypeId → Bool) :
    Bool :=
  match o with
  | .type t => w.insideType f (test t)
  | .members d => w.insideType f (test (w.memberTable d).definedIn)
  | .module m => w.insideModule f m
  | .frame _ => true

/-- The body of `u` may use the members that `t` shares with derived classes. -/
def sharesWith (w : SymbolTable) (t u : TypeId) : Bool :=
  u = t || ((w.type u).isClass && w.isSubtype u t)

/-- Code in the frame may use a member with the given visibility and owner. -/
def permits (w : SymbolTable) (f : FrameId) : Visibility → Option Owner → Bool
  | .everyone, _ | _, none | _, some (.frame _) => true
  | .ownerOnly, some o => w.insideOwner f o fun t u => u = t
  | .derived, some o => w.insideOwner f o w.sharesWith
  | .friend, some o => (w.enclosingModule? (some o)).all (w.insideModule f)

/-- Code in the frame may use the symbol. -/
def isAccessible (w : SymbolTable) (s : Symbol) (f : FrameId) : Bool :=
  (w.visibility? s).all fun (v, o) => w.permits f v o

end StaticSemantics.SymbolTable
