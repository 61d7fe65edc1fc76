import StaticSemantics.Rendering.TypeText

/-!
The hierarchy of types: super types, subtyping, and the operations that relate types.

Walks up the hierarchy are bounded by the number of declarations, and visit each one once as long as
no type lies above itself. Extending a class or an interface is tested against that. Setting a super
type is not: it can put a type above itself, and a walk from there has no end of its own but that at
the bound.
-/

namespace StaticSemantics

/-- Why two types cannot be related. -/
inductive HierarchyError where
  | notAClass (name : String)
  | notAnInterface (name : String)
  | notInheritable (name : String)
  | cycle (name base : String)
  deriving DecidableEq, Repr

def HierarchyError.message : HierarchyError → String
  | notAClass name => s!"'{name}' is not a class and cannot be extended"
  | notAnInterface name => s!"'{name}' is not an interface"
  | notInheritable name => s!"class '{name}' is not inheritable"
  | cycle name base => s!"extending '{base}' from '{name}' would form an inheritance cycle"

namespace SymbolTable

variable [Memory]

/-! ## Super types -/

/-- The type without null. -/
def withoutNull (w : SymbolTable) (t : TypeId) : TypeId := (w.type t).wraps?.getD t

/-- The direct super type. Only `Any` has none; a nullable type has that of the type it wraps. -/
def superType? (w : SymbolTable) (t : TypeId) : Option TypeId :=
  let decl := w.type (w.withoutNull t)
  if decl.isAny then none else some (decl.superType.getD .any)

/-- Sets the super type, and makes the member table inherit from that of the super type. -/
def setSuperType (w : SymbolTable) (t s : TypeId) : SymbolTable :=
  let w' := w.modifyType t ({ · with superType := some s })
  match (w.type t).members with
  | some d => w'.modifyMemberTable d ({ · with inherits := (w.type s).members })
  | none => w'

def superChainAt (w : SymbolTable) : Nat → TypeId → List TypeId
  | 0, t => [t]
  | n + 1, t => t :: ((w.superType? t).map (w.superChainAt n)).getD []

/-- The type and its super types, from the type up. -/
def superChain (w : SymbolTable) (t : TypeId) : List TypeId := w.superChainAt w.types.size t

/-- The super classes of a type, from the direct one up. -/
def superClasses (w : SymbolTable) (t : TypeId) : List TypeId :=
  (w.superChain t).tail.takeWhile fun s => (w.type s).isClass

def memberChainAt (w : SymbolTable) : Nat → MemberTableId → List MemberTableId
  | 0, d => [d]
  | n + 1, d => d :: ((w.memberTable d).inherits.map (w.memberChainAt n)).getD []

/-- The member table and those that it inherits from, nearest first. -/
def memberChain (w : SymbolTable) (d : MemberTableId) : List MemberTableId :=
  w.memberChainAt w.memberTables.size d

/-! ## Subtyping -/

/-- The types directly above `t` on the way to `u`: its super type, the interfaces it extends, and,
if `u` is an interface, those that it implements. -/
def directSupers (w : SymbolTable) (t u : TypeId) : List TypeId :=
  (w.superType? t).toList ++
    match (w.type t).kind with
    | .cls info => if (w.type u).isInterface then info.implements else []
    | .interface info => info.supers
    | _ => []

/-- `u` is `t` or lies at most `n` steps above it. -/
def reaches (w : SymbolTable) (u : TypeId) : Nat → TypeId → Bool
  | 0, t => t = u
  | n + 1, t => t = u || (w.directSupers t u).any (w.reaches u n)

/-- Every type is a subtype of itself, of `Any` and of all types above it. -/
def isSubtype (w : SymbolTable) (t u : TypeId) : Bool :=
  (w.type u).isAny || w.reaches u w.types.size t

/-! ## Relating types -/

def subclasses (w : SymbolTable) (t : TypeId) : List TypeId :=
  ((w.type t).class?.map ClassInfo.subclasses).getD []

def implementors (w : SymbolTable) (t : TypeId) : List TypeId :=
  ((w.type t).interface?.map InterfaceInfo.implementors).getD []

def subInterfaces (w : SymbolTable) (t : TypeId) : List TypeId :=
  ((w.type t).interface?.map InterfaceInfo.subs).getD []

/-- Takes a class out of the subclasses of the super type given for it, if that is a class. -/
def detachSubclass (w : SymbolTable) (cls : TypeId) : SymbolTable :=
  match (w.type cls).superType with
  | some old => w.modifyType old
      (TypeDecl.modifyClass fun info =>
        { info with subclasses := info.subclasses.filter (· ≠ cls) })
  | none => w

/-- Moves a class below another one. -/
def extendClass (w : SymbolTable) (cls base : TypeId) : Except HierarchyError Unit × SymbolTable :=
  if !(w.type cls).isClass then (.error (.notAClass (w.typeText cls)), w)
  else
    match (w.type base).class? with
    | none => (.error (.notAClass (w.typeText base)), w)
    | some info =>
      if info.sealed then (.error (.notInheritable (w.typeText base)), w)
      else if w.isSubtype base cls then (.error (.cycle (w.typeText cls) (w.typeText base)), w)
      else
        (.ok (), ((w.detachSubclass cls).setSuperType cls base).modifyType base
          (TypeDecl.modifyClass fun info => { info with subclasses := info.subclasses ++ [cls] }))

/-- Adds an element at the end of a list that does not have it. -/
def addLast {α : Type} [DecidableEq α] (l : List α) (x : α) : List α :=
  if l.contains x then l else l ++ [x]

/-- Makes a class implement an interface. -/
def implement (w : SymbolTable) (cls interface : TypeId) :
    Except HierarchyError Unit × SymbolTable :=
  if !(w.type interface).isInterface then (.error (.notAnInterface (w.typeText interface)), w)
  else
    match (w.type cls).class? with
    | none => (.error (.notAClass (w.typeText cls)), w)
    | some info =>
      if info.implements.contains interface then (.ok (), w)
      else
        (.ok (), (w.modifyType cls
            (TypeDecl.modifyClass fun info =>
              { info with implements := info.implements ++ [interface] })).modifyType interface
          (TypeDecl.modifyInterface fun info =>
            { info with implementors := addLast info.implementors cls }))

/-- What a member of a member table is called: a slot by its own name, all else by the text of its
key. -/
def memberName (w : SymbolTable) (k : Key) : Symbol → String
  | .slot s => (w.slot s).name
  | _ => w.nameTable.text k

/-- The entries of `source` whose key `target` binds to another symbol. -/
def conflicts (w : SymbolTable) (source target : Bindings) : List SymbolError :=
  source.entries.filterMap fun (k, s) =>
    match target.get? k with
    | some existing =>
      if existing.same s then none else some (.duplicate (w.memberName k s) existing)
    | none => none

/-- Adds the entries of `source` whose key is not bound in `target`. -/
def mergeNames (source target : Bindings) : Bindings :=
  source.entries.foldl (fun b (k, s) => if b.contains k then b else b.insert k s) target

/-- Adds the operators of `source` that `target` does not define. -/
def mergeOperators (source target : MemberTable) : MemberTable :=
  source.operators.foldl
    (fun m (op, s) => if (m.operator? op).isSome then m else m.setOperator op s) target

/-- Links an interface below another one. -/
def linkInterfaces (w : SymbolTable) (interface base : TypeId) : SymbolTable :=
  let above := base :: ((w.type base).interface?.map InterfaceInfo.supers).getD []
  let w' := w.modifyType interface
    (TypeDecl.modifyInterface fun info => { info with supers := above.foldl addLast info.supers })
  w'.modifyType base
    (TypeDecl.modifyInterface fun info => { info with subs := addLast info.subs interface })

/-- Makes an interface extend another one: the members and operators of the base are copied into it.
A name that the interface binds to something else stays as it is and is reported. Nothing happens
if the interfaces are related already. -/
def extendInterface (w : SymbolTable) (interface base : TypeId) :
    Except HierarchyError (List SymbolError) × SymbolTable :=
  match [interface, base].find? fun t => !(w.type t).isInterface with
  | some t => (.error (.notAnInterface (w.typeText t)), w)
  | none =>
    if w.isSubtype base interface || w.isSubtype interface base then (.ok [], w)
    else
      let w' := w.linkInterfaces interface base
      match (w.type base).members, (w.type interface).members with
      | some d, some e =>
        let source := w.memberTable d
        (.ok (w.conflicts source.names (w.memberTable e).names),
          w'.modifyMemberTable e fun m =>
            mergeOperators source { m with names := mergeNames source.names m.names })
      | _, _ => (.ok [], w')

/-! ## Operators -/

/-- Defines an operator of a type. The method must take as many arguments as the operator has
operands. -/
def addOperator (w : SymbolTable) (t : TypeId) (op : Operator) (method : SlotId) :
    Except SymbolError Unit × SymbolTable :=
  let fits := (w.methodInfo? method).all fun m => (w.signature m.signature).accepts op.operands
  if fits then
    match (w.type t).members with
    | some d => (.ok (), w.modifyMemberTable d (·.setOperator op method))
    | none => (.ok (), w)
  else (.error (.wrongArgumentCount op.operands), w)

/-- The method that defines an operator, in the nearest member table that has one. -/
def findOperator? (w : SymbolTable) (d : MemberTableId) (op : Operator) : Option SlotId :=
  (w.memberChain d).findSome? fun e => (w.memberTable e).operator? op

end SymbolTable
end StaticSemantics
