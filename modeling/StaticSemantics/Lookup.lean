import StaticSemantics.Reference

/-!
Looking a name up among the members of a declaration or value.
-/

namespace StaticSemantics

/-- What a look-up is for. -/
inductive Wanted where
  | anything
  | typeOrModule
  deriving DecidableEq, Repr

namespace SymbolTable

variable [Memory]

/-- The symbol leads to a type or module. An alias that leads back to itself counts as one, so that
the look-up finds it and fails with its error. -/
def denotesTypeOrModule (w : SymbolTable) (s : Symbol) : Bool :=
  match w.unwind s with
  | .ok s => s.isTypeOrModule
  | .error _ => true

/-- The symbol is of the wanted sort. -/
def suits (w : SymbolTable) (wanted : Wanted) (s : Symbol) : Bool :=
  match wanted with
  | .anything => true
  | .typeOrModule => w.denotesTypeOrModule s

/-- What a name stands for in the table of one declaration, if it is of the wanted sort. -/
def find? (w : SymbolTable) (o : Owner) (name : String) (wanted : Wanted) : Option Symbol :=
  (w.bound? o name).filter (w.suits wanted)

/-- What a name refers to in the table of one declaration. -/
def resolveIn? (w : SymbolTable) (o : Owner) (name : String) (wanted : Wanted) : Option Symbol :=
  (w.find? o name wanted).map (w.reference o)

/-- A static member of a type or of the nearest of its super types that has it. -/
def resolveInType? (w : SymbolTable) (t : TypeId) (name : String) (wanted : Wanted) :
    Option Symbol :=
  (w.superChain t).findSome? fun s => w.resolveIn? (.type s) name wanted

/-- An instance member from the nearest member table that has it. -/
def resolveInMembers? (w : SymbolTable) (d : MemberTableId) (name : String) (wanted : Wanted) :
    Option Symbol :=
  (w.memberChain d).findSome? fun e => w.resolveIn? (.members e) name wanted

/-- Lets a reference go through an object. -/
def rebase (w : SymbolTable) (object : Value) (s : Symbol) : Symbol :=
  match s.value?.bind Value.slot? with
  | some slot => w.memberReference object (.slot slot)
  | none => s

/-- A member of a value. Members of an `Any` are left to the running program. -/
def resolveInValue? (w : SymbolTable) (v : Value) (name : String) (wanted : Wanted) :
    Option Symbol :=
  match v with
  | .staticMe cls _ => w.resolveInType? cls name wanted
  | v =>
    let decl := w.type v.type
    if decl.isAny then some (.value (.ofDynamic v))
    else (decl.members.bind fun d => w.resolveInMembers? d name wanted).map (w.rebase v)

/-- A member of a type, module or value. -/
def resolveInTarget? (w : SymbolTable) (s : Symbol) (name : String) (wanted : Wanted) :
    Option Symbol :=
  match s with
  | .type t => w.resolveInType? t name wanted
  | .module m => w.resolveIn? (.module m) name wanted
  | .value v => w.resolveInValue? v name wanted
  | .slot _ | .aliasDecl _ | .error _ => none

/-- A member of what a symbol leads to. -/
def resolveInSymbol? (w : SymbolTable) (s : Symbol) (name : String) (wanted : Wanted) :
    Option Symbol :=
  match w.unwind s with
  | .ok s => w.resolveInTarget? s name wanted
  | .error e => some (.error e)

end SymbolTable
end StaticSemantics
