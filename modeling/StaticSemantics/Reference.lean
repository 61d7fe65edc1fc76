import StaticSemantics.Hierarchy

/-!
References: values that reach a slot, an element or a default through the declarations. Aliases are
unwound on the way; an alias that leads back to itself is an error that names it.
-/

namespace StaticSemantics.SymbolTable

variable [Memory]

def unwindAt (w : SymbolTable) : Nat → List AliasId → Symbol → Except SymbolError Symbol
  | 0, _, .aliasDecl a => .error (.cyclicAlias (w.aliasDecl a).name)
  | n + 1, seen, .aliasDecl a =>
    if seen.contains a then .error (.cyclicAlias (w.aliasDecl a).name)
    else w.unwindAt n (a :: seen) (w.aliasDecl a).target
  | _, _, s => .ok s

/-- The symbol that is not an alias and to which a symbol leads. -/
def unwind (w : SymbolTable) (s : Symbol) : Except SymbolError Symbol :=
  w.unwindAt (w.aliases.size + 1) [] s

/-- The static type of a reference to a slot. What has no declared type is called. -/
def slotType (w : SymbolTable) (s : SlotId) : TypeId := (w.slot s).type?.getD .callable

/-- Turns a slot into a reference to it; types, modules, values and errors stand for themselves. -/
def referTo (w : SymbolTable) (make : SlotId → TypeId → Value) (s : Symbol) : Symbol :=
  match w.unwind s with
  | .ok (.slot s) => .value (make s (w.slotType s))
  | .ok s => s
  | .error e => .error e

/-- A symbol found in the table of names of a declaration. -/
def reference (w : SymbolTable) (o : Owner) (s : Symbol) : Symbol := w.referTo (.reference o) s

/-- A symbol found as a member of an object. -/
def memberReference (w : SymbolTable) (object : Value) (s : Symbol) : Symbol :=
  w.referTo (.memberReference object) s

/-- The method that defines an operator for values of a type, null aside. -/
def operatorOf? (w : SymbolTable) (t : TypeId) (op : Operator) : Option SlotId :=
  (w.type (w.withoutNull t)).members.bind fun d => w.findOperator? d op

/-- The type of what an index operator gives or takes: the result of the one that reads or, without
such a one, the last parameter of the one that writes. -/
def indexedType? (w : SymbolTable) (t : TypeId) : Option TypeId :=
  match w.operatorOf? t .getIndex with
  | some get => (w.methodInfo? get).map fun m => (w.signature m.signature).returns
  | none => do
    let set ← w.operatorOf? t .setIndex
    let m ← w.methodInfo? set
    (w.signature m.signature).params.getLast?.map Param.type

/-- An element of an object whose type has an index operator. -/
def indexReference? (w : SymbolTable) (object : Value) : Option Value :=
  (w.indexedType? object.type).map (.indexReference object)

def tupleElements? (w : SymbolTable) (t : TypeId) : Option (List TypeId) := (w.type t).elements?

/-- An element of a tuple. -/
def tupleElement? (w : SymbolTable) (object : Value) (index : Nat) : Option Value := do
  let elements ← w.tupleElements? (w.withoutNull object.type)
  let t ← elements[index]?
  some (.tupleElement object index t)

/-- The value that a variable of a type starts with: null, zero or false. -/
def defaultValue? (w : SymbolTable) (t : TypeId) : Option Value :=
  if (w.type t).isNullable then some (.ofNull t)
  else if t = .boolean then some (.ofBool false)
  else
    match NumericKind.ofType? t with
    | none | some .char => none
    | some k => ((Number.int 0).toKind? k).map (.constant · t)

/-- The value cannot be assigned to. -/
def isReadOnly (w : SymbolTable) : Value → Bool
  | .reference _ s _ | .memberReference _ s _ => (w.slot s).readOnly
  | .indexReference object _ => (w.operatorOf? object.type .setIndex).isNone
  | .dynamicReference .. | .tupleElement .. => false
  | _ => true

/-- The value can only be assigned to. -/
def isWriteOnly (w : SymbolTable) : Value → Bool
  | .reference _ s _ | .memberReference _ s _ => (w.slot s).writeOnly
  | .indexReference object _ => (w.operatorOf? object.type .getIndex).isNone
  | _ => false

end StaticSemantics.SymbolTable
