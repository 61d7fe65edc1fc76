import StaticSemantics.Overriding

/-!
Conformance: whether a class supplies what the interfaces that it implements require. Native members
of an interface are required; the others only have to fit if they are supplied.
-/

namespace StaticSemantics

/-- The part of a member that is missing or does not fit. -/
inductive MemberPart where
  | method
  | getter
  | setter
  deriving DecidableEq, Repr

/-- The kind of slot that an interface asks for. -/
inductive SlotForm where
  | method
  | property
  deriving DecidableEq, Repr

inductive ConformanceIssue where
  /-- A member is missing or has another signature. -/
  | undefined (part : MemberPart) (name : String) (expected : SignatureId)
  /-- An operator is missing, or gives another type than the expected one. -/
  | operator (op : Operator) (expected : Option TypeId)
  /-- A member is supplied as another kind of slot. -/
  | wrong (form : SlotForm) (name : String)
  deriving DecidableEq, Repr

namespace SymbolTable

variable [Memory]

/-- The slot is a native method. -/
def isRequired (w : SymbolTable) (s : SlotId) : Bool :=
  (w.methodInfo? s).any fun m => m.flags.native

/-- The type that a method gives. -/
def resultType? (w : SymbolTable) (s : SlotId) : Option TypeId :=
  (w.methodInfo? s).map fun m => (w.signature m.signature).returns

/-- The members of a class that can implement those of an interface. -/
def classChain (w : SymbolTable) (cls : TypeId) : List MemberTableId :=
  (w.type cls).members.elim [] w.memberChain

def operatorIssue? (w : SymbolTable) (cls : TypeId) (op : Operator) (provided : SlotId) :
    Option ConformanceIssue :=
  match (w.type cls).members.bind fun d => w.findOperator? d op with
  | none => if w.isRequired provided then some (.operator op none) else none
  | some implemented =>
    let expected := w.resultType? provided
    if w.resultType? implemented = expected then none else some (.operator op expected)

/-- What is wrong with one accessor: one that is asked for, if any, against one that is there. -/
def accessorIssue? (w : SymbolTable) (part : MemberPart) (name : String)
    (asked present : Option SlotId) : Option ConformanceIssue := do
  let accessor ← asked
  let expected := w.slotSignature accessor
  let fits :=
    match present with
    | none => !w.isRequired accessor
    | some s => w.sameShape expected (w.slotSignature s)
  if fits then none else some (.undefined part name expected)

def propertyIssues (w : SymbolTable) (name : String) (asked : PropertyInfo)
    (implemented : Option SlotId) : List ConformanceIssue :=
  match implemented.map fun s => (w.slot s).detail with
  | none =>
    [w.accessorIssue? .getter name asked.getter none,
      w.accessorIssue? .setter name asked.setter none].filterMap fun i => i
  | some (.property present) =>
    [w.accessorIssue? .getter name asked.getter present.getter,
      w.accessorIssue? .setter name asked.setter present.setter].filterMap fun i => i
  | some _ => [.wrong .property name]

def methodIssues (w : SymbolTable) (name : String) (asked : MethodInfo)
    (implemented : Option SlotId) : List ConformanceIssue :=
  match implemented.map fun s => (w.slot s).detail with
  | none => if asked.flags.native then [.undefined .method name asked.signature] else []
  | some (.method present) =>
    if w.sameShape asked.signature present.signature then []
    else [.undefined .method name asked.signature]
  | some _ => [.wrong .method name]

/-- The member of a class that stands for a member of an interface: everyone must be able to see
it. -/
def implementation? (w : SymbolTable) (cls : TypeId) (name : String) : Option SlotId :=
  (w.slotNamed? (w.classChain cls) name).filter fun s => (w.slot s).visibility = .everyone

def memberIssues (w : SymbolTable) (cls : TypeId) (provided : SlotId) : List ConformanceIssue :=
  let slot := w.slot provided
  let implemented := w.implementation? cls slot.name
  match slot.detail with
  | .property info => w.propertyIssues slot.name info implemented
  | .method info => w.methodIssues slot.name info implemented
  | .variable _ => []

def interfaceIssues (w : SymbolTable) (cls interface : TypeId) : List ConformanceIssue :=
  match (w.type interface).members with
  | none => []
  | some d =>
    let table := w.memberTable d
    table.operators.filterMap (fun (op, s) => w.operatorIssue? cls op s) ++
      (table.names.entries.filterMap fun (_, s) => s.slot?).flatMap (w.memberIssues cls)

/-- All that keeps a class from implementing its interfaces. -/
def conformanceIssues (w : SymbolTable) (cls : TypeId) : List ConformanceIssue :=
  match (w.type cls).class? with
  | none => []
  | some info => info.implements.flatMap (w.interfaceIssues cls)

end SymbolTable
end StaticSemantics
