import StaticSemantics.SymbolTable

/-!
The symbol table that every program starts from: the root module with the module of global names,
and the types that the language itself supplies.
-/

namespace StaticSemantics.SymbolTable

variable [Memory]

/-- Defines a name of the language itself. The names are all different. -/
def supply (w : SymbolTable) (o : Owner) (name : String) (s : Symbol) : SymbolTable :=
  (w.define o name s).2

def supplyGlobalClass (w : SymbolTable) (name : String) : SymbolTable :=
  let (t, w) := w.addClass name true
  w.supply (.module .globalModule) name (.type t)

def supplyGlobalStruct (w : SymbolTable) (name : String) : SymbolTable :=
  let (t, w) := w.addStruct name
  w.supply (.module .globalModule) name (.type t)

/-- The modules and the types without a name or super type, up to `Object`. -/
def foundation (interner : Interner) : SymbolTable :=
  let w : SymbolTable := { nameTable := { interner } }
  let (_, w) := w.addModule "Sable"
  let w := w.setRoot "Sable" .languageModule
  let (_, w) := w.addModule "Global"
  let w := w.supply (.module .languageModule) "Global" (.module .globalModule)
  let (_, w) := w.addType { kind := .any }
  let (_, w) := w.addType { kind := .empty }
  let (_, w) := w.addType { kind := .nothing }
  let (_, w) := w.addType { kind := .null }
  let (object, w) := w.addTypeWithMembers (.cls {}) (some "Object") none
  w.supply (.module .globalModule) "Object" (.type object)

def initial (interner : Interner) : SymbolTable :=
  let w := ["Callable", "String"].foldl supplyGlobalClass (foundation interner)
  let w := ["Integer", "Long", "Byte", "Single", "Double", "Decimal", "Char", "Boolean"].foldl
    supplyGlobalStruct w
  let w := ["Collection", "ByteCollection", "Generator", "Promise"].foldl supplyGlobalClass w
  let (reflect, w) := w.addModule "Reflect"
  let w := w.supply (.module .globalModule) "Reflect" (.module reflect)
  let (cls, w) := w.addClass "Class" false
  let w := w.supply (.module reflect) "Class" (.type cls)
  w.supply (.module .globalModule) "Any" (.type .any)

end StaticSemantics.SymbolTable
