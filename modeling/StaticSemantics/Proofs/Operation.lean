import StaticSemantics.Overriding
import StaticSemantics.Proofs.Mention
import StaticSemantics.Proofs.Resolution.Outcome

/-!
Operations on a session, and the sessions that they lead to. Edits change the declarations, queries
resolve an expression, and the rest moves between frames or takes the problems away. An operation is
admitted if every id among its arguments has been given out; nothing else is asked of the caller.
-/

namespace StaticSemantics

/-- One change to the declarations. -/
inductive Edit where
  | addClass (name : String) (isSealed : Bool)
  | addStruct (name : String)
  | addEnum (name : String) (isFlags : Bool)
  | addInterface (name : String)
  | addNullable (t : TypeId)
  | addTuple (elements : List TypeId)
  | setTypeVisibility (t : TypeId) (visibility : Visibility)
  | setSuperType (t s : TypeId)
  | extendClass (cls base : TypeId)
  | implement (cls interface : TypeId)
  | extendInterface (interface base : TypeId)
  | setEnumMember (t : TypeId) (name : String) (value : Double)
  | declareEnumHelpers (t : TypeId)
  | addOperator (t : TypeId) (op : Operator) (method : SlotId)
  | addModule (name : String)
  | setRoot (name : String) (m : ModuleId)
  | addAlias (name : String) (target : Symbol)
  | setAliasTarget (a : AliasId) (target : Symbol)
  | addVariable (name : String) (readOnly : Bool) (type : Option TypeId)
  | setInitial (s : SlotId) (v : Value)
  | addProperty (name : String) (type : Option TypeId)
  | addMethod (name : String) (signature : SignatureId)
  | addSignature (s : Signature)
  | setAccessors (property : SlotId) (getter setter : Option SlotId)
  | setSlotVisibility (s : SlotId) (visibility : Visibility)
  | setMethodFlags (s : SlotId) (flags : MethodFlags)
  | override (candidate : SlotId) (d : MemberTableId)
  | define (o : Owner) (name : String) (s : Symbol)
  | bind (o : Owner) (name : String) (s : Symbol)
  | intern (name : String)
  | addFrame (kind : FrameKind)
  | addWithFrame (t : TypeId)
  | importModule (f : FrameId) (m : ModuleId)
  | capture (f : FrameId) (s : SlotId)
  | attachFrame (f top : FrameId)

namespace Edit

/-- The ids among the arguments. -/
def ids : Edit → List AnyId
  | addClass .. | addStruct _ | addEnum .. | addInterface _ | addModule _ | intern _ => []
  | addNullable t | setTypeVisibility t _ | setEnumMember t _ _ | declareEnumHelpers t
  | addWithFrame t => [t.tagged]
  | addTuple elements => elements.map EntityId.tagged
  | setSuperType t s => [t.tagged, s.tagged]
  | extendClass cls base => [cls.tagged, base.tagged]
  | implement cls interface => [cls.tagged, interface.tagged]
  | extendInterface interface base => [interface.tagged, base.tagged]
  | addOperator t _ method => [t.tagged, method.tagged]
  | setRoot _ m => [m.tagged]
  | addAlias _ target => target.ids
  | setAliasTarget a target => a.tagged :: target.ids
  | addVariable _ _ type | addProperty _ type => type.toList.map EntityId.tagged
  | setInitial s v => s.tagged :: v.ids
  | addMethod _ signature => [signature.tagged]
  | addSignature s => s.ids
  | setAccessors property getter setter =>
    property.tagged :: getter.toList.map EntityId.tagged ++ setter.toList.map EntityId.tagged
  | setSlotVisibility s _ | setMethodFlags s _ => [s.tagged]
  | override candidate d => [candidate.tagged, d.tagged]
  | define o _ s | bind o _ s => o.ids ++ s.ids
  | addFrame kind => kind.ids
  | importModule f m => [f.tagged, m.tagged]
  | capture f s => [f.tagged, s.tagged]
  | attachFrame f top => [f.tagged, top.tagged]

/-- What the edit hands back. -/
def Result : Edit → Type
  | addClass .. | addStruct _ | addEnum .. | addInterface _ | addNullable _ | addTuple _ => TypeId
  | addModule _ => ModuleId
  | addAlias .. => AliasId
  | addVariable .. | addProperty .. | addMethod .. => SlotId
  | addSignature _ => SignatureId
  | addFrame _ | addWithFrame _ => FrameId
  | extendClass .. | implement .. => Except HierarchyError Unit
  | extendInterface .. => Except HierarchyError (List SymbolError)
  | declareEnumHelpers _ | addOperator .. | override .. | define .. => Except SymbolError Unit
  | bind .. => Option Symbol
  | intern _ => Key
  | setTypeVisibility .. | setSuperType .. | setEnumMember .. | setRoot .. | setAliasTarget ..
  | setInitial .. | setAccessors .. | setSlotVisibility .. | setMethodFlags .. | importModule ..
  | capture .. | attachFrame .. => Unit

/-- The edit puts a type below another one without a check. -/
def setsSuperType : Edit → Bool
  | setSuperType .. => true
  | _ => false

end Edit

namespace SymbolTable

/-- The table after an edit, also if the edit is refused. -/
def apply [Memory] (w : SymbolTable) : Edit → SymbolTable
  | .addClass name isSealed => (w.addClass name isSealed).2
  | .addStruct name => (w.addStruct name).2
  | .addEnum name isFlags => (w.addEnum name isFlags).2
  | .addInterface name => (w.addInterface name).2
  | .addNullable t => (w.addNullable t).2
  | .addTuple elements => (w.addTuple elements).2
  | .setTypeVisibility t visibility => w.setTypeVisibility t visibility
  | .setSuperType t s => w.setSuperType t s
  | .extendClass cls base => (w.extendClass cls base).2
  | .implement cls interface => (w.implement cls interface).2
  | .extendInterface interface base => (w.extendInterface interface base).2
  | .setEnumMember t name value => w.setEnumMember t name value
  | .declareEnumHelpers t => (w.declareEnumHelpers t).2
  | .addOperator t op method => (w.addOperator t op method).2
  | .addModule name => (w.addModule name).2
  | .setRoot name m => w.setRoot name m
  | .addAlias name target => (w.addAlias name target).2
  | .setAliasTarget a target => w.setAliasTarget a target
  | .addVariable name readOnly type => (w.addVariable name readOnly type).2
  | .setInitial s v => w.setInitial s v
  | .addProperty name type => (w.addProperty name type).2
  | .addMethod name signature => (w.addMethod name signature).2
  | .addSignature s => (w.addSignature s).2
  | .setAccessors property getter setter => w.setAccessors property getter setter
  | .setSlotVisibility s visibility => w.setSlotVisibility s visibility
  | .setMethodFlags s flags => w.setMethodFlags s flags
  | .override candidate d => (w.override candidate d).2
  | .define o name s => (w.define o name s).2
  | .bind o name s => w.bind o name s
  | .intern name => (w.intern name).2
  | .addFrame kind => (w.addFrame kind).2
  | .addWithFrame t => (w.addWithFrame t).2
  | .importModule f m => w.importModule f m
  | .capture f s => w.capture f s
  | .attachFrame f top => w.attachFrame f top

/-- What an edit hands back: a new id, whether it is refused and why, or the symbol that a name
stood for before. -/
def result [Memory] (w : SymbolTable) : (e : Edit) → e.Result
  | .addClass name isSealed => (w.addClass name isSealed).1
  | .addStruct name => (w.addStruct name).1
  | .addEnum name isFlags => (w.addEnum name isFlags).1
  | .addInterface name => (w.addInterface name).1
  | .addNullable t => (w.addNullable t).1
  | .addTuple elements => (w.addTuple elements).1
  | .extendClass cls base => (w.extendClass cls base).1
  | .implement cls interface => (w.implement cls interface).1
  | .extendInterface interface base => (w.extendInterface interface base).1
  | .declareEnumHelpers t => (w.declareEnumHelpers t).1
  | .addOperator t op method => (w.addOperator t op method).1
  | .addModule name => (w.addModule name).1
  | .addAlias name target => (w.addAlias name target).1
  | .addVariable name readOnly type => (w.addVariable name readOnly type).1
  | .addProperty name type => (w.addProperty name type).1
  | .addMethod name signature => (w.addMethod name signature).1
  | .addSignature s => (w.addSignature s).1
  | .override candidate d => (w.override candidate d).1
  | .define o name s => (w.define o name s).1
  | .bind o name _ => w.bound? o name
  | .intern name => (w.intern name).1
  | .addFrame kind => (w.addFrame kind).1
  | .addWithFrame t => (w.addWithFrame t).1
  | .setTypeVisibility .. | .setSuperType .. | .setEnumMember .. | .setRoot .. | .setAliasTarget ..
  | .setInitial .. | .setAccessors .. | .setSlotVisibility .. | .setMethodFlags ..
  | .importModule .. | .capture .. | .attachFrame .. => ()

/-- `w'` is `w` after admitted edits that pass the test. -/
inductive Edited (allowed : Edit → Bool) (w : SymbolTable) : SymbolTable → Prop where
  | refl : Edited allowed w w
  | step {w' : SymbolTable} (e : Edit) (h : Edited allowed w w') (hc : w'.Covers e.ids)
      (ha : allowed e) : Edited allowed w (w'.apply e)

theorem Edited.trans {allowed : Edit → Bool} {w w' w'' : SymbolTable} (h : Edited allowed w w')
    (h' : Edited allowed w' w'') : Edited allowed w w'' := by
  induction h' with
  | refl => exact h
  | step e _ hc ha ih => exact ih.step e hc ha

theorem Edited.mono {allowed allowed' : Edit → Bool} {w w' : SymbolTable}
    (h : Edited allowed w w') (ha : ∀ e, allowed e → allowed' e) : Edited allowed' w w' := by
  induction h with
  | refl => exact .refl
  | step e _ hc he ih => exact ih.step e hc (ha e he)

theorem Edited.single {allowed : Edit → Bool} {w : SymbolTable} (e : Edit) (hc : w.Covers e.ids)
    (ha : allowed e) : Edited allowed w (w.apply e) :=
  Edited.refl.step e hc ha

end SymbolTable

/-! ## Queries -/

/-- A call that resolves an expression. -/
inductive Query where
  | lexical (e : Expr) (wanted : Wanted)
  | reference (object : Symbol) (e : Expr) (wanted : Wanted)
  | member (e : Expr) (wanted : Wanted)
  | withMember (e : Expr)
  | type (e : Expr)
  | constant (e : Expr)
  | constantAs (e : Expr) (t : TypeId)

namespace Query

/-- What the call answers with. -/
def Answer : Query → Type
  | lexical .. | reference .. | member .. | withMember _ => Symbol
  | type _ => TypeId
  | constant _ | constantAs .. => Value

/-- The expression that is resolved. -/
def expr : Query → Expr
  | lexical e _ | reference _ e _ | member e _ | withMember e | type e | constant e
  | constantAs e _ => e

def ids : Query → List AnyId
  | reference object _ _ => object.ids
  | constantAs _ t => [t.tagged]
  | lexical .. | member .. | withMember _ | type _ | constant _ => []

/-- What the call comes to in a workspace. -/
def outcome : (q : Query) → Workspace → Outcome q.Answer
  | lexical e wanted, ws => ws.resolveLexical e wanted
  | reference object e wanted, ws => ws.resolveReference object e wanted
  | member e wanted, ws => ws.resolveMember wanted e
  | withMember e, ws => ws.resolveWithMember e
  | type e, ws => ws.resolveType e
  | constant e, ws => ws.resolveConstant e
  | constantAs e t, ws => ws.resolveConstantAs e t

/-- Makes the call in a session. -/
def run [Memory] : (q : Query) → Session → Context → Option q.Answer × Session
  | lexical e wanted, s, ctx => s.resolveLexical ctx e wanted
  | reference object e wanted, s, ctx => s.resolveReference ctx object e wanted
  | member e wanted, s, ctx => s.resolveMember ctx e wanted
  | withMember e, s, ctx => s.resolveWithMember ctx e
  | type e, s, ctx => s.resolveType ctx e
  | constant e, s, ctx => s.resolveConstant ctx e
  | constantAs e t, s, ctx => s.resolveConstantAs ctx e t

/-- A session takes up the outcome of a call. -/
theorem run_eq_accept (q : Query) (s : Session) (ctx : Context) :
    q.run s ctx = s.accept ctx (q.outcome s.workspace) := by
  cases q with
  | lexical e wanted => exact s.resolveLexical_eq_accept ctx e wanted
  | reference object e wanted => exact s.resolveReference_eq_accept ctx object e wanted
  | member e wanted => exact s.resolveMember_eq_accept ctx e wanted
  | withMember e => exact s.resolveWithMember_eq_accept ctx e
  | type e => exact s.resolveType_eq_accept ctx e
  | constant e => exact s.resolveConstant_eq_accept ctx e
  | constantAs e t => exact s.resolveConstantAs_eq_accept ctx e t

end Query

/-! ## Sessions -/

inductive Operation where
  | edit (e : Edit)
  | enter (f : FrameId)
  | leave
  | query (q : Query) (ctx : Context)
  | takeProblems

namespace Operation

def ids : Operation → List AnyId
  | edit e => e.ids
  | enter f => [f.tagged]
  | query q _ => q.ids
  | leave | takeProblems => []

def setsSuperType : Operation → Bool
  | edit e => e.setsSuperType
  | _ => false

/-- What the operation hands back. -/
def Reply : Operation → Type
  | edit e => e.Result
  | enter _ | leave => Option FrameId
  | query q _ => Option q.Answer
  | takeProblems => List Problem

end Operation

namespace Session

def perform [Memory] (s : Session) : Operation → Session
  | .edit e => s.withTable (s.table.apply e)
  | .enter f => s.enter f
  | .leave => s.leave
  | .query q ctx => (q.run s ctx).2
  | .takeProblems => s.takeProblems.2

/-- What an operation hands back. Entering a frame gives the one around it, and leaving gives the
frame that is left. -/
def reply [Memory] (s : Session) : (op : Operation) → op.Reply
  | .edit e => s.table.result e
  | .enter f => ((s.enter f).table.frame f).parent
  | .leave => s.workspace.current?
  | .query q ctx => (q.run s ctx).1
  | .takeProblems => s.takeProblems.1

/-- The session after a list of operations. -/
def performAll [Memory] (s : Session) (ops : List Operation) : Session := ops.foldl perform s

/-- The session in which a table has not been worked on. -/
def start (w : SymbolTable) (reporting verbose : Bool) : Session :=
  { workspace := { table := w }, reporting, verbose }

theorem table_start (w : SymbolTable) (reporting verbose : Bool) :
    (start w reporting verbose).table = w := rfl

/-- The sessions that admitted operations lead to from a fresh one, if each passes the test. -/
inductive Reachable (allowed : Operation → Bool) : Session → Prop where
  | fresh (reporting verbose : Bool) (interner : Interner) :
      Reachable allowed (start (.initial interner) reporting verbose)
  | step {s : Session} (op : Operation) (h : Reachable allowed s) (hc : s.table.Covers op.ids)
      (ha : allowed op) : Reachable allowed (s.perform op)

theorem Reachable.new {allowed : Operation → Bool} : Reachable allowed {} :=
  .fresh true false .counting

/-- The operations are admitted, and pass the test, one after the other. -/
def Admits (allowed : Operation → Bool) (s : Session) : List Operation → Prop
  | [] => True
  | op :: ops => s.table.Covers op.ids ∧ allowed op ∧ (s.perform op).Admits allowed ops

instance (allowed : Operation → Bool) :
    (s : Session) → (ops : List Operation) → Decidable (s.Admits allowed ops)
  | _, [] => .isTrue trivial
  | s, op :: ops =>
    have := instDecidableAdmits allowed (s.perform op) ops
    inferInstanceAs (Decidable (_ ∧ _ ∧ _))

theorem Reachable.performAll {allowed : Operation → Bool} {s : Session} {ops : List Operation}
    (h : Reachable allowed s) (ha : s.Admits allowed ops) :
    Reachable allowed (s.performAll ops) := by
  induction ops generalizing s with
  | nil => exact h
  | cons op ops ih => exact ih (h.step op ha.1 ha.2.1) ha.2.2

end Session
end StaticSemantics
