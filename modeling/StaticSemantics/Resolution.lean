import StaticSemantics.Session

/-!
Resolution of the names and types in an expression.

A resolution is made in a session and under a context. It reports what it finds wrong as it goes; a
part of an expression is resolved under the context that its parent hands down.
-/

namespace StaticSemantics

/-- What a resolution comes to: its answer, if there is one, and the session after it. -/
abbrev Resolved (α : Type) := Option α × Session

/-- Goes on from the answer, if there is one. -/
def Resolved.andThen {α β : Type} (r : Resolved α) (next : α → Session → Resolved β) : Resolved β :=
  match r with
  | (some a, s) => next a s
  | (none, s) => (none, s)

namespace Session

variable [Memory]

def answer {α : Type} (s : Session) (a : α) : Resolved α := (some a, s)

/-- Fails silently. -/
def refuse {α : Type} (s : Session) : Resolved α := (none, s)

/-- Fails with a problem at a node. -/
def fail {α : Type} (s : Session) (ctx : Context) (e : Expr) (p : Problem) : Resolved α :=
  (none, s.report ctx e p)

/-! ## Names -/

/-- Answers a node with a symbol, and remembers it. -/
def remember (s : Session) (e : Expr) (wanted : Wanted) (found : Symbol) : Resolved Symbol :=
  (some found, { s with workspace := s.workspace.remember e.node.id wanted found })

/-- Reports a failed look-up, if it amounts to a problem. -/
def reportError (s : Session) (ctx : Context) (e : Expr) (err : SymbolError) : Session :=
  match Workspace.errorProblem? e.node err with
  | some p => s.report ctx e p
  | none => s

/-- Answers a node with the symbol that was found for it. Errors are remembered like other symbols;
what the current frame may not use is refused. -/
def conclude (s : Session) (ctx : Context) (e : Expr) (wanted : Wanted) (found : Symbol)
    (through : Option TypeId) : Resolved Symbol :=
  match found with
  | .error err => (s.reportError ctx e err).remember e wanted found
  | _ =>
    if s.workspace.mayUse found then s.remember e wanted found
    else
      s.fail ctx e (s.workspace.nameProblem .inaccessibleProperty
        .inaccessiblePropertyThroughReference e (e.name?.getD "") through)

/-- Notes that the innermost function refers to a local of a function around it. -/
def noteCapture (s : Session) (found : Symbol) : Session :=
  { s with workspace := s.workspace.noteCapture found }

/-- Resolves the name of a node in scope. -/
def resolveLexical (s : Session) (ctx : Context) (e : Expr) (wanted : Wanted) : Resolved Symbol :=
  match s.workspace.answer? e.node.id wanted with
  | some found => s.answer found
  | none =>
    match e.name? with
    | none => s.refuse
    | some name =>
      match s.workspace.nameInScope? name wanted with
      | none => s.fail ctx e ((Problem.atNode .undefinedProperty e.node).withVar "name" name)
      | some found => (s.noteCapture found).conclude ctx e wanted found none

/-- Resolves the name of a node as a member of an object. A failed object stands for itself. -/
def resolveReference (s : Session) (ctx : Context) (object : Symbol) (e : Expr) (wanted : Wanted) :
    Resolved Symbol :=
  match s.workspace.answer? e.node.id wanted with
  | some found => s.answer found
  | none =>
    if object.isError then s.answer object
    else
      match e.name? with
      | none => s.refuse
      | some name =>
        let through := object.value?.map Value.type
        if through = some .null then
          s.fail ctx e (Problem.atNode .cannotAccessPropertyOfNull e.node)
        else
          match s.table.resolveInSymbol? object name wanted with
          | none =>
            s.fail ctx e (s.workspace.nameProblem .undefinedProperty
              .undefinedPropertyThroughReference e name through)
          | some found => s.conclude ctx e wanted found through

/-- Resolves the name of a node as a member of the target of the enclosing `With` block. -/
def resolveWithMember (s : Session) (ctx : Context) (e : Expr) : Resolved Symbol :=
  match s.workspace.withTarget? with
  | none =>
    s.fail ctx e ((Problem.atNode .undefinedProperty e.node).withVar "name" (e.name?.getD ""))
  | some target => s.resolveReference ctx (.value target) e .anything

/-- Resolves a name or a chain of members. -/
def resolveMember (s : Session) (ctx : Context) (e : Expr) (wanted : Wanted) : Resolved Symbol :=
  match e with
  | .ident node name => s.resolveLexical ctx (.ident node name) wanted
  | .member node base name =>
    (s.resolveMember ctx.child base .anything).andThen fun object s =>
      s.resolveReference ctx object (.member node base name) wanted
  | .withMember node name => s.resolveWithMember ctx (.withMember node name)
  | .parens _ inner => s.resolveMember ctx inner wanted
  | _ => s.refuse

/-! ## Types -/

/-- Fails because an expression is no type. -/
def failAsType {α : Type} (s : Session) (ctx : Context) (e : Expr) : Resolved α :=
  s.fail ctx e ((Problem.atNode .failedToResolveStaticType e.node).withVar "name"
    (e.path?.getD "expression"))

/-- Resolves a chain of members that must denote a type. -/
def resolveTypeName (s : Session) (ctx : Context) (e : Expr) : Resolved TypeId :=
  (s.resolveMember ctx e .typeOrModule).andThen fun found s =>
    match found with
    | .type t => s.answer t
    | .error _ => s.refuse
    | _ => s.failAsType ctx e

mutual

/-- Resolves a type expression. Nullable and tuple types are declared on the way. -/
def resolveType (s : Session) (ctx : Context) : Expr → Resolved TypeId
  | .ident node name => s.resolveTypeName ctx (.ident node name)
  | .member node base name => s.resolveTypeName ctx (.member node base name)
  | .nullable _ inner =>
    (s.resolveType ctx inner).andThen fun t s =>
      let (u, table) := s.table.addNullable t
      (s.withTable table).answer u
  | .tuple _ elements =>
    (s.resolveTypes ctx elements).andThen fun ts s =>
      let (u, table) := s.table.addTuple ts
      (s.withTable table).answer u
  | .parens _ inner => s.resolveType ctx inner
  | e => s.failAsType ctx e

/-- Resolves type expressions one after the other, up to the first that fails. -/
def resolveTypes (s : Session) (ctx : Context) : List Expr → Resolved (List TypeId)
  | [] => s.answer []
  | e :: rest =>
    (s.resolveType ctx e).andThen fun t s =>
      (s.resolveTypes ctx rest).andThen fun ts s => s.answer (t :: ts)

end

end Session
end StaticSemantics
