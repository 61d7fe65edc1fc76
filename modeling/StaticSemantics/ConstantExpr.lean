import StaticSemantics.Conversion
import StaticSemantics.Enumeration
import StaticSemantics.Folding
import StaticSemantics.Resolution

/-!
Constant expressions: literals, names of constants, and operators on them.
-/

namespace StaticSemantics

variable [Memory]

/-- The constant that a symbol stands for: itself, or the initial value of a read-only variable. -/
def SymbolTable.constantOf? (w : SymbolTable) (s : Symbol) : Option Value :=
  match s with
  | .value (.constant c t) => some (.constant c t)
  | .value v => do
    let slot ← v.slot?
    let info ← (w.slot slot).variableInfo?
    if info.readOnly then info.initial.filter fun v => v.constant?.isSome else none
  | _ => none

namespace Session

/-- Fails because an expression is not constant. -/
def failAsConstant {α : Type} (s : Session) (ctx : Context) (e : Expr) : Resolved α :=
  s.fail ctx e (Problem.atNode .notAConstant e.node)

/-- Answers with a folded value, if there is one. -/
def answerConstant (s : Session) (ctx : Context) (e : Expr) : Option Value → Resolved Value
  | some v => s.answer v
  | none => s.failAsConstant ctx e

/-- Resolves a name, or a chain of members, that must stand for a constant. -/
def resolveConstantName (s : Session) (ctx : Context) (e : Expr) : Resolved Value :=
  (s.resolveMember ctx e .anything).andThen fun found s =>
    s.answerConstant ctx e (s.table.constantOf? found)

/-- Resolves a chain of members that must stand for a constant. Members of an enum come before those
of its type. -/
def resolveConstantMember (s : Session) (ctx : Context) (e base : Expr) (name : String) :
    Resolved Value :=
  let (object, s) := s.resolveMember ctx.child base .anything
  match (object.bind Symbol.type?).bind fun t => s.table.enumConstant? t name with
  | some v => s.answer v
  | none => s.resolveConstantName ctx e

/-- Folds an expression to a constant. -/
def resolveConstant (s : Session) (ctx : Context) : Expr → Resolved Value
  | .literal _ l => s.answer l.value
  | .parens _ inner => s.resolveConstant ctx inner
  | .unary node op operand =>
    (s.resolveConstant ctx operand).andThen fun v s =>
      s.answerConstant ctx (.unary node op operand) (Folding.unary? op v)
  | .binary node op left right =>
    (s.resolveConstant ctx left).andThen fun v s =>
      (s.resolveConstant ctx right).andThen fun u s =>
        s.answerConstant ctx (.binary node op left right) (Folding.binary? s.table op v u)
  | .ident node name => s.resolveConstantName ctx (.ident node name)
  | .withMember node name => s.resolveConstantName ctx (.withMember node name)
  | .member node base name => s.resolveConstantMember ctx (.member node base name) base name
  | .nullable node inner => s.failAsConstant ctx (.nullable node inner)
  | .tuple node elements => s.failAsConstant ctx (.tuple node elements)

/-- Folds an expression to a constant of a given type. -/
def resolveConstantAs (s : Session) (ctx : Context) (e : Expr) (t : TypeId) : Resolved Value :=
  (s.resolveConstant ctx e).andThen fun v s =>
    match s.table.convertConstant? v t with
    | some v => s.answer v
    | none =>
      s.fail ctx e
        ((Problem.atNode .incompatibleConstant e.node).withVar "type" (s.table.typeText t))

end Session
end StaticSemantics
