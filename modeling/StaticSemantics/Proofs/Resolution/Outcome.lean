import StaticSemantics.ConstantExpr
import StaticSemantics.Proofs.Expression

/-!
Outcomes: what a resolution comes to apart from the record of problems. An outcome has the answer,
the workspace after it, and all that was found wrong in the order in which it was found. What has
been recorded and the context have no part in it: a session that resolves an expression under a
context takes up the outcome, and records of the findings what the context lets through.
-/

namespace StaticSemantics

/-- Something found wrong at a node. -/
structure Finding where
  node : Nat
  problem : Problem

structure Outcome (α : Type) where
  result : Option α
  workspace : Workspace
  findings : List Finding := []

namespace Outcome

/-- Goes on from an outcome, keeping what it found. -/
def before {α β : Type} (o : Outcome α) (next : Option α → Workspace → Outcome β) : Outcome β :=
  let o' := next o.result o.workspace
  { o' with findings := o.findings ++ o'.findings }

/-- Goes on from the answer of an outcome, if it has one. -/
def andThen {α β : Type} (o : Outcome α) (next : α → Workspace → Outcome β) : Outcome β :=
  o.before fun result ws =>
    match result with
    | some a => next a ws
    | none => ⟨none, ws, []⟩

end Outcome

namespace Workspace

def answer {α : Type} (ws : Workspace) (a : α) : Outcome α := ⟨some a, ws, []⟩

/-- Fails silently. -/
def refuse {α : Type} (ws : Workspace) : Outcome α := ⟨none, ws, []⟩

/-- Fails with a problem at a node. -/
def fail {α : Type} (ws : Workspace) (e : Expr) (p : Problem) : Outcome α :=
  ⟨none, ws, [⟨e.node.id, p⟩]⟩

/-! ## Names -/

/-- Answers a node with the symbol that was found for it. Errors are remembered like other symbols;
what the current frame may not use is refused. -/
def conclude (ws : Workspace) (e : Expr) (wanted : Wanted) (s : Symbol) (through : Option TypeId) :
    Outcome Symbol :=
  match s with
  | .error err =>
    ⟨some s, ws.remember e.node.id wanted s,
      (errorProblem? e.node err).toList.map (⟨e.node.id, ·⟩)⟩
  | _ =>
    if ws.mayUse s then ⟨some s, ws.remember e.node.id wanted s, []⟩
    else
      ws.fail e (ws.nameProblem .inaccessibleProperty .inaccessiblePropertyThroughReference e
        (e.name?.getD "") through)

/-- Resolves the name of a node in scope. -/
def resolveLexical (ws : Workspace) (e : Expr) (wanted : Wanted) : Outcome Symbol :=
  match ws.answer? e.node.id wanted with
  | some s => ws.answer s
  | none =>
    match e.name? with
    | none => ws.refuse
    | some name =>
      match ws.nameInScope? name wanted with
      | none => ws.fail e ((Problem.atNode .undefinedProperty e.node).withVar "name" name)
      | some s => (ws.noteCapture s).conclude e wanted s none

/-- Resolves the name of a node as a member of an object. A failed object stands for itself. -/
def resolveReference (ws : Workspace) (object : Symbol) (e : Expr) (wanted : Wanted) :
    Outcome Symbol :=
  match ws.answer? e.node.id wanted with
  | some s => ws.answer s
  | none =>
    if object.isError then ws.answer object
    else
      match e.name? with
      | none => ws.refuse
      | some name =>
        let through := object.value?.map Value.type
        if through = some .null then ws.fail e (Problem.atNode .cannotAccessPropertyOfNull e.node)
        else
          match ws.table.resolveInSymbol? object name wanted with
          | none =>
            ws.fail e (ws.nameProblem .undefinedProperty .undefinedPropertyThroughReference e name
              through)
          | some s => ws.conclude e wanted s through

/-- Resolves the name of a node as a member of the target of the enclosing `With` block. -/
def resolveWithMember (ws : Workspace) (e : Expr) : Outcome Symbol :=
  match ws.withTarget? with
  | none =>
    ws.fail e ((Problem.atNode .undefinedProperty e.node).withVar "name" (e.name?.getD ""))
  | some target => ws.resolveReference (.value target) e .anything

/-- Resolves a name or a chain of members. -/
def resolveMember (ws : Workspace) (wanted : Wanted) : Expr → Outcome Symbol
  | .ident node name => ws.resolveLexical (.ident node name) wanted
  | .member node base name =>
    (ws.resolveMember .anything base).andThen fun object ws =>
      ws.resolveReference object (.member node base name) wanted
  | .withMember node name => ws.resolveWithMember (.withMember node name)
  | .parens _ inner => ws.resolveMember wanted inner
  | _ => ws.refuse

/-! ## Types -/

/-- Fails because an expression is no type. -/
def failAsType {α : Type} (ws : Workspace) (e : Expr) : Outcome α :=
  ws.fail e ((Problem.atNode .failedToResolveStaticType e.node).withVar "name"
    (e.path?.getD "expression"))

/-- Resolves a chain of members that must denote a type. -/
def resolveTypeName (ws : Workspace) (e : Expr) : Outcome TypeId :=
  (ws.resolveMember .typeOrModule e).andThen fun s ws =>
    match s with
    | .type t => ws.answer t
    | .error _ => ws.refuse
    | _ => ws.failAsType e

mutual

/-- Resolves a type expression. Nullable and tuple types are declared on the way. -/
def resolveType (ws : Workspace) : Expr → Outcome TypeId
  | .ident node name => ws.resolveTypeName (.ident node name)
  | .member node base name => ws.resolveTypeName (.member node base name)
  | .nullable _ inner =>
    (ws.resolveType inner).andThen fun t ws =>
      let (u, table) := ws.table.addNullable t
      { ws with table }.answer u
  | .tuple _ elements =>
    (ws.resolveTypes elements).andThen fun ts ws =>
      let (u, table) := ws.table.addTuple ts
      { ws with table }.answer u
  | .parens _ inner => ws.resolveType inner
  | e => ws.failAsType e

/-- Resolves type expressions one after the other, up to the first that fails. -/
def resolveTypes (ws : Workspace) : List Expr → Outcome (List TypeId)
  | [] => ws.answer []
  | e :: rest =>
    (ws.resolveType e).andThen fun t ws =>
      (ws.resolveTypes rest).andThen fun ts ws => ws.answer (t :: ts)

end

/-! ## Constants -/


/-- Fails because an expression is not constant. -/
def failAsConstant {α : Type} (ws : Workspace) (e : Expr) : Outcome α :=
  ws.fail e (Problem.atNode .notAConstant e.node)

/-- Answers with a folded value, if there is one. -/
def answerConstant (ws : Workspace) (e : Expr) : Option Value → Outcome Value
  | some v => ws.answer v
  | none => ws.failAsConstant e

/-- Resolves a name, or a chain of members, that must stand for a constant. -/
def resolveConstantName (ws : Workspace) (e : Expr) : Outcome Value :=
  (ws.resolveMember .anything e).andThen fun s ws => ws.answerConstant e (ws.table.constantOf? s)

/-- Resolves a chain of members that must stand for a constant. Members of an enum come before those
of its type. -/
def resolveConstantMember (ws : Workspace) (e base : Expr) (name : String) : Outcome Value :=
  (ws.resolveMember .anything base).before fun object ws =>
    match (object.bind Symbol.type?).bind fun t => ws.table.enumConstant? t name with
    | some v => ws.answer v
    | none => ws.resolveConstantName e

/-- Folds an expression to a constant. -/
def resolveConstant (ws : Workspace) : Expr → Outcome Value
  | .literal _ l => ws.answer l.value
  | .parens _ inner => ws.resolveConstant inner
  | .unary node op operand =>
    (ws.resolveConstant operand).andThen fun v ws =>
      ws.answerConstant (.unary node op operand) (Folding.unary? op v)
  | .binary node op left right =>
    (ws.resolveConstant left).andThen fun v ws =>
      (ws.resolveConstant right).andThen fun u ws =>
        ws.answerConstant (.binary node op left right) (Folding.binary? ws.table op v u)
  | .ident node name => ws.resolveConstantName (.ident node name)
  | .withMember node name => ws.resolveConstantName (.withMember node name)
  | .member node base name => ws.resolveConstantMember (.member node base name) base name
  | .nullable node inner => ws.failAsConstant (.nullable node inner)
  | .tuple node elements => ws.failAsConstant (.tuple node elements)

/-- Folds an expression to a constant of a given type. -/
def resolveConstantAs (ws : Workspace) (e : Expr) (t : TypeId) : Outcome Value :=
  (ws.resolveConstant e).andThen fun v ws =>
    match ws.table.convertConstant? v t with
    | some v => ws.answer v
    | none =>
      ws.fail e ((Problem.atNode .incompatibleConstant e.node).withVar "type" (ws.table.typeText t))

end Workspace

/-! ## Sessions -/

namespace Session

/-- Records a finding, unless its node has a problem already. -/
def note (s : Session) (f : Finding) : Session :=
  if s.reported.contains f.node then s
  else { s with problems := s.problems ++ [f.problem], reported := f.node :: s.reported }

/-- Takes up an outcome: its workspace, and its findings if the context lets them be recorded. -/
def accept {α : Type} (s : Session) (ctx : Context) (o : Outcome α) : Resolved α :=
  let s := { s with workspace := o.workspace }
  (o.result, if ctx.report then o.findings.foldl note s else s)

section
variable {α β : Type} (s : Session) (ctx : Context)

theorem report_eq (e : Expr) (p : Problem) :
    s.report ctx e p = if ctx.report then s.note ⟨e.node.id, p⟩ else s := by
  unfold report note
  cases ctx.report <;> simp

theorem foldl_note_workspace (findings : List Finding) (ws : Workspace) :
    findings.foldl note { s with workspace := ws } =
      { findings.foldl note s with workspace := ws } := by
  induction findings generalizing s with
  | nil => rfl
  | cons f rest ih =>
      have hf : note { s with workspace := ws } f = { s.note f with workspace := ws } := by
        unfold note
        split <;> rfl
      rw [List.foldl_cons, hf, ih]
      rfl

@[simp] theorem workspace_accept (o : Outcome α) : (s.accept ctx o).2.workspace = o.workspace := by
  unfold accept
  dsimp only
  split
  · rw [foldl_note_workspace]
  · rfl

theorem accept_answer (a : α) : s.accept ctx (s.workspace.answer a) = s.answer a := by
  simp [accept, Workspace.answer, answer]

theorem accept_refuse : s.accept ctx (s.workspace.refuse : Outcome α) = s.refuse := by
  simp [accept, Workspace.refuse, refuse]

theorem accept_fail (e : Expr) (p : Problem) :
    s.accept ctx (s.workspace.fail e p : Outcome α) = s.fail ctx e p := by
  simp [accept, Workspace.fail, fail, report_eq]

/-- Going on from an outcome that was taken up: what comes next is taken up in turn. -/
theorem before_accept (o : Outcome α) (next : Option α → Session → Resolved β)
    (next' : Option α → Workspace → Outcome β)
    (h : ∀ a s, next a s = s.accept ctx (next' a s.workspace)) :
    next (s.accept ctx o).1 (s.accept ctx o).2 = s.accept ctx (o.before next') := by
  rw [h]
  unfold accept Outcome.before
  cases ctx.report <;> simp [foldl_note_workspace]

theorem andThen_accept (o : Outcome α) (next : α → Session → Resolved β)
    (next' : α → Workspace → Outcome β) (h : ∀ a s, next a s = s.accept ctx (next' a s.workspace)) :
    (s.accept ctx o).andThen next = s.accept ctx (o.andThen next') := by
  refine s.before_accept ctx o (fun a s => Resolved.andThen (a, s) next) _ fun a s => ?_
  cases a with
  | some a => exact h a s
  | none => exact (s.accept_refuse ctx).symm

end

/-! ## Resolutions take up outcomes -/

variable (s : Session) (ctx : Context)

theorem conclude_eq_accept (e : Expr) (wanted : Wanted) (found : Symbol)
    (through : Option TypeId) : s.conclude ctx e wanted found through =
      s.accept ctx (s.workspace.conclude e wanted found through) := by
  cases found with
  | error err =>
      simp only [conclude, Workspace.conclude, reportError]
      cases Workspace.errorProblem? e.node err with
      | none => simp [remember, accept]
      | some p =>
          dsimp only
          rw [report_eq, remember, accept]
          cases ctx.report with
          | false => rfl
          | true =>
              simp only [note, Option.toList_some, List.map_cons, List.map_nil, List.foldl_cons,
                List.foldl_nil, if_true]
              split <;> rfl
  | type | module | slot | aliasDecl | value =>
      simp only [conclude, Workspace.conclude]
      split
      · simp [remember, accept]
      · rw [accept_fail]

theorem resolveLexical_eq_accept (e : Expr) (wanted : Wanted) :
    s.resolveLexical ctx e wanted = s.accept ctx (s.workspace.resolveLexical e wanted) := by
  unfold resolveLexical Workspace.resolveLexical
  cases s.workspace.answer? e.node.id wanted with
  | some found => exact (s.accept_answer ctx found).symm
  | none =>
      cases e.name? with
      | none => exact (s.accept_refuse ctx).symm
      | some name =>
          dsimp only
          cases s.workspace.nameInScope? name wanted with
          | none => exact (s.accept_fail ctx e _).symm
          | some found => exact (s.noteCapture found).conclude_eq_accept ctx e wanted found none

theorem resolveReference_eq_accept (object : Symbol) (e : Expr) (wanted : Wanted) :
    s.resolveReference ctx object e wanted =
      s.accept ctx (s.workspace.resolveReference object e wanted) := by
  unfold resolveReference Workspace.resolveReference
  cases s.workspace.answer? e.node.id wanted with
  | some found => exact (s.accept_answer ctx found).symm
  | none =>
      dsimp only
      split
      · exact (s.accept_answer ctx object).symm
      · cases e.name? with
        | none => exact (s.accept_refuse ctx).symm
        | some name =>
            dsimp only
            split
            · exact (s.accept_fail ctx e _).symm
            · unfold table
              cases s.workspace.table.resolveInSymbol? object name wanted with
              | none => exact (s.accept_fail ctx e _).symm
              | some found => exact s.conclude_eq_accept ctx e wanted found _

theorem resolveWithMember_eq_accept (e : Expr) :
    s.resolveWithMember ctx e = s.accept ctx (s.workspace.resolveWithMember e) := by
  unfold resolveWithMember Workspace.resolveWithMember
  cases s.workspace.withTarget? with
  | none => exact (s.accept_fail ctx e _).symm
  | some target => exact s.resolveReference_eq_accept ctx (.value target) e .anything

/-- The context that is handed down to the base of a member records what its parent records. -/
theorem resolveMember_eq_accept (e : Expr) (wanted : Wanted) :
    s.resolveMember ctx e wanted = s.accept ctx (s.workspace.resolveMember wanted e) := by
  induction e generalizing s ctx wanted with
  | ident node name => exact s.resolveLexical_eq_accept ctx (.ident node name) wanted
  | member node base name ih =>
      rw [resolveMember, ih]
      exact s.andThen_accept ctx _ _ _ fun object s =>
        s.resolveReference_eq_accept ctx object (.member node base name) wanted
  | withMember node name => exact s.resolveWithMember_eq_accept ctx (.withMember node name)
  | parens _ inner ih => exact ih s ctx wanted
  | literal | unary | binary | nullable | tuple => exact (s.accept_refuse ctx).symm

theorem resolveTypeName_eq_accept (e : Expr) :
    s.resolveTypeName ctx e = s.accept ctx (s.workspace.resolveTypeName e) := by
  rw [resolveTypeName, resolveMember_eq_accept]
  refine s.andThen_accept ctx _ _ _ fun found s => ?_
  cases found with
  | type t => exact (s.accept_answer ctx t).symm
  | error => exact (s.accept_refuse ctx).symm
  | module | slot | aliasDecl | value => exact (s.accept_fail ctx e _).symm

mutual

theorem resolveType_eq_accept (s : Session) (ctx : Context) :
    (e : Expr) → s.resolveType ctx e = s.accept ctx (s.workspace.resolveType e)
  | .ident node name => s.resolveTypeName_eq_accept ctx (.ident node name)
  | .member node base name => s.resolveTypeName_eq_accept ctx (.member node base name)
  | .nullable _ inner => by
      rw [resolveType, resolveType_eq_accept s ctx inner]
      exact s.andThen_accept ctx _ _ _ fun t s => ((s.withTable _).accept_answer ctx _).symm
  | .tuple _ elements => by
      rw [resolveType, resolveTypes_eq_accept s ctx elements]
      exact s.andThen_accept ctx _ _ _ fun ts s => ((s.withTable _).accept_answer ctx _).symm
  | .parens _ inner => resolveType_eq_accept s ctx inner
  | .withMember .. | .literal .. | .unary .. | .binary .. => (s.accept_fail ctx _ _).symm

theorem resolveTypes_eq_accept (s : Session) (ctx : Context) :
    (l : List Expr) → s.resolveTypes ctx l = s.accept ctx (s.workspace.resolveTypes l)
  | [] => (s.accept_answer ctx []).symm
  | e :: rest => by
      rw [resolveTypes, resolveType_eq_accept s ctx e]
      refine s.andThen_accept ctx _ _ _ fun t s => ?_
      rw [resolveTypes_eq_accept s ctx rest]
      exact s.andThen_accept ctx _ _ _ fun ts s => (s.accept_answer ctx (t :: ts)).symm

end

theorem answerConstant_eq_accept (e : Expr) (v : Option Value) :
    s.answerConstant ctx e v = s.accept ctx (s.workspace.answerConstant e v) := by
  cases v with
  | some v => exact (s.accept_answer ctx v).symm
  | none => exact (s.accept_fail ctx e _).symm

theorem resolveConstantName_eq_accept (e : Expr) :
    s.resolveConstantName ctx e = s.accept ctx (s.workspace.resolveConstantName e) := by
  rw [resolveConstantName, resolveMember_eq_accept]
  exact s.andThen_accept ctx _ _ _ fun found s => s.answerConstant_eq_accept ctx e _

theorem resolveConstantMember_eq_accept (e base : Expr) (name : String) :
    s.resolveConstantMember ctx e base name =
      s.accept ctx (s.workspace.resolveConstantMember e base name) := by
  rw [resolveConstantMember, resolveMember_eq_accept]
  refine s.before_accept ctx _ (fun object s =>
    match (object.bind Symbol.type?).bind fun t => s.table.enumConstant? t name with
    | some v => s.answer v
    | none => s.resolveConstantName ctx e) _ fun object s => ?_
  unfold table
  cases (object.bind Symbol.type?).bind fun t => s.workspace.table.enumConstant? t name with
  | some v => exact (s.accept_answer ctx v).symm
  | none => exact s.resolveConstantName_eq_accept ctx e

theorem resolveConstant_eq_accept (e : Expr) :
    s.resolveConstant ctx e = s.accept ctx (s.workspace.resolveConstant e) := by
  induction e generalizing s with
  | literal _ l => exact (s.accept_answer ctx l.value).symm
  | parens _ inner ih => exact ih s
  | unary node op operand ih =>
      rw [resolveConstant, ih]
      exact s.andThen_accept ctx _ _ _ fun v s => s.answerConstant_eq_accept ctx _ _
  | binary node op left right ihl ihr =>
      rw [resolveConstant, ihl]
      refine s.andThen_accept ctx _ _ _ fun v s => ?_
      rw [ihr]
      exact s.andThen_accept ctx _ _ _ fun u s => s.answerConstant_eq_accept ctx _ _
  | ident node name => exact s.resolveConstantName_eq_accept ctx (.ident node name)
  | withMember node name => exact s.resolveConstantName_eq_accept ctx (.withMember node name)
  | member node base name => exact s.resolveConstantMember_eq_accept ctx _ base name
  | nullable | tuple => exact (s.accept_fail ctx _ _).symm

theorem resolveConstantAs_eq_accept (e : Expr) (t : TypeId) :
    s.resolveConstantAs ctx e t = s.accept ctx (s.workspace.resolveConstantAs e t) := by
  rw [resolveConstantAs, resolveConstant_eq_accept]
  refine s.andThen_accept ctx _ _ _ fun v s => ?_
  unfold table
  cases s.workspace.table.convertConstant? v t with
  | some v => exact (s.accept_answer ctx v).symm
  | none => exact (s.accept_fail ctx e _).symm

end Session
end StaticSemantics
