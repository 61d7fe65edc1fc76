import StaticSemantics.Expr

/-!
Induction on expressions, and the numbers of their nodes.
-/

namespace StaticSemantics.Expr

/-- Induction on expressions, with a hypothesis for every element of a tuple. -/
@[elab_as_elim, induction_eliminator]
theorem induct {motive : Expr → Prop}
    (ident : ∀ node name, motive (.ident node name))
    (member : ∀ node base name, motive base → motive (.member node base name))
    (withMember : ∀ node name, motive (.withMember node name))
    (literal : ∀ node value, motive (.literal node value))
    (parens : ∀ node inner, motive inner → motive (.parens node inner))
    (unary : ∀ node op operand, motive operand → motive (.unary node op operand))
    (binary : ∀ node op left right, motive left → motive right →
      motive (.binary node op left right))
    (nullable : ∀ node inner, motive inner → motive (.nullable node inner))
    (tuple : ∀ node elements, (∀ e ∈ elements, motive e) → motive (.tuple node elements))
    (e : Expr) : motive e :=
  @Expr.rec motive (fun l => ∀ e ∈ l, motive e) ident member withMember literal parens unary binary
    nullable tuple (by simp) (fun _ _ he hl => by simpa using ⟨he, hl⟩) e

mutual

/-- The numbers of all nodes. -/
def nodes : Expr → List Nat
  | ident n _ | withMember n _ | literal n _ => [n.id]
  | member n e _ | parens n e | unary n _ e | nullable n e => n.id :: e.nodes
  | binary n _ left right => n.id :: (left.nodes ++ right.nodes)
  | tuple n elements => n.id :: listNodes elements

def listNodes : List Expr → List Nat
  | [] => []
  | e :: rest => e.nodes ++ listNodes rest

end

theorem node_mem_nodes (e : Expr) : e.node.id ∈ e.nodes := by
  cases e <;> simp [nodes, node]

end StaticSemantics.Expr
