import StaticSemantics.Proofs.Reporting.Recording
import StaticSemantics.Proofs.Resolution.Replay

/-!
Making a query again. An answer, once remembered, outlives every operation. So a query that is made
twice in a row answers alike, and the second time the session stays as it is: what is found again
has been recorded, unless nothing may be.
-/

namespace StaticSemantics.Session

variable {s : Session}

@[simp] theorem record_nil (s : Session) : s.record [] = s := by simp [record]

theorem recordable_eq_nil {findings : List Finding} (ctx : Context)
    (h : ∀ f ∈ findings, f.node ∈ s.reported) : s.recordable ctx findings = [] := by
  unfold recordable
  split
  · exact (unreported_eq_nil_iff _ _).mpr h
  · rfl

/-- A query whose outcome leaves the workspace alone, and finds nothing new, has no effect. -/
theorem run_eq_self {q : Query} {r : Option q.Answer} {findings : List Finding} (ctx : Context)
    (ho : q.outcome s.workspace = ⟨r, s.workspace, findings⟩)
    (hf : s.recordable ctx findings = []) : q.run s ctx = (r, s) := by
  rw [run_eq_record, ho]
  dsimp only
  rw [hf, record_nil]

/-- After a query everything that it found is of no interest under the same context. -/
theorem recordable_run (q : Query) (ctx : Context) {findings : List Finding}
    (h : findings ⊆ (q.outcome s.workspace).findings) :
    (q.run s ctx).2.recordable ctx findings = [] := by
  cases hr : ctx.report with
  | false => simp [recordable, hr]
  | true =>
      refine recordable_eq_nil ctx fun f hf => ?_
      rw [run_eq_record]
      simp only [record, recordable, hr, if_true]
      exact node_mem_of_mem _ _ f (h hf)

theorem run_run (h : s.workspace.Closed) {q : Query} (hn : q.expr.nodes.Nodup) (ctx : Context) :
    q.run (q.run s ctx).2 ctx = q.run s ctx := by
  obtain ⟨plain, ⟨errors, hf, -⟩, -, hr⟩ := q.outcome_repeats h hn
  have ho : q.outcome (q.run s ctx).2.workspace =
      ⟨(q.outcome s.workspace).result, (q.run s ctx).2.workspace, plain⟩ := by
    rw [workspace_run]
    exact hr
  have hp : plain ⊆ (q.outcome s.workspace).findings := by
    rw [hf]
    exact List.subset_append_right errors plain
  rw [run_eq_self ctx ho (recordable_run q ctx hp), run_eq_record q s ctx]

/-! ## Remembered answers -/

variable {node : Nat} {wanted : Wanted} {a : Symbol}

/-- No operation takes an answer back or replaces it. -/
theorem answer?_perform (h : s.workspace.answer? node wanted = some a) (op : Operation) :
    (s.perform op).workspace.answer? node wanted = some a := by
  cases op with
  | query q ctx =>
      simp only [perform, workspace_run]
      exact (q.outcome_traces s.workspace).evolves.kept node wanted a h
  | edit | enter | leave | takeProblems => exact h

theorem answer?_performAll (h : s.workspace.answer? node wanted = some a) (ops : List Operation) :
    (s.performAll ops).workspace.answer? node wanted = some a := by
  induction ops generalizing s with
  | nil => exact h
  | cons op ops ih => exact ih (answer?_perform h op)

theorem run_lexical_of_answer {e : Expr} (h : s.workspace.answer? e.node.id wanted = some a)
    (ctx : Context) : (Query.lexical e wanted).run s ctx = (some a, s) :=
  run_eq_self ctx (s.workspace.resolveLexical_of_answer e wanted h)
    (recordable_eq_nil ctx (List.forall_mem_nil _))

theorem run_reference_of_answer {e : Expr} (h : s.workspace.answer? e.node.id wanted = some a)
    (object : Symbol) (ctx : Context) :
    (Query.reference object e wanted).run s ctx = (some a, s) :=
  run_eq_self ctx (s.workspace.resolveReference_of_answer e wanted object h)
    (recordable_eq_nil ctx (List.forall_mem_nil _))

/-- In every session that admitted operations lead to, a query over distinct nodes that is made
again has the same answer and changes nothing at all. An answer remembered in the session stays
through any further operations, and from then on looking up its node gives it at once, without
effect. -/
theorem rerun_changes_nothing (h : Reachable (fun _ => true) s) :
    (∀ (q : Query) (ctx : Context), q.expr.nodes.Nodup →
      q.run (q.run s ctx).2 ctx = q.run s ctx) ∧
    ∀ (node : Nat) (wanted : Wanted) (a : Symbol), s.workspace.answer? node wanted = some a →
      ∀ ops : List Operation,
        (s.performAll ops).workspace.answer? node wanted = some a ∧
        ∀ (e : Expr) (ctx : Context), e.node.id = node →
          (Query.lexical e wanted).run (s.performAll ops) ctx = (some a, s.performAll ops) ∧
          ∀ object : Symbol, (Query.reference object e wanted).run (s.performAll ops) ctx =
            (some a, s.performAll ops) := by
  refine ⟨fun q ctx hn => run_run h.closed hn ctx, fun node wanted a ha ops => ?_⟩
  have hk := answer?_performAll ha ops
  refine ⟨hk, fun e ctx he => ?_⟩
  subst he
  exact ⟨run_lexical_of_answer hk ctx, fun object => run_reference_of_answer hk object ctx⟩

/-- A frame with two imported modules that both define a name. -/
def ambiguousImports : List Operation :=
  [.edit (.addModule "Left"), .edit (.addModule "Right"), .edit (.addVariable "size" false none),
    .edit (.addVariable "size" false none), .edit (.define (.module ⟨3⟩) "size" (.slot ⟨0⟩)),
    .edit (.define (.module ⟨4⟩) "size" (.slot ⟨1⟩)), .edit (.addFrame (.activation none [])),
    .edit (.importModule ⟨0⟩ ⟨3⟩), .edit (.importModule ⟨0⟩ ⟨4⟩), .enter ⟨0⟩]

/-- The resolution of that name. -/
def ambiguousQuery : Query := .member (.ident { id := 1 } "size") .anything

theorem rerun_ambiguousQuery :
    let s : Session := performAll {} (ambiguousImports ++ [.query ambiguousQuery {}])
    let error : Symbol := .error (.ambiguous "size" [⟨3⟩, ⟨4⟩])
    Session.Admits (fun _ => true) {} (ambiguousImports ++ [.query ambiguousQuery {}]) ∧
      ambiguousQuery.expr.nodes.Nodup ∧ s.problems.length = 1 ∧
      ambiguousQuery.run (ambiguousQuery.run s {}).2 {} = ambiguousQuery.run s {} ∧
      s.workspace.answer? 1 .anything = some error ∧
      ∀ ops, (s.performAll ops).workspace.answer? 1 .anything = some error := by
  have ha : Session.Admits (fun _ => true) {} (ambiguousImports ++ [.query ambiguousQuery {}]) := by
    decide +kernel
  obtain ⟨hr, hk⟩ := rerun_changes_nothing (Reachable.new.performAll ha)
  have hn : ambiguousQuery.expr.nodes.Nodup := by decide +kernel
  have he : (performAll {} (ambiguousImports ++ [.query ambiguousQuery {}])).workspace.answer? 1
      .anything = some (.error (.ambiguous "size" [⟨3⟩, ⟨4⟩])) := by decide +kernel
  exact ⟨ha, hn, by decide +kernel, hr ambiguousQuery {} hn, he, fun ops => (hk 1 _ _ he ops).1⟩

end StaticSemantics.Session
