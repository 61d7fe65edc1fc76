import StaticSemantics.Proofs.Reporting.Rerun

/-!
A silent pass before the pass that reports. The later pass has the answer that it would have had
without the silent one. It finds again what was wrong with an expression, except where a name turned
out to be an error symbol: that symbol is remembered as the answer, and its problem is found only by
the pass that remembers it.
-/

namespace StaticSemantics

/-- Problems of error symbols tell the findings with them from those without, unless their nodes
have a problem already. -/
theorem map_problem_unreported_iff {seen : List Nat} {errors plain : List Finding}
    (he : ∀ f ∈ errors, f.ofError) (hp : Plain plain) :
    (unreported seen plain).map Finding.problem =
        (unreported seen (errors ++ plain)).map Finding.problem ↔
      ∀ f ∈ errors, f.node ∈ seen := by
  rw [← unreported_eq_nil_iff, unreported_append]
  constructor
  · intro h
    refine List.eq_nil_iff_forall_not_mem.mpr fun g hg => ?_
    have hm : g.problem ∈ (unreported seen plain).map Finding.problem := by
      rw [h]
      exact List.mem_map_of_mem (List.mem_append_left _ hg)
    obtain ⟨f, hf, hfg⟩ := List.mem_map.mp hm
    have hg' : g.ofError := he g ((unreported_sublist seen errors).subset hg)
    have hf' : f.ofError = false := hp f ((unreported_sublist seen plain).subset hf)
    unfold Finding.ofError at hf' hg'
    rw [hfg, hg'] at hf'
    cases hf'
  · intro h
    simp [h]

namespace Session

variable {s : Session}

theorem run_silent (q : Query) (s : Session) (ctx : Context) :
    q.run s { ctx with report := false } =
      ((q.outcome s.workspace).result,
        { s with workspace := (q.outcome s.workspace).workspace }) := by
  rw [run_eq_record]
  simp [recordable]

theorem run_loud (q : Query) (s : Session) (ctx : Context) :
    q.run s { ctx with report := true } =
      ((q.outcome s.workspace).result,
        { s with workspace := (q.outcome s.workspace).workspace }.record
          (unreported s.reported (q.outcome s.workspace).findings)) := by
  rw [run_eq_record]
  simp [recordable]

/-- In every session that admitted operations lead to, a query over distinct nodes that is first
made silently has the same answer, and leaves the same workspace, as one that reports from the
start. It leaves the same problems exactly if every node at which the silent pass remembers an error
symbol of the reported kind has a problem already; the problem of any other such node is lost. -/
theorem silentPass_problems_iff (h : Reachable (fun _ => true) s) (q : Query)
    (hn : q.expr.nodes.Nodup) (ctx : Context) :
    let once := q.run s { ctx with report := true }
    let later := q.run (q.run s { ctx with report := false }).2 { ctx with report := true }
    later.1 = once.1 ∧ later.2.workspace = once.2.workspace ∧
      (later.2.problems = once.2.problems ↔
        ∀ node, s.workspace.FreshError once.2.workspace node → node ∈ s.reported) := by
  obtain ⟨plain, ⟨errors, hf, he⟩, hp, hr⟩ := q.outcome_repeats h.closed hn
  have ht := (q.outcome_traces s.workspace).errors
  simp only [run_silent, run_loud, hr, true_and]
  refine ⟨rfl, ?_⟩
  have hlost : (∀ f ∈ errors, f.node ∈ s.reported) ↔
      ∀ node, s.workspace.FreshError (q.outcome s.workspace).workspace node →
        node ∈ s.reported := by
    constructor
    · intro hm node hfresh
      obtain ⟨f, hff, rfl, hfe⟩ := (ht node).mpr hfresh
      rw [hf, List.mem_append] at hff
      refine hm f (hff.resolve_right fun hfp => ?_)
      rw [hp f hfp] at hfe
      cases hfe
    · intro hm f hff
      refine hm f.node ((ht f.node).mp ⟨f, ?_, rfl, he f hff⟩)
      rw [hf]
      exact List.mem_append_left plain hff
  refine Iff.trans ?_ hlost
  rw [← map_problem_unreported_iff he hp, hf]
  exact List.append_right_inj s.problems

/-- The ambiguity of a name is reported at once, and never after a silent pass. -/
theorem silentPass_ambiguousQuery :
    let s : Session := performAll {} ambiguousImports
    let once := ambiguousQuery.run s { report := true }
    let later := ambiguousQuery.run (ambiguousQuery.run s { report := false }).2 { report := true }
    Session.Admits (fun _ => true) {} ambiguousImports ∧ ambiguousQuery.expr.nodes.Nodup ∧
      later.1 = once.1 ∧ once.2.problems.map Problem.id = [.ambiguousReference] ∧
      later.2.problems = [] ∧
      ¬ ∀ node, s.workspace.FreshError once.2.workspace node → node ∈ s.reported := by
  have ha : Session.Admits (fun _ => true) {} ambiguousImports := by decide +kernel
  have hn : ambiguousQuery.expr.nodes.Nodup := by decide +kernel
  have hiff :=
    silentPass_problems_iff (Reachable.new.performAll ha) ambiguousQuery hn {}
  dsimp only at hiff ⊢
  obtain ⟨hr, -, hp⟩ := hiff
  exact ⟨ha, hn, hr, by decide +kernel, by decide +kernel, mt hp.mpr (by decide +kernel)⟩

end Session
end StaticSemantics
