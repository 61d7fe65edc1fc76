import StaticSemantics.Proofs.Closure.Session

/-!
What a session records. Of the findings of a resolution, those become problems whose nodes have none
yet, each node once; a silent context lets none through. No resolution reads what has been recorded.
-/

namespace StaticSemantics

/-- The findings that become problems, one after the other, if the given nodes have one already. -/
def unreported (seen : List Nat) : List Finding → List Finding
  | [] => []
  | f :: rest =>
    if f.node ∈ seen then unreported seen rest
    else f :: unreported (f.node :: seen) rest

section
variable (seen : List Nat) (findings : List Finding)

theorem unreported_sublist : (unreported seen findings).Sublist findings := by
  fun_induction unreported seen findings with
  | case1 => exact .slnil
  | case2 seen f rest hf ih => exact ih.cons f
  | case3 seen f rest hf ih => exact ih.cons_cons f

theorem node_notMem_of_unreported : ∀ f ∈ unreported seen findings, f.node ∉ seen := by
  fun_induction unreported seen findings with
  | case1 => exact List.forall_mem_nil _
  | case2 seen f rest hf ih => exact ih
  | case3 seen f rest hf ih =>
      refine List.forall_mem_cons.mpr ⟨hf, fun g hg hm => ?_⟩
      exact ih g hg (List.mem_cons_of_mem _ hm)

theorem nodup_unreported : ((unreported seen findings).map Finding.node).Nodup := by
  fun_induction unreported seen findings with
  | case1 => exact .nil
  | case2 seen f rest hf ih => exact ih
  | case3 seen f rest hf ih =>
      refine List.nodup_cons.mpr ⟨fun hm => ?_, ih⟩
      obtain ⟨g, hg, he⟩ := List.mem_map.mp hm
      exact node_notMem_of_unreported _ _ g hg (he ▸ List.mem_cons_self)

/-- Afterwards every node of a finding has a problem. -/
theorem node_mem_of_mem : ∀ f ∈ findings,
    f.node ∈ ((unreported seen findings).map Finding.node).reverse ++ seen := by
  fun_induction unreported seen findings with
  | case1 => exact List.forall_mem_nil _
  | case2 seen f rest hf ih => exact List.forall_mem_cons.mpr ⟨List.mem_append_right _ hf, ih⟩
  | case3 seen f rest hf ih =>
      simp only [List.map_cons, List.reverse_cons, List.append_assoc, List.singleton_append]
      exact List.forall_mem_cons.mpr ⟨List.mem_append_right _ List.mem_cons_self, ih⟩

theorem unreported_eq_nil_iff : unreported seen findings = [] ↔ ∀ f ∈ findings, f.node ∈ seen := by
  fun_induction unreported seen findings with
  | case1 => simp
  | case2 seen f rest hf ih => simp [ih, hf]
  | case3 seen f rest hf ih => simp [hf]

theorem unreported_append (more : List Finding) : unreported seen (findings ++ more) =
    unreported seen findings ++
      unreported (((unreported seen findings).map Finding.node).reverse ++ seen) more := by
  fun_induction unreported seen findings with
  | case1 => rfl
  | case2 seen f rest hf ih => simpa [unreported, hf] using ih
  | case3 seen f rest hf ih => simpa [unreported, hf] using ih

/-- What is found again adds nothing. -/
theorem unreported_again {again : List Finding} (h : again ⊆ findings) :
    unreported seen (findings ++ again) = unreported seen findings := by
  have hn := fun f hf => node_mem_of_mem seen findings f (h hf)
  rw [unreported_append, (unreported_eq_nil_iff _ again).mpr hn, List.append_nil]

/-- Nodes at which nothing is found do not matter. -/
theorem unreported_append_seen {others : List Nat} (h : ∀ f ∈ findings, f.node ∉ others) :
    unreported (seen ++ others) findings = unreported seen findings := by
  fun_induction unreported seen findings with
  | case1 => rfl
  | case2 seen f rest hf ih =>
      rw [unreported, if_pos (List.mem_append_left _ hf)]
      exact ih fun g hg => h g (List.mem_cons_of_mem _ hg)
  | case3 seen f rest hf ih =>
      rw [unreported, if_neg (by simpa using ⟨hf, h f List.mem_cons_self⟩)]
      exact congrArg (f :: ·) (ih fun g hg => h g (List.mem_cons_of_mem _ hg))

end

namespace Session

/-- The session with the findings among its problems. -/
def record (s : Session) (findings : List Finding) : Session :=
  { s with
    problems := s.problems ++ findings.map Finding.problem
    reported := (findings.map Finding.node).reverse ++ s.reported }

/-- The findings that become problems under a context. -/
def recordable (s : Session) (ctx : Context) (findings : List Finding) : List Finding :=
  if ctx.report then unreported s.reported findings else []

theorem recordable_once (s : Session) (ctx : Context) (findings : List Finding) :
    ((s.recordable ctx findings).map Finding.node).Nodup ∧
      ∀ f ∈ s.recordable ctx findings, f.node ∉ s.reported := by
  unfold recordable
  cases ctx.report with
  | true => exact ⟨nodup_unreported _ _, node_notMem_of_unreported _ _⟩
  | false => exact ⟨.nil, List.forall_mem_nil _⟩

theorem foldl_note (s : Session) (findings : List Finding) :
    findings.foldl note s = s.record (unreported s.reported findings) := by
  induction findings generalizing s with
  | nil => simp [unreported, record]
  | cons f rest ih =>
      rw [List.foldl_cons, ih]
      by_cases hf : f.node ∈ s.reported
      · simp [note, unreported, hf]
      · simp [note, unreported, hf, record]

/-- A query takes over the workspace of its outcome and records what its context lets through. -/
theorem run_eq_record (q : Query) (s : Session) (ctx : Context) :
    q.run s ctx = ((q.outcome s.workspace).result,
      { s with workspace := (q.outcome s.workspace).workspace }.record
        (s.recordable ctx (q.outcome s.workspace).findings)) := by
  rw [q.run_eq_accept]
  unfold accept recordable
  split
  · simp only [foldl_note]
  · simp [record]

/-! ## The record of a run -/

def recordedBy (s : Session) : Operation → List Finding
  | .query q ctx => s.recordable ctx (q.outcome s.workspace).findings
  | _ => []

def takenBy (s : Session) : Operation → List Problem
  | .takeProblems => s.takeProblems.1
  | _ => []

/-- All findings recorded in a run, the oldest first. -/
def log (s : Session) : List Operation → List Finding
  | [] => []
  | op :: ops => s.recordedBy op ++ (s.perform op).log ops

/-- All problems taken away in a run, the oldest first. -/
def taken (s : Session) : List Operation → List Problem
  | [] => []
  | op :: ops => s.takenBy op ++ (s.perform op).taken ops

variable (s : Session)

theorem reported_perform (op : Operation) :
    (s.perform op).reported = ((s.recordedBy op).map Finding.node).reverse ++ s.reported := by
  cases op with
  | query q ctx =>
      simp only [perform, run_eq_record]
      rfl
  | edit | enter | leave | takeProblems => rfl

theorem takenBy_append_problems (op : Operation) :
    s.takenBy op ++ (s.perform op).problems =
      s.problems ++ (s.recordedBy op).map Finding.problem := by
  cases op with
  | query q ctx =>
      simp only [perform, run_eq_record]
      rfl
  | takeProblems => rfl
  | edit | enter | leave => exact (List.append_nil _).symm

theorem recordedBy_once (op : Operation) : ((s.recordedBy op).map Finding.node).Nodup ∧
    ∀ f ∈ s.recordedBy op, f.node ∉ s.reported := by
  cases op with
  | query q ctx => exact s.recordable_once ctx _
  | edit | enter | leave | takeProblems => exact ⟨.nil, List.forall_mem_nil _⟩

/-- What is recorded in a run is taken away in it or is still there. -/
theorem taken_append_problems (ops : List Operation) :
    s.taken ops ++ (s.performAll ops).problems = s.problems ++ (s.log ops).map Finding.problem := by
  induction ops generalizing s with
  | nil => exact (List.append_nil _).symm
  | cons op ops ih =>
      calc
        s.taken (op :: ops) ++ (s.performAll (op :: ops)).problems
          = s.takenBy op ++
              ((s.perform op).taken ops ++ ((s.perform op).performAll ops).problems) :=
            List.append_assoc _ _ _
        _ = s.takenBy op ++ (s.perform op).problems ++
              ((s.perform op).log ops).map Finding.problem := by rw [ih, List.append_assoc]
        _ = s.problems ++ (s.log (op :: ops)).map Finding.problem := by
            rw [s.takenBy_append_problems, log, List.map_append, List.append_assoc]

/-- The nodes that have a problem after a run are those that it records and those from before. -/
theorem reported_performAll (ops : List Operation) :
    (s.performAll ops).reported = ((s.log ops).map Finding.node).reverse ++ s.reported := by
  induction ops generalizing s with
  | nil => rfl
  | cons op ops ih =>
      calc
        (s.performAll (op :: ops)).reported
          = (((s.perform op).log ops).map Finding.node).reverse ++ (s.perform op).reported :=
            ih (s.perform op)
        _ = ((s.log (op :: ops)).map Finding.node).reverse ++ s.reported := by
            rw [s.reported_perform, log, List.map_append, List.reverse_append, List.append_assoc]

/-- A run records no node twice, and none that had a problem before. -/
theorem log_once (ops : List Operation) : ((s.log ops).map Finding.node).Nodup ∧
    ∀ f ∈ s.log ops, f.node ∉ s.reported := by
  induction ops generalizing s with
  | nil => exact ⟨.nil, List.forall_mem_nil _⟩
  | cons op ops ih =>
      obtain ⟨hn, hf⟩ := ih (s.perform op)
      obtain ⟨hn', hf'⟩ := s.recordedBy_once op
      rw [s.reported_perform op] at hf
      simp only [List.mem_append, List.mem_reverse, not_or] at hf
      constructor
      · rw [log, List.map_append]
        refine List.nodup_append.mpr ⟨hn', hn, ?_⟩
        rintro _ ha _ hb rfl
        obtain ⟨g, hg, he⟩ := List.mem_map.mp hb
        exact (hf g hg).1 (he ▸ ha)
      · intro f hm
        rcases List.mem_append.mp hm with hm | hm
        · exact hf' f hm
        · exact (hf f hm).2

/-- Recording has no effect on resolution. Two sessions that differ in their records only, under any
two contexts, answer a query alike and still differ in their records only. From a fresh session on,
no node accounts for two of the problems that were recorded, whether they are still there or have
been taken away; the nodes that account for one are those noted as reported. Under a silent context
a query records nothing. -/
theorem reporting_observes :
    (∀ (q : Query) (s : Session) (problems : List Problem) (reported : List Nat)
        (ctx ctx' : Context),
      (q.run { s with problems, reported } ctx').1 = (q.run s ctx).1 ∧
      ∃ problems' reported',
        (q.run { s with problems, reported } ctx').2 =
          { (q.run s ctx).2 with problems := problems', reported := reported' }) ∧
    (∀ (reporting verbose : Bool) (interner : Interner) (ops : List Operation),
      let s : Session := .start (.initial interner) reporting verbose
      s.taken ops ++ (s.performAll ops).problems = (s.log ops).map Finding.problem ∧
      (s.performAll ops).reported = ((s.log ops).map Finding.node).reverse ∧
      ((s.log ops).map Finding.node).Nodup) ∧
    ∀ (q : Query) (s : Session) (ctx : Context),
      (q.run s { ctx with report := false }).2.problems = s.problems ∧
      (q.run s { ctx with report := false }).2.reported = s.reported := by
  refine ⟨fun q s problems reported ctx ctx' => ?_, fun reporting verbose interner ops => ?_,
    fun q s ctx => ?_⟩
  · rw [run_eq_record, run_eq_record]
    exact ⟨rfl, _, _, rfl⟩
  · refine ⟨taken_append_problems _ ops, ?_, (log_once _ ops).1⟩
    exact (reported_performAll _ ops).trans (List.append_nil _)
  · simp [run_eq_record, recordable, record]

end Session
end StaticSemantics
