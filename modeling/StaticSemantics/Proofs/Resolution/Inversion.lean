import StaticSemantics.Proofs.Resolution.Outcome

/-!
What the resolution of a single name comes to. Later proofs about resolutions start from these case
distinctions and do not unfold the functions again.
-/

namespace StaticSemantics

/-- Errors that amount to a problem of their own. -/
def SymbolError.isReported : SymbolError → Bool
  | .ambiguous .. | .duplicate .. | .cyclicAlias _ => true
  | _ => false

/-- The problem of a finding stems from an error symbol. -/
def Finding.ofError (f : Finding) : Bool :=
  f.problem.id matches .ambiguousReference | .duplicateDefinition | .cyclicAlias

/-- No problem among the findings stems from an error symbol. -/
def Plain (findings : List Finding) : Prop := ∀ f ∈ findings, f.ofError = false

theorem plain_nil : Plain [] := List.forall_mem_nil _

theorem plain_singleton {f : Finding} (h : f.ofError = false) : Plain [f] := by
  simpa [Plain] using h

namespace Workspace

variable (ws : Workspace) (e : Expr) (wanted : Wanted)

theorem plain_nameProblem (bare through : ProblemId) (name : String) (type : Option TypeId)
    (hb : Finding.ofError ⟨e.node.id, .atNode bare e.node⟩ = false)
    (ht : Finding.ofError ⟨e.node.id, .atNode through e.node⟩ = false) :
    Plain [⟨e.node.id, ws.nameProblem bare through e name type⟩] := by
  refine plain_singleton ?_
  unfold nameProblem
  split
  · exact ht
  · exact hb

/-- A symbol found for a node is remembered, with a problem if it is an error that amounts to one,
or else refused. -/
theorem conclude_cases (s : Symbol) (through : Option TypeId) :
    (∃ findings, (∀ f ∈ findings, f.node = e.node.id ∧ f.ofError) ∧
        (findings ≠ [] ↔ ∃ err, s = .error err ∧ err.isReported) ∧
        ws.conclude e wanted s through =
          ⟨some s, ws.remember e.node.id wanted s, findings⟩) ∨
      ∃ findings, Plain findings ∧ ws.conclude e wanted s through = ⟨none, ws, findings⟩ := by
  unfold conclude
  split
  · rename_i err
    refine .inl ⟨_, ?_, ?_, rfl⟩
    · cases err <;> simp [errorProblem?, Finding.ofError, Problem.atNode, Problem.withVar]
    · cases err <;> simp [errorProblem?, SymbolError.isReported]
  · rename_i hs
    split
    · refine .inl ⟨[], by simp, ?_, rfl⟩
      simp only [ne_eq, not_true_eq_false, false_iff]
      rintro ⟨err, rfl, _⟩
      exact hs err rfl
    · exact .inr ⟨_, ws.plain_nameProblem e _ _ _ _ rfl rfl, rfl⟩

theorem resolveLexical_of_answer {s : Symbol} (h : ws.answer? e.node.id wanted = some s) :
    ws.resolveLexical e wanted = ws.answer s := by
  simp [resolveLexical, h]

/-- A node without an answer is refused, or concluded with what its name means in scope. -/
theorem resolveLexical_cases (h : ws.answer? e.node.id wanted = none) :
    (∃ findings, Plain findings ∧ ws.resolveLexical e wanted = ⟨none, ws, findings⟩) ∨
      ∃ name s, e.name? = some name ∧ ws.nameInScope? name wanted = some s ∧
        ws.resolveLexical e wanted = (ws.noteCapture s).conclude e wanted s none := by
  unfold resolveLexical
  rw [h]
  dsimp only
  split
  · exact .inl ⟨[], plain_nil, rfl⟩
  · rename_i name hn
    split
    · exact .inl ⟨_, plain_singleton rfl, rfl⟩
    · exact .inr ⟨name, _, hn, ‹_›, rfl⟩

variable (object : Symbol)

theorem resolveReference_of_answer {s : Symbol} (h : ws.answer? e.node.id wanted = some s) :
    ws.resolveReference object e wanted = ws.answer s := by
  simp [resolveReference, h]

theorem resolveReference_of_isError (h : ws.answer? e.node.id wanted = none)
    (ho : object.isError) : ws.resolveReference object e wanted = ws.answer object := by
  simp [resolveReference, h, ho]

/-- A node without an answer, below an object that is no error, is refused or concluded with the
member of that name. -/
theorem resolveReference_cases (h : ws.answer? e.node.id wanted = none)
    (ho : object.isError = false) :
    (∃ findings, Plain findings ∧
        ws.resolveReference object e wanted = ⟨none, ws, findings⟩) ∨
      ∃ name s through, ws.table.resolveInSymbol? object name wanted = some s ∧
        ws.resolveReference object e wanted = ws.conclude e wanted s through := by
  unfold resolveReference
  rw [h]
  dsimp only
  rw [if_neg (by simp [ho])]
  split
  · exact .inl ⟨[], plain_nil, rfl⟩
  · rename_i name hn
    split
    · exact .inl ⟨_, plain_singleton rfl, rfl⟩
    · split
      · exact .inl ⟨_, ws.plain_nameProblem e _ _ _ _ rfl rfl, rfl⟩
      · exact .inr ⟨name, _, _, ‹_›, rfl⟩

theorem resolveWithMember_of_target {v : Value} (h : ws.withTarget? = some v) :
    ws.resolveWithMember e = ws.resolveReference (.value v) e .anything := by
  simp [resolveWithMember, h]

theorem resolveWithMember_of_none (h : ws.withTarget? = none) :
    ∃ findings, Plain findings ∧ ws.resolveWithMember e = ⟨none, ws, findings⟩ := by
  unfold resolveWithMember
  rw [h]
  exact ⟨_, plain_singleton rfl, rfl⟩

end Workspace
end StaticSemantics
