import StaticSemantics.Proofs.Expression
import StaticSemantics.Proofs.Operation
import StaticSemantics.Proofs.Resolution.Growth
import StaticSemantics.Proofs.Resolution.Inversion

/-!
What a resolution does to a workspace. Answers are written once, and only at nodes of the expression
that is resolved; declarations only grow. The problems that stem from failed look-ups belong to the
nodes for which such a failure is remembered.
-/

namespace StaticSemantics

namespace Workspace

variable {ws ws' ws'' : Workspace}

theorem answer?_remember (ws : Workspace) (node n : Nat) (wanted m : Wanted) (s : Symbol) :
    (ws.remember node wanted s).answer? n m =
      if n = node ∧ m = wanted then some s else ws.answer? n m := by
  unfold remember answer?
  rw [List.find?_cons]
  by_cases h : n = node ∧ m = wanted
  · obtain ⟨rfl, rfl⟩ := h
    simp
  · have : ¬ (node, wanted) = (n, m) := fun e => h (by simp_all)
    simp [this, h]

/-- An error that amounts to a problem has been remembered for the node on the way. -/
def FreshError (ws ws' : Workspace) (node : Nat) : Prop :=
  ∃ wanted err, ws.answer? node wanted = none ∧ ws'.answer? node wanted = some (.error err) ∧
    err.isReported

/-- `ws'` comes from `ws` by answers at the given nodes, and by growth of the declarations. -/
structure Evolves (nodes : List Nat) (ws ws' : Workspace) : Prop where
  entered : ws'.entered = ws.entered
  table : ws.table.Grows ws'.table
  kept : ∀ n m s, ws.answer? n m = some s → ws'.answer? n m = some s
  outside : ∀ n ∉ nodes, ∀ m, ws'.answer? n m = ws.answer? n m

namespace Evolves

variable {nodes nodes' : List Nat}

theorem refl (nodes : List Nat) (ws : Workspace) : ws.Evolves nodes ws :=
  ⟨rfl, .refl _, fun _ _ _ h => h, fun _ _ _ => rfl⟩

theorem mono (h : ws.Evolves nodes ws') (hn : nodes ⊆ nodes') : ws.Evolves nodes' ws' :=
  ⟨h.entered, h.table, h.kept, fun n hnn => h.outside n fun hm => hnn (hn hm)⟩

theorem trans (h : ws.Evolves nodes ws') (h' : ws'.Evolves nodes ws'') : ws.Evolves nodes ws'' :=
  ⟨h'.entered.trans h.entered, h.table.trans h'.table,
    fun n m s hs => h'.kept n m s (h.kept n m s hs),
    fun n hn m => (h'.outside n hn m).trans (h.outside n hn m)⟩

theorem of_table {table : SymbolTable} (nodes : List Nat) (h : ws.table.Grows table) :
    ws.Evolves nodes { ws with table } :=
  ⟨rfl, h, fun _ _ _ h => h, fun _ _ _ => rfl⟩

theorem remember {node : Nat} {wanted : Wanted} (hn : ws.answer? node wanted = none) (s : Symbol) :
    ws.Evolves [node] (ws.remember node wanted s) := by
  refine ⟨rfl, .refl _, fun n m s' hs => ?_, fun n hnn m => ?_⟩
  · rw [answer?_remember, if_neg]
    · exact hs
    · rintro ⟨rfl, rfl⟩
      rw [hn] at hs
      cases hs
  · rw [answer?_remember, if_neg]
    exact fun e => hnn (by simp [e.1])

/-- Errors are remembered in the first part of the way or in the second. -/
theorem freshError_trans (h : ws.Evolves nodes ws') (h' : ws'.Evolves nodes' ws'') (n : Nat) :
    ws.FreshError ws'' n ↔ ws.FreshError ws' n ∨ ws'.FreshError ws'' n := by
  constructor
  · rintro ⟨m, err, hn, hs, hr⟩
    cases hw : ws'.answer? n m with
    | none => exact .inr ⟨m, err, hw, hs, hr⟩
    | some s =>
        have := h'.kept n m s hw
        rw [hs] at this
        cases this
        exact .inl ⟨m, err, hn, hw, hr⟩
  · rintro (⟨m, err, hn, hs, hr⟩ | ⟨m, err, hn, hs, hr⟩)
    · exact ⟨m, err, hn, h'.kept n m _ hs, hr⟩
    · refine ⟨m, err, ?_, hs, hr⟩
      cases hw : ws.answer? n m with
      | none => rfl
      | some s =>
          rw [h.kept n m s hw] at hn
          cases hn

end Evolves

theorem not_freshError_self (ws : Workspace) (n : Nat) : ¬ ws.FreshError ws n := by
  rintro ⟨m, err, hn, hs, _⟩
  rw [hn] at hs
  cases hs

end Workspace

/-! ## Outcomes -/

/-- The outcome, started in `ws`, writes at the given nodes only, and finds the problems of the
errors that it remembers. -/
structure Outcome.Traces {α : Type} (nodes : List Nat) (ws : Workspace) (o : Outcome α) : Prop where
  evolves : ws.Evolves nodes o.workspace
  errors : ∀ n, (∃ f ∈ o.findings, f.node = n ∧ f.ofError) ↔ ws.FreshError o.workspace n

namespace Outcome.Traces

variable {α β : Type} {nodes nodes' : List Nat} {ws : Workspace} {o : Outcome α}

theorem mono (h : o.Traces nodes ws) (hn : nodes ⊆ nodes') : o.Traces nodes' ws :=
  ⟨h.evolves.mono hn, h.errors⟩

/-- Nothing is remembered and no error is found. -/
theorem stay {r : Option α} {findings : List Finding} (nodes : List Nat) (ws : Workspace)
    (hf : Plain findings) : Outcome.Traces nodes ws ⟨r, ws, findings⟩ := by
  refine ⟨.refl nodes ws, fun n => ⟨?_, fun h => absurd h (ws.not_freshError_self n)⟩⟩
  rintro ⟨f, hm, _, he⟩
  rw [hf f hm] at he
  cases he

theorem answer (nodes : List Nat) (ws : Workspace) (a : α) : (ws.answer a).Traces nodes ws :=
  .stay nodes ws plain_nil

theorem refuse (nodes : List Nat) (ws : Workspace) :
    (ws.refuse : Outcome α).Traces nodes ws :=
  .stay nodes ws plain_nil

theorem fail (nodes : List Nat) (ws : Workspace) (e : Expr) {p : Problem}
    (hp : Finding.ofError ⟨e.node.id, p⟩ = false) : (ws.fail e p : Outcome α).Traces nodes ws :=
  .stay nodes ws (plain_singleton hp)

theorem before {next : Option α → Workspace → Outcome β} (h : o.Traces nodes ws)
    (hn : (next o.result o.workspace).Traces nodes o.workspace) :
    (o.before next).Traces nodes ws := by
  refine ⟨h.evolves.trans hn.evolves, fun n => ?_⟩
  have hs := h.evolves.freshError_trans hn.evolves n
  show (∃ f ∈ o.findings ++ (next o.result o.workspace).findings, _) ↔
    ws.FreshError (next o.result o.workspace).workspace n
  rw [hs, ← h.errors, ← hn.errors]
  simp only [List.mem_append, or_and_right, exists_or]

theorem andThen {next : α → Workspace → Outcome β} (h : o.Traces nodes ws)
    (hn : ∀ a, (next a o.workspace).Traces nodes o.workspace) :
    (o.andThen next).Traces nodes ws := by
  refine h.before ?_
  split
  · exact hn _
  · exact .refuse nodes _

end Outcome.Traces

/-! ## Names -/

namespace Workspace

variable {ws : Workspace}

theorem conclude_traces {e : Expr} {wanted : Wanted} (hn : ws.answer? e.node.id wanted = none)
    (s : Symbol) (through : Option TypeId) :
    (ws.conclude e wanted s through).Traces [e.node.id] ws := by
  rcases ws.conclude_cases e wanted s through with ⟨findings, hf, he, hc⟩ | ⟨findings, hf, hc⟩
  · rw [hc]
    refine ⟨.remember hn s, fun n => ⟨?_, ?_⟩⟩
    · rintro ⟨f, hm, rfl, _⟩
      obtain ⟨err, rfl, hr⟩ := he.mp (List.ne_nil_of_mem hm)
      refine ⟨wanted, err, (hf f hm).1 ▸ hn, ?_, hr⟩
      simp [answer?_remember, (hf f hm).1]
    · rintro ⟨m, err, hn', hs', hr⟩
      rw [answer?_remember] at hs'
      split at hs'
      · rename_i h
        cases hs'
        obtain ⟨f, hm⟩ := List.exists_mem_of_ne_nil _ (he.mpr ⟨err, rfl, hr⟩)
        exact ⟨f, hm, (hf f hm).1.trans h.1.symm, (hf f hm).2⟩
      · rw [hn'] at hs'
        cases hs'
  · rw [hc]
    exact .stay _ ws hf

@[simp] theorem answer?_noteCapture (ws : Workspace) (s : Symbol) (n : Nat) (m : Wanted) :
    (ws.noteCapture s).answer? n m = ws.answer? n m := by
  unfold noteCapture
  split
  · split <;> rfl
  · rfl

theorem evolves_noteCapture (ws : Workspace) (s : Symbol) (nodes : List Nat) :
    ws.Evolves nodes (ws.noteCapture s) := by
  unfold noteCapture
  split
  · split
    · exact .of_table nodes (.capture _ _)
    · exact .refl nodes ws
  · exact .refl nodes ws

theorem resolveLexical_traces (ws : Workspace) (e : Expr) (wanted : Wanted) :
    (ws.resolveLexical e wanted).Traces [e.node.id] ws := by
  cases ha : ws.answer? e.node.id wanted with
  | some s =>
      rw [ws.resolveLexical_of_answer e wanted ha]
      exact .answer _ ws s
  | none =>
      rcases ws.resolveLexical_cases e wanted ha with ⟨findings, hf, hr⟩ | ⟨name, s, _, _, hr⟩
      · rw [hr]
        exact .stay _ ws hf
      · have hc := ws.evolves_noteCapture s [e.node.id]
        have ha' : (ws.noteCapture s).answer? e.node.id wanted = none := by
          rw [answer?_noteCapture]
          exact ha
        have ht := conclude_traces ha' s none
        rw [hr]
        refine ⟨hc.trans ht.evolves, fun n => ?_⟩
        rw [ht.errors, FreshError, FreshError]
        simp only [answer?_noteCapture]

theorem resolveReference_traces (ws : Workspace) (object : Symbol) (e : Expr) (wanted : Wanted) :
    (ws.resolveReference object e wanted).Traces [e.node.id] ws := by
  cases ha : ws.answer? e.node.id wanted with
  | some s =>
      rw [ws.resolveReference_of_answer e wanted object ha]
      exact .answer _ ws s
  | none =>
      cases ho : object.isError with
      | true =>
          rw [ws.resolveReference_of_isError e wanted object ha ho]
          exact .answer _ ws object
      | false =>
          rcases ws.resolveReference_cases e wanted object ha ho with
            ⟨findings, hf, hr⟩ | ⟨name, s, through, _, hr⟩
          · rw [hr]
            exact .stay _ ws hf
          · rw [hr]
            exact conclude_traces ha s through

theorem resolveWithMember_traces (ws : Workspace) (e : Expr) :
    (ws.resolveWithMember e).Traces [e.node.id] ws := by
  cases hv : ws.withTarget? with
  | none =>
      obtain ⟨findings, hf, hr⟩ := ws.resolveWithMember_of_none e hv
      rw [hr]
      exact .stay _ ws hf
  | some v =>
      rw [ws.resolveWithMember_of_target e hv]
      exact ws.resolveReference_traces _ e _

theorem resolveMember_traces (ws : Workspace) (wanted : Wanted) (e : Expr) :
    (ws.resolveMember wanted e).Traces e.nodes ws := by
  induction e generalizing wanted with
  | ident node name => exact ws.resolveLexical_traces (.ident node name) wanted
  | member node base name ih =>
      refine ((ih .anything).mono (by simp [Expr.nodes])).andThen fun object => ?_
      exact (resolveReference_traces _ object _ wanted).mono (by simp [Expr.nodes, Expr.node])
  | withMember node name => exact ws.resolveWithMember_traces (.withMember node name)
  | parens node inner ih => exact (ih wanted).mono (by simp [Expr.nodes])
  | literal | unary | binary | nullable | tuple => exact .refuse _ ws

/-! ## Types -/

theorem resolveTypeName_traces (ws : Workspace) (e : Expr) :
    (ws.resolveTypeName e).Traces e.nodes ws := by
  refine (ws.resolveMember_traces .typeOrModule e).andThen fun s => ?_
  split
  · exact .answer _ _ _
  · exact .refuse _ _
  · exact .fail _ _ e rfl

theorem resolveTypes_traces {l : List Expr} (ws : Workspace)
    (hl : ∀ e ∈ l, ∀ ws : Workspace, (ws.resolveType e).Traces e.nodes ws) :
    (ws.resolveTypes l).Traces (Expr.listNodes l) ws := by
  induction l generalizing ws with
  | nil => exact .answer _ ws _
  | cons e rest ih =>
      refine ((hl e List.mem_cons_self ws).mono (by simp [Expr.listNodes])).andThen fun t => ?_
      have hr := ih (ws.resolveType e).workspace fun e' he' => hl e' (List.mem_cons_of_mem _ he')
      refine (hr.mono (by simp [Expr.listNodes])).andThen fun ts => ?_
      exact .answer _ _ _

/-- Goes on with a type from a table that has grown. -/
theorem answer_traces (nodes : List Nat) {table : SymbolTable} (h : ws.table.Grows table)
    (t : TypeId) : ({ ws with table }.answer t).Traces nodes ws := by
  refine ⟨.of_table nodes h, fun n => ⟨by simp [answer], ?_⟩⟩
  exact fun hf => absurd hf (ws.not_freshError_self n)

theorem resolveType_traces (ws : Workspace) (e : Expr) : (ws.resolveType e).Traces e.nodes ws := by
  induction e generalizing ws with
  | ident | member => exact ws.resolveTypeName_traces _
  | nullable node inner ih =>
      refine ((ih ws).mono (by simp [Expr.nodes])).andThen fun t => ?_
      exact answer_traces _ (.addNullable t) _
  | tuple node elements ih =>
      refine ((ws.resolveTypes_traces fun e he ws => ih e he ws).mono
        (by simp [Expr.nodes])).andThen fun ts => ?_
      exact answer_traces _ (.addTuple ts) _
  | parens node inner ih => exact (ih ws).mono (by simp [Expr.nodes])
  | withMember | literal | unary | binary => exact .fail _ ws _ rfl

/-! ## Constants -/

theorem answerConstant_traces (nodes : List Nat) (ws : Workspace) (e : Expr) (v : Option Value) :
    (ws.answerConstant e v).Traces nodes ws := by
  cases v with
  | none => exact .fail _ ws e rfl
  | some v => exact .answer _ ws v

theorem resolveConstantName_traces (ws : Workspace) (e : Expr) :
    (ws.resolveConstantName e).Traces e.nodes ws :=
  (ws.resolveMember_traces .anything e).andThen fun _ => answerConstant_traces _ _ e _

theorem resolveConstantMember_traces (ws : Workspace) (node : Node) (base : Expr) (name : String) :
    (ws.resolveConstantMember (.member node base name) base name).Traces
      (Expr.member node base name).nodes ws := by
  refine ((ws.resolveMember_traces .anything base).mono (by simp [Expr.nodes])).before ?_
  split
  · exact .answer _ _ _
  · exact resolveConstantName_traces _ _

theorem resolveConstant_traces (ws : Workspace) (e : Expr) :
    (ws.resolveConstant e).Traces e.nodes ws := by
  induction e generalizing ws with
  | ident | withMember => exact ws.resolveConstantName_traces _
  | member node base name => exact ws.resolveConstantMember_traces node base name
  | literal node l => exact .answer _ ws _
  | parens node inner ih => exact (ih ws).mono (by simp [Expr.nodes])
  | unary node op operand ih =>
      refine ((ih ws).mono (by simp [Expr.nodes])).andThen fun v => ?_
      exact answerConstant_traces _ _ _ _
  | binary node op left right ihl ihr =>
      refine ((ihl ws).mono (by simp [Expr.nodes])).andThen fun v => ?_
      refine ((ihr _).mono (by simp [Expr.nodes])).andThen fun u => ?_
      exact answerConstant_traces _ _ _ _
  | nullable | tuple => exact .fail _ ws _ rfl

theorem resolveConstantAs_traces (ws : Workspace) (e : Expr) (t : TypeId) :
    (ws.resolveConstantAs e t).Traces e.nodes ws := by
  refine (ws.resolveConstant_traces e).andThen fun v => ?_
  split
  · exact .answer _ _ _
  · exact .fail _ _ e rfl

end Workspace

theorem Query.outcome_traces (q : Query) (ws : Workspace) :
    (q.outcome ws).Traces q.expr.nodes ws := by
  have self (e : Expr) : [e.node.id] ⊆ e.nodes := by simpa using e.node_mem_nodes
  cases q with
  | lexical e wanted => exact (ws.resolveLexical_traces e wanted).mono (self e)
  | reference object e wanted => exact (ws.resolveReference_traces object e wanted).mono (self e)
  | member e wanted => exact ws.resolveMember_traces wanted e
  | withMember e => exact (ws.resolveWithMember_traces e).mono (self e)
  | type e => exact ws.resolveType_traces e
  | constant e => exact ws.resolveConstant_traces e
  | constantAs e t => exact ws.resolveConstantAs_traces e t

end StaticSemantics
