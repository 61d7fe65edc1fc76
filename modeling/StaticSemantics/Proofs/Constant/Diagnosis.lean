import StaticSemantics.Proofs.Reporting.Cascade
import StaticSemantics.Proofs.Reporting.Rerun

/-!
What is said of an expression that is no constant, if its nodes are distinct and new to the session.
An expression that folds is passed without a word. Otherwise folding stops at one sub-expression,
the first whose operands fold while it does not. There is one problem: that it is no constant, or
what was wrong with its name. Two kinds of member fall out of this. Nothing is said of a member of
something that is no name; and where the base of a member comes out as an error symbol, the problem
of the base is followed by a second one at the member.
-/

namespace StaticSemantics

namespace Expr

/-- A name, or a chain of members that starts with one. -/
def isNamed : Expr → Bool
  | ident .. | withMember .. => true
  | member _ base _ | parens _ base => base.isNamed
  | _ => false

/-- A name or a member. -/
def isReference : Expr → Bool
  | ident .. | withMember .. | member .. => true
  | _ => false

/-- A member of something that is no name. -/
def lacksName : Expr → Bool
  | member _ base _ => !base.isNamed
  | _ => false

end Expr

namespace Workspace

variable {ws ws' : Workspace} {nodes nodes' : List Nat}

/-- The nodes have no answers. -/
def Fresh (ws : Workspace) (nodes : List Nat) : Prop :=
  ∀ n ∈ nodes, ∀ wanted, ws.answer? n wanted = none

theorem Fresh.mono (h : ws.Fresh nodes') (hn : nodes ⊆ nodes') : ws.Fresh nodes :=
  fun n hm => h n (hn hm)

/-- Answers at other nodes do not matter. -/
theorem Fresh.of_evolves (h : ws.Fresh nodes) (he : ws.Evolves nodes' ws')
    (hd : nodes.Disjoint nodes') : ws'.Fresh nodes :=
  fun n hn wanted => (he.outside n (fun hn' => hd hn hn') wanted).trans (h n hn wanted)

/-! ## Chains of members -/

theorem resolveMember_of_not_isNamed (ws : Workspace) (wanted : Wanted) {e : Expr}
    (h : e.isNamed = false) : ws.resolveMember wanted e = ws.refuse := by
  induction e generalizing wanted with
  | ident | withMember => cases h
  | member node base name ih =>
      rw [resolveMember, ih .anything h]
      rfl
  | parens node inner ih => exact ih wanted h
  | literal | unary | binary | nullable | tuple => rfl

theorem resolveWithMember_single {e : Expr} {name : String} (hn : e.name? = some name)
    (ha : ws.answer? e.node.id .anything = none) :
    (ws.resolveWithMember e).Single e.node.id := by
  cases hv : ws.withTarget? with
  | none => exact resolveWithMember_single_of_none hv
  | some v =>
      rw [ws.resolveWithMember_of_target e hv]
      exact resolveReference_single hn ha rfl

/-- The base of a member gives the member no answer. -/
theorem answer?_of_base {node : Node} {base : Expr} {name : String}
    (hn : (Expr.member node base name).nodes.Nodup)
    (hf : ws.Fresh (Expr.member node base name).nodes) (wanted : Wanted) :
    (ws.resolveMember .anything base).workspace.answer? node.id wanted = none :=
  ((ws.resolveMember_traces .anything base).evolves.outside node.id (List.nodup_cons.mp hn).1
    wanted).trans (hf node.id List.mem_cons_self wanted)

/-- A chain over fresh nodes is found as a whole, or one of its nodes has a problem. -/
theorem resolveMember_single (wanted : Wanted) {e : Expr} (he : e.isNamed) (hn : e.nodes.Nodup)
    (hf : ws.Fresh e.nodes) : ∃ node ∈ e.nodes, (ws.resolveMember wanted e).Single node := by
  induction e generalizing wanted with
  | ident node name =>
      have ha := hf node.id List.mem_cons_self wanted
      exact ⟨node.id, List.mem_cons_self, resolveLexical_single (e := .ident node name) rfl ha⟩
  | withMember node name =>
      have ha := hf node.id List.mem_cons_self .anything
      exact ⟨node.id, List.mem_cons_self,
        resolveWithMember_single (e := .withMember node name) rfl ha⟩
  | parens node inner ih =>
      obtain ⟨n, hm, hs⟩ := ih wanted he (List.nodup_cons.mp hn).2
        (hf.mono (List.subset_cons_self _ _))
      exact ⟨n, List.mem_cons_of_mem _ hm, hs⟩
  | member node base name ih =>
      obtain ⟨n, hm, hs⟩ := ih .anything he (List.nodup_cons.mp hn).2
        (hf.mono (List.subset_cons_self _ _))
      have ha := answer?_of_base hn hf wanted
      rw [resolveMember]
      cases hs with
      | @found object hr hrep hfind =>
          rw [Outcome.andThen_of_some hr, hfind]
          exact ⟨node.id, List.mem_cons_self,
            resolveReference_single (e := .member node base name) rfl ha hrep⟩
      | failed hr hfind =>
          rw [Outcome.andThen_of_none hr]
          exact ⟨n, List.mem_cons_of_mem _ hm, .failed rfl hfind⟩
      | @erred err p hr herr hfind =>
          rw [Outcome.andThen_of_some hr, hfind,
            resolveReference_of_isError _ (.member node base name) wanted (.error err) ha rfl]
          exact ⟨n, List.mem_cons_of_mem _ hm, .erred rfl herr rfl⟩
  | literal | unary | binary | nullable | tuple => cases he

/-! ## Where folding stops -/

/-- Folding an expression, in the first workspace, stops without a value at a sub-expression that is
reached in the second. All operands of the sub-expression fold. -/
inductive FailsAt : Workspace → Expr → Workspace → Expr → Prop where
  | reference {ws : Workspace} {e : Expr} (he : e.isReference)
      (hr : (ws.resolveConstant e).result = none) : FailsAt ws e ws e
  | nullable {ws : Workspace} {node : Node} {inner : Expr} :
      FailsAt ws (.nullable node inner) ws (.nullable node inner)
  | tuple {ws : Workspace} {node : Node} {elements : List Expr} :
      FailsAt ws (.tuple node elements) ws (.tuple node elements)
  | parens {ws ws' : Workspace} {node : Node} {inner e' : Expr} (h : FailsAt ws inner ws' e') :
      FailsAt ws (.parens node inner) ws' e'
  | operand {ws ws' : Workspace} {node : Node} {op : Operator} {operand e' : Expr}
      (h : FailsAt ws operand ws' e') : FailsAt ws (.unary node op operand) ws' e'
  | unary {ws : Workspace} {node : Node} {op : Operator} {operand : Expr} {v : Value}
      (hv : (ws.resolveConstant operand).result = some v) (hf : Folding.unary? op v = none) :
      FailsAt ws (.unary node op operand) (ws.resolveConstant operand).workspace
        (.unary node op operand)
  | left {ws ws' : Workspace} {node : Node} {op : Operator} {left right e' : Expr}
      (h : FailsAt ws left ws' e') : FailsAt ws (.binary node op left right) ws' e'
  | right {ws ws' : Workspace} {node : Node} {op : Operator} {left right e' : Expr} {v : Value}
      (hv : (ws.resolveConstant left).result = some v)
      (h : FailsAt (ws.resolveConstant left).workspace right ws' e') :
      FailsAt ws (.binary node op left right) ws' e'
  | binary {ws ws' ws'' : Workspace} {node : Node} {op : Operator} {left right : Expr}
      {v u : Value} (hw' : ws' = (ws.resolveConstant left).workspace)
      (hw'' : ws'' = (ws'.resolveConstant right).workspace)
      (hv : (ws.resolveConstant left).result = some v)
      (hu : (ws'.resolveConstant right).result = some u)
      (hf : Folding.binary? ws''.table op v u = none) :
      FailsAt ws (.binary node op left right) ws'' (.binary node op left right)

/-- The expression is a member whose base comes out as an error symbol with a problem. -/
def baseFails (ws : Workspace) : Expr → Bool
  | .member _ base _ => (ws.resolveMember .anything base).result.any Symbol.isReported
  | _ => false

/-- What is recorded when folding stops at an expression: nothing if it is a member of something
that is no name; both problems if it is a member whose base fails; otherwise one problem, which is
that of its name or else that it is no constant. -/
structure Diagnosed (ws : Workspace) (e : Expr) (recorded : List Problem) : Prop where
  silent : e.lacksName → recorded = []
  twice : ws.baseFails e → ∃ node p, (ws.resolveMember .anything e).findings = [⟨node, p⟩] ∧
    recorded = [p, .atNode .notAConstant e.node]
  once : e.lacksName = false → ws.baseFails e = false → ∃ p, recorded = [p] ∧
    ((ws.resolveMember .anything e).findings = [] ∧ p = .atNode .notAConstant e.node ∨
      ∃ node, (ws.resolveMember .anything e).findings = [⟨node, p⟩])

/-- An operator or a type expression has no other problem than to be no constant. -/
theorem diagnosed_of_not_isReference (ws : Workspace) {e : Expr} (hr : e.isReference = false)
    (hf : (ws.resolveMember .anything e).findings = []) :
    ws.Diagnosed e [.atNode .notAConstant e.node] := by
  refine ⟨fun h => ?_, fun h => ?_, fun _ _ => ⟨_, rfl, .inl ⟨hf, rfl⟩⟩⟩
  · cases e <;> simp_all [Expr.isReference, Expr.lacksName]
  · cases e <;> simp_all [Expr.isReference, baseFails]

end Workspace

/-! ## Outcomes explained -/

/-- The outcome finds nothing beside a value; without one, what a session records of its findings,
all at the given nodes, is described by `said`. -/
structure Outcome.Explained (nodes : List Nat) (said : List Problem → Prop) (o : Outcome Value) :
    Prop where
  within : ∀ f ∈ o.findings, f.node ∈ nodes
  clean : ∀ v, o.result = some v → o.findings = []
  failure : o.result = none → said ((unreported [] o.findings).map Finding.problem)

namespace Outcome.Explained

variable {nodes nodes' : List Nat} {said said' : List Problem → Prop} {o : Outcome Value}

theorem mono (h : o.Explained nodes said) (hn : nodes ⊆ nodes')
    (hs : o.result = none → ∀ l, said l → said' l) : o.Explained nodes' said' :=
  ⟨fun f hf => hn (h.within f hf), h.clean, fun hr => hs hr _ (h.failure hr)⟩

theorem of_none (hr : o.result = none) (hw : ∀ f ∈ o.findings, f.node ∈ nodes)
    (hs : said ((unreported [] o.findings).map Finding.problem)) : o.Explained nodes said := by
  refine ⟨hw, fun v hv => ?_, fun _ => hs⟩
  rw [hr] at hv
  cases hv

theorem answer (ws : Workspace) (v : Value) : (ws.answer v).Explained nodes said := by
  refine ⟨List.forall_mem_nil _, fun _ _ => rfl, fun hr => ?_⟩
  cases hr

theorem failAsConstant (ws : Workspace) {e : Expr} (he : e.node.id ∈ nodes)
    (hs : said [.atNode .notAConstant e.node]) :
    (ws.failAsConstant e : Outcome Value).Explained nodes said :=
  .of_none rfl (by simpa [Workspace.failAsConstant, Workspace.fail] using he) hs

theorem answerConstant (ws : Workspace) {e : Expr} {fold : Option Value} (he : e.node.id ∈ nodes)
    (hs : fold = none → said [.atNode .notAConstant e.node]) :
    (ws.answerConstant e fold).Explained nodes said := by
  cases fold with
  | some v => exact .answer ws v
  | none => exact .failAsConstant ws he (hs rfl)

theorem andThen {next : Value → Workspace → Outcome Value} (h : o.Explained nodes said)
    (hn : ∀ v, o.result = some v → (next v o.workspace).Explained nodes said) :
    (o.andThen next).Explained nodes said := by
  cases hr : o.result with
  | none =>
      rw [Outcome.andThen_of_none hr]
      exact .of_none rfl h.within (h.failure hr)
  | some v =>
      rw [Outcome.andThen_of_some hr, h.clean v hr]
      exact hn v hr

end Outcome.Explained

/-! ## Names that must stand for constants -/

namespace Workspace

variable {ws : Workspace}

/-- A node has one problem: that of its name, or else that its symbol is no constant. -/
theorem answerConstant_of_single {o : Outcome Symbol} {e : Expr} (h : o.Single e.node.id) :
    (o.andThen fun a ws => ws.answerConstant e (ws.table.constantOf? a)).Explained [e.node.id]
      fun recorded => ∃ p, recorded = [p] ∧
        (o.findings = [] ∧ p = .atNode .notAConstant e.node ∨ o.findings = [⟨e.node.id, p⟩]) := by
  cases h with
  | @found a hr _ hf =>
      rw [Outcome.andThen_of_some hr, hf]
      exact .answerConstant o.workspace List.mem_cons_self fun _ => ⟨_, rfl, .inl ⟨rfl, rfl⟩⟩
  | @failed p hr hf =>
      rw [Outcome.andThen_of_none hr, hf]
      exact .of_none rfl (by simp) ⟨p, rfl, .inr rfl⟩
  | @erred err p hr _ hf =>
      -- the error symbol is no constant, but its node has a problem already
      rw [Outcome.andThen_of_some hr, hf]
      refine .of_none rfl ?_ ⟨p, ?_, .inr rfl⟩
      · simp [SymbolTable.constantOf?, answerConstant, failAsConstant, fail]
      · simp [SymbolTable.constantOf?, answerConstant, failAsConstant, fail, unreported]

section Member

variable {node : Node} {base : Expr} {name : String}

/-- Nobody speaks of the base, nor of the member. -/
theorem resolveConstantMember_of_not_isNamed (h : base.isNamed = false) :
    (ws.resolveConstantMember (.member node base name) base name).Explained
      (Expr.member node base name).nodes (ws.Diagnosed (.member node base name)) := by
  have hb := ws.resolveMember_of_not_isNamed .anything h
  have hr : (ws.resolveMember .anything base).result = none := by rw [hb]; rfl
  rw [resolveConstantMember_of_none node name hr (by rw [hb]; exact hb), hb]
  refine .of_none rfl (List.forall_mem_nil _) ⟨fun _ => rfl, fun ht => ?_, fun ho => ?_⟩
  · simp [baseFails, hr] at ht
  · simp [Expr.lacksName, h] at ho

variable (hnamed : base.isNamed) (hn : (Expr.member node base name).nodes.Nodup)

include hnamed in
theorem diagnosed_member_once {p : Problem} (hb : ws.baseFails (.member node base name) = false)
    (hp : (ws.resolveMember .anything (.member node base name)).findings = [] ∧
        p = .atNode .notAConstant node ∨
      ∃ n, (ws.resolveMember .anything (.member node base name)).findings = [⟨n, p⟩]) :
    ws.Diagnosed (.member node base name) [p] := by
  refine ⟨fun h => ?_, fun h => ?_, fun _ _ => ⟨p, rfl, hp⟩⟩
  · simp [Expr.lacksName, hnamed] at h
  · rw [hb] at h
    cases h

include hnamed hn

/-- The base fails, and fails again in the same way. -/
theorem resolveConstantMember_of_failed {n : Nat} {p : Problem} (hm : n ∈ base.nodes)
    (hr : (ws.resolveMember .anything base).result = none)
    (hfind : (ws.resolveMember .anything base).findings = [⟨n, p⟩]) :
    (ws.resolveConstantMember (.member node base name) base name).Explained
      (Expr.member node base name).nodes (ws.Diagnosed (.member node base name)) := by
  obtain ⟨again, ⟨errors, hsplit, -⟩, -, hagain⟩ :=
    (ws.resolveMember_replays .anything base (List.nodup_cons.mp hn).2).failure hr
  dsimp only at hsplit hagain
  rw [hr] at hagain
  have hsub : again ⊆ [⟨n, p⟩] := by
    rw [← hfind, hsplit]
    exact List.subset_append_right _ _
  rw [resolveConstantMember_of_none node name hr hagain, hfind]
  refine .of_none rfl (fun f hfp => ?_) ?_
  · have hfn : f ∈ [(⟨n, p⟩ : Finding)] := (List.mem_append.mp hfp).elim id fun h => hsub h
    rw [List.mem_singleton.mp hfn]
    exact List.mem_cons_of_mem _ hm
  · dsimp only
    rw [unreported_again _ _ hsub]
    refine diagnosed_member_once hnamed (by simp [baseFails, hr]) (.inr ⟨n, ?_⟩)
    rw [resolveMember, Outcome.andThen_of_none hr]
    exact hfind

variable (hf : ws.Fresh (Expr.member node base name).nodes)

include hf

/-- The base is found, and the member may fail by itself. -/
theorem resolveConstantMember_of_found {object : Symbol}
    (hr : (ws.resolveMember .anything base).result = some object)
    (hrep : object.isReported = false)
    (hfind : (ws.resolveMember .anything base).findings = []) :
    (ws.resolveConstantMember (.member node base name) base name).Explained
      (Expr.member node base name).nodes (ws.Diagnosed (.member node base name)) := by
  have hagain := ((ws.resolveMember_replays .anything base
    (List.nodup_cons.mp hn).2).success object hr).2 _ (.refl _ _)
  rw [resolveConstantMember_of_some node name hr hagain, Outcome.andThen_of_some hr, hfind]
  show (resolveConstantOf _ _ name object).Explained _ _
  unfold resolveConstantOf
  split
  · exact .answer _ _
  · have hsingle := resolveReference_single (e := .member node base name) rfl
      (answer?_of_base hn hf .anything) hrep
    refine (answerConstant_of_single hsingle).mono (by simp [Expr.nodes, Expr.node]) ?_
    rintro - _ ⟨p, rfl, hp⟩
    refine diagnosed_member_once hnamed (by simp [baseFails, hr, hrep]) ?_
    rw [resolveMember, Outcome.andThen_of_some hr, hfind]
    exact hp.imp id fun h => ⟨_, h⟩

/-- The base comes out as an error symbol. Its problem is followed by one at the member. -/
theorem resolveConstantMember_of_erred {n : Nat} {p : Problem} {err : SymbolError}
    (hm : n ∈ base.nodes) (hr : (ws.resolveMember .anything base).result = some (.error err))
    (herr : err.isReported) (hfind : (ws.resolveMember .anything base).findings = [⟨n, p⟩]) :
    (ws.resolveConstantMember (.member node base name) base name).Explained
      (Expr.member node base name).nodes (ws.Diagnosed (.member node base name)) := by
  obtain ⟨hnode, hbase⟩ := List.nodup_cons.mp hn
  have hhanded := resolveReference_of_isError (ws.resolveMember .anything base).workspace
    (.member node base name) .anything (.error err) (answer?_of_base hn hf .anything) rfl
  have hagain := ((ws.resolveMember_replays .anything base hbase).success _ hr).2 _ (.refl _ _)
  have hrun : ws.resolveConstantMember (.member node base name) base name =
      ⟨none, (ws.resolveMember .anything base).workspace,
        [⟨n, p⟩, ⟨node.id, .atNode .notAConstant node⟩]⟩ := by
    rw [resolveConstantMember_of_some node name hr hagain, Outcome.andThen_of_some hr, hfind]
    simp only [resolveConstantOf, Symbol.type?, Option.bind_none, hhanded, answer_andThen]
    rfl
  have hne : node.id ≠ n := fun h => hnode (h ▸ hm)
  rw [hrun]
  refine .of_none rfl ?_ ⟨fun h => ?_, fun _ => ⟨n, p, ?_, ?_⟩, fun _ h => ?_⟩
  · simpa [Expr.nodes] using Or.inr hm
  · simp [Expr.lacksName, hnamed] at h
  · rw [resolveMember, Outcome.andThen_of_some hr, hhanded, hfind]
    rfl
  · simp [unreported, hne, Expr.node]
  · simp [baseFails, hr, Symbol.isReported, herr] at h

end Member

theorem resolveConstant_reference {e : Expr} (he : e.isReference) (hn : e.nodes.Nodup)
    (hf : ws.Fresh e.nodes) : (ws.resolveConstant e).Explained e.nodes (ws.Diagnosed e) := by
  -- a name that is no member has no base to fail
  have plainName : ∀ {e : Expr}, e.lacksName = false → ws.baseFails e = false →
      (ws.resolveMember .anything e).Single e.node.id → (ws.resolveConstantName e).Explained
        [e.node.id] (ws.Diagnosed e) := by
    intro e hl hb hs
    refine (answerConstant_of_single hs).mono (List.Subset.refl _) ?_
    rintro - _ ⟨p, rfl, hp⟩
    refine ⟨fun h => ?_, fun h => ?_, fun _ _ => ⟨p, rfl, hp.imp id fun h => ⟨_, h⟩⟩⟩
    · rw [hl] at h
      cases h
    · rw [hb] at h
      cases h
  cases e with
  | ident node name =>
      have ha := hf node.id List.mem_cons_self .anything
      exact plainName rfl rfl (resolveLexical_single (e := .ident node name) rfl ha)
  | withMember node name =>
      have ha := hf node.id List.mem_cons_self .anything
      exact plainName rfl rfl (resolveWithMember_single (e := .withMember node name) rfl ha)
  | member node base name =>
      cases hnamed : base.isNamed with
      | false => exact resolveConstantMember_of_not_isNamed hnamed
      | true =>
          obtain ⟨n, hm, hs⟩ := ws.resolveMember_single .anything hnamed (List.nodup_cons.mp hn).2
            (hf.mono (List.subset_cons_self _ _))
          cases hs with
          | found hr hrep hfind => exact resolveConstantMember_of_found hnamed hn hf hr hrep hfind
          | failed hr hfind => exact resolveConstantMember_of_failed hnamed hn hm hr hfind
          | erred hr herr hfind =>
              exact resolveConstantMember_of_erred hnamed hn hf hm hr herr hfind
  | literal | parens | unary | binary | nullable | tuple => cases he

/-! ## Expressions -/

/-- Folding stops at a sub-expression, and what is recorded is said of that one. -/
def Stops (ws : Workspace) (e : Expr) (recorded : List Problem) : Prop :=
  ∃ ws' e', ws.FailsAt e ws' e' ∧ ws'.Diagnosed e' recorded

/-- Where folding an operand stops, folding the whole stops. -/
theorem explained_of_operand {o : Outcome Value} {ws' : Workspace} {e e' : Expr}
    (h : o.Explained e'.nodes (ws'.Stops e')) (hn : e'.nodes ⊆ e.nodes)
    (hat : ∀ {ws'' e''}, ws'.FailsAt e' ws'' e'' → ws.FailsAt e ws'' e'') :
    o.Explained e.nodes (ws.Stops e) := by
  refine h.mono hn fun _ recorded hs => ?_
  obtain ⟨ws'', e'', hf, hd⟩ := hs
  exact ⟨ws'', e'', hat hf, hd⟩

theorem resolveConstant_explained {e : Expr} (hn : e.nodes.Nodup) (hf : ws.Fresh e.nodes) :
    (ws.resolveConstant e).Explained e.nodes (ws.Stops e) := by
  have reference : ∀ {ws : Workspace} {e : Expr}, e.isReference → e.nodes.Nodup →
      ws.Fresh e.nodes → (ws.resolveConstant e).Explained e.nodes (ws.Stops e) :=
    fun {ws e} he hn hf => (resolveConstant_reference he hn hf).mono (List.Subset.refl _)
      fun hr _ hl => ⟨ws, e, .reference he hr, hl⟩
  induction e generalizing ws with
  | ident | withMember | member => exact reference rfl hn hf
  | literal node l => exact .answer ws l.value
  | parens node inner ih =>
      have hi := ih (List.nodup_cons.mp hn).2 (hf.mono (List.subset_cons_self _ _))
      exact explained_of_operand hi (List.subset_cons_self _ _) .parens
  | unary node op operand ih =>
      have ho := ih (List.nodup_cons.mp hn).2 (hf.mono (List.subset_cons_self _ _))
      refine Outcome.Explained.andThen
        (explained_of_operand ho (List.subset_cons_self _ _) .operand) fun v hv => ?_
      exact .answerConstant _ List.mem_cons_self fun hfold =>
        ⟨_, _, .unary hv hfold, diagnosed_of_not_isReference _ rfl rfl⟩
  | binary node op left right ihl ihr =>
      obtain ⟨hnl, hnr, hd⟩ := List.nodup_append'.mp (List.nodup_cons.mp hn).2
      have hl := ihl hnl (hf.mono (by simp [Expr.nodes]))
      refine Outcome.Explained.andThen
        (explained_of_operand hl (by simp [Expr.nodes]) .left) fun v hv => ?_
      -- the left operand has given answers at its own nodes only
      have hfr : (ws.resolveConstant left).workspace.Fresh right.nodes :=
        Fresh.of_evolves (hf.mono (by simp [Expr.nodes])) (ws.resolveConstant_traces left).evolves
          fun _ hr hl => hd hl hr
      refine Outcome.Explained.andThen
        (explained_of_operand (ihr hnr hfr) (by simp [Expr.nodes]) (.right hv)) fun u hu => ?_
      exact .answerConstant _ List.mem_cons_self fun hfold =>
        ⟨_, _, .binary rfl rfl hv hu hfold, diagnosed_of_not_isReference _ rfl rfl⟩
  | nullable node inner =>
      exact .failAsConstant ws List.mem_cons_self
        ⟨ws, _, .nullable, ws.diagnosed_of_not_isReference rfl rfl⟩
  | tuple node elements =>
      exact .failAsConstant ws List.mem_cons_self
        ⟨ws, _, .tuple, ws.diagnosed_of_not_isReference rfl rfl⟩

end Workspace

namespace Session

/-- Under a context that reports, over distinct nodes that have neither answers nor problems, a
constant expression that folds records nothing. One that does not stops at a sub-expression, and is
diagnosed there: with one problem, that the sub-expression is no constant or what is wrong with its
name. Only a member of something that is no name goes without a problem, and only a member whose
base is an error symbol is given a second one. -/
theorem constant_diagnosed (s : Session) (ctx : Context) (e : Expr) (hreport : ctx.report)
    (hn : e.nodes.Nodup) (hf : s.workspace.Fresh e.nodes) (hs : ∀ n ∈ e.nodes, n ∉ s.reported) :
    (∀ v, (s.resolveConstant ctx e).1 = some v →
      (s.resolveConstant ctx e).2.problems = s.problems) ∧
    ((s.resolveConstant ctx e).1 = none → ∃ ws e' recorded,
      s.workspace.FailsAt e ws e' ∧
      (s.resolveConstant ctx e).2.problems = s.problems ++ recorded ∧
      ws.Diagnosed e' recorded) := by
  have h := s.workspace.resolveConstant_explained hn hf
  have hrun : s.resolveConstant ctx e = ((s.workspace.resolveConstant e).result,
      { s with workspace := (s.workspace.resolveConstant e).workspace }.record
        (unreported [] (s.workspace.resolveConstant e).findings)) := by
    have hnew : ∀ f ∈ (s.workspace.resolveConstant e).findings, f.node ∉ s.reported :=
      fun f hm => hs f.node (h.within f hm)
    have hseen := unreported_append_seen [] (s.workspace.resolveConstant e).findings hnew
    have hr := run_eq_record (.constant e) s ctx
    simp only [recordable, if_pos hreport] at hr
    rw [← hseen]
    exact hr
  rw [hrun]
  constructor
  · intro v hv
    simp [record, h.clean v hv, unreported]
  · intro hnone
    obtain ⟨ws, e', hat, hd⟩ := h.failure hnone
    exact ⟨ws, e', _, hat, rfl, hd⟩

/-- A conjunction whose second operand is a member of an ambiguous name. -/
def ambiguousConstant : Expr :=
  .binary { id := 5 } .and (.unary { id := 4 } .not (.literal { id := 3 } (.boolean true)))
    (.member { id := 2 } (.ident { id := 1 } "size") "first")

/-- A member of an ambiguous name has two problems, a member of a literal has none. -/
theorem constant_diagnosed_ambiguousConstant :
    let s : Session := performAll {} ambiguousImports
    let literal : Expr := .member { id := 2 } (.literal { id := 1 } (.string "abc")) "Length"
    ambiguousConstant.nodes.Nodup ∧ s.reported = [] ∧
      (s.resolveConstant {} ambiguousConstant).1 = none ∧
      (s.resolveConstant {} ambiguousConstant).2.problems.map Problem.id =
        [.ambiguousReference, .notAConstant] ∧
      (∃ ws e' recorded, s.workspace.FailsAt ambiguousConstant ws e' ∧
        (s.resolveConstant {} ambiguousConstant).2.problems = s.problems ++ recorded ∧
        ws.Diagnosed e' recorded) ∧
      (s.resolveConstant {} literal).1 = none ∧
      (s.resolveConstant {} literal).2.problems = [] := by
  intro s literal
  have hanswers : s.workspace.answers = [] := by decide +kernel
  have hreported : s.reported = [] := by decide +kernel
  have hn : ambiguousConstant.nodes.Nodup := by decide +kernel
  have hnone : (s.resolveConstant {} ambiguousConstant).1 = none := by decide +kernel
  have hf : s.workspace.Fresh ambiguousConstant.nodes := fun n _ wanted => by
    simp [Workspace.answer?, hanswers]
  obtain ⟨-, hd⟩ := constant_diagnosed s {} ambiguousConstant rfl hn hf (by simp [hreported])
  exact ⟨hn, hreported, hnone, by decide +kernel, hd hnone, by decide +kernel, by decide +kernel⟩

end Session
end StaticSemantics
